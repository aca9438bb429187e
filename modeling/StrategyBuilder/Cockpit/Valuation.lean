import Mathlib.Algebra.Order.Ring.Rat
import StrategyBuilder.Lib.Js

/-!
# The value of a vault

`valuation.service.ts` with the types of `protocol-adapter.ts`: the idle tokens, the gas reserve and the
positions of every protocol adapter, and their sum. Each adapter is asked twice, for the tokens it claims
and for its positions; a call that fails (`none`) is replaced on its own. Claimed tokens are not idle.

The short cache is left out: it hands out an earlier answer. Amounts in USD are rationals.

A token is counted twice exactly if an adapter's positions are read, its claimed tokens are not, and
nothing else keeps the token out of the idle ones (`counted_once_iff`).
-/

set_option autoImplicit false

namespace StrategyBuilder.Cockpit

open StrategyBuilder.Lib.Js

/-! ## Positions -/

/-- A token of a position. -/
structure PositionLeg where
  token : String
  symbol : String
  decimals : Nat
  amount : String
  amountUsd : Option Rat
  isDebt : Bool := false
deriving DecidableEq, Repr

/-- A position with its value, or the error of a part that could not be read. -/
structure ValuedPosition where
  protocol : String
  kind : String
  label : String
  legs : List PositionLeg
  valueUsd : Option Rat
  debtUsd : Option Rat := none
  earningsUsd : Option Rat := none
  error : Option String := none
deriving DecidableEq, Repr

/-- A vault with all its positions. -/
structure ValuedVault where
  vaultAddress : String
  positions : List ValuedPosition
  totalValueUsd : Rat
deriving DecidableEq, Repr

/-- Where a price comes from. -/
inductive PriceSource where
  | alchemy
  | defiLlama
  | unavailable
deriving DecidableEq, Repr

/-- A token of the portfolio. -/
structure PortfolioPosition where
  address : String
  symbol : String
  name : String
  decimals : Nat
  balance : String
  priceUsd : Option Rat
  valueUsd : Option Rat
  priceSource : PriceSource
deriving DecidableEq, Repr

/-- The token that pays for executions. -/
structure GasToken where
  address : String
  symbol : String
  decimals : Nat
deriving DecidableEq, Repr

/-- What `getVaultGasDeposit` answers. -/
structure VaultGasDeposit where
  enabled : Bool
  token : Option GasToken
  deposited : Nat
  minFeeDeposit : Nat
deriving DecidableEq, Repr

/-! ## The calls of one valuation -/

/-- What an adapter answers. -/
structure AdapterRead where
  protocol : String
  claimedTokens : Option (List String)
  getPositions : Option (List ValuedPosition)

/-- All that is read for a vault. `prices` is `getPrices`, which answers without the price where it
fails. -/
structure VaultReads where
  adapters : List AdapterRead
  portfolio : Option (List PortfolioPosition)
  gasDeposit : Option VaultGasDeposit
  prices : Map String Rat

/-! ## The service -/

/-- The row of an adapter whose positions are not read. -/
def adapterError (protocol : String) : ValuedPosition where
  protocol := protocol
  kind := "error"
  label := protocol
  legs := []
  valueUsd := none
  error := some ("Failed to read " ++ protocol ++ " positions")

/-- `claimed` and `adapterPositions` after one more adapter. -/
def readAdapter (s : List String × List ValuedPosition) (adapter : AdapterRead) :
    List String × List ValuedPosition :=
  let claimed := match adapter.claimedTokens with
    | some tokens => s.1 ++ tokens.map String.toLower
    | none => s.1
  let positions := match adapter.getPositions with
    | some positions => s.2 ++ positions
    | none => s.2 ++ [adapterError adapter.protocol]
  (claimed, positions)

/-- All adapters in order: the claimed tokens, and the positions. -/
def readAdapters (adapters : List AdapterRead) : List String × List ValuedPosition :=
  adapters.foldl readAdapter ([], [])

/-- A balance that no protocol claims. -/
def idlePosition (p : PortfolioPosition) : ValuedPosition where
  protocol := "idle"
  kind := "token"
  label := p.symbol
  legs := [{
    token := p.address
    symbol := p.symbol
    decimals := p.decimals
    amount := p.balance
    amountUsd := p.valueUsd }]
  valueUsd := p.valueUsd

/-- What stands for the balances if they could not be read. -/
def idleError : ValuedPosition where
  protocol := "idle"
  kind := "error"
  label := "Idle balances"
  legs := []
  valueUsd := none
  error := some "Failed to read idle balances"

/-- Idle token balances, excluding anything an adapter claims. -/
def idlePositions (portfolio : Option (List PortfolioPosition)) (claimed : List String) :
    List ValuedPosition :=
  match portfolio with
  | some positions => (positions.filter fun p => p.address.toLower ∉ claimed).map idlePosition
  | none => [idleError]

/-- What stands for the deposit at the registry if it could not be read. -/
def gasReserveError : ValuedPosition where
  protocol := "gas-reserve"
  kind := "error"
  label := "Gas reserve"
  legs := []
  valueUsd := none
  error := some "Failed to read gas reserve"

/-- The deposit for gas compensation. -/
def gasReservePosition (gasDeposit : Option VaultGasDeposit) (prices : Map String Rat) :
    Option ValuedPosition :=
  match gasDeposit with
  | none => some gasReserveError
  | some gas =>
      match gas.token with
      | none => none
      | some token =>
          if gas.enabled = false ∨ gas.deposited = 0 then none
          else
            let human : Rat := gas.deposited / 10 ^ token.decimals
            let valueUsd := (prices token.address).map fun price => human * price
            some {
              protocol := "gas-reserve"
              kind := "gas-reserve"
              label := "Gas reserve"
              legs := [{
                token := token.address
                symbol := token.symbol
                decimals := token.decimals
                amount := toString gas.deposited
                amountUsd := valueUsd }]
              valueUsd := valueUsd }

/-- `valueVault`: the positions of a vault, and the sum of the values that are known. -/
def valueVault (vaultAddress : String) (reads : VaultReads) : ValuedVault :=
  let (claimed, adapterPositions) := readAdapters reads.adapters
  let positions := idlePositions reads.portfolio claimed ++
    ((gasReservePosition reads.gasDeposit reads.prices).toList ++ adapterPositions)
  { vaultAddress := vaultAddress
    positions := positions
    totalValueUsd := positions.foldl (fun sum p => sum + p.valueUsd.getD 0) 0 }

/-! ## What the loop over the adapters collects -/

/-- The lower-case tokens that an adapter is known to claim. -/
def AdapterRead.claimed (adapter : AdapterRead) : List String :=
  (adapter.claimedTokens.getD []).map String.toLower

/-- The positions of an adapter, or its error row. -/
def AdapterRead.positions (adapter : AdapterRead) : List ValuedPosition :=
  adapter.getPositions.getD [adapterError adapter.protocol]

/-- An adapter adds what it claims and what it holds. -/
theorem readAdapter_eq (s : List String × List ValuedPosition) (adapter : AdapterRead) :
    readAdapter s adapter = (s.1 ++ adapter.claimed, s.2 ++ adapter.positions) := by
  rw [readAdapter, AdapterRead.claimed, AdapterRead.positions]
  cases adapter.claimedTokens with
  | none =>
    rw [Option.getD_none, List.map_nil, List.append_nil]
    cases adapter.getPositions <;> rfl
  | some tokens => cases adapter.getPositions <;> rfl

/-- All adapters add what each claims and holds. -/
theorem readAdapters_eq (adapters : List AdapterRead) :
    readAdapters adapters =
      (adapters.flatMap AdapterRead.claimed, adapters.flatMap AdapterRead.positions) := by
  have hfold (adapters : List AdapterRead) (s : List String × List ValuedPosition) :
      adapters.foldl readAdapter s = (s.1 ++ adapters.flatMap AdapterRead.claimed,
        s.2 ++ adapters.flatMap AdapterRead.positions) := by
    induction adapters generalizing s with
    | nil => simp
    | cons adapter adapters ih =>
      rw [List.foldl_cons, ih, readAdapter_eq]
      simp only [List.flatMap_cons, List.append_assoc]
  rw [readAdapters, hfold, List.nil_append, List.nil_append]

/-- The claimed tokens of a valuation. -/
def VaultReads.claimed (reads : VaultReads) : List String :=
  reads.adapters.flatMap AdapterRead.claimed

/-- The idle tokens of a valuation. -/
def VaultReads.idle (reads : VaultReads) : List ValuedPosition :=
  idlePositions reads.portfolio reads.claimed

/-- The positions of all adapters. -/
def VaultReads.protocolPositions (reads : VaultReads) : List ValuedPosition :=
  reads.adapters.flatMap AdapterRead.positions

/-- The positions that are added up. -/
theorem valueVault_positions (vaultAddress : String) (reads : VaultReads) :
    (valueVault vaultAddress reads).positions = reads.idle ++
      ((gasReservePosition reads.gasDeposit reads.prices).toList ++ reads.protocolPositions) := by
  simp only [valueVault, readAdapters_eq]
  rfl

/-- The total is the sum of the values that the positions have. -/
theorem valueVault_total (vaultAddress : String) (reads : VaultReads) :
    (valueVault vaultAddress reads).totalValueUsd =
      ((valueVault vaultAddress reads).positions.map fun p => p.valueUsd.getD 0).sum := by
  have hfold (positions : List ValuedPosition) (start : Rat) :
      positions.foldl (fun sum p => sum + p.valueUsd.getD 0) start =
        start + (positions.map fun p => p.valueUsd.getD 0).sum := by
    induction positions generalizing start with
    | nil => simp
    | cons p positions ih => rw [List.foldl_cons, ih, List.map_cons, List.sum_cons, add_assoc]
  exact (hfold _ 0).trans (zero_add _)

/-! ## Counting a balance once -/

section Counting

-- `values p` are the tokens, in lower case, whose balances an adapter's position `p` stands for
variable (values : ValuedPosition → List String)

/-- The positions of an adapter value tokens that it claims. -/
def AdapterRead.ValuesClaimed (adapter : AdapterRead) : Prop :=
  ∀ tokens ∈ adapter.claimedTokens, ∀ positions ∈ adapter.getPositions,
    ∀ p ∈ positions, ∀ t ∈ values p, t ∈ tokens.map String.toLower

/-- The balance of a token is part of the total as an idle position. -/
def CountedIdle (reads : VaultReads) (t : String) : Prop :=
  ∃ p ∈ reads.idle, p.valueUsd.isSome ∧ ∃ leg ∈ p.legs, leg.token.toLower = t

/-- The balance of a token is part of the total through an adapter. -/
def CountedByAdapter (reads : VaultReads) (t : String) : Prop :=
  ∃ p ∈ reads.protocolPositions, p.valueUsd.isSome ∧ t ∈ values p

/-- The portfolio is read and has the token with a value. -/
def InPortfolio (reads : VaultReads) (t : String) : Prop :=
  ∃ portfolio ∈ reads.portfolio, ∃ p ∈ portfolio, p.valueUsd.isSome ∧ p.address.toLower = t

/-- The claimed tokens of an adapter are not read, its positions are, and they value the token. -/
def UnclaimedValue (reads : VaultReads) (t : String) : Prop :=
  ∃ adapter ∈ reads.adapters, adapter.claimedTokens = none ∧ ∃ positions ∈ adapter.getPositions,
    ∃ p ∈ positions, p.valueUsd.isSome ∧ t ∈ values p

variable {values}

/-- A token is idle where the portfolio has it and no adapter is known to claim it. -/
theorem countedIdle_iff {reads : VaultReads} {t : String} :
    CountedIdle reads t ↔ InPortfolio reads t ∧ t ∉ reads.claimed := by
  rw [CountedIdle, InPortfolio, VaultReads.idle]
  cases reads.portfolio with
  | none =>
    constructor
    · rintro ⟨p, hp, hvalue, -⟩
      rw [List.mem_singleton.1 hp] at hvalue
      cases hvalue
    · rintro ⟨⟨_, hnone, -⟩, -⟩
      cases hnone
  | some portfolio =>
    constructor
    · rintro ⟨p, hp, hvalue, leg, hleg, rfl⟩
      obtain ⟨q, hq, rfl⟩ := List.mem_map.1 hp
      obtain ⟨hq, hclaimed⟩ := List.mem_filter.1 hq
      rw [List.mem_singleton.1 hleg]
      exact ⟨⟨portfolio, rfl, q, hq, hvalue, rfl⟩, of_decide_eq_true hclaimed⟩
    · rintro ⟨⟨_, hportfolio, q, hq, hvalue, rfl⟩, hclaimed⟩
      cases hportfolio
      exact ⟨idlePosition q, List.mem_map_of_mem (List.mem_filter.2 ⟨hq, decide_eq_true hclaimed⟩),
        hvalue, _, List.mem_singleton_self _, rfl⟩

/-- Of tokens that no adapter is known to claim, only those of a half-read adapter are counted. -/
theorem countedByAdapter_iff {reads : VaultReads} {t : String}
    (hvalues : ∀ adapter ∈ reads.adapters, adapter.ValuesClaimed values) (ht : t ∉ reads.claimed) :
    CountedByAdapter values reads t ↔ UnclaimedValue values reads t := by
  constructor
  · rintro ⟨p, hp, hvalue, htp⟩
    obtain ⟨adapter, hadapter, hp⟩ := List.mem_flatMap.1 hp
    rw [AdapterRead.positions] at hp
    cases hpositions : adapter.getPositions with
    | none =>
      -- an error row has no value
      rw [hpositions, Option.getD_none] at hp
      rw [List.mem_singleton.1 hp] at hvalue
      cases hvalue
    | some positions =>
      rw [hpositions, Option.getD_some] at hp
      refine ⟨adapter, hadapter, ?_, positions, hpositions, p, hp, hvalue, htp⟩
      cases htokens : adapter.claimedTokens with
      | none => rfl
      | some tokens =>
        have hclaimed := hvalues adapter hadapter tokens htokens positions hpositions p hp t htp
        refine (ht (List.mem_flatMap.2 ⟨adapter, hadapter, ?_⟩)).elim
        rw [AdapterRead.claimed, htokens]
        exact hclaimed
  · rintro ⟨adapter, hadapter, -, positions, hpositions, p, hp, hvalue, htp⟩
    refine ⟨p, List.mem_flatMap.2 ⟨adapter, hadapter, ?_⟩, hvalue, htp⟩
    rw [AdapterRead.positions, hpositions]
    exact hp

/-- **No balance is counted twice**, exactly if no token of the portfolio that is not claimed is valued
by an adapter of which only the positions were read. The positions whose values are added up are the idle
tokens, the gas reserve and the positions of the adapters. -/
theorem counted_once_iff (values : ValuedPosition → List String) (vaultAddress : String)
    (reads : VaultReads) (hvalues : ∀ adapter ∈ reads.adapters, adapter.ValuesClaimed values) :
    ((valueVault vaultAddress reads).positions = reads.idle ++
        ((gasReservePosition reads.gasDeposit reads.prices).toList ++ reads.protocolPositions) ∧
      (valueVault vaultAddress reads).totalValueUsd =
        ((valueVault vaultAddress reads).positions.map fun p => p.valueUsd.getD 0).sum) ∧
    ((∀ t, ¬ (CountedIdle reads t ∧ CountedByAdapter values reads t)) ↔
      ∀ t, InPortfolio reads t → t ∉ reads.claimed → ¬ UnclaimedValue values reads t) := by
  refine ⟨⟨valueVault_positions vaultAddress reads, valueVault_total vaultAddress reads⟩, ?_⟩
  refine forall_congr' fun t => ?_
  rw [countedIdle_iff]
  -- only of a token that is not claimed is there anything to show
  constructor
  · exact fun h hportfolio hclaimed hvalue =>
      h ⟨⟨hportfolio, hclaimed⟩, (countedByAdapter_iff hvalues hclaimed).2 hvalue⟩
  · rintro h ⟨⟨hportfolio, hclaimed⟩, hadapter⟩
    exact h hportfolio hclaimed ((countedByAdapter_iff hvalues hclaimed).1 hadapter)

/-- So none is where every adapter answers for its claimed tokens. -/
theorem counted_once (reads : VaultReads)
    (hvalues : ∀ adapter ∈ reads.adapters, adapter.ValuesClaimed values)
    (hclaimed : ∀ adapter ∈ reads.adapters, adapter.claimedTokens.isSome) (t : String) :
    ¬ (CountedIdle reads t ∧ CountedByAdapter values reads t) := by
  rintro ⟨hidle, hadapter⟩
  obtain ⟨adapter, hmem, hnone, -⟩ :=
    (countedByAdapter_iff hvalues (countedIdle_iff.1 hidle).2).1 hadapter
  have hsome := hclaimed adapter hmem
  rw [hnone] at hsome
  cases hsome

end Counting

section Sample

/-- 5 USD supplied to Aave. -/
def sampleSupply : ValuedPosition where
  protocol := "aave-v3"
  kind := "supply"
  label := "USDT supplied"
  legs := [{
    token := "0x55d398326f99059fF775485246999027B3197955"
    symbol := "USDT"
    decimals := 18
    amount := "5000000000000000000"
    amountUsd := some 5 }]
  valueUsd := some 5

/-- The receipt token of the supply in the portfolio. -/
def sampleReceipt : PortfolioPosition where
  address := "0xA9251ca9DE909CB71783723713B21E4233fbf1B1"
  symbol := "aBnbUSDT"
  name := "Aave BNB USDT"
  decimals := 18
  balance := "5000000000000000000"
  priceUsd := some 1
  valueUsd := some 5
  priceSource := .alchemy

/-- A supply stands for the balance of its receipt token. -/
def sampleValues (p : ValuedPosition) : List String :=
  if p.kind = "supply" then [sampleReceipt.address.toLower] else []

/-- A vault with the supply; the adapter says what it claims or fails to. -/
def sampleReads (claimedTokens : Option (List String)) : VaultReads where
  adapters := [{
    protocol := "aave-v3"
    claimedTokens := claimedTokens
    getPositions := some [sampleSupply] }]
  portfolio := some [sampleReceipt]
  gasDeposit := some ⟨false, none, 0, 0⟩
  prices := Map.empty

end Sample

/-- The adapter says what it claims: 5 USD. -/
theorem counted_once_sample :
    (∀ adapter ∈ (sampleReads (some [sampleReceipt.address])).adapters,
      adapter.ValuesClaimed sampleValues) ∧
    (valueVault "0x01" (sampleReads (some [sampleReceipt.address]))).totalValueUsd = 5 ∧
    ∀ t, ¬ (CountedIdle (sampleReads (some [sampleReceipt.address])) t ∧
      CountedByAdapter sampleValues (sampleReads (some [sampleReceipt.address])) t) := by
  have hvalues : ∀ adapter ∈ (sampleReads (some [sampleReceipt.address])).adapters,
      adapter.ValuesClaimed sampleValues := by
    intro adapter hadapter tokens htokens positions hpositions p hp t ht
    rw [List.mem_singleton.1 hadapter] at htokens hpositions
    cases htokens
    cases hpositions
    rw [List.mem_singleton.1 hp] at ht
    exact ht
  obtain ⟨⟨hpositions, htotal⟩, honce⟩ := counted_once_iff sampleValues "0x01" _ hvalues
  refine ⟨hvalues, ?_, honce.2 ?_⟩
  -- the receipt token is no idle one
  · have hidle : (sampleReads (some [sampleReceipt.address])).idle = [] := by
      simp [sampleReads, VaultReads.idle, VaultReads.claimed, idlePositions, AdapterRead.claimed]
    rw [htotal, hpositions, hidle]
    change ([sampleSupply].map fun p => p.valueUsd.getD 0).sum = 5
    simp [sampleSupply]
  rintro t - - ⟨adapter, hadapter, hnone, -⟩
  rw [List.mem_singleton.1 hadapter] at hnone
  cases hnone

/-- The call for the claimed tokens fails, the one for the positions does not. -/
theorem failed_claim_counts_twice :
    (∀ adapter ∈ (sampleReads none).adapters, adapter.ValuesClaimed sampleValues) ∧
      (CountedIdle (sampleReads none) sampleReceipt.address.toLower ∧
        CountedByAdapter sampleValues (sampleReads none) sampleReceipt.address.toLower) ∧
      (valueVault "0x01" (sampleReads none)).totalValueUsd = 10 := by
  refine ⟨?_, ⟨?_, ?_⟩, by decide +kernel⟩
  · intro adapter hadapter tokens htokens
    rw [List.mem_singleton.1 hadapter] at htokens
    cases htokens
  · exact ⟨idlePosition sampleReceipt, List.mem_singleton_self _, rfl, _, List.mem_singleton_self _, rfl⟩
  · exact ⟨sampleSupply, List.mem_singleton_self _, rfl, List.mem_singleton_self _⟩

end StrategyBuilder.Cockpit
