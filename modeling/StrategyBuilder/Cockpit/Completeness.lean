import StrategyBuilder.Cockpit.AaveV3Adapter

/-!
# Valuations with failed reads

A valuation in which reads fail next to the one in which they do not: which entries are missing, and
which of them are marked by an error row. An adapter is taken with what it would list (`AdapterCalls`),
that of Aave and that of PancakeSwap (`pancake-v3.adapter.ts`) are two of them.

An entry that is missing without a mark is a token or a reserve whose own reads were swallowed
(`incomplete_marked`).
-/

set_option autoImplicit false

namespace StrategyBuilder.Cockpit

open StrategyBuilder.Lib.Js

/-- An error row. -/
def ValuedPosition.IsError (p : ValuedPosition) : Prop := p.kind = "error"

/-! ## Adapters -/

/-- The calls of an adapter next to what it claims and lists where no read fails. `silent` are the
entries that it leaves out without a mark. -/
structure AdapterCalls where
  read : AdapterRead
  claims : List String
  entries : List ValuedPosition
  silent : ValuedPosition → Prop
  claimed : ∀ tokens ∈ read.claimedTokens, ∀ t ∈ tokens, t ∈ claims
  listed : ∀ positions ∈ read.getPositions, ∀ p ∈ entries,
    (∃ q ∈ positions, q.SameEntry p ∨ q.IsError) ∨ silent p

/-- The calls of the adapter where no read fails. -/
def AdapterCalls.full (adapter : AdapterCalls) : AdapterRead where
  protocol := adapter.read.protocol
  claimedTokens := some adapter.claims
  getPositions := some adapter.entries

/-- The Aave adapter: reads of their own for its two calls, as much as the short cache allows. -/
structure AaveCalls where
  full : AaveReads
  claimReads : AaveReads
  positionReads : AaveReads
  raw : AaveRawRead
  read_full : full.read = some raw
  claim_part : claimReads.Part full
  position_part : positionReads.Part full

/-- The Aave adapter: what its two calls read. A reserve whose own reads were swallowed may be
missing. -/
def AaveCalls.adapter (aave : AaveCalls) : AdapterCalls where
  read := {
    protocol := "aave-v3"
    claimedTokens := aave.claimReads.claimedTokens
    getPositions := aave.positionReads.getPositions }
  claims := aave.raw.claimed
  entries := buildAavePositions aave.raw.reserves aave.raw.account aave.full.netPrincipal
  silent := SwallowedReserve aave.positionReads
  claimed tokens htokens t ht := by
    have hfull : aave.full.claimedTokens = some aave.raw.claimed := by
      rw [AaveReads.claimedTokens, aave.read_full]
      rfl
    exact aave.claim_part.claimedTokens htokens hfull ht
  listed positions hpositions p hp := by
    have hfull : aave.full.getPositions =
        some (buildAavePositions aave.raw.reserves aave.raw.account aave.full.netPrincipal) := by
      rw [AaveReads.getPositions, aave.read_full]
      rfl
    refine (aave.position_part.getPositions hpositions hfull hp).imp_left ?_
    exact fun ⟨q, hq, hentry⟩ => ⟨q, hq, Or.inl hentry⟩

theorem aave_protocol {aave : AaveCalls} {p : ValuedPosition}
    (hp : p ∈ aave.adapter.full.positions) : p.protocol = "aave-v3" :=
  buildAavePositions_protocol hp

/-- What the PancakeSwap adapter reads: the number of NFTs, their ids, and for an id its position, built
from all reads of it (`some none` for one that is closed). -/
structure PancakeReads where
  npmAddress : String
  balanceOf : Option Nat
  tokenOfOwnerByIndex : Nat → Option Nat
  readPosition : Nat → Option (Option ValuedPosition)

/-- The row of an NFT that is not read. -/
def pancakeError (tokenId : Option Nat) : ValuedPosition where
  protocol := "pancakeswap-v3"
  kind := "error"
  label := match tokenId with
    | some id => "LP position #" ++ toString id
    | none => "LP position"
  legs := []
  valueUsd := none
  error := some "Failed to read LP position"

/-- The `try` of one NFT. -/
def pancakePosition (reads : PancakeReads) (i : Nat) : Option ValuedPosition :=
  match reads.tokenOfOwnerByIndex i with
  | none => some (pancakeError none)
  | some tokenId =>
      match reads.readPosition tokenId with
      | none => some (pancakeError (some tokenId))
      | some position => position

/-- The positions of the tokens that could be read; without their number there is no answer. -/
def PancakeReads.getPositions (reads : PancakeReads) : Option (List ValuedPosition) :=
  reads.balanceOf.map fun count => (List.range count).filterMap (pancakePosition reads)

/-- Some of the reads fail; prices may come out otherwise. -/
structure PancakeReads.Part (got full : PancakeReads) : Prop where
  npmAddress : got.npmAddress = full.npmAddress
  balanceOf : Lost got.balanceOf full.balanceOf
  tokenOfOwnerByIndex : ∀ i, Lost (got.tokenOfOwnerByIndex i) (full.tokenOfOwnerByIndex i)
  readPosition : ∀ tokenId, got.readPosition tokenId = none ∨
    Option.Rel (Option.Rel ValuedPosition.SameEntry) (got.readPosition tokenId)
      (full.readPosition tokenId)

/-- An NFT that is not read has a row of its own. -/
theorem PancakeReads.Part.pancakePosition {got full : PancakeReads} (h : got.Part full) {i : Nat}
    {p : ValuedPosition} (hp : Cockpit.pancakePosition full i = some p) :
    ∃ q, Cockpit.pancakePosition got i = some q ∧ (q.SameEntry p ∨ q.IsError) := by
  rw [Cockpit.pancakePosition] at hp ⊢
  cases hid : got.tokenOfOwnerByIndex i with
  | none => exact ⟨_, rfl, Or.inr rfl⟩
  | some tokenId =>
    rw [(h.tokenOfOwnerByIndex i).eq_some hid] at hp
    dsimp only at hp ⊢
    rcases h.readPosition tokenId with hnone | hrel
    · rw [hnone]
      exact ⟨_, rfl, Or.inr rfl⟩
    · generalize got.readPosition tokenId = answer, full.readPosition tokenId = answer' at hrel hp
      cases hrel with
      | none => exact ⟨_, rfl, Or.inr rfl⟩
      | some hposition =>
        dsimp only at hp ⊢
        subst hp
        cases hposition with
        | some hentry => exact ⟨_, rfl, Or.inl hentry⟩

/-- The PancakeSwap adapter: its claimed token needs no read. -/
def pancakeAdapter (got full : PancakeReads) (entries : List ValuedPosition) (h : got.Part full)
    (hfull : full.getPositions = some entries) : AdapterCalls where
  read := {
    protocol := "pancakeswap-v3"
    claimedTokens := some [got.npmAddress]
    getPositions := got.getPositions }
  claims := [full.npmAddress]
  entries := entries
  silent _ := False
  claimed tokens htokens t ht := by
    cases htokens
    rwa [h.npmAddress] at ht
  listed positions hpositions p hp := by
    left
    obtain ⟨count, hcount, rfl⟩ := Option.map_eq_some_iff.1 hpositions
    rw [PancakeReads.getPositions, h.balanceOf.eq_some hcount] at hfull
    cases hfull
    obtain ⟨i, hi, hp⟩ := List.mem_filterMap.1 hp
    obtain ⟨q, hq, hentry⟩ := h.pancakePosition hp
    exact ⟨q, List.mem_filterMap.2 ⟨i, hi, hq⟩, hentry⟩

/-! ## A valuation -/

/-- The reads of a valuation, some of which fail, next to those of the one in which none does. Prices
are those that could be had, and the adapters of other protocols leave nothing out without a mark. -/
structure FaultyValuation where
  config : PortfolioConfig
  fullPortfolio : PortfolioReads
  portfolioReads : PortfolioReads
  portfolio_part : portfolioReads.Part fullPortfolio
  /-- The portfolio as a whole may fail, too. -/
  portfolio : Option (List PortfolioPosition)
  portfolio_lost : Lost portfolio (some (getPortfolio config portfolioReads))
  fullGasDeposit : Option VaultGasDeposit
  gasDeposit : Option VaultGasDeposit
  gasDeposit_lost : Lost gasDeposit fullGasDeposit
  prices : Map String Rat
  fullPrices : Map String Rat
  aave : AaveCalls
  others : List AdapterCalls
  others_marked : ∀ adapter ∈ others, ∀ p, ¬ adapter.silent p

namespace FaultyValuation

/-- All adapters of the valuation. -/
def adapters (v : FaultyValuation) : List AdapterCalls := v.aave.adapter :: v.others

/-- What is read. -/
def reads (v : FaultyValuation) : VaultReads where
  adapters := v.adapters.map AdapterCalls.read
  portfolio := v.portfolio
  gasDeposit := v.gasDeposit
  prices := v.prices

/-- What is read where nothing fails. -/
def fullReads (v : FaultyValuation) : VaultReads where
  adapters := v.adapters.map AdapterCalls.full
  portfolio := some (getPortfolio v.config v.fullPortfolio)
  gasDeposit := v.fullGasDeposit
  prices := v.fullPrices

/-- The own reads of an entry were swallowed: of an idle token, or of an Aave reserve. -/
def Swallowed (v : FaultyValuation) (p : ValuedPosition) : Prop :=
  (p.protocol = "idle" ∧ ∃ leg ∈ p.legs, SwallowedToken v.config v.portfolioReads leg.token) ∨
    (p.protocol = "aave-v3" ∧ SwallowedReserve v.aave.positionReads p)

variable (v : FaultyValuation)

/-- An adapter that fails to say what it claims claims nothing. -/
theorem claimed_subset {t : String} (ht : t ∈ v.reads.claimed) : t ∈ v.fullReads.claimed := by
  obtain ⟨read, hread, ht⟩ := List.mem_flatMap.1 ht
  obtain ⟨adapter, hadapter, rfl⟩ := List.mem_map.1 hread
  refine List.mem_flatMap.2 ⟨adapter.full, List.mem_map_of_mem hadapter, ?_⟩
  rw [AdapterRead.claimed] at ht
  cases htokens : adapter.read.claimedTokens with
  | none =>
    rw [htokens] at ht
    cases ht
  | some tokens =>
    rw [htokens] at ht
    obtain ⟨token, htoken, rfl⟩ := List.mem_map.1 ht
    exact List.mem_map_of_mem (adapter.claimed tokens htokens token htoken)

/-- An idle token is there, or the idle tokens have an error row, or its reads were swallowed. -/
theorem idle_listed {p : ValuedPosition} (hp : p ∈ v.fullReads.idle) :
    (∃ q ∈ v.reads.idle, q.SameEntry p ∨ q.IsError) ∨
      (p.protocol = "idle" ∧ ∃ leg ∈ p.legs, SwallowedToken v.config v.portfolioReads leg.token) := by
  obtain ⟨a, ha, rfl⟩ := List.mem_map.1 hp
  obtain ⟨ha, hclaimed⟩ := List.mem_filter.1 ha
  have hidle : v.reads.idle = idlePositions v.portfolio v.reads.claimed := rfl
  rw [hidle]
  rcases v.portfolio_lost with hnone | hsome
  -- the whole call failed, and the service puts an error row in its place
  · left
    rw [hnone]
    exact ⟨idleError, List.mem_singleton_self _, Or.inr rfl⟩
  · rw [hsome]
    rcases getPortfolio_part v.portfolio_part ha with ⟨b, hb, haddr, hbalance⟩ | hswallowed
    · left
      refine ⟨idlePosition b, List.mem_map_of_mem (List.mem_filter.2 ⟨hb, ?_⟩), Or.inl ⟨rfl, rfl, ?_⟩⟩
      -- with failed reads no more tokens are claimed
      · rw [decide_eq_true_eq] at hclaimed ⊢
        rw [haddr]
        exact fun hmem => hclaimed (v.claimed_subset hmem)
      · simp only [idlePosition, List.map_cons, List.map_nil, haddr, hbalance]
    · exact Or.inr ⟨rfl, _, List.mem_singleton_self _, hswallowed⟩

/-- The deposit is there, or its error row. -/
theorem gasReserve_listed {p : ValuedPosition}
    (hp : gasReservePosition v.fullGasDeposit v.fullPrices = some p) :
    ∃ q, gasReservePosition v.gasDeposit v.prices = some q ∧ (q.SameEntry p ∨ q.IsError) := by
  -- the read is lost as a whole, or it is complete
  rcases v.gasDeposit_lost with hnone | heq
  · rw [hnone]
    exact ⟨_, rfl, Or.inr rfl⟩
  · rw [heq]
    rw [gasReservePosition.eq_def] at hp ⊢
    cases hgas : v.fullGasDeposit with
    | none => exact ⟨_, rfl, Or.inr rfl⟩
    | some gas =>
      rw [hgas] at hp
      dsimp only at hp ⊢
      cases htoken : gas.token with
      | none =>
        rw [htoken] at hp
        cases hp
      | some token =>
        rw [htoken] at hp
        dsimp only at hp ⊢
        split at hp
        · cases hp
        · rename_i hdeposit
          rw [if_neg hdeposit]
          cases hp
          exact ⟨_, rfl, Or.inl ⟨rfl, rfl, rfl⟩⟩

/-- A position of a protocol is there, or an error row of it, or its reads were swallowed. -/
theorem protocol_listed {p : ValuedPosition} (hp : p ∈ v.fullReads.protocolPositions) :
    (∃ q ∈ v.reads.protocolPositions, q.SameEntry p ∨ q.IsError) ∨
      (p.protocol = "aave-v3" ∧ SwallowedReserve v.aave.positionReads p) := by
  obtain ⟨read, hread, hp⟩ := List.mem_flatMap.1 hp
  obtain ⟨adapter, hadapter, rfl⟩ := List.mem_map.1 hread
  have hlisted : (∃ q ∈ adapter.read.positions, q.SameEntry p ∨ q.IsError) ∨ adapter.silent p := by
    rw [AdapterRead.positions]
    cases hpositions : adapter.read.getPositions with
    -- the adapter as a whole has an error row
    | none => exact Or.inl ⟨_, List.mem_singleton_self _, Or.inr rfl⟩
    | some positions => exact adapter.listed positions hpositions p hp
  -- of all adapters only that of Aave leaves anything out silently
  rcases hlisted with ⟨q, hq, hentry⟩ | hsilent
  · exact Or.inl ⟨q, List.mem_flatMap.2 ⟨adapter.read, List.mem_map_of_mem hadapter, hq⟩, hentry⟩
  · right
    rcases List.mem_cons.1 hadapter with rfl | hother
    · exact ⟨aave_protocol hp, hsilent⟩
    · exact (v.others_marked adapter hother p hsilent).elim

end FaultyValuation

/-- **A missing entry is marked**, or its own reads were swallowed below the valuation. -/
theorem incomplete_marked (vaultAddress : String) (v : FaultyValuation) (p : ValuedPosition)
    (hp : p ∈ (valueVault vaultAddress v.fullReads).positions) :
    (∃ q ∈ (valueVault vaultAddress v.reads).positions, q.SameEntry p) ∨
      (∃ q ∈ (valueVault vaultAddress v.reads).positions, q.IsError) ∨ v.Swallowed p := by
  have hlisted : (∃ q ∈ (valueVault vaultAddress v.reads).positions, q.SameEntry p ∨ q.IsError) ∨
      v.Swallowed p := by
    -- idle tokens, gas reserve and protocols, each on its own
    rw [valueVault_positions] at hp ⊢
    rcases List.mem_append.1 hp with hp | hp
    · refine (v.idle_listed hp).imp (fun ⟨q, hq, hentry⟩ => ?_) Or.inl
      exact ⟨q, List.mem_append_left _ hq, hentry⟩
    · rcases List.mem_append.1 hp with hp | hp
      · left
        obtain ⟨q, hq, hentry⟩ := v.gasReserve_listed (Option.mem_toList.1 hp)
        exact ⟨q, List.mem_append_right _ (List.mem_append_left _ (Option.mem_toList.2 hq)), hentry⟩
      · refine (v.protocol_listed hp).imp (fun ⟨q, hq, hentry⟩ => ?_) Or.inr
        exact ⟨q, List.mem_append_right _ (List.mem_append_right _ hq), hentry⟩
  rcases hlisted with ⟨q, hq, hentry | herror⟩ | hswallowed
  · exact Or.inl ⟨q, hq, hentry⟩
  · exact Or.inr (Or.inl ⟨q, hq, herror⟩)
  · exact Or.inr (Or.inr hswallowed)

section Sample

/-- 1000 USDT, as the API lists them. -/
def sampleToken : AlchemyToken where
  balance := some "1000000000000000000000"
  tokenBalance := none
  contractAddress := some "0x55d398326f99059fF775485246999027B3197955"
  address := none
  symbol := some "USDT"
  metadataSymbol := none
  name := some "Tether USD"
  metadataName := none
  decimals := some 18
  metadataDecimals := none
  firstPrice := some 1
  priceUsd := none

/-- The service answers, and nothing else does. -/
def samplePortfolioReads (alchemy : AlchemyAnswer) : PortfolioReads where
  alchemy := alchemy
  protocolTokens := some []
  erc20 := ⟨fun _ => none, fun _ => none, fun _ => none, fun _ => none⟩
  prices := Map.empty

/-- A vault without Aave reserves. -/
def sampleAaveReads : AaveReads where
  getAddress := some
  addresses := some ("0x6807dc923806fE8Fd134338EABCA509979a7e0cB",
    "0x39bc1bfDa2130d6Bb6DBEfd366939b4c7aa7C697")
  userAccountData := some ⟨0, 0, 0⟩
  curated := some []
  reserveData _ := none
  balanceOf _ := none
  assetPrice _ := none
  netPrincipal := Map.empty

theorem sampleAaveReads_part : sampleAaveReads.Part sampleAaveReads where
  getAddress := rfl
  addresses := Or.inr rfl
  userAccountData := Or.inr rfl
  curated := Or.inr rfl
  reserveData _ := Or.inr rfl
  balanceOf _ := Or.inr rfl
  assetPrice _ := Or.inr rfl

/-- A production setting with a key, and no node. -/
def sampleConfig : PortfolioConfig := ⟨"production", some "key", none⟩

/-- The API answers with the status 500. -/
def sampleValuation : FaultyValuation where
  config := sampleConfig
  fullPortfolio := samplePortfolioReads (.data ⟨some [sampleToken], none⟩)
  portfolioReads := samplePortfolioReads (.status 500)
  portfolio_part := {
    alchemy := Or.inl nofun
    protocolTokens := Or.inr rfl
    balanceOf := fun _ => Or.inr rfl
    symbol := fun _ => Or.inr rfl
    name := fun _ => Or.inr rfl
    decimals := fun _ => Or.inr rfl }
  portfolio := some (getPortfolio sampleConfig (samplePortfolioReads (.status 500)))
  portfolio_lost := Or.inr rfl
  fullGasDeposit := some ⟨false, none, 0, 0⟩
  gasDeposit := some ⟨false, none, 0, 0⟩
  gasDeposit_lost := Or.inr rfl
  prices := Map.empty
  fullPrices := Map.empty
  aave := ⟨sampleAaveReads, sampleAaveReads, sampleAaveReads, ⟨[], ⟨0, 0, 0⟩, []⟩, rfl,
    sampleAaveReads_part, sampleAaveReads_part⟩
  others := []
  others_marked := nofun

/-- The entry of the balance. -/
def sampleEntry : ValuedPosition where
  protocol := "idle"
  kind := "token"
  label := "USDT"
  legs := [{
    token := "0x55d398326f99059fF775485246999027B3197955"
    symbol := "USDT"
    decimals := 18
    amount := "1000000000000000000000"
    amountUsd := some 1000 }]
  valueUsd := some 1000

theorem sampleEntry_mem : sampleEntry ∈ (valueVault "0x01" sampleValuation.fullReads).positions := by
  decide +kernel

end Sample

/-- The API answers, but the portfolio as a whole is not read. -/
def failedValuation : FaultyValuation where
  config := sampleConfig
  fullPortfolio := samplePortfolioReads (.data ⟨some [sampleToken], none⟩)
  portfolioReads := samplePortfolioReads (.data ⟨some [sampleToken], none⟩)
  portfolio_part := {
    alchemy := Or.inr rfl
    protocolTokens := Or.inr rfl
    balanceOf := fun _ => Or.inr rfl
    symbol := fun _ => Or.inr rfl
    name := fun _ => Or.inr rfl
    decimals := fun _ => Or.inr rfl }
  portfolio := none
  portfolio_lost := Or.inl rfl
  fullGasDeposit := some ⟨false, none, 0, 0⟩
  gasDeposit := some ⟨false, none, 0, 0⟩
  gasDeposit_lost := Or.inr rfl
  prices := Map.empty
  fullPrices := Map.empty
  aave := sampleValuation.aave
  others := []
  others_marked := nofun

/-- Of the two ways in which the balance is missing, the failure of the whole call has an error row. -/
theorem incomplete_marked_sample :
    (∃ q ∈ (valueVault "0x01" failedValuation.reads).positions, q.IsError) ∧
      ((∃ q ∈ (valueVault "0x01" sampleValuation.reads).positions, q.SameEntry sampleEntry) ∨
        (∃ q ∈ (valueVault "0x01" sampleValuation.reads).positions, q.IsError) ∨
          sampleValuation.Swallowed sampleEntry) := by
  refine ⟨?_, incomplete_marked "0x01" sampleValuation sampleEntry sampleEntry_mem⟩
  have hpositions : (valueVault "0x01" failedValuation.reads).positions = [idleError] := by decide
  rcases incomplete_marked "0x01" failedValuation sampleEntry sampleEntry_mem with
    ⟨q, hq, -, hkind, -⟩ | herror | hswallowed
  · rw [hpositions, List.mem_singleton] at hq
    rw [hq] at hkind
    exact absurd hkind (by decide)
  · exact herror
  -- no read below the portfolio has failed, and there is no reserve
  · rcases hswallowed with ⟨-, leg, -, hleg⟩ | ⟨hprotocol, -⟩
    · exact absurd rfl (hleg _)
    · exact absurd hprotocol (by decide)

/-- A failed request to the API is an empty portfolio: the balance is missing and nothing says so. -/
theorem api_error_unmarked :
    sampleEntry ∈ (valueVault "0x01" sampleValuation.fullReads).positions ∧
      (¬ ∃ q ∈ (valueVault "0x01" sampleValuation.reads).positions, q.SameEntry sampleEntry) ∧
        ¬ ∃ q ∈ (valueVault "0x01" sampleValuation.reads).positions, q.IsError := by
  have hnone : (valueVault "0x01" sampleValuation.reads).positions = [] := by decide
  rw [hnone]
  exact ⟨sampleEntry_mem, nofun, nofun⟩

end StrategyBuilder.Cockpit
