import StrategyBuilder.Cockpit.Valuation

/-!
# The portfolio of a vault

`alchemy.service.ts` and `getPortfolio` of `vault-portfolio.service.ts`: the token balances of a vault,
from the Alchemy API or, in development, from the token contracts that are known, and their prices.

Every read may fail (`none`); none of them makes the portfolio fail. A request to the API that fails is
an empty portfolio, a token whose contract fails is left out. What a portfolio with failed reads still
has is `getPortfolio_part`.
-/

set_option autoImplicit false

namespace StrategyBuilder.Cockpit

open StrategyBuilder.Lib.Js

/-! ## The Alchemy API -/

/-- A token of an answer, with every name that a field may have. -/
structure AlchemyToken where
  balance : Option String
  tokenBalance : Option String
  contractAddress : Option String
  address : Option String
  symbol : Option String
  metadataSymbol : Option String
  name : Option String
  metadataName : Option String
  decimals : Option Nat
  metadataDecimals : Option Nat
  firstPrice : Option Rat
  priceUsd : Option Rat

/-- The service answers under one of two keys. -/
structure AlchemyData where
  tokens : Option (List AlchemyToken)
  resultTokens : Option (List AlchemyToken)

/-- What the request comes back with: an error on the way or in the body, a status that is not OK, or
data. -/
inductive AlchemyAnswer where
  | failed
  | status (code : Nat)
  | data (data : AlchemyData)

/-- A token that the vault holds, with the price the service gives it. -/
structure AlchemyTokenPosition where
  address : String
  symbol : String
  name : String
  decimals : Nat
  balance : String
  priceUsd : Option Rat
deriving DecidableEq, Repr

/-- `parseAlchemyToken`: a token of balance zero is left out. -/
def parseAlchemyToken (token : AlchemyToken) : Option AlchemyTokenPosition :=
  let balance := (token.balance.or token.tokenBalance).getD "0"
  if balance = "0" ∨ balance = "0x0" then none
  else some {
    address := (token.contractAddress.or token.address).getD ""
    symbol := (token.symbol.or token.metadataSymbol).getD "UNKNOWN"
    name := (token.name.or token.metadataName).getD "Unknown Token"
    decimals := (token.decimals.or token.metadataDecimals).getD 18
    balance := balance
    priceUsd := token.firstPrice.or token.priceUsd }

/-- `parseAlchemyResponse`: the tokens of the answer that are held. -/
def parseAlchemyResponse (data : AlchemyData) : List AlchemyTokenPosition :=
  ((data.tokens.or data.resultTokens).getD []).filterMap parseAlchemyToken

/-- `getBalancesViaAlchemy` of one address. -/
def getBalancesViaAlchemy (apiKey : Option String) (answer : AlchemyAnswer) :
    List AlchemyTokenPosition :=
  if apiKey.getD "" = "" then []
  else match answer with
    | .failed => []
    | .status _ => []
    | .data data => parseAlchemyResponse data

/-! ## The token contracts -/

/-- What the contracts at the (lower-case) addresses answer about the vault. -/
structure Erc20Reads where
  balanceOf : String → Option Nat
  symbol : String → Option String
  name : String → Option String
  decimals : String → Option Nat

/-- The tokens that are looked for where the tables cannot be read. -/
def fallbackTokens : List String :=
  ["0x55d398326f99059fF775485246999027B3197955", "0xbb4CdB9CBd36B01bD1cBaEBF2De08d9173bc095c",
    "0xe9e7CEA3DedcA5984780Bafc599bD69ADd087D56"]

/-- The values of the map `byLower`: one address for each in lower case. -/
def byLower (addresses : List String) : List String :=
  (addresses.foldl (fun m a => Record.insert m a.toLower a) ([] : Record String)).map Prod.snd

/-- `knownTokens`: the tokens of the database, if they are found, behind the fallback ones. -/
def knownTokens (protocolTokens : Option (List String)) : List String :=
  match protocolTokens with
  | none => fallbackTokens
  | some addresses => byLower (fallbackTokens ++ addresses)

/-- The `try` of one token; `some none` for a token that the vault does not have. -/
def readErc20 (erc20 : Erc20Reads) (addr : String) : Option (Option AlchemyTokenPosition) := do
  let balance ← erc20.balanceOf addr.toLower
  -- what the vault does not have is left out, whatever its other reads would say
  if balance = 0 then some none
  else do
    let symbol ← erc20.symbol addr.toLower
    let name ← erc20.name addr.toLower
    let decimals ← erc20.decimals addr.toLower
    some (some {
      address := addr
      symbol := symbol
      name := name
      decimals := decimals
      balance := toString balance
      priceUsd := none })

/-- `getBalancesViaRpc`: the balances of the known tokens; a token whose read fails is left out. -/
def getBalancesViaRpc (rpcUrl : Option String) (protocolTokens : Option (List String))
    (erc20 : Erc20Reads) : List AlchemyTokenPosition :=
  if rpcUrl.getD "" = "" then []
  else (knownTokens protocolTokens).filterMap fun addr => (readErc20 erc20 addr).join

/-! ## The portfolio -/

/-- The settings that the portfolio depends on. -/
structure PortfolioConfig where
  nodeEnv : String
  alchemyApiKey : Option String
  rpcUrl : Option String

/-- All that is read for a portfolio. -/
structure PortfolioReads where
  alchemy : AlchemyAnswer
  protocolTokens : Option (List String)
  erc20 : Erc20Reads
  prices : Map String Rat

/-- `getTokenBalances`: by the node in development, by the service otherwise. -/
def getTokenBalances (config : PortfolioConfig) (reads : PortfolioReads) : List AlchemyTokenPosition :=
  if config.nodeEnv = "development" then
    getBalancesViaRpc config.rpcUrl reads.protocolTokens reads.erc20
  else getBalancesViaAlchemy config.alchemyApiKey reads.alchemy

/-- `parseFloat` of an amount in base units: the number of its leading digits. -/
def parseBaseUnits (balance : String) : Nat := digitsValue 10 (balance.toList.takeWhile isDigit)

/-- One token of `enrichWithFallbackPrices`. -/
def enrich (prices : Map String Rat) (p : AlchemyTokenPosition) : PortfolioPosition :=
  let price : Option Rat × PriceSource := match p.priceUsd with
    | some priceUsd => (some priceUsd, .alchemy)
    | none =>
        match prices p.address with
        | some priceUsd => (some priceUsd, .defiLlama)
        | none => (none, .unavailable)
  let balanceNum : Rat := parseBaseUnits p.balance / 10 ^ p.decimals
  { address := p.address
    symbol := p.symbol
    name := p.name
    decimals := p.decimals
    balance := p.balance
    priceUsd := price.1
    valueUsd := price.1.map fun priceUsd => balanceNum * priceUsd
    priceSource := price.2 }

/-- `getPortfolio`: the balances with their prices. -/
def getPortfolio (config : PortfolioConfig) (reads : PortfolioReads) : List PortfolioPosition :=
  (getTokenBalances config reads).map (enrich reads.prices)

/-! ## Reads that fail -/

/-- A read that fails, or else gives what is there. -/
def Lost {α : Type} (got full : Option α) : Prop := got = none ∨ got = full

theorem Lost.eq_some {α : Type} {got full : Option α} (h : Lost got full) {a : α} (ha : got = some a) :
    full = some a := by
  rcases h with h | h
  · rw [h] at ha
    cases ha
  · rw [← h, ha]

/-- Some of the reads of a portfolio fail; prices may come out otherwise. -/
structure PortfolioReads.Part (got full : PortfolioReads) : Prop where
  alchemy : (∀ data, got.alchemy ≠ .data data) ∨ got.alchemy = full.alchemy
  protocolTokens : Lost got.protocolTokens full.protocolTokens
  balanceOf : ∀ addr, Lost (got.erc20.balanceOf addr) (full.erc20.balanceOf addr)
  symbol : ∀ addr, Lost (got.erc20.symbol addr) (full.erc20.symbol addr)
  name : ∀ addr, Lost (got.erc20.name addr) (full.erc20.name addr)
  decimals : ∀ addr, Lost (got.erc20.decimals addr) (full.erc20.decimals addr)

/-- The reads for a token that are swallowed: the request to the API fails, or the token is not known
because the database does not answer, or its contract does not. -/
def SwallowedToken (config : PortfolioConfig) (got : PortfolioReads) (token : String) : Prop :=
  if config.nodeEnv = "development" then
    (got.protocolTokens = none ∧ ∀ f ∈ fallbackTokens, f.toLower ≠ token.toLower) ∨
      readErc20 got.erc20 token = none
  else ∀ data, got.alchemy ≠ .data data

/-- The same balance, whatever the price. -/
def PortfolioPosition.SameBalance (q p : PortfolioPosition) : Prop :=
  q.address.toLower = p.address.toLower ∧ q.balance = p.balance

/-- A contract is read by its address in lower case. -/
theorem readErc20_eq (erc20 : Erc20Reads) {a b : String} (h : a.toLower = b.toLower) :
    readErc20 erc20 a = (readErc20 erc20 b).map (Option.map fun t => { t with address := a }) := by
  rw [readErc20, readErc20, h]
  cases erc20.balanceOf b.toLower with
  | none => rfl
  | some balance =>
    by_cases hzero : balance = 0
    · simp [hzero]
    · cases erc20.symbol b.toLower <;> cases erc20.name b.toLower <;>
        cases erc20.decimals b.toLower <;> simp [hzero]

theorem readErc20_address {erc20 : Erc20Reads} {addr : String} {t : AlchemyTokenPosition}
    (h : readErc20 erc20 addr = some (some t)) : t.address = addr := by
  have heq := readErc20_eq erc20 (Eq.refl addr.toLower)
  rw [h] at heq
  have ht : t = { t with address := addr } := Option.some.inj (Option.some.inj heq)
  exact congrArg AlchemyTokenPosition.address ht

/-- What is read of a token is there. -/
theorem PortfolioReads.Part.readErc20 {got full : PortfolioReads} (h : got.Part full) {addr : String}
    {answer : Option AlchemyTokenPosition} (hread : Cockpit.readErc20 got.erc20 addr = some answer) :
    Cockpit.readErc20 full.erc20 addr = some answer := by
  rw [Cockpit.readErc20] at hread ⊢
  obtain ⟨balance, hbalance, hread⟩ := Option.bind_eq_some_iff.1 hread
  rw [(h.balanceOf _).eq_some hbalance]
  by_cases hzero : balance = 0
  · rw [if_pos hzero] at hread
    rw [← hread]
    exact if_pos hzero
  · rw [if_neg hzero] at hread
    obtain ⟨symbol, hsymbol, hread⟩ := Option.bind_eq_some_iff.1 hread
    obtain ⟨name, hname, hread⟩ := Option.bind_eq_some_iff.1 hread
    obtain ⟨decimals, hdecimals, hread⟩ := Option.bind_eq_some_iff.1 hread
    rw [(h.symbol _).eq_some hsymbol, (h.name _).eq_some hname, (h.decimals _).eq_some hdecimals,
      ← hread]
    exact if_neg hzero

section Part

variable {config : PortfolioConfig} {got full : PortfolioReads}

/-- In development a token of the database is still known, unless the database does not answer. -/
theorem PortfolioReads.Part.knownTokens (h : got.Part full) {addr : String}
    (haddr : addr ∈ Cockpit.knownTokens full.protocolTokens) :
    (∃ addr' ∈ Cockpit.knownTokens got.protocolTokens, addr'.toLower = addr.toLower) ∨
      (got.protocolTokens = none ∧ ∀ f ∈ fallbackTokens, f.toLower ≠ addr.toLower) := by
  rcases h.protocolTokens with hnone | heq
  -- without the database only the fallback tokens are known
  · by_cases hfallback : ∃ f ∈ fallbackTokens, f.toLower = addr.toLower
    · left
      rw [hnone]
      exact hfallback
    · right
      exact ⟨hnone, fun f hf hlower => hfallback ⟨f, hf, hlower⟩⟩
  · left
    rw [heq]
    exact ⟨addr, haddr, rfl⟩

/-- A token that is held is found, unless its reads or those of the tables were swallowed. -/
theorem getBalancesViaRpc_part (h : got.Part full) {rpcUrl : Option String} {t : AlchemyTokenPosition}
    (ht : t ∈ getBalancesViaRpc rpcUrl full.protocolTokens full.erc20) :
    (∃ t' ∈ getBalancesViaRpc rpcUrl got.protocolTokens got.erc20,
        t'.address.toLower = t.address.toLower ∧ t'.balance = t.balance) ∨
      (got.protocolTokens = none ∧ ∀ f ∈ fallbackTokens, f.toLower ≠ t.address.toLower) ∨
        readErc20 got.erc20 t.address = none := by
  rw [getBalancesViaRpc] at ht ⊢
  split at ht
  · cases ht
  · rename_i hurl
    obtain ⟨addr, haddr, hread⟩ := List.mem_filterMap.1 ht
    have hread : readErc20 full.erc20 addr = some (some t) := Option.join_eq_some_iff.1 hread
    have hat := readErc20_address hread
    subst hat
    rw [if_neg hurl]
    -- the address may be written in another case, which reads the same contract
    rcases h.knownTokens haddr with ⟨addr', haddr', hlower⟩ | hunknown
    · cases hgot : readErc20 got.erc20 addr' with
      | none =>
        right
        right
        rw [readErc20_eq got.erc20 hlower.symm, hgot]
        rfl
      | some answer =>
        left
        have hfull := h.readErc20 hgot
        rw [readErc20_eq full.erc20 hlower, hread] at hfull
        cases hfull
        exact ⟨_, List.mem_filterMap.2 ⟨addr', haddr', Option.join_eq_some_iff.2 hgot⟩, hlower, rfl⟩
    · exact Or.inr (Or.inl hunknown)

/-- **A portfolio with failed reads** has every balance whose reads were not swallowed. -/
theorem getPortfolio_part (h : got.Part full) {p : PortfolioPosition}
    (hp : p ∈ getPortfolio config full) :
    (∃ q ∈ getPortfolio config got, q.SameBalance p) ∨ SwallowedToken config got p.address := by
  obtain ⟨t, ht, rfl⟩ := List.mem_map.1 hp
  rw [SwallowedToken]
  rw [getTokenBalances] at ht
  by_cases hdev : config.nodeEnv = "development"
  · rw [if_pos hdev] at ht ⊢
    refine (getBalancesViaRpc_part h ht).imp_left ?_
    rintro ⟨t', ht', haddr, hbalance⟩
    refine ⟨enrich got.prices t', List.mem_map_of_mem ?_, haddr, hbalance⟩
    rw [getTokenBalances, if_pos hdev]
    exact ht'
  · rw [if_neg hdev] at ht ⊢
    rcases h.alchemy with hfailed | heq
    · exact Or.inr hfailed
    · left
      refine ⟨enrich got.prices t, List.mem_map_of_mem ?_, rfl, rfl⟩
      rw [getTokenBalances, if_neg hdev, heq]
      exact ht

end Part

end StrategyBuilder.Cockpit
