import StrategyBuilder.Cockpit.Portfolio

/-!
# The Aave adapter

`aave-v3.adapter.ts` and `buildAavePositions` of `aave-positions.ts`: the supplied and borrowed amounts
of the curated reserves, and the tokens that the adapter claims. Both calls of the adapter read the
reserves; a reserve that cannot be read is skipped, after its tokens may have been claimed already.

Rates, health factor and earnings of `metrics` are left out.
-/

set_option autoImplicit false

namespace StrategyBuilder.Cockpit

open StrategyBuilder.Lib.Js

/-! ## What is read -/

/-- A row of `ProtocolToken`. -/
structure CuratedToken where
  address : String
  symbol : String
  decimals : Nat
deriving DecidableEq, Repr

/-- The token contracts of a reserve. -/
structure ReserveData where
  aTokenAddress : String
  variableDebtTokenAddress : String
deriving DecidableEq, Repr

/-- The totals of `getUserAccountData` that the adapter uses. -/
structure AaveAccountRead where
  totalCollateralBase : Nat
  totalDebtBase : Nat
  healthFactor : Nat
deriving DecidableEq, Repr

/-- A reserve with the balances of the vault and its price. -/
structure AaveReserveRead where
  asset : String
  symbol : String
  decimals : Nat
  aToken : String
  variableDebtToken : String
  supplied : Nat
  debt : Nat
  priceUsd : Option Rat
deriving DecidableEq, Repr

/-- `getAddress`, and what the chain and the database answer about the vault. `netPrincipal` is empty
where it cannot be read. -/
structure AaveReads where
  getAddress : String → Option String
  addresses : Option (String × String)
  userAccountData : Option AaveAccountRead
  curated : Option (List CuratedToken)
  reserveData : String → Option ReserveData
  balanceOf : String → Option Nat
  assetPrice : String → Option Nat
  netPrincipal : Map String (Option Rat)

/-- `RawRead` -/
structure AaveRawRead where
  reserves : List AaveReserveRead
  account : AaveAccountRead
  claimed : List String
deriving DecidableEq, Repr

/-- `base8ToUsd` -/
def base8ToUsd (base8 : Nat) : Rat := base8 / 10 ^ 8

/-- `tokenUsd` -/
def tokenUsd (amount decimals : Nat) (priceUsd : Rat) : Rat := amount / 10 ^ decimals * priceUsd

/-! ## The reads of a reserve -/

/-- The aToken and the debt token of a reserve, up to where they are claimed. -/
def reserveTokens (reads : AaveReads) (t : CuratedToken) : Option (String × String) := do
  let rd ← reads.reserveData t.address
  let aToken ← reads.getAddress rd.aTokenAddress
  let variableDebtToken ← reads.getAddress rd.variableDebtTokenAddress
  some (aToken, variableDebtToken)

/-- The `try` of one reserve. -/
def readReserve (reads : AaveReads) (t : CuratedToken) : Option AaveReserveRead := do
  let (aToken, variableDebtToken) ← reserveTokens reads t
  let supplied ← reads.balanceOf aToken
  let debt ← reads.balanceOf variableDebtToken
  let priceBase ← reads.assetPrice t.address
  let asset ← reads.getAddress t.address
  some {
    asset := asset
    symbol := t.symbol
    decimals := t.decimals
    aToken := aToken
    variableDebtToken := variableDebtToken
    supplied := supplied
    debt := debt
    -- a price of 0 stands for no price
    priceUsd := if 0 < priceBase then some (base8ToUsd priceBase) else none }

/-- `read` -/
def AaveReads.read (reads : AaveReads) : Option AaveRawRead := do
  let _ ← reads.addresses
  let account ← reads.userAccountData
  let curated ← reads.curated
  some {
    reserves := curated.filterMap (readReserve reads)
    account := account
    claimed := (curated.filterMap (reserveTokens reads)).flatMap fun tokens => [tokens.1, tokens.2] }

/-! ## Positions -/

/-- The legs of a reserve are in its asset. -/
def reserveLeg (r : AaveReserveRead) (amount : Nat) (usd : Option Rat) (isDebt : Bool) :
    PositionLeg where
  token := r.asset
  symbol := r.symbol
  decimals := r.decimals
  amount := toString amount
  amountUsd := usd
  isDebt := isDebt

/-- The position of what is supplied; the earnings are known with the price and the net principal. -/
def supplyPosition (netPrincipal : Map String (Option Rat)) (r : AaveReserveRead) : ValuedPosition :=
  let usd := r.priceUsd.map (tokenUsd r.supplied r.decimals)
  let principal := (netPrincipal r.asset.toLower).join
  { protocol := "aave-v3"
    kind := "supply"
    label := r.symbol ++ " supplied"
    legs := [reserveLeg r r.supplied usd false]
    valueUsd := usd
    earningsUsd := usd.bind fun usd => principal.map fun principal => usd - principal }

/-- The position of what is borrowed, of negative value. -/
def borrowPosition (r : AaveReserveRead) : ValuedPosition :=
  let usd := r.priceUsd.map (tokenUsd r.debt r.decimals)
  { protocol := "aave-v3"
    kind := "borrow"
    label := r.symbol ++ " borrowed"
    legs := [reserveLeg r r.debt usd true]
    valueUsd := usd.map fun usd => -usd
    debtUsd := usd }

/-- The positions of one reserve. -/
def reservePositions (netPrincipal : Map String (Option Rat)) (r : AaveReserveRead) :
    List ValuedPosition :=
  (if 0 < r.supplied then [supplyPosition netPrincipal r] else []) ++
    if 0 < r.debt then [borrowPosition r] else []

/-- The row for the account, without a value. -/
def summaryPosition : ValuedPosition where
  protocol := "aave-v3"
  kind := "summary"
  label := "Account health"
  legs := []
  valueUsd := none

/-- `buildAavePositions`: the positions of all reserves, and the account where it has any. -/
def buildAavePositions (reserves : List AaveReserveRead) (account : AaveAccountRead)
    (netPrincipal : Map String (Option Rat)) : List ValuedPosition :=
  reserves.flatMap (reservePositions netPrincipal) ++
    if 0 < account.totalCollateralBase ∨ 0 < account.totalDebtBase then [summaryPosition] else []

/-- `getPositions` -/
def AaveReads.getPositions (reads : AaveReads) : Option (List ValuedPosition) :=
  reads.read.map fun raw => buildAavePositions raw.reserves raw.account reads.netPrincipal

/-- `claimedTokens` -/
def AaveReads.claimedTokens (reads : AaveReads) : Option (List String) :=
  reads.read.map AaveRawRead.claimed

/-! ## Reads that fail -/

/-- Some of the reads fail. -/
structure AaveReads.Part (got full : AaveReads) : Prop where
  getAddress : got.getAddress = full.getAddress
  addresses : Lost got.addresses full.addresses
  userAccountData : Lost got.userAccountData full.userAccountData
  curated : Lost got.curated full.curated
  reserveData : ∀ addr, Lost (got.reserveData addr) (full.reserveData addr)
  balanceOf : ∀ addr, Lost (got.balanceOf addr) (full.balanceOf addr)
  assetPrice : ∀ addr, Lost (got.assetPrice addr) (full.assetPrice addr)

/-- The same entry, whatever its value. -/
def ValuedPosition.SameEntry (q p : ValuedPosition) : Prop :=
  q.protocol = p.protocol ∧ q.kind = p.kind ∧
    q.legs.map (fun leg => (leg.token.toLower, leg.amount, leg.isDebt)) =
      p.legs.map fun leg => (leg.token.toLower, leg.amount, leg.isDebt)

theorem ValuedPosition.SameEntry.refl (p : ValuedPosition) : p.SameEntry p := ⟨rfl, rfl, rfl⟩

/-- The reads of the reserve of an asset are swallowed. -/
def SwallowedReserve (got : AaveReads) (p : ValuedPosition) : Prop :=
  ∃ curated ∈ got.curated, ∃ t ∈ curated, readReserve got t = none ∧
    ∃ asset ∈ got.getAddress t.address, ∃ leg ∈ p.legs, leg.token = asset

section Part

variable {got full : AaveReads}

/-- What is read of a reserve is what would be read. -/
theorem AaveReads.Part.reserveTokens (h : got.Part full) {t : CuratedToken} {tokens : String × String}
    (hread : Cockpit.reserveTokens got t = some tokens) :
    Cockpit.reserveTokens full t = some tokens := by
  rw [Cockpit.reserveTokens] at hread ⊢
  obtain ⟨rd, hrd, hread⟩ := Option.bind_eq_some_iff.1 hread
  rw [(h.reserveData _).eq_some hrd, ← h.getAddress]
  exact hread

/-- What is read of a reserve is there. -/
theorem AaveReads.Part.readReserve (h : got.Part full) {t : CuratedToken} {r : AaveReserveRead}
    (hread : Cockpit.readReserve got t = some r) : Cockpit.readReserve full t = some r := by
  rw [Cockpit.readReserve] at hread ⊢
  obtain ⟨tokens, htokens, hread⟩ := Option.bind_eq_some_iff.1 hread
  obtain ⟨supplied, hsupplied, hread⟩ := Option.bind_eq_some_iff.1 hread
  obtain ⟨debt, hdebt, hread⟩ := Option.bind_eq_some_iff.1 hread
  obtain ⟨price, hprice, hread⟩ := Option.bind_eq_some_iff.1 hread
  rw [h.reserveTokens htokens, ← h.getAddress]
  simp only [Option.bind_eq_bind, Option.bind_some, (h.balanceOf _).eq_some hsupplied,
    (h.balanceOf _).eq_some hdebt, (h.assetPrice _).eq_some hprice]
  exact hread

/-- The parts of a read. -/
theorem AaveReads.read_eq_some {reads : AaveReads} {raw : AaveRawRead} :
    reads.read = some raw ↔ reads.addresses.isSome ∧ ∃ curated, reads.curated = some curated ∧
      reads.userAccountData = some raw.account ∧
      raw.reserves = curated.filterMap (Cockpit.readReserve reads) ∧
      raw.claimed = (curated.filterMap (Cockpit.reserveTokens reads)).flatMap
        fun tokens => [tokens.1, tokens.2] := by
  rw [AaveReads.read]
  constructor
  · intro h
    obtain ⟨_, haddresses, h⟩ := Option.bind_eq_some_iff.1 h
    obtain ⟨account, haccount, h⟩ := Option.bind_eq_some_iff.1 h
    obtain ⟨curated, hcurated, h⟩ := Option.bind_eq_some_iff.1 h
    cases h
    refine ⟨?_, curated, hcurated, haccount, rfl, rfl⟩
    rw [haddresses]
    rfl
  · rintro ⟨haddresses, curated, hcurated, haccount, hreserves, hclaimed⟩
    obtain ⟨_, haddresses⟩ := Option.isSome_iff_exists.1 haddresses
    obtain ⟨reserves, account, claimed⟩ := raw
    rw [haddresses, haccount, hcurated]
    cases hreserves
    cases hclaimed
    rfl

/-- With failed reads the adapter claims no more. -/
theorem AaveReads.Part.claimedTokens (h : got.Part full) {tokens tokens' : List String}
    (hgot : got.claimedTokens = some tokens) (hfull : full.claimedTokens = some tokens') {t : String}
    (ht : t ∈ tokens) : t ∈ tokens' := by
  obtain ⟨raw, hraw, rfl⟩ := Option.map_eq_some_iff.1 hgot
  obtain ⟨raw', hraw', rfl⟩ := Option.map_eq_some_iff.1 hfull
  obtain ⟨-, curated, hcurated, -, -, hclaimed⟩ := AaveReads.read_eq_some.1 hraw
  obtain ⟨-, curated', hcurated', -, -, hclaimed'⟩ := AaveReads.read_eq_some.1 hraw'
  have heq := h.curated.eq_some hcurated
  rw [hcurated'] at heq
  cases heq
  rw [hclaimed] at ht
  rw [hclaimed']
  obtain ⟨pair, hpair, ht⟩ := List.mem_flatMap.1 ht
  obtain ⟨token, htoken, hpair⟩ := List.mem_filterMap.1 hpair
  exact List.mem_flatMap.2 ⟨pair, List.mem_filterMap.2 ⟨token, htoken, h.reserveTokens hpair⟩, ht⟩

/-- The positions of a reserve name its asset. -/
theorem mem_reservePositions {netPrincipal : Map String (Option Rat)} {r : AaveReserveRead}
    {p : ValuedPosition} (hp : p ∈ reservePositions netPrincipal r) :
    (∃ leg ∈ p.legs, leg.token = r.asset) ∧
      ∀ netPrincipal', ∃ q ∈ reservePositions netPrincipal' r, q.SameEntry p := by
  rw [reservePositions, List.mem_append] at hp
  rcases hp with hp | hp
  · split at hp
    · rename_i hpos
      rw [List.mem_singleton.1 hp]
      refine ⟨⟨_, List.mem_singleton_self _, rfl⟩, fun netPrincipal' => ?_⟩
      refine ⟨supplyPosition netPrincipal' r, ?_, rfl, rfl, rfl⟩
      rw [reservePositions, if_pos hpos]
      exact List.mem_append_left _ (List.mem_singleton_self _)
    · cases hp
  · split at hp
    · rename_i hpos
      rw [List.mem_singleton.1 hp]
      refine ⟨⟨_, List.mem_singleton_self _, rfl⟩, fun netPrincipal' => ?_⟩
      refine ⟨borrowPosition r, ?_, ValuedPosition.SameEntry.refl _⟩
      rw [reservePositions, if_pos hpos]
      exact List.mem_append_right _ (List.mem_singleton_self _)
    · cases hp

/-- All positions of the adapter are of Aave. -/
theorem buildAavePositions_protocol {reserves : List AaveReserveRead} {account : AaveAccountRead}
    {netPrincipal : Map String (Option Rat)} {p : ValuedPosition}
    (hp : p ∈ buildAavePositions reserves account netPrincipal) : p.protocol = "aave-v3" := by
  rcases List.mem_append.1 hp with hp | hp
  · obtain ⟨r, -, hp⟩ := List.mem_flatMap.1 hp
    rcases List.mem_append.1 hp with hp | hp
    · split at hp
      · rw [List.mem_singleton.1 hp]
        rfl
      · cases hp
    · split at hp
      · rw [List.mem_singleton.1 hp]
        rfl
      · cases hp
  · split at hp
    · rw [List.mem_singleton.1 hp]
      rfl
    · cases hp

/-- A reserve has the checksummed address of its token. -/
theorem readReserve_asset {reads : AaveReads} {t : CuratedToken} {r : AaveReserveRead}
    (h : readReserve reads t = some r) : reads.getAddress t.address = some r.asset := by
  rw [readReserve] at h
  obtain ⟨_, -, h⟩ := Option.bind_eq_some_iff.1 h
  obtain ⟨_, -, h⟩ := Option.bind_eq_some_iff.1 h
  obtain ⟨_, -, h⟩ := Option.bind_eq_some_iff.1 h
  obtain ⟨_, -, h⟩ := Option.bind_eq_some_iff.1 h
  obtain ⟨asset, hasset, h⟩ := Option.bind_eq_some_iff.1 h
  cases h
  exact hasset

/-- **The positions with failed reads** are all but those of the reserves that were skipped. -/
theorem AaveReads.Part.getPositions (h : got.Part full) {positions positions' : List ValuedPosition}
    (hgot : got.getPositions = some positions) (hfull : full.getPositions = some positions')
    {p : ValuedPosition} (hp : p ∈ positions') :
    (∃ q ∈ positions, q.SameEntry p) ∨ SwallowedReserve got p := by
  obtain ⟨raw, hraw, rfl⟩ := Option.map_eq_some_iff.1 hgot
  obtain ⟨raw', hraw', rfl⟩ := Option.map_eq_some_iff.1 hfull
  obtain ⟨-, curated, hcurated, haccount, hreserves, -⟩ := AaveReads.read_eq_some.1 hraw
  obtain ⟨-, curated', hcurated', haccount', hreserves', -⟩ := AaveReads.read_eq_some.1 hraw'
  have heq := h.curated.eq_some hcurated
  rw [hcurated'] at heq
  cases heq
  rw [buildAavePositions, List.mem_append] at hp
  rcases hp with hp | hp
  · obtain ⟨r, hr, hp⟩ := List.mem_flatMap.1 hp
    rw [hreserves'] at hr
    obtain ⟨t, ht, hread⟩ := List.mem_filterMap.1 hr
    obtain ⟨⟨leg, hleg, hasset⟩, hsame⟩ := mem_reservePositions hp
    -- the reserve is skipped, or it is read as where no read fails
    cases hreadGot : Cockpit.readReserve got t with
    | none =>
      right
      refine ⟨curated, hcurated, t, ht, hreadGot, r.asset, ?_, leg, hleg, hasset⟩
      rw [h.getAddress]
      exact readReserve_asset hread
    | some r' =>
      have heq := h.readReserve hreadGot
      rw [hread] at heq
      cases heq
      obtain ⟨q, hq, hentry⟩ := hsame got.netPrincipal
      left
      refine ⟨q, List.mem_append_left _ (List.mem_flatMap.2 ⟨r, ?_, hq⟩), hentry⟩
      rw [hreserves]
      exact List.mem_filterMap.2 ⟨t, ht, hreadGot⟩
  -- the summary only needs the account, which is read in both
  · have heq := h.userAccountData.eq_some haccount
    rw [haccount'] at heq
    left
    refine ⟨p, List.mem_append_right _ ?_, ValuedPosition.SameEntry.refl p⟩
    rw [← Option.some.inj heq]
    exact hp

end Part

end StrategyBuilder.Cockpit
