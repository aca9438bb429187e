import StrategyBuilder.Cockpit.Completeness
import StrategyBuilder.Cockpit.LpMath

/-!
# Positions of the adapters

`lp-position.ts` with `pancake-v3.adapter.ts`: the NFTs of a vault, each read on its own, and what one is
worth; and `conformance.ts`, the contract that every adapter has to meet. What the position manager, the
factory, the pools and the tokens answer is given by `LpReads`; `none` is a call that throws. The cache
of token names is left out: it hands out an earlier answer. Amounts in USD are rationals.

A position has two readings of where the price is: the badge `inRange` goes by the tick of the pool, the
amounts by its price. They agree (`buildLpPosition_agrees`), as the prices of ticks rise. The rows of a
vault meet the contract whatever fails, those of Aave exactly if everything borrowed has a price
(`adapters_conform_iff`).
-/

set_option autoImplicit false

namespace StrategyBuilder.Cockpit

open StrategyBuilder.Contracts
open StrategyBuilder.Lib.Js

/-! ## The contract of adapters -/

/-- `leg.token` is an address. -/
def legViolations (getAddress : String → Option String) (leg : PositionLeg) : List String :=
  if (getAddress leg.token).isSome then [] else ["leg.token invalid: " ++ leg.token]

/-- `validateValuedPosition`; what the types exclude cannot be violated here. -/
def validateValuedPosition (getAddress : String → Option String) (p : ValuedPosition) : List String :=
  (if p.protocol = "" then ["missing protocol"] else []) ++
    (if p.kind = "" then ["missing kind"] else []) ++
    p.legs.flatMap (legViolations getAddress) ++
    (if (p.legs.any PositionLeg.isDebt) ∧ p.valueUsd.any (fun usd => 0 < usd) then
      ["a debt position must have valueUsd ≤ 0"] else []) ++
    if p.kind = "borrow" ∧ p.debtUsd = none then ["a borrow position must carry debtUsd"] else []

/-- `validatePositions`: the violations of all positions, each with its index. -/
def validatePositions (getAddress : String → Option String) (positions : List ValuedPosition) :
    List String :=
  positions.zipIdx.flatMap fun (p, i) =>
    (validateValuedPosition getAddress p).map fun e => "position[" ++ toString i ++ "]: " ++ e

section Contract

variable {getAddress : String → Option String} {p : ValuedPosition} {positions : List ValuedPosition}

/-- What is left of the rules where the texts are given and the addresses good: a borrowed position
needs its debt. -/
theorem validateValuedPosition_eq_nil (hprotocol : p.protocol ≠ "") (hkind : p.kind ≠ "")
    (hlegs : ∀ leg ∈ p.legs, (getAddress leg.token).isSome = true)
    (hdebt : (p.legs.any PositionLeg.isDebt) = true → ∀ usd, p.valueUsd = some usd → usd ≤ 0) :
    validateValuedPosition getAddress p = [] ↔ (p.kind = "borrow" → p.debtUsd ≠ none) := by
  have hviolations : p.legs.flatMap (legViolations getAddress) = [] := by
    rw [List.flatMap_eq_nil_iff]
    intro leg hleg
    rw [legViolations, if_pos (hlegs leg hleg)]
  have hsign : ¬ ((p.legs.any PositionLeg.isDebt) = true ∧
      p.valueUsd.any (fun usd => 0 < usd) = true) := by
    rintro ⟨hany, hpos⟩
    obtain ⟨usd, husd, hgt⟩ := (Option.any_eq_true _ _).1 hpos
    exact absurd (of_decide_eq_true hgt) (not_lt.2 (hdebt hany usd husd))
  rw [validateValuedPosition, if_neg hprotocol, if_neg hkind, hviolations, if_neg hsign]
  split
  · rename_i hborrow
    simp [hborrow.1, hborrow.2]
  · rename_i hok
    constructor
    · exact fun _ hkind hnone => hok ⟨hkind, hnone⟩
    · exact fun _ => rfl

/-- A position without a debt conforms. -/
theorem conforms_of_no_debt (hprotocol : p.protocol ≠ "") (hkind : p.kind ≠ "")
    (hborrow : p.kind ≠ "borrow") (hdebt : (p.legs.any PositionLeg.isDebt) = false)
    (hlegs : ∀ leg ∈ p.legs, (getAddress leg.token).isSome = true) :
    validateValuedPosition getAddress p = [] := by
  refine (validateValuedPosition_eq_nil hprotocol hkind hlegs ?_).2 ?_
  · intro hany
    rw [hdebt] at hany
    cases hany
  · exact fun hkind => (hborrow hkind).elim

/-- All positions conform if each of them does. -/
theorem validatePositions_eq_nil : validatePositions getAddress positions = [] ↔
    ∀ p ∈ positions, validateValuedPosition getAddress p = [] := by
  rw [validatePositions, List.flatMap_eq_nil_iff]
  constructor
  · intro h p hp
    obtain ⟨i, hi, rfl⟩ := List.getElem_of_mem hp
    exact List.map_eq_nil_iff.1 (h (positions[i], i) (List.mk_mem_zipIdx_iff_getElem?.2
      (List.getElem?_eq_getElem hi)))
  · rintro h ⟨p, i⟩ hp
    exact List.map_eq_nil_iff.2 (h p (List.fst_mem_of_mem_zipIdx hp))

end Contract

/-! ## A position from its reads -/

namespace LpPosition

/-- What is read of a position, its pool and its tokens. -/
structure LpRawRead where
  tokenId : Nat
  token0 : String
  token1 : String
  fee : Nat
  tickLower : Int
  tickUpper : Int
  liquidity : Nat
  sqrtPriceX96 : Nat
  currentTick : Int
  decimals0 : Nat
  symbol0 : String
  decimals1 : Nat
  symbol1 : String
  uncollected0 : Nat
  uncollected1 : Nat
  price0 : Option Rat
  price1 : Option Rat
deriving DecidableEq, Repr

/-- `metrics` of a position. -/
structure LpMetrics where
  inRange : Bool
  feeTier : Nat
  tickLower : Int
  tickUpper : Int
  uncollectedFees0 : String
  uncollectedFees1 : String
  uncollectedUsd : Option Rat
deriving DecidableEq, Repr

/-- The value of an amount of base units at a price. -/
def tokenUsd (amount : Int) (decimals : Nat) (price : Rat) : Rat := amount / 10 ^ decimals * price

/-- The sum of two values, of which one may be unknown. -/
def sum (a b : Option Rat) : Option Rat :=
  if a = none ∧ b = none then none else some (a.getD 0 + b.getD 0)

/-- The row of a position that holds these amounts. -/
def lpRow (r : LpRawRead) (amounts : LpMath.Amounts) : ValuedPosition :=
  let total0 := amounts.amount0 + r.uncollected0
  let total1 := amounts.amount1 + r.uncollected1
  { protocol := "pancakeswap-v3"
    kind := "lp"
    label := r.symbol0 ++ "/" ++ r.symbol1 ++ " #" ++ toString r.tokenId
    legs := [
      { token := r.token0
        symbol := r.symbol0
        decimals := r.decimals0
        amount := toString amounts.amount0
        amountUsd := r.price0.map (tokenUsd amounts.amount0 r.decimals0) },
      { token := r.token1
        symbol := r.symbol1
        decimals := r.decimals1
        amount := toString amounts.amount1
        amountUsd := r.price1.map (tokenUsd amounts.amount1 r.decimals1) }]
    -- principal and uncollected fees
    valueUsd := sum (r.price0.map (tokenUsd total0 r.decimals0))
      (r.price1.map (tokenUsd total1 r.decimals1))
    earningsUsd := sum (r.price0.map (tokenUsd r.uncollected0 r.decimals0))
      (r.price1.map (tokenUsd r.uncollected1 r.decimals1)) }

/-- The metrics of a position: the badge, the range and the fees to collect. -/
def lpMetrics (r : LpRawRead) : LpMetrics where
  inRange := r.tickLower ≤ r.currentTick && r.currentTick < r.tickUpper
  feeTier := r.fee
  tickLower := r.tickLower
  tickUpper := r.tickUpper
  uncollectedFees0 := toString r.uncollected0
  uncollectedFees1 := toString r.uncollected1
  uncollectedUsd := sum (r.price0.map (tokenUsd r.uncollected0 r.decimals0))
    (r.price1.map (tokenUsd r.uncollected1 r.decimals1))

/-- `buildLpPosition`: the amounts at the price of the pool, with the metrics. A tick out of bounds
throws. -/
def buildLpPosition (r : LpRawRead) : Except String (ValuedPosition × LpMetrics) := do
  let sqrtLower ← LpMath.getSqrtRatioAtTick r.tickLower
  let sqrtUpper ← LpMath.getSqrtRatioAtTick r.tickUpper
  let amounts ← LpMath.getAmountsForLiquidity r.sqrtPriceX96 sqrtLower sqrtUpper r.liquidity
  return (lpRow r amounts, lpMetrics r)

/-! ## The tick and the price -/

/-- What a pool keeps of its `slot0`: the price is between that of its tick and that of the next one. It
is the latter after a swap that stopped there coming down. -/
def AtTick (sqrtPriceX96 : Nat) (tick : Int) : Prop :=
  ∃ lo hi, LpMath.getSqrtRatioAtTick tick = .ok lo ∧ LpMath.getSqrtRatioAtTick (tick + 1) = .ok hi ∧
    lo ≤ sqrtPriceX96 ∧ sqrtPriceX96 ≤ hi

/-- The ticks that have a price, and their price. -/
theorem getSqrtRatioAtTick_eq_ok {tick : Int} {ratio : Nat} :
    LpMath.getSqrtRatioAtTick tick = .ok ratio ↔
      tick.natAbs ≤ 887272 ∧ ratio = TickMath.roundedUp (TickMath.sqrtPriceX128 tick) := by
  rw [LpMath.getSqrtRatioAtTick_eq]
  split
  · rename_i hout
    constructor
    · intro h
      cases h
    · rintro ⟨hin, -⟩
      omega
  · rename_i hin
    constructor
    · intro h
      cases h
      exact ⟨by omega, rfl⟩
    · rintro ⟨-, rfl⟩
      rfl

theorem ratio_mono {tick tick' : Int} {ratio ratio' : Nat}
    (h : LpMath.getSqrtRatioAtTick tick = .ok ratio) (h' : LpMath.getSqrtRatioAtTick tick' = .ok ratio')
    (hle : tick ≤ tick') : ratio ≤ ratio' := by
  obtain ⟨hin, rfl⟩ := getSqrtRatioAtTick_eq_ok.1 h
  obtain ⟨hin', rfl⟩ := getSqrtRatioAtTick_eq_ok.1 h'
  exact TickMath.roundedUp_mono (TickMath.sqrtPriceX128_mono (by omega) hle (by omega))

/-- The price of a tick is not zero. -/
theorem ratio_pos {tick : Int} {ratio : Nat} (h : LpMath.getSqrtRatioAtTick tick = .ok ratio) :
    0 < ratio := by
  -- every price is at least that of the lowest tick
  have hlowest : LpMath.getSqrtRatioAtTick (-887272) = .ok 4295128739 := by
    decide
  obtain ⟨hin, -⟩ := getSqrtRatioAtTick_eq_ok.1 h
  exact lt_of_lt_of_le (by decide) (ratio_mono hlowest h (by omega))

/-- The price is outside of a range if the tick is. -/
theorem AtTick.le_of_lt {price : Nat} {tick bound : Int} {ratio : Nat} (h : AtTick price tick)
    (hbound : LpMath.getSqrtRatioAtTick bound = .ok ratio) (hlt : tick < bound) : price ≤ ratio := by
  obtain ⟨_, hi, -, hnext, -, hle⟩ := h
  exact hle.trans (ratio_mono hnext hbound (by omega))

theorem AtTick.ge_of_le {price : Nat} {tick bound : Int} {ratio : Nat} (h : AtTick price tick)
    (hbound : LpMath.getSqrtRatioAtTick bound = .ok ratio) (hle : bound ≤ tick) : ratio ≤ price := by
  obtain ⟨lo, _, hthis, -, hge, -⟩ := h
  exact (ratio_mono hbound hthis hle).trans hge

/-- The row of a position in terms of its amounts. -/
theorem buildLpPosition_eq_ok {r : LpRawRead} {p : ValuedPosition} {m : LpMetrics} :
    buildLpPosition r = .ok (p, m) ↔ ∃ lower upper amounts,
      LpMath.getSqrtRatioAtTick r.tickLower = .ok lower ∧
      LpMath.getSqrtRatioAtTick r.tickUpper = .ok upper ∧
      LpMath.getAmountsForLiquidity r.sqrtPriceX96 lower upper r.liquidity = .ok amounts ∧
      lpRow r amounts = p ∧ lpMetrics r = m := by
  rw [buildLpPosition]
  constructor
  · intro h
    cases hlower : LpMath.getSqrtRatioAtTick r.tickLower with
    | error e =>
      rw [hlower] at h
      cases h
    | ok lower =>
      cases hupper : LpMath.getSqrtRatioAtTick r.tickUpper with
      | error e =>
        rw [hlower, hupper] at h
        cases h
      | ok upper =>
        cases hamounts : LpMath.getAmountsForLiquidity r.sqrtPriceX96 lower upper r.liquidity with
        | error e =>
          simp only [hlower, hupper, bind, Except.bind, hamounts] at h
          cases h
        | ok amounts =>
          simp only [hlower, hupper, bind, Except.bind, hamounts] at h
          cases h
          exact ⟨lower, upper, amounts, rfl, rfl, hamounts, rfl, rfl⟩
  · rintro ⟨lower, upper, amounts, hlower, hupper, hamounts, rfl, rfl⟩
    simp only [hlower, hupper, bind, Except.bind, hamounts]
    rfl

/-- **The badge and the amounts of a position agree.** In range, the price lies between the bounds and
the amounts are those of this price; out of range, the price is beyond a bound and all is in one token,
with the amount that the whole range holds of it. -/
theorem buildLpPosition_agrees {r : LpRawRead} (hslot : AtTick r.sqrtPriceX96 r.currentTick)
    (hlow : -887272 ≤ r.tickLower) (hlt : r.tickLower < r.tickUpper) (hhigh : r.tickUpper ≤ 887272) :
    ∃ p m lower upper leg0 leg1, buildLpPosition r = .ok (p, m) ∧ p.legs = [leg0, leg1] ∧
      leg0.token = r.token0 ∧ leg1.token = r.token1 ∧
      LpMath.getSqrtRatioAtTick r.tickLower = .ok lower ∧
      LpMath.getSqrtRatioAtTick r.tickUpper = .ok upper ∧
      (m.inRange = true ↔ r.tickLower ≤ r.currentTick ∧ r.currentTick < r.tickUpper) ∧
      (m.inRange = true → lower ≤ r.sqrtPriceX96 ∧ r.sqrtPriceX96 ≤ upper ∧
        leg0.amount = toString ((r.liquidity * 2 ^ 96 * (upper - r.sqrtPriceX96) /
          (upper * r.sqrtPriceX96) : Int)) ∧
        leg1.amount = toString ((r.liquidity * (r.sqrtPriceX96 - lower) / 2 ^ 96 : Int))) ∧
      (m.inRange = false →
        (r.sqrtPriceX96 ≤ lower ∧ leg1.amount = "0" ∧
          leg0.amount = toString ((r.liquidity * 2 ^ 96 * (upper - lower) / (upper * lower) : Int))) ∨
        (upper ≤ r.sqrtPriceX96 ∧ leg0.amount = "0" ∧
          leg1.amount = toString ((r.liquidity * (upper - lower) / 2 ^ 96 : Int)))) := by
  obtain ⟨lower, hlower⟩ : ∃ lower, LpMath.getSqrtRatioAtTick r.tickLower = .ok lower :=
    ⟨_, getSqrtRatioAtTick_eq_ok.2 ⟨by omega, rfl⟩⟩
  obtain ⟨upper, hupper⟩ : ∃ upper, LpMath.getSqrtRatioAtTick r.tickUpper = .ok upper :=
    ⟨_, getSqrtRatioAtTick_eq_ok.2 ⟨by omega, rfl⟩⟩
  have hle : (lower : Int) ≤ upper := Int.ofNat_le.2 (ratio_mono hlower hupper hlt.le)
  have hpos : (0 : Int) < lower := Int.ofNat_lt.2 (ratio_pos hlower)
  have hamounts := LpMath.getAmountsForLiquidity_eq (p := r.sqrtPriceX96)
    (Int.natCast_nonneg r.liquidity) hpos (lt_of_lt_of_le hpos hle)
  rw [min_eq_left hle, max_eq_right hle] at hamounts
  refine ⟨_, _, lower, upper, _, _,
    buildLpPosition_eq_ok.2 ⟨lower, upper, _, hlower, hupper, hamounts, rfl, rfl⟩, rfl, rfl, rfl,
    hlower, hupper, ?_, ?_, ?_⟩
  · rw [lpMetrics, Bool.and_eq_true_iff, decide_eq_true_iff, decide_eq_true_iff]
  · intro hin
    obtain ⟨hge, hup⟩ := Bool.and_eq_true_iff.1 hin
    have habove := hslot.ge_of_le hlower (of_decide_eq_true hge)
    have hbelow := hslot.le_of_lt hupper (of_decide_eq_true hup)
    have hclamp : LpMath.clamp lower upper r.sqrtPriceX96 = r.sqrtPriceX96 := by
      rw [LpMath.clamp, min_eq_left (Int.ofNat_le.2 hbelow), max_eq_right (Int.ofNat_le.2 habove)]
    refine ⟨habove, hbelow, ?_, ?_⟩
    · show toString _ = _
      rw [hclamp]
    · show toString _ = _
      rw [hclamp]
  · intro hout
    -- the tick is below the lower bound, or it has reached the upper one
    by_cases hge : r.tickLower ≤ r.currentTick
    · right
      have hup : r.tickUpper ≤ r.currentTick := by
        by_contra hlt
        have hin : (lpMetrics r).inRange = true :=
          Bool.and_eq_true_iff.2 ⟨decide_eq_true hge, decide_eq_true (not_le.1 hlt)⟩
        rw [hin] at hout
        cases hout
      have habove := hslot.ge_of_le hupper hup
      have hclamp := LpMath.clamp_of_ge hle (Int.ofNat_le.2 habove)
      refine ⟨habove, ?_, ?_⟩
      · show toString _ = _
        rw [hclamp, sub_self, mul_zero, Int.zero_ediv]
        rfl
      · show toString _ = _
        rw [hclamp]
    · left
      have hbelow := hslot.le_of_lt hlower (not_le.1 hge)
      have hclamp : LpMath.clamp lower upper r.sqrtPriceX96 = lower :=
        LpMath.clamp_of_le (Int.ofNat_le.2 hbelow)
      refine ⟨hbelow, ?_, ?_⟩
      · show toString _ = _
        rw [hclamp, sub_self, mul_zero, Int.zero_ediv]
        rfl
      · show toString _ = _
        rw [hclamp]

/-- A position in the pool of USDT and WBNB, after a swap that came down to the price of its upper bound:
the tick is already in range. -/
def samplePosition : LpRawRead where
  tokenId := 42
  token0 := "0x55d398326f99059fF775485246999027B3197955"
  token1 := "0xbb4CdB9CBd36B01bD1cBaEBF2De08d9173bc095c"
  fee := 500
  tickLower := -60
  tickUpper := 60
  liquidity := 10 ^ 18
  sqrtPriceX96 := 79466191966197645195421774833
  currentTick := 59
  decimals0 := 18
  symbol0 := "USDT"
  decimals1 := 18
  symbol1 := "WBNB"
  uncollected0 := 0
  uncollected1 := 0
  price0 := some 1
  price1 := some 600

theorem sample_lower : LpMath.getSqrtRatioAtTick (-60) = .ok 78990846045029531151608375686 := by
  decide

theorem sample_upper : LpMath.getSqrtRatioAtTick 60 = .ok 79466191966197645195421774833 := by
  decide

theorem samplePosition_atTick : AtTick samplePosition.sqrtPriceX96 samplePosition.currentTick := by
  obtain ⟨lo, hlo⟩ : ∃ lo, LpMath.getSqrtRatioAtTick 59 = .ok lo :=
    ⟨_, getSqrtRatioAtTick_eq_ok.2 ⟨by decide, rfl⟩⟩
  exact ⟨lo, _, hlo, sample_upper, ratio_mono hlo sample_upper (by decide), le_rfl⟩

/-- The same position after a swap that went up to the price of its upper bound. -/
def crossedPosition : LpRawRead := { samplePosition with currentTick := 60 }

theorem crossedPosition_atTick : AtTick crossedPosition.sqrtPriceX96 crossedPosition.currentTick := by
  obtain ⟨hi, hhi⟩ : ∃ hi, LpMath.getSqrtRatioAtTick 61 = .ok hi :=
    ⟨_, getSqrtRatioAtTick_eq_ok.2 ⟨by decide, rfl⟩⟩
  exact ⟨_, hi, sample_upper, hhi, le_rfl, ratio_mono sample_upper hhi (by decide)⟩

/-- At the upper bound all is in the second token, whether the badge says in range or out of range. -/
theorem buildLpPosition_agrees_sample :
    (∃ p m leg0 leg1, buildLpPosition samplePosition = .ok (p, m) ∧ p.legs = [leg0, leg1] ∧
      m.inRange = true ∧ leg0.amount = toString (0 : Int) ∧
      leg1.amount = toString (5999709018652706 : Int)) ∧
    ∃ p m leg0 leg1, buildLpPosition crossedPosition = .ok (p, m) ∧ p.legs = [leg0, leg1] ∧
      m.inRange = false ∧ leg0.amount = "0" ∧ leg1.amount = toString (5999709018652706 : Int) := by
  constructor
  · obtain ⟨p, m, lower, upper, leg0, leg1, hbuilt, hlegs, -, -, hlower, hupper, hbadge, hin, -⟩ :=
      buildLpPosition_agrees samplePosition_atTick (by decide) (by decide) (by decide)
    cases hlower.symm.trans sample_lower
    cases hupper.symm.trans sample_upper
    have hrange := hbadge.2 (by decide)
    obtain ⟨-, -, h0, h1⟩ := hin hrange
    exact ⟨p, m, leg0, leg1, hbuilt, hlegs, hrange, h0, h1⟩
  · obtain ⟨p, m, lower, upper, leg0, leg1, hbuilt, hlegs, -, -, hlower, hupper, hbadge, -, hout⟩ :=
      buildLpPosition_agrees crossedPosition_atTick (by decide) (by decide) (by decide)
    cases hlower.symm.trans sample_lower
    cases hupper.symm.trans sample_upper
    have hrange : m.inRange = false := Bool.eq_false_iff.2 fun h => absurd (hbadge.1 h) (by decide)
    rcases hout hrange with ⟨hbelow, -⟩ | ⟨-, h0, h1⟩
    · exact absurd hbelow (by decide)
    · exact ⟨p, m, leg0, leg1, hbuilt, hlegs, hrange, h0, h1⟩

/-! ## The positions of a vault -/

/-- What `positions` of the position manager answers, as far as it is used. -/
structure NpmPosition where
  token0 : String
  token1 : String
  fee : Nat
  tickLower : Int
  tickUpper : Int
  liquidity : Nat
deriving DecidableEq, Repr

/-- The fields of `slot0` that the adapter uses. -/
structure Slot0 where
  sqrtPriceX96 : Nat
  tick : Int
deriving DecidableEq, Repr

/-- What is read of a token. -/
structure TokenMeta where
  symbol : String
  decimals : Nat
deriving DecidableEq, Repr

/-- What is read for a vault: the calls of the position manager, the factory, the pools and the tokens,
and `getPrices`, which never throws. -/
structure LpReads where
  balanceOf : Option Nat
  tokenOfOwnerByIndex : Nat → Option Nat
  positions : Nat → Option NpmPosition
  collect : Nat → Option (Nat × Nat)
  getAddress : String → Option String
  getPool : String → String → Nat → Option String
  slot0 : String → Option Slot0
  tokenMeta : String → Option TokenMeta
  prices : Map String Rat

/-- `some none` for a closed position without fees. -/
def readPosition (reads : LpReads) (tokenId : Nat) : Option (Option LpRawRead) := do
  let pos ← reads.positions tokenId
  let (fee0, fee1) ← reads.collect tokenId
  if pos.liquidity = 0 ∧ fee0 = 0 ∧ fee1 = 0 then some none
  else do
    let token0 ← reads.getAddress pos.token0
    let token1 ← reads.getAddress pos.token1
    let poolAddr ← reads.getPool token0 token1 pos.fee
    let slot0 ← reads.slot0 poolAddr
    let meta0 ← reads.tokenMeta token0
    let meta1 ← reads.tokenMeta token1
    some (some {
      tokenId := tokenId
      token0 := token0
      token1 := token1
      fee := pos.fee
      tickLower := pos.tickLower
      tickUpper := pos.tickUpper
      liquidity := pos.liquidity
      sqrtPriceX96 := slot0.sqrtPriceX96
      currentTick := slot0.tick
      decimals0 := meta0.decimals
      symbol0 := meta0.symbol
      decimals1 := meta1.decimals
      symbol1 := meta1.symbol
      uncollected0 := fee0
      uncollected1 := fee1
      price0 := reads.prices token0
      price1 := reads.prices token1 })

/-- The row of what is read; a position that cannot be built is one that cannot be read. -/
def rowOf (raw : Option LpRawRead) : Option (Option ValuedPosition) :=
  match raw with
  | none => some none
  | some raw => (buildLpPosition raw).toOption.map fun built => some built.1

/-- The reads of the adapter, each position as the row that is built from it. -/
def LpReads.pancake (npmAddress : String) (reads : LpReads) : PancakeReads where
  npmAddress := npmAddress
  balanceOf := reads.balanceOf
  tokenOfOwnerByIndex := reads.tokenOfOwnerByIndex
  readPosition tokenId := (readPosition reads tokenId).bind rowOf

/-- Some of the reads fail; prices may come out otherwise. -/
structure LpReads.Part (got full : LpReads) : Prop where
  getAddress : got.getAddress = full.getAddress
  balanceOf : Lost got.balanceOf full.balanceOf
  tokenOfOwnerByIndex : ∀ i, Lost (got.tokenOfOwnerByIndex i) (full.tokenOfOwnerByIndex i)
  positions : ∀ id, Lost (got.positions id) (full.positions id)
  collect : ∀ id, Lost (got.collect id) (full.collect id)
  getPool : ∀ token0 token1 fee, Lost (got.getPool token0 token1 fee) (full.getPool token0 token1 fee)
  slot0 : ∀ pool, Lost (got.slot0 pool) (full.slot0 pool)
  tokenMeta : ∀ token, Lost (got.tokenMeta token) (full.tokenMeta token)

/-- The parts of a read. -/
theorem readPosition_eq_some {reads : LpReads} {tokenId : Nat} {answer : Option LpRawRead} :
    readPosition reads tokenId = some answer ↔ ∃ pos fees, reads.positions tokenId = some pos ∧
      reads.collect tokenId = some fees ∧
      ((answer = none ∧ pos.liquidity = 0 ∧ fees.1 = 0 ∧ fees.2 = 0) ∨
        ¬ (pos.liquidity = 0 ∧ fees.1 = 0 ∧ fees.2 = 0) ∧ ∃ token0 token1 pool slot meta0 meta1,
          reads.getAddress pos.token0 = some token0 ∧ reads.getAddress pos.token1 = some token1 ∧
          reads.getPool token0 token1 pos.fee = some pool ∧ reads.slot0 pool = some slot ∧
          reads.tokenMeta token0 = some meta0 ∧ reads.tokenMeta token1 = some meta1 ∧
          answer = some
            { tokenId := tokenId, token0 := token0, token1 := token1, fee := pos.fee,
              tickLower := pos.tickLower, tickUpper := pos.tickUpper, liquidity := pos.liquidity,
              sqrtPriceX96 := slot.sqrtPriceX96, currentTick := slot.tick,
              decimals0 := meta0.decimals, symbol0 := meta0.symbol,
              decimals1 := meta1.decimals, symbol1 := meta1.symbol,
              uncollected0 := fees.1, uncollected1 := fees.2,
              price0 := reads.prices token0, price1 := reads.prices token1 }) := by
  rw [readPosition]
  constructor
  · intro h
    obtain ⟨pos, hpos, h⟩ := Option.bind_eq_some_iff.1 h
    obtain ⟨fees, hfees, h⟩ := Option.bind_eq_some_iff.1 h
    refine ⟨pos, fees, hpos, hfees, ?_⟩
    dsimp only at h
    split at h
    -- a position without liquidity and fees is skipped before anything else is read
    · rename_i hclosed
      cases h
      exact Or.inl ⟨rfl, hclosed⟩
    · rename_i hopen
      obtain ⟨token0, htoken0, h⟩ := Option.bind_eq_some_iff.1 h
      obtain ⟨token1, htoken1, h⟩ := Option.bind_eq_some_iff.1 h
      obtain ⟨pool, hpool, h⟩ := Option.bind_eq_some_iff.1 h
      obtain ⟨slot, hslot, h⟩ := Option.bind_eq_some_iff.1 h
      obtain ⟨meta0, hmeta0, h⟩ := Option.bind_eq_some_iff.1 h
      obtain ⟨meta1, hmeta1, h⟩ := Option.bind_eq_some_iff.1 h
      cases h
      exact Or.inr ⟨hopen, token0, token1, pool, slot, meta0, meta1, htoken0, htoken1, hpool, hslot,
        hmeta0, hmeta1, rfl⟩
  · rintro ⟨pos, fees, hpos, hfees, ⟨rfl, hclosed⟩ | ⟨hopen, token0, token1, pool, slot, meta0, meta1,
      htoken0, htoken1, hpool, hslot, hmeta0, hmeta1, rfl⟩⟩
    · simp only [hpos, hfees, Option.bind_eq_bind, Option.bind_some, if_pos hclosed]
    · simp only [hpos, hfees, Option.bind_eq_bind, Option.bind_some, if_neg hopen, htoken0, htoken1,
        hpool, hslot, hmeta0, hmeta1]

/-- A row is that of the amounts. -/
theorem rowOf_eq_some {raw : LpRawRead} {p : ValuedPosition} (h : rowOf (some raw) = some (some p)) :
    ∃ amounts, p = lpRow raw amounts := by
  rw [rowOf] at h
  cases hbuilt : buildLpPosition raw with
  | error e =>
    rw [hbuilt] at h
    cases h
  | ok built =>
    rw [hbuilt] at h
    obtain ⟨_, _, amounts, -, -, -, hp, -⟩ := buildLpPosition_eq_ok.1 hbuilt
    cases h
    exact ⟨amounts, hp.symm⟩

/-- The rows of two reads that differ in prices are of the same entry. -/
theorem rowOf_sameEntry {r : LpRawRead} (price0 price1 : Option Rat) :
    rowOf (some r) = none ∨ Option.Rel (Option.Rel ValuedPosition.SameEntry) (rowOf (some r))
      (rowOf (some { r with price0 := price0, price1 := price1 })) := by
  cases hbuilt : buildLpPosition r with
  | error e =>
    left
    rw [rowOf, hbuilt]
    rfl
  | ok built =>
    obtain ⟨p, m⟩ := built
    obtain ⟨lower, upper, amounts, hlower, hupper, hamounts, rfl, rfl⟩ := buildLpPosition_eq_ok.1 hbuilt
    -- neither the prices of the bounds nor the amounts depend on prices in USD
    have hother : buildLpPosition { r with price0 := price0, price1 := price1 } =
        .ok (lpRow { r with price0 := price0, price1 := price1 } amounts,
          lpMetrics { r with price0 := price0, price1 := price1 }) :=
      buildLpPosition_eq_ok.2 ⟨lower, upper, amounts, hlower, hupper, hamounts, rfl, rfl⟩
    right
    rw [rowOf, rowOf, hbuilt, hother]
    exact Option.Rel.some (Option.Rel.some ⟨rfl, rfl, rfl⟩)

/-- What fails for an NFT fails for it alone. -/
theorem LpReads.Part.pancake {got full : LpReads} (h : got.Part full) (npmAddress : String) :
    (got.pancake npmAddress).Part (full.pancake npmAddress) where
  npmAddress := rfl
  balanceOf := h.balanceOf
  tokenOfOwnerByIndex := h.tokenOfOwnerByIndex
  readPosition tokenId := by
    show (readPosition got tokenId).bind rowOf = none ∨ Option.Rel _
      ((readPosition got tokenId).bind rowOf) ((readPosition full tokenId).bind rowOf)
    cases hread : readPosition got tokenId with
    | none => exact Or.inl rfl
    | some answer =>
      obtain ⟨pos, fees, hpos, hfees, ⟨rfl, hclosed⟩ | ⟨hopen, token0, token1, pool, slot, meta0, meta1,
        htoken0, htoken1, hpool, hslot, hmeta0, hmeta1, rfl⟩⟩ := readPosition_eq_some.1 hread
      · right
        -- what was read to skip the position is there in the full reads too
        have hfull : readPosition full tokenId = some none :=
          readPosition_eq_some.2 ⟨pos, fees, (h.positions _).eq_some hpos, (h.collect _).eq_some hfees,
            Or.inl ⟨rfl, hclosed⟩⟩
        rw [hfull]
        exact Option.Rel.some Option.Rel.none
      -- the rows may differ in their prices, which make no difference to the entry
      · have hfull := readPosition_eq_some.2 ⟨pos, fees, (h.positions tokenId).eq_some hpos,
          (h.collect tokenId).eq_some hfees, Or.inr ⟨hopen, token0, token1, pool, slot, meta0, meta1,
            h.getAddress ▸ htoken0, h.getAddress ▸ htoken1, (h.getPool _ _ _).eq_some hpool,
            (h.slot0 _).eq_some hslot, (h.tokenMeta _).eq_some hmeta0, (h.tokenMeta _).eq_some hmeta1,
            rfl⟩⟩
        rw [hfull]
        exact rowOf_sameEntry _ _

end LpPosition

/-! ## Rows that meet the contract -/

section Rows

variable {getAddress : String → Option String}

/-- The row of a position conforms. -/
theorem LpPosition.lpRow_conforms {r : LpPosition.LpRawRead} {amounts : LpMath.Amounts}
    (h0 : (getAddress r.token0).isSome = true) (h1 : (getAddress r.token1).isSome = true) :
    validateValuedPosition getAddress (LpPosition.lpRow r amounts) = [] := by
  refine conforms_of_no_debt (show "pancakeswap-v3" ≠ "" by decide) (show "lp" ≠ "" by decide)
    (show "lp" ≠ "borrow" by decide) rfl ?_
  intro leg hleg
  rcases List.mem_cons.1 hleg with rfl | hleg
  · exact h0
  · rw [List.mem_singleton.1 hleg]
    exact h1

theorem pancakeError_conforms (tokenId : Option Nat) :
    validateValuedPosition getAddress (pancakeError tokenId) = [] := rfl

/-- The row of an NFT meets the contract, whether it is read or not. -/
theorem LpPosition.pancakePosition_conforms {reads : LpPosition.LpReads} {npmAddress : String}
    (hidem : ∀ s a, reads.getAddress s = some a → reads.getAddress a = some a) {i : Nat}
    {p : ValuedPosition} (h : pancakePosition (reads.pancake npmAddress) i = some p) :
    validateValuedPosition reads.getAddress p = [] := by
  rw [pancakePosition] at h
  cases hid : (reads.pancake npmAddress).tokenOfOwnerByIndex i with
  | none =>
    rw [hid] at h
    cases h
    exact pancakeError_conforms none
  | some tokenId =>
    rw [hid] at h
    dsimp only at h
    cases hrow : (reads.pancake npmAddress).readPosition tokenId with
    | none =>
      rw [hrow] at h
      cases h
      exact pancakeError_conforms (some tokenId)
    | some row =>
      rw [hrow] at h
      dsimp only at h
      subst h
      obtain ⟨answer, hread, hrow⟩ := Option.bind_eq_some_iff.1 hrow
      obtain ⟨pos, fees, -, -, ⟨rfl, -⟩ | ⟨-, token0, token1, pool, slot, meta0, meta1, htoken0, htoken1,
        -, -, -, -, rfl⟩⟩ := LpPosition.readPosition_eq_some.1 hread
      -- a closed position has no row
      · cases hrow
      · obtain ⟨amounts, rfl⟩ := LpPosition.rowOf_eq_some hrow
        exact LpPosition.lpRow_conforms (Option.isSome_of_eq_some (hidem _ _ htoken0))
          (Option.isSome_of_eq_some (hidem _ _ htoken1))

/-- What is read of a reserve: its asset is an address, its price is not negative. -/
theorem readReserve_sound {reads : AaveReads} {t : CuratedToken} {r : AaveReserveRead}
    (hidem : ∀ s a, reads.getAddress s = some a → reads.getAddress a = some a)
    (h : readReserve reads t = some r) :
    (reads.getAddress r.asset).isSome = true ∧ ∀ usd, r.priceUsd = some usd → 0 ≤ usd := by
  constructor
  · exact Option.isSome_of_eq_some (hidem _ _ (readReserve_asset h))
  · rw [readReserve] at h
    obtain ⟨_, -, h⟩ := Option.bind_eq_some_iff.1 h
    obtain ⟨_, -, h⟩ := Option.bind_eq_some_iff.1 h
    obtain ⟨_, -, h⟩ := Option.bind_eq_some_iff.1 h
    obtain ⟨priceBase, -, h⟩ := Option.bind_eq_some_iff.1 h
    obtain ⟨_, -, h⟩ := Option.bind_eq_some_iff.1 h
    cases h
    intro usd husd
    dsimp only at husd
    split at husd
    · cases husd
      exact div_nonneg (Nat.cast_nonneg _) (by norm_num)
    · cases husd

/-- What is supplied conforms, with a price or without. -/
theorem supplyPosition_conforms {netPrincipal : Map String (Option Rat)} {r : AaveReserveRead}
    (hasset : (getAddress r.asset).isSome = true) :
    validateValuedPosition getAddress (supplyPosition netPrincipal r) = [] := by
  refine conforms_of_no_debt (show "aave-v3" ≠ "" by decide) (show "supply" ≠ "" by decide)
    (show "supply" ≠ "borrow" by decide) rfl ?_
  intro leg hleg
  rw [List.mem_singleton.1 hleg]
  exact hasset

/-- What is borrowed conforms exactly if it has a price. -/
theorem borrowPosition_conforms_iff {r : AaveReserveRead}
    (hasset : (getAddress r.asset).isSome = true) (hprice : ∀ usd, r.priceUsd = some usd → 0 ≤ usd) :
    validateValuedPosition getAddress (borrowPosition r) = [] ↔ r.priceUsd ≠ none := by
  rw [validateValuedPosition_eq_nil (show "aave-v3" ≠ "" by decide) (show "borrow" ≠ "" by decide)]
  · constructor
    · intro h hnone
      refine h rfl ?_
      show r.priceUsd.map _ = none
      rw [hnone]
      rfl
    · intro hsome _ hnone
      exact hsome (Option.map_eq_none_iff.1 hnone)
  · intro leg hleg
    rw [List.mem_singleton.1 hleg]
    exact hasset
  · intro _ usd husd
    obtain ⟨worth, hworth, rfl⟩ := Option.map_eq_some_iff.1 husd
    obtain ⟨price, hpriceUsd, rfl⟩ := Option.map_eq_some_iff.1 hworth
    have hamount : (0 : Rat) ≤ r.debt / 10 ^ r.decimals :=
      div_nonneg (Nat.cast_nonneg _) (pow_nonneg (by norm_num) _)
    exact neg_nonpos.2 (mul_nonneg hamount (hprice price hpriceUsd))

/-- A reserve meets the contract unless it is borrowed from and has no price. -/
theorem reservePositions_conform_iff {netPrincipal : Map String (Option Rat)} {r : AaveReserveRead}
    (hasset : (getAddress r.asset).isSome = true) (hprice : ∀ usd, r.priceUsd = some usd → 0 ≤ usd) :
    (∀ p ∈ reservePositions netPrincipal r, validateValuedPosition getAddress p = []) ↔
      (0 < r.debt → r.priceUsd ≠ none) := by
  rw [reservePositions]
  constructor
  · intro h hdebt
    rw [if_pos hdebt] at h
    exact (borrowPosition_conforms_iff hasset hprice).1
      (h _ (List.mem_append_right _ (List.mem_singleton_self _)))
  · intro h p hp
    rcases List.mem_append.1 hp with hp | hp
    · split at hp
      · rw [List.mem_singleton.1 hp]
        exact supplyPosition_conforms hasset
      · cases hp
    · split at hp
      · rename_i hdebt
        rw [List.mem_singleton.1 hp]
        exact (borrowPosition_conforms_iff hasset hprice).2 (h hdebt)
      · cases hp

/-- **When the adapters meet their contract**, whatever calls fail: the rows of PancakeSwap always, those
of Aave exactly if every reserve that is borrowed from has a price. -/
theorem adapters_conform_iff {aave : AaveReads} {lp : LpPosition.LpReads} {npmAddress : String}
    (hlp : lp.getAddress = aave.getAddress)
    (hidem : ∀ s a, aave.getAddress s = some a → aave.getAddress a = some a) {raw : AaveRawRead}
    {rows : List ValuedPosition} (hraw : aave.read = some raw)
    (hrows : (lp.pancake npmAddress).getPositions = some rows) :
    validatePositions aave.getAddress rows = [] ∧
      (validatePositions aave.getAddress
          (buildAavePositions raw.reserves raw.account aave.netPrincipal) = [] ↔
        ∀ r ∈ raw.reserves, 0 < r.debt → r.priceUsd ≠ none) := by
  constructor
  · obtain ⟨count, -, rfl⟩ := Option.map_eq_some_iff.1 hrows
    rw [validatePositions_eq_nil]
    intro p hp
    obtain ⟨i, -, hp⟩ := List.mem_filterMap.1 hp
    rw [← hlp] at hidem ⊢
    exact LpPosition.pancakePosition_conforms hidem hp
  · have hsound : ∀ r ∈ raw.reserves, (aave.getAddress r.asset).isSome = true ∧
        ∀ usd, r.priceUsd = some usd → 0 ≤ usd := by
      obtain ⟨-, curated, -, -, hreserves, -⟩ := AaveReads.read_eq_some.1 hraw
      intro r hr
      rw [hreserves] at hr
      obtain ⟨t, -, hread⟩ := List.mem_filterMap.1 hr
      exact readReserve_sound hidem hread
    rw [validatePositions_eq_nil, buildAavePositions]
    constructor
    · intro h r hr
      obtain ⟨hasset, hprice⟩ := hsound r hr
      exact (reservePositions_conform_iff hasset hprice).1 fun p hp =>
        h p (List.mem_append_left _ (List.mem_flatMap.2 ⟨r, hr, hp⟩))
    · intro h p hp
      rcases List.mem_append.1 hp with hp | hp
      · obtain ⟨r, hr, hp⟩ := List.mem_flatMap.1 hp
        obtain ⟨hasset, hprice⟩ := hsound r hr
        exact (reservePositions_conform_iff hasset hprice).2 (h r hr) p hp
      -- the summary of the account has no legs
      · split at hp
        · rw [List.mem_singleton.1 hp]
          rfl
        · cases hp

/-- The addresses of the sample, with their checksums. -/
def sampleGetAddress (s : String) : Option String :=
  if s ∈ ["0x55d398326f99059fF775485246999027B3197955", "0xa9251ca9DE909CB71783723713B21E4233fbf1B1",
    "0xF8bB2Be50647447Fb355e3a77b81be4db64107cd"] then some s else none

/-- Borrowed USDT; the oracle has no price for it. -/
def sampleBorrow : AaveReads where
  getAddress := sampleGetAddress
  addresses := some ("0x6807dc923806fE8Fd134338EABCA509979a7e0cB",
    "0x39bc1bfDa2130d6Bb6DBEfd366939b4c7aa7C697")
  userAccountData := some ⟨2, 1, 2⟩
  curated := some [⟨"0x55d398326f99059fF775485246999027B3197955", "USDT", 18⟩]
  reserveData _ := some ⟨"0xa9251ca9DE909CB71783723713B21E4233fbf1B1",
    "0xF8bB2Be50647447Fb355e3a77b81be4db64107cd"⟩
  balanceOf _ := some 1
  assetPrice _ := some 0
  netPrincipal := Map.empty

/-- One NFT, whose reads fail. -/
def sampleBroken : LpPosition.LpReads where
  balanceOf := some 1
  tokenOfOwnerByIndex _ := some 42
  positions _ := none
  collect _ := none
  getAddress := sampleGetAddress
  getPool _ _ _ := none
  slot0 _ := none
  tokenMeta _ := none
  prices := Map.empty

/-- One base unit supplied and one borrowed, without a price. -/
def sampleReserve : AaveReserveRead where
  asset := "0x55d398326f99059fF775485246999027B3197955"
  symbol := "USDT"
  decimals := 18
  aToken := "0xa9251ca9DE909CB71783723713B21E4233fbf1B1"
  variableDebtToken := "0xF8bB2Be50647447Fb355e3a77b81be4db64107cd"
  supplied := 1
  debt := 1
  priceUsd := none

theorem sampleBorrow_read : sampleBorrow.read = some
    { reserves := [sampleReserve], account := ⟨2, 1, 2⟩,
      claimed := [sampleReserve.aToken, sampleReserve.variableDebtToken] } := by
  decide

theorem adapters_conform_iff_sample :
    validatePositions sampleGetAddress [pancakeError (some 42)] = [] ∧
      (validatePositions sampleGetAddress
          (buildAavePositions [sampleReserve] ⟨2, 1, 2⟩ Map.empty) = [] ↔
        ∀ r ∈ [sampleReserve], 0 < r.debt → r.priceUsd ≠ none) := by
  refine @adapters_conform_iff sampleBorrow sampleBroken "0x46A15B0b27311cedF172AB29E4f4766fbE7F4364"
    rfl ?_ _ _ sampleBorrow_read rfl
  intro s a h
  obtain ⟨hmem, heq⟩ := Option.ite_none_right_eq_some.1 h
  rw [← Option.some.inj heq]
  exact h.trans heq.symm

end Rows
end StrategyBuilder.Cockpit
