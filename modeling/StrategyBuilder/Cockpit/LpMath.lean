import StrategyBuilder.Contracts.TickMath

/-!
# Liquidity math

`lp-math.ts`: the price of a tick and the amounts of a position, in integers of any size. The price is
that of the contracts' `TickMath` (`getSqrtRatioAtTick_agrees`), whose constants are copied here.

Of two nested divisions only the outer floor counts (`getAmount0_eq`), so that the amounts of a position
are floors of one fraction each, which falls and rises with the price (`amounts_well_behaved`).
-/

set_option autoImplicit false

namespace StrategyBuilder.Cockpit.LpMath

open StrategyBuilder.Contracts

/-! ## Prices of ticks -/

/-- `MAX_TICK` -/
def maxTick : Int := 887272

/-- The constants of the source, each with its bit. -/
def stages : List (Nat × Nat) :=
  [(0x2, 0xfff97272373d413259a46990580e213a),
    (0x4, 0xfff2e50f5f656932ef12357cf3c7fdcc),
    (0x8, 0xffe5caca7e10e4e61c3624eaa0941cd0),
    (0x10, 0xffcb9843d60f6159c9db58835c926644),
    (0x20, 0xff973b41fa98c081472e6896dfb254c0),
    (0x40, 0xff2ea16466c96a3843ec78b326b52861),
    (0x80, 0xfe5dee046a99a2a811c461f1969c3053),
    (0x100, 0xfcbe86c7900a88aedcffc83b479aa3a4),
    (0x200, 0xf987a7253ac413176f2b074cf7815e54),
    (0x400, 0xf3392b0822b70005940c7a398e4b70f3),
    (0x800, 0xe7159475a2c29b7443b29c7fa6e889d9),
    (0x1000, 0xd097f3bdfd2022b8845ad8f792aa5825),
    (0x2000, 0xa9f746462d870fdf8a65dc1f90e061e5),
    (0x4000, 0x70d869a156d2a1b890bb3df62baf32f7),
    (0x8000, 0x31be135f97d08fd981231505542fcfa6),
    (0x10000, 0x9aa508b5b7a84e1c677de54f3e99bc9),
    (0x20000, 0x5d6af8dedb81196699c329225ee604),
    (0x40000, 0x2216e584f5fa1ea926041bedfe98),
    (0x80000, 0x48a170391f7dc42444e8fa2)]

/-- `if ((absTick & mask) !== 0n) ratio = (ratio * factor) >> 128n;` -/
def stage (absTick ratio : Nat) (s : Nat × Nat) : Nat :=
  if absTick &&& s.1 ≠ 0 then (ratio * s.2) >>> 128 else ratio

/-- The ratio before the stages, by the lowest bit. -/
def firstRatio (absTick : Nat) : Nat :=
  if absTick &&& 0x1 ≠ 0 then 0xfffcb933bd6fad37aa2d162d1a594001
  else 0x100000000000000000000000000000000

/-- The message of an error is what it carries. -/
def getSqrtRatioAtTick (tick : Int) : Except String Nat :=
  let absTick := (if tick < 0 then -tick else tick).toNat
  if maxTick.toNat < absTick then .error "TickMath: T"
  else
    let ratio := stages.foldl (stage absTick) (firstRatio absTick)
    if 0 < tick then
      if ratio = 0 then .error "Division by zero"
      else
        let ratio := (2 ^ 256 - 1) / ratio
        .ok (ratio >>> 32 + if ratio % 2 ^ 32 = 0 then 0 else 1)
    else .ok (ratio >>> 32 + if ratio % 2 ^ 32 = 0 then 0 else 1)

/-- The copies of the constants are the same. -/
theorem stages_eq : stages = TickMath.stages := rfl

/-- Stages in words and in integers run in step, as long as the ratio is at most 1. -/
theorem foldl_stage_eq {m : Nat} (l : List (Nat × Nat)) {ratio : Nat} (hratio : ratio ≤ TickMath.one)
    (hl : ∀ s ∈ l, s.2 < TickMath.one) :
    l.foldl (stage m) ratio = l.foldl (TickMath.stage m) ratio := by
  induction l generalizing ratio with
  | nil => rw [List.foldl_nil, List.foldl_nil]
  | cons s l ih =>
    obtain ⟨hproduct, hstage⟩ := TickMath.stage_le (m := m) hratio (hl s List.mem_cons_self)
    have hstep : stage m ratio s = TickMath.stage m ratio s := by
      simp only [stage, TickMath.stage, Nat.mod_eq_of_lt hproduct]
    rw [List.foldl_cons, List.foldl_cons, hstep]
    exact ih hstage fun t ht => hl t (List.mem_cons_of_mem s ht)

/-- The backend computes what the library computes before its casts. -/
theorem getSqrtRatioAtTick_eq (tick : Int) :
    getSqrtRatioAtTick tick =
      if 887272 < tick.natAbs then .error "TickMath: T"
      else .ok (TickMath.roundedUp (TickMath.sqrtPriceX128 tick)) := by
  have habs : (if tick < 0 then -tick else tick).toNat = tick.natAbs := by
    split
    · omega
    · omega
  have hmax : maxTick.toNat = 887272 := rfl
  have hratio : stages.foldl (stage tick.natAbs) (firstRatio tick.natAbs) =
      TickMath.ratioOf tick.natAbs := by
    have hfactors : ∀ s ∈ TickMath.stages, s.2 < TickMath.one := by
      decide
    have hfirst : firstRatio tick.natAbs = TickMath.firstRatio tick.natAbs := rfl
    rw [stages_eq, hfirst, foldl_stage_eq _ (TickMath.firstRatio_le _) hfactors, TickMath.ratioOf]
  simp only [getSqrtRatioAtTick, habs, hmax, hratio]
  split
  · rfl
  · rename_i hrange
    have hgt := TickMath.ratioOf_gt (Nat.le_of_not_lt hrange)
    by_cases hpos : 0 < tick
    · simp only [hpos, if_true, if_neg (show TickMath.ratioOf tick.natAbs ≠ 0 by omega),
        TickMath.sqrtPriceX128, TickMath.roundedUp, maxUint256]
    · simp only [hpos, if_false, TickMath.sqrtPriceX128, TickMath.roundedUp]

/-- **Contract and backend give every tick the same price**, or both refuse it. In the contract no
product wraps, and the cast to `uint160` loses nothing. -/
theorem getSqrtRatioAtTick_agrees {tick : Int} (h : IsInt24 tick) :
    (∀ r, TickMath.getSqrtRatioAtTick tick = .ok r ↔ getSqrtRatioAtTick tick = .ok r) ∧
      ((∃ e, TickMath.getSqrtRatioAtTick tick = .error e) ↔
        ∃ e, getSqrtRatioAtTick tick = .error e) ∧
      (∀ p ∈ TickMath.products (TickMath.absTickOf tick), p < 2 ^ 256) ∧
      ∀ r, TickMath.getSqrtRatioAtTick tick = .ok r →
        TickMath.roundedUp (TickMath.sqrtPriceX128 tick) < 2 ^ 160 := by
  refine ⟨fun r => ?_, ?_, fun p => TickMath.products_lt, fun r hr => ?_⟩
  · rw [TickMath.getSqrtRatioAtTick_eq h, getSqrtRatioAtTick_eq]
    split
    · simp
    · simp
  · rw [TickMath.getSqrtRatioAtTick_eq h, getSqrtRatioAtTick_eq]
    split
    · simp
    · simp
  · exact TickMath.roundedUp_lt ((TickMath.getSqrtRatioAtTick_eq_ok h).1 hr).1

theorem getSqrtRatioAtTick_agrees_last :
    (∀ r, TickMath.getSqrtRatioAtTick (-887272) = .ok r ↔ getSqrtRatioAtTick (-887272) = .ok r) ∧
      ((∃ e, TickMath.getSqrtRatioAtTick (-887272) = .error e) ↔
        ∃ e, getSqrtRatioAtTick (-887272) = .error e) ∧
      (∀ p ∈ TickMath.products (TickMath.absTickOf (-887272)), p < 2 ^ 256) ∧
      ∀ r, TickMath.getSqrtRatioAtTick (-887272) = .ok r →
        TickMath.roundedUp (TickMath.sqrtPriceX128 (-887272)) < 2 ^ 160 :=
  getSqrtRatioAtTick_agrees (by decide)

example : getSqrtRatioAtTick (-887272) = .ok 4295128739 := by decide

/-! ## Amounts -/

/-- `a / b` of integers, which rounds toward 0. -/
def bigDiv (a b : Int) : Except String Int :=
  if b = 0 then .error "Division by zero" else .ok (a.tdiv b)

/-- `getAmount0`: the amount of token 0 between two prices, divided twice. -/
def getAmount0 (sqrtA sqrtB liquidity : Int) : Except String Int := do
  let (sqrtA, sqrtB) := if sqrtB < sqrtA then (sqrtB, sqrtA) else (sqrtA, sqrtB)
  let quotient ← bigDiv (liquidity * 2 ^ 96 * (sqrtB - sqrtA)) sqrtB
  bigDiv quotient sqrtA

/-- `getAmount1`: the amount of token 1 between two prices. -/
def getAmount1 (sqrtA sqrtB liquidity : Int) : Except String Int :=
  let (sqrtA, sqrtB) := if sqrtB < sqrtA then (sqrtB, sqrtA) else (sqrtA, sqrtB)
  bigDiv (liquidity * (sqrtB - sqrtA)) (2 ^ 96)

/-- The amounts of both tokens. -/
structure Amounts where
  amount0 : Int
  amount1 : Int
deriving DecidableEq, Repr

/-- `getAmountsForLiquidity`: below the range all is token 0, above it token 1. -/
def getAmountsForLiquidity (sqrtPriceX96 sqrtRatioAX96 sqrtRatioBX96 liquidity : Int) :
    Except String Amounts := do
  let (a, b) := if sqrtRatioBX96 < sqrtRatioAX96 then (sqrtRatioBX96, sqrtRatioAX96)
    else (sqrtRatioAX96, sqrtRatioBX96)
  if sqrtPriceX96 ≤ a then
    let amount0 ← getAmount0 a b liquidity
    return ⟨amount0, 0⟩
  else if sqrtPriceX96 < b then
    let amount0 ← getAmount0 sqrtPriceX96 b liquidity
    let amount1 ← getAmount1 a sqrtPriceX96 liquidity
    return ⟨amount0, amount1⟩
  else
    let amount1 ← getAmount1 a b liquidity
    return ⟨0, amount1⟩

variable {liquidity a b p : Int}

theorem bigDiv_eq {x d : Int} (hx : 0 ≤ x) (hd : 0 < d) : bigDiv x d = .ok (x / d) := by
  rw [bigDiv, if_neg hd.ne', Int.tdiv_eq_ediv_of_nonneg hx]

/-- Two floored divisions are one. -/
theorem getAmount0_eq (hL : 0 ≤ liquidity) (ha : 0 < a) (hab : a ≤ b) :
    getAmount0 a b liquidity = .ok (liquidity * 2 ^ 96 * (b - a) / (b * a)) := by
  have hb : 0 < b := lt_of_lt_of_le ha hab
  have hproduct : 0 ≤ liquidity * 2 ^ 96 * (b - a) :=
    mul_nonneg (mul_nonneg hL (by decide)) (sub_nonneg.2 hab)
  have hquotient := Int.ediv_nonneg hproduct hb.le
  simp only [getAmount0, if_neg (not_lt.2 hab), bigDiv_eq hproduct hb, bind, Except.bind,
    bigDiv_eq hquotient ha, Int.ediv_ediv_of_nonneg hb.le]

theorem getAmount1_eq (hL : 0 ≤ liquidity) (hab : a ≤ b) :
    getAmount1 a b liquidity = .ok (liquidity * (b - a) / 2 ^ 96) := by
  have hproduct : 0 ≤ liquidity * (b - a) := mul_nonneg hL (sub_nonneg.2 hab)
  simp only [getAmount1, if_neg (not_lt.2 hab), bigDiv_eq hproduct (by decide : (0 : Int) < 2 ^ 96)]

/-- The price within a range. -/
def clamp (lo hi p : Int) : Int := max lo (min p hi)

theorem clamp_mono {lo hi p p' : Int} (h : p ≤ p') : clamp lo hi p ≤ clamp lo hi p' :=
  max_le_max le_rfl (min_le_min h le_rfl)

theorem le_clamp (lo hi p : Int) : lo ≤ clamp lo hi p := le_max_left _ _

theorem clamp_of_le {lo hi p : Int} (h : p ≤ lo) : clamp lo hi p = lo :=
  max_eq_left ((min_le_left p hi).trans h)

theorem clamp_of_ge {lo hi p : Int} (hle : lo ≤ hi) (h : hi ≤ p) : clamp lo hi p = hi := by
  rw [clamp, min_eq_right h, max_eq_right hle]

/-- The amounts are those of the price within the range. -/
theorem getAmountsForLiquidity_eq (hL : 0 ≤ liquidity) (ha : 0 < a) (hb : 0 < b) :
    getAmountsForLiquidity p a b liquidity = .ok
      ⟨liquidity * 2 ^ 96 * (max a b - clamp (min a b) (max a b) p) /
          (max a b * clamp (min a b) (max a b) p),
        liquidity * (clamp (min a b) (max a b) p - min a b) / 2 ^ 96⟩ := by
  have hsorted : (if b < a then (b, a) else (a, b)) = (min a b, max a b) := by
    split
    · rename_i hlt
      rw [min_eq_right hlt.le, max_eq_left hlt.le]
    · rename_i hle
      rw [min_eq_left (not_lt.1 hle), max_eq_right (not_lt.1 hle)]
  simp only [getAmountsForLiquidity, hsorted]
  have hlo : 0 < min a b := lt_min ha hb
  have hle : min a b ≤ max a b := min_le_max
  -- from here on the bounds are sorted; the three branches are the three parts of the clamp
  generalize min a b = lo at hlo hle
  generalize max a b = hi at hle
  by_cases hbelow : p ≤ lo
  · rw [if_pos hbelow, getAmount0_eq hL hlo hle, clamp_of_le hbelow, sub_self, mul_zero]
    rfl
  · have hlt : lo < p := not_le.1 hbelow
    rw [if_neg hbelow]
    by_cases habove : p < hi
    · have hq : clamp lo hi p = p := by
        rw [clamp, min_eq_left habove.le, max_eq_right hlt.le]
      rw [if_pos habove, getAmount0_eq hL (hlo.trans hlt) habove.le, getAmount1_eq hL hlt.le, hq]
      rfl
    · rw [if_neg habove, getAmount1_eq hL hle, clamp_of_ge hle (not_lt.1 habove), sub_self, mul_zero,
        Int.zero_ediv]
      rfl

/-- Floors of fractions are ordered as the fractions are. -/
theorem ediv_le_ediv_of_mul_le {x d y e : Int} (hd : 0 < d) (he : 0 < e) (h : x * e ≤ y * d) :
    x / d ≤ y / e := by
  rw [Int.le_ediv_iff_mul_le he]
  have hfloor : x / d * d ≤ x := Int.ediv_mul_le x hd.ne'
  have hmul : x / d * e * d ≤ y * d :=
    calc x / d * e * d = x / d * d * e := by ring
      _ ≤ x * e := mul_le_mul_of_nonneg_right hfloor he.le
      _ ≤ y * d := h
  exact le_of_mul_le_mul_right hmul hd

/-- The fraction of the first amount falls with the price. -/
theorem amount0_antitone {x hi q q' : Int} (hx : 0 ≤ x) (hhi : 0 < hi) (hq : 0 < q) (hqq : q ≤ q') :
    x * (hi - q') / (hi * q') ≤ x * (hi - q) / (hi * q) := by
  apply ediv_le_ediv_of_mul_le (mul_pos hhi (lt_of_lt_of_le hq hqq)) (mul_pos hhi hq)
  -- both sides have `q * q'`, what is left is `hi * q ≤ hi * q'`
  have hcross : (hi - q') * q ≤ (hi - q) * q' := by
    have hmul := mul_le_mul_of_nonneg_left hqq hhi.le
    linarith
  calc x * (hi - q') * (hi * q) = x * hi * ((hi - q') * q) := by ring
    _ ≤ x * hi * ((hi - q) * q') := mul_le_mul_of_nonneg_left hcross (mul_nonneg hx hhi.le)
    _ = x * (hi - q) * (hi * q') := by ring

/-- **The amounts of a position**: the order of its bounds does not count, the first amount falls and the
second rises with the price, beyond its range a position is in one token, and each amount is the floor of
one fraction. -/
theorem amounts_well_behaved {p' : Int} (hL : 0 ≤ liquidity) (ha : 0 < a) (hb : 0 < b) (hle : p ≤ p') :
    ∃ x x' : Amounts, getAmountsForLiquidity p a b liquidity = .ok x ∧
      getAmountsForLiquidity p' a b liquidity = .ok x' ∧
      getAmountsForLiquidity p b a liquidity = .ok x ∧
      x'.amount0 ≤ x.amount0 ∧ x.amount1 ≤ x'.amount1 ∧
      (max a b ≤ p → x.amount0 = 0) ∧ (p ≤ min a b → x.amount1 = 0) ∧
      x.amount0 = liquidity * 2 ^ 96 * (max a b - clamp (min a b) (max a b) p) /
        (max a b * clamp (min a b) (max a b) p) ∧
      x.amount1 = liquidity * (clamp (min a b) (max a b) p - min a b) / 2 ^ 96 := by
  -- the closed form names the bounds by `min` and `max` only
  have hswap := getAmountsForLiquidity_eq (p := p) hL hb ha
  rw [min_comm b a, max_comm b a] at hswap
  refine ⟨_, _, getAmountsForLiquidity_eq hL ha hb, getAmountsForLiquidity_eq hL ha hb, hswap, ?_, ?_,
    ?_, ?_, rfl, rfl⟩
  · have hpos : 0 < clamp (min a b) (max a b) p := lt_of_lt_of_le (lt_min ha hb) (le_clamp _ _ p)
    exact amount0_antitone (mul_nonneg hL (by decide)) (lt_max_of_lt_left ha) hpos (clamp_mono hle)
  · have hmono : clamp (min a b) (max a b) p ≤ clamp (min a b) (max a b) p' := clamp_mono hle
    exact Int.ediv_le_ediv (by decide) (mul_le_mul_of_nonneg_left (by omega) hL)
  · intro habove
    show liquidity * 2 ^ 96 * (max a b - clamp (min a b) (max a b) p) / _ = 0
    rw [clamp_of_ge min_le_max habove, sub_self, mul_zero, Int.zero_ediv]
  · intro hbelow
    show liquidity * (clamp (min a b) (max a b) p - min a b) / 2 ^ 96 = 0
    rw [clamp_of_le hbelow, sub_self, mul_zero, Int.zero_ediv]

/-- A position around the price 1, as the price rises. -/
theorem amounts_well_behaved_sample :
    ∃ x x' : Amounts, getAmountsForLiquidity (2 ^ 96) (2 ^ 97) (2 ^ 95) 1000 = .ok x ∧
      getAmountsForLiquidity (2 ^ 96 + 1) (2 ^ 97) (2 ^ 95) 1000 = .ok x' ∧
      getAmountsForLiquidity (2 ^ 96) (2 ^ 95) (2 ^ 97) 1000 = .ok x ∧
      x'.amount0 ≤ x.amount0 ∧ x.amount1 ≤ x'.amount1 := by
  obtain ⟨x, x', hx, hx', hswap, h0, h1, -⟩ :=
    @amounts_well_behaved 1000 (2 ^ 97) (2 ^ 95) (2 ^ 96) (2 ^ 96 + 1) (by decide) (by decide)
      (by decide) (by decide)
  exact ⟨x, x', hx, hx', hswap, h0, h1⟩

end StrategyBuilder.Cockpit.LpMath
