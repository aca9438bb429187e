import StrategyBuilder.Contracts.Solidity
import StrategyBuilder.Lib.FixedPower

/-!
# Prices of ticks

`TickMath.sol`: the square root of the price at a tick, `1.0001 ^ (tick / 2)` with 96 binary places. The
power of the absolute tick is a product of squares with 128 places in unchecked words, its inverse is
taken for a positive tick, and the result is rounded up.

No product wraps, since every factor is at most 1, and the result fits its type (`ratio_pos`,
`sqrtPrice_lt`). It grows with the tick (`getSqrtRatioAtTick_mono`).
-/

set_option autoImplicit false

namespace StrategyBuilder.Contracts

open StrategyBuilder.Lib.FixedPower

/-- The values of `int24`. -/
def IsInt24 (n : Int) : Prop := -2 ^ 23 ≤ n ∧ n < 2 ^ 23

instance : DecidablePred IsInt24 := fun n =>
  inferInstanceAs (Decidable (-2 ^ 23 ≤ n ∧ n < 2 ^ 23))

namespace TickMath

/-- The custom error of the library. -/
inductive Error where
  | TickOutOfRange
deriving DecidableEq, Repr

/-- `MIN_TICK` -/
def minTick : Int := -887272

/-- `MAX_TICK` -/
def maxTick : Int := 887272

/-- The digits of the tick behind the first, each with its factor. -/
def stages : List (Nat × Nat) :=
  [(0x2, 0xfff97272373d413259a46990580e213a),
    (0x4, 0xfff2e50f5f656932ef12357cf3c7fdcc),
    (0x8, 0xffe5caca7e10e4e61c3624eaa0941cd0),
    (0x10, 0xffcb9843d60f6159c9db58835c926644),
    (0x20, 0xff973b41fa98c081472e6896dfb254c0),
    (0x40, 0xff2ea16466c96a3843ec78b326b52861),
    (0x80, 0xfe5dee046a99a2a811c461f1969c3053),
    (0x100, 0xfcbe86c7900a88aedcffc83b479aa3a4),
    (0x200, 0xf987a7253ac413176f2b074cf7815e54),
    (0x400, 0xf3392b0822b70005940c7a398e4b70f3),
    (0x800, 0xe7159475a2c29b7443b29c7fa6e889d9),
    (0x1000, 0xd097f3bdfd2022b8845ad8f792aa5825),
    (0x2000, 0xa9f746462d870fdf8a65dc1f90e061e5),
    (0x4000, 0x70d869a156d2a1b890bb3df62baf32f7),
    (0x8000, 0x31be135f97d08fd981231505542fcfa6),
    (0x10000, 0x9aa508b5b7a84e1c677de54f3e99bc9),
    (0x20000, 0x5d6af8dedb81196699c329225ee604),
    (0x40000, 0x2216e584f5fa1ea926041bedfe98),
    (0x80000, 0x48a170391f7dc42444e8fa2)]

/-- `if ((absTick & mask) != 0) ratio = (ratio * factor) >> 128;` -/
def stage (absTick ratio : Nat) (s : Nat × Nat) : Nat :=
  if absTick &&& s.1 ≠ 0 then (ratio * s.2 % 2 ^ 256) >>> 128 else ratio

/-- `(absTick & 0x1) != 0 ? .. : ..` -/
def firstRatio (absTick : Nat) : Nat :=
  if absTick &&& 0x1 ≠ 0 then 0xfffcb933bd6fad37aa2d162d1a594001
  else 0x100000000000000000000000000000000

/-- `sqrt(1.0001 ^ -absTick)` with 128 places. -/
def ratioOf (absTick : Nat) : Nat := stages.foldl (stage absTick) (firstRatio absTick)

/-- `uint256` of the absolute tick. -/
def absTickOf (tick : Int) : Nat :=
  if tick < 0 then (-tick % 2 ^ 256).toNat else (tick % 2 ^ 256).toNat

/-- `(ratio >> 32) + (ratio % (1 << 32) == 0 ? 0 : 1)` -/
def roundedUp (ratio : Nat) : Nat := ratio >>> 32 + if ratio % 2 ^ 32 = 0 then 0 else 1

/-- `getSqrtRatioAtTick`: computed without checks, as a `uint256` that is cut to a `uint160`. -/
def getSqrtRatioAtTick (tick : Int) : Result Error Nat :=
  let absTick := absTickOf tick
  if (maxTick % 2 ^ 256).toNat < absTick then .error (.error .TickOutOfRange)
  else
    let ratio := ratioOf absTick
    if 0 < tick then
      -- a division by zero reverts, unchecked or not
      if ratio = 0 then .error (.panic 0x12)
      else .ok (roundedUp (maxUint256 / ratio) % 2 ^ 256 % 2 ^ 160)
    else .ok (roundedUp ratio % 2 ^ 256 % 2 ^ 160)

/-! ## Bounds -/

/-- The unit of 128 places. -/
def one : Nat := 2 ^ 128

/-- All factors by the digits of the tick. -/
def factors : List Nat := 0xfffcb933bd6fad37aa2d162d1a594001 :: stages.map Prod.snd

/-- The `i`-th constant, with 128 binary places. -/
def factor (i : Nat) : Nat := factors.getD i 0

/-- The table, checked once: its factors are below the unit, and the stages list them by digits. -/
theorem table_checked :
    (∀ i < 20, factor i < one) ∧
    (∀ k < 19, stages[k]? = some (2 ^ (1 + k), factor (1 + k))) ∧
    ∀ s ∈ stages, s.2 < one := by
  decide

theorem factor_lt : ∀ i < 20, factor i < one := table_checked.1

theorem stages_eq : ∀ k < 19, stages[k]? = some (2 ^ (1 + k), factor (1 + k)) := table_checked.2.1

theorem and_two_pow_ne_zero (m i : Nat) : m &&& 2 ^ i ≠ 0 ↔ m.testBit i = true := by
  rw [Nat.and_two_pow]
  cases m.testBit i with
  | false => simp
  | true => simp

/-- A stage for the digit `i`; its product is below `2 ^ 256`. -/
theorem stage_eq {m ratio i : Nat} (hratio : ratio ≤ one) (hi : i < 20) :
    stage m ratio (2 ^ i, factor i) = if m.testBit i then ratio * factor i / one else ratio := by
  have hproduct : ratio * factor i < 2 ^ 256 :=
    calc ratio * factor i ≤ one * factor i := Nat.mul_le_mul_right _ hratio
      _ < one * one := Nat.mul_lt_mul_of_pos_left (factor_lt i hi) (by decide)
      _ = 2 ^ 256 := by decide
  simp only [stage, and_two_pow_ne_zero, Nat.mod_eq_of_lt hproduct, Nat.shiftRight_eq_div_pow, one]

/-- **The stages are a power from a table.** -/
theorem ratioOf_eq (m : Nat) : ratioOf m = tablePower one factor 20 m := by
  have hfirst : firstRatio m = tablePower one factor 1 m := by
    have hone : one * factor 0 / one = factor 0 := Nat.mul_div_cancel_left _ (by decide)
    rw [tablePower, tablePower, hone, firstRatio]
    have hbit := and_two_pow_ne_zero m 0
    simp only [pow_zero] at hbit
    simp only [hbit]
    rfl
  rw [ratioOf, hfirst]
  apply foldl_tablePower stages 1 m
  intro k s hs
  have hk : k < 19 := (List.getElem?_eq_some_iff.1 hs).1
  rw [stages_eq k hk, Option.some.injEq] at hs
  have hle : tablePower one factor (1 + k) m ≤ one :=
    tablePower_le_one (fun i hi => (factor_lt i (by omega)).le) m
  rw [← hs, stage_eq hle (by omega)]
  rfl

/-- The products that the stages from a ratio on form, before they are reduced to words. -/
def productsFrom (absTick : Nat) : List (Nat × Nat) → Nat → List Nat
  | [], _ => []
  | s :: l, ratio =>
      let rest := productsFrom absTick l (stage absTick ratio s)
      if absTick &&& s.1 ≠ 0 then ratio * s.2 :: rest else rest

/-- The ratios after each stage. -/
def products (absTick : Nat) : List Nat := productsFrom absTick stages (firstRatio absTick)

/-- A stage stays below one and does not wrap. -/
theorem stage_le {m ratio : Nat} {s : Nat × Nat} (hratio : ratio ≤ one) (hs : s.2 < one) :
    ratio * s.2 < 2 ^ 256 ∧ stage m ratio s ≤ one := by
  have hproduct : ratio * s.2 < one * one := by
    rcases Nat.eq_zero_or_pos ratio with rfl | hpos
    · rw [Nat.zero_mul]
      decide
    · exact (Nat.mul_lt_mul_of_pos_left hs hpos).trans_le (Nat.mul_le_mul_right one hratio)
  refine ⟨lt_of_lt_of_eq hproduct (by decide), ?_⟩
  rw [stage]
  split
  · rw [Nat.shiftRight_eq_div_pow]
    have hmod := Nat.mod_le (ratio * s.2) (2 ^ 256)
    exact Nat.div_le_of_le_mul (hmod.trans hproduct.le)
  · exact hratio

theorem firstRatio_le (m : Nat) : firstRatio m ≤ one := by
  rw [firstRatio]
  split
  · decide
  · decide

/-- **No product wraps.** -/
theorem products_lt {m p : Nat} (hp : p ∈ products m) : p < 2 ^ 256 := by
  have hall (l : List (Nat × Nat)) (ratio : Nat) (hl : ∀ s ∈ l, s.2 < one) (hratio : ratio ≤ one)
      (hp : p ∈ productsFrom m l ratio) : p < 2 ^ 256 := by
    induction l generalizing ratio with
    | nil => cases hp
    | cons s l ih =>
      obtain ⟨hproduct, hstage⟩ := stage_le (m := m) hratio (hl s List.mem_cons_self)
      have hrest := ih (stage m ratio s) (fun t ht => hl t (List.mem_cons_of_mem s ht)) hstage
      rw [productsFrom] at hp
      split at hp
      · rcases List.mem_cons.1 hp with rfl | hp
        · exact hproduct
        · exact hrest hp
      · exact hrest hp
  exact hall stages (firstRatio m) table_checked.2.2 (firstRatio_le m) hp

/-- Less and more than `1.0001 ^ (-1 / 2)` with 128 places. -/
def below : Nat := factor 0 - 2 ^ 24

/-- A bound above the first constant. -/
def above : Nat := factor 0 + 2 ^ 24

/-- The two numbers, checked once: they enclose every factor by its squares, and the lower one leaves
enough at the last tick. -/
theorem enclosure_checked :
    (∀ i < 20, squares one 1 below i ≤ factor i ∧ factor i ≤ squares one 0 above i) ∧
    (0 < below ∧ below ≤ one ∧ below ≤ above) ∧
    2 ^ 64 + 21 ≤ tablePower one (squares one 0 below) 20 887272 ∧
    0 ≤ 1 - (887272 : Nat) * (1 - (below : Rat) / one / (above / one)) - above / one ∧
    (20 : Rat) ≤ (2 ^ 64 + 21) *
      (1 - (887272 : Nat) * (1 - (below : Rat) / one / (above / one)) - above / one) := by
  decide +kernel

theorem below_le (i : Nat) (hi : i < 20) : one * ((below : Rat) / one) ^ 2 ^ i ≤ factor i := by
  obtain ⟨hsquares, -⟩ := enclosure_checked.1 i hi
  exact (squares_ge (by decide) below i).trans (Nat.cast_le.2 hsquares)

theorem le_above (i : Nat) (hi : i < 20) : (factor i : Rat) ≤ one * ((above : Rat) / one) ^ 2 ^ i := by
  obtain ⟨-, hsquares⟩ := enclosure_checked.1 i hi
  exact (Nat.cast_le.2 hsquares).trans (squares_le (by decide) above i)

/-- The power of the last tick. -/
theorem last_power : 2 ^ 64 + 21 ≤ one * ((below : Rat) / one) ^ 887272 := by
  have hlast := enclosure_checked.2.2.1
  have hpower : (tablePower one (squares one 0 below) 20 887272 : Rat) ≤
      one * ((below : Rat) / one) ^ (887272 % 2 ^ 20) :=
    tablePower_le (by decide) (div_nonneg (Nat.cast_nonneg below) (Nat.cast_nonneg one))
      (fun i _ => squares_le (by decide) below i) 887272
  have hmod : 887272 % 2 ^ 20 = 887272 := rfl
  rw [hmod] at hpower
  have hcast : (2 ^ 64 + 21 : Rat) ≤ tablePower one (squares one 0 below) 20 887272 := by
    exact_mod_cast hlast
  exact hcast.trans hpower

/-- The power of a tick is above `2 ^ 64`. -/
theorem ratioOf_gt {m : Nat} (hm : m ≤ 887272) : 2 ^ 64 < ratioOf m := by
  have hx : (0 : Rat) ≤ (below : Rat) / one := div_nonneg (Nat.cast_nonneg below) (Nat.cast_nonneg one)
  have hx1 : (below : Rat) / one ≤ 1 := by
    rw [div_le_one (Nat.cast_pos.2 (by decide))]
    exact Nat.cast_le.2 enclosure_checked.2.1.2.1
  have hpower := tablePower_ge (by decide) hx (fun i hi => (factor_lt i hi).le) below_le m
  have hmod : m % 2 ^ 20 = m := Nat.mod_eq_of_lt (by omega)
  rw [hmod] at hpower
  have hdecreasing := mul_le_mul_of_nonneg_left (pow_le_pow_of_le_one hx hx1 hm)
    (Nat.cast_nonneg one (α := Rat))
  have hcast : (2 ^ 64 : Rat) < tablePower one factor 20 m := by
    have hlast := last_power
    push_cast at hpower
    linarith
  rw [ratioOf_eq]
  exact_mod_cast hcast

/-- The power falls with the tick. -/
theorem ratioOf_succ_le {m : Nat} (hm : m < 887272) : ratioOf (m + 1) ≤ ratioOf m := by
  have hone : (0 : Rat) < one := Nat.cast_pos.2 (by decide)
  obtain ⟨hpos, hle_one, hle_above⟩ := enclosure_checked.2.1
  have hbelow : (0 : Rat) < below := Nat.cast_pos.2 hpos
  have hx1 : (below : Rat) / one ≤ 1 := by
    rw [div_le_one hone]
    exact Nat.cast_le.2 hle_one
  have hxy : (below : Rat) / one ≤ above / one := by
    rw [div_le_div_iff_of_pos_right hone]
    exact Nat.cast_le.2 hle_above
  rw [ratioOf_eq, ratioOf_eq]
  apply tablePower_succ_le (by decide) (div_pos hbelow hone) hx1 hxy (fun i hi => (factor_lt i hi).le)
    below_le le_above (by decide : 887272 < 2 ^ 20) _ hm
  have hgap := enclosure_checked.2.2.2
  exact hgap.2.trans (mul_le_mul_of_nonneg_right last_power hgap.1)

/-! ## The price -/

/-- `sqrt(1.0001 ^ tick)` with 128 places. -/
def sqrtPriceX128 (tick : Int) : Nat :=
  if 0 < tick then maxUint256 / ratioOf tick.natAbs else ratioOf tick.natAbs

/-- To round up keeps the order. -/
theorem roundedUp_mono {m n : Nat} (h : m ≤ n) : roundedUp m ≤ roundedUp n := by
  have hceil (k : Nat) : roundedUp k = (k + (2 ^ 32 - 1)) / 2 ^ 32 := by
    rw [roundedUp, Nat.shiftRight_eq_div_pow]
    split
    · omega
    · omega
  rw [hceil, hceil]
  exact Nat.div_le_div_right (Nat.add_le_add_right h _)

/-- **The cast loses nothing.** -/
theorem roundedUp_lt {tick : Int} (h : tick.natAbs ≤ 887272) :
    roundedUp (sqrtPriceX128 tick) < 2 ^ 160 := by
  have hratio := ratioOf_gt h
  have hle : sqrtPriceX128 tick ≤ maxUint256 / (2 ^ 64 + 1) := by
    rw [sqrtPriceX128]
    split
    · exact Nat.div_le_div_left hratio (by decide)
    · have hone : ratioOf tick.natAbs ≤ one := by
        rw [ratioOf_eq]
        exact tablePower_le_one (fun i hi => (factor_lt i hi).le) _
      exact hone.trans (by decide)
  exact (roundedUp_mono hle).trans_lt (by decide)

theorem absTickOf_eq {tick : Int} (h : IsInt24 tick) : absTickOf tick = tick.natAbs := by
  obtain ⟨hlow, hhigh⟩ := h
  rw [absTickOf]
  split
  · omega
  · omega

/-- The price of every tick up to the last; the others are refused. -/
theorem getSqrtRatioAtTick_eq {tick : Int} (h : IsInt24 tick) :
    getSqrtRatioAtTick tick =
      if 887272 < tick.natAbs then .error (.error .TickOutOfRange)
      else .ok (roundedUp (sqrtPriceX128 tick)) := by
  have hmax : (maxTick % 2 ^ 256).toNat = 887272 := rfl
  simp only [getSqrtRatioAtTick, absTickOf_eq h, hmax]
  split
  · rfl
  · rename_i hrange
    have hratio := ratioOf_gt (Nat.le_of_not_lt hrange)
    have hlt := roundedUp_lt (Nat.le_of_not_lt hrange)
    have hcast : roundedUp (sqrtPriceX128 tick) % 2 ^ 256 % 2 ^ 160 =
        roundedUp (sqrtPriceX128 tick) := by
      rw [Nat.mod_eq_of_lt (hlt.trans (by decide)), Nat.mod_eq_of_lt hlt]
    rw [← hcast]
    by_cases hpos : 0 < tick
    · simp only [sqrtPriceX128, hpos, if_true, if_neg (show ratioOf tick.natAbs ≠ 0 by omega)]
    · simp only [sqrtPriceX128, hpos, if_false]

/-- The next tick has no lower price. -/
theorem sqrtPriceX128_succ_le {tick : Int} (hlow : -887272 ≤ tick) (hhigh : tick < 887272) :
    sqrtPriceX128 tick ≤ sqrtPriceX128 (tick + 1) := by
  rcases lt_trichotomy tick 0 with hneg | rfl | hpos
  · have habs : tick.natAbs = (tick + 1).natAbs + 1 := by omega
    rw [sqrtPriceX128, sqrtPriceX128, if_neg (by omega), if_neg (by omega), habs]
    exact ratioOf_succ_le (by omega)
  · decide
  · have habs : (tick + 1).natAbs = tick.natAbs + 1 := by omega
    have hratio := ratioOf_gt (m := tick.natAbs + 1) (by omega)
    rw [sqrtPriceX128, sqrtPriceX128, if_pos hpos, if_pos (by omega), habs]
    exact Nat.div_le_div_left (ratioOf_succ_le (by omega)) (by omega)

/-- **The price grows with the tick.** -/
theorem sqrtPriceX128_mono {tick tick' : Int} (hlow : -887272 ≤ tick) (hle : tick ≤ tick')
    (hhigh : tick' ≤ 887272) : sqrtPriceX128 tick ≤ sqrtPriceX128 tick' := by
  obtain ⟨k, rfl⟩ := Int.le.dest hle
  induction k with
  | zero => rw [Int.natCast_zero, Int.add_zero]
  | succ k ih =>
    have hstep : sqrtPriceX128 (tick + k) ≤ sqrtPriceX128 (tick + k + 1) :=
      sqrtPriceX128_succ_le (by omega) (by omega)
    rw [Int.natCast_succ, ← Int.add_assoc]
    exact (ih (by omega) (by omega)).trans hstep

/-- The library answers for the ticks of its range, with the rounded price. -/
theorem getSqrtRatioAtTick_eq_ok {tick : Int} (h : IsInt24 tick) {r : Nat} :
    getSqrtRatioAtTick tick = .ok r ↔ tick.natAbs ≤ 887272 ∧ r = roundedUp (sqrtPriceX128 tick) := by
  rw [getSqrtRatioAtTick_eq h]
  split
  · rename_i hlarge
    simp only [reduceCtorEq, false_iff, not_and]
    omega
  · rename_i hsmall
    simp only [Except.ok.injEq, eq_comm (a := r), Nat.le_of_not_lt hsmall, true_and]

theorem getSqrtRatioAtTick_mono {tick tick' : Int} (h : IsInt24 tick) (h' : IsInt24 tick')
    (hle : tick ≤ tick') {r r' : Nat} (hr : getSqrtRatioAtTick tick = .ok r)
    (hr' : getSqrtRatioAtTick tick' = .ok r') : r ≤ r' := by
  obtain ⟨hlow, rfl⟩ := (getSqrtRatioAtTick_eq_ok h).1 hr
  obtain ⟨hhigh, rfl⟩ := (getSqrtRatioAtTick_eq_ok h').1 hr'
  exact roundedUp_mono (sqrtPriceX128_mono (by omega) hle (by omega))

end TickMath

end StrategyBuilder.Contracts
