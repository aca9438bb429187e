import Mathlib.Analysis.SpecialFunctions.Pow.Real
import StrategyBuilder.Contracts.TickMath

/-!
# How exact the prices of ticks are

The price that `TickMath.sol` gives a tick, against the real number that it stands for: the square root
of `1.0001 ^ tick` with 96 binary places (`exactPrice`). The constants of the source lie close to the
powers of this root, so the product of up to 20 of them, each step rounded, is within one part in
`2 ^ 59`; the reciprocal for a positive tick and the final rounding keep it within one part in `2 ^ 58`
and one unit (`getSqrtRatioAtTick_near`). So every tick has a price of its own
(`getSqrtRatioAtTick_lt`).
-/

set_option autoImplicit false

namespace StrategyBuilder.Contracts.TickMath

open StrategyBuilder.Contracts
open StrategyBuilder.Lib.FixedPower

/-- The square root of the factor between two ticks. -/
noncomputable def root : ℝ := Real.sqrt (10001 / 10000)

/-- The square root of the price at a tick, with 96 binary places. -/
noncomputable def exactPrice (tick : Int) : ℝ := 2 ^ 96 * root ^ tick

theorem root_sq : root ^ 2 = 10001 / 10000 := Real.sq_sqrt (by norm_num)

theorem root_pos : 0 < root := Real.sqrt_pos.2 (by norm_num)

theorem one_lt_root : 1 < root := by
  rw [root, Real.lt_sqrt (by norm_num)]
  norm_num

theorem inv_root_sq : root⁻¹ ^ 2 = 10000 / 10001 := by
  rw [inv_pow, root_sq]
  norm_num

theorem le_inv_root {b : Rat} (h : b ^ 2 ≤ 10000 / 10001) : (b : ℝ) ≤ root⁻¹ := by
  have hreal := (Rat.cast_le (K := ℝ)).2 h
  push_cast at hreal
  refine le_of_sq_le_sq ?_ (inv_pos.2 root_pos).le
  rwa [inv_root_sq]

theorem inv_root_le {a : Rat} (ha : 0 ≤ a) (h : 10000 / 10001 ≤ a ^ 2) : root⁻¹ ≤ (a : ℝ) := by
  have hreal := (Rat.cast_le (K := ℝ)).2 h
  push_cast at hreal
  refine le_of_sq_le_sq ?_ (Rat.cast_nonneg.2 ha)
  rwa [inv_root_sq]

/-- The inverse root lies between the two numbers that the constants lie between. -/
theorem root_between : ((below / one : Rat) : ℝ) ≤ root⁻¹ ∧ root⁻¹ ≤ ((above / one : Rat) : ℝ) := by
  have hsquares : (below / one : Rat) ^ 2 ≤ 10000 / 10001 ∧ 0 ≤ (above / one : Rat) ∧
      10000 / 10001 ≤ (above / one : Rat) ^ 2 := by
    decide +kernel
  exact ⟨le_inv_root hsquares.1, inv_root_le hsquares.2.1 hsquares.2.2⟩

/-- What Bernoulli leaves of the distance between the two numbers, over all ticks. -/
def spread : Rat := 1 - (887272 : Nat) * (1 - (below / one : Rat) / (above / one))

theorem spread_bounds : 1 - 1 / 2 ^ 80 ≤ spread ∧ spread ≤ 1 := by
  decide +kernel

theorem inv_root_pow_pos (m : Nat) : 0 < root⁻¹ ^ m := pow_pos (inv_pos.2 root_pos) m

/-- The power of the last tick is above `2 ^ 64`. -/
theorem power_large {m : Nat} (hm : m ≤ 887272) : (2 : ℝ) ^ 64 ≤ 2 ^ 128 * root⁻¹ ^ m := by
  have hbelow : (0 : Rat) ≤ below / one := div_nonneg (Nat.cast_nonneg _) (Nat.cast_nonneg _)
  have hlast : (2 : ℝ) ^ 64 + 21 ≤ one * ((below / one : Rat) : ℝ) ^ 887272 := by
    exact_mod_cast last_power
  have hroot : root⁻¹ ≤ 1 := inv_le_one_of_one_le₀ one_lt_root.le
  have hpower : ((below / one : Rat) : ℝ) ^ 887272 ≤ root⁻¹ ^ m :=
    (pow_le_pow_left₀ (Rat.cast_nonneg.2 hbelow) root_between.1 _).trans
      (pow_le_pow_of_le_one (inv_pos.2 root_pos).le hroot hm)
  have hone : (one : ℝ) = 2 ^ 128 := by
    rw [one]
    norm_num
  rw [hone] at hlast
  have hscaled := mul_le_mul_of_nonneg_left hpower (by norm_num : (0 : ℝ) ≤ 2 ^ 128)
  linarith

/-- The power of a tick, within one part in `2 ^ 59`. -/
theorem ratioOf_near {m : Nat} (hm : m ≤ 887272) :
    2 ^ 128 * root⁻¹ ^ m * (1 - 1 / 2 ^ 59) ≤ ratioOf m ∧
      (ratioOf m : ℝ) * (1 - 1 / 2 ^ 80) ≤ 2 ^ 128 * root⁻¹ ^ m := by
  have hbelow : (0 : Rat) < below / one := div_pos (Nat.cast_pos.2 enclosure_checked.2.1.1)
    (Nat.cast_pos.2 (by decide))
  obtain ⟨hlow, hhigh⟩ := tablePower_near (by decide) hbelow (fun i hi => (factor_lt i hi).le) below_le
    le_above root_between.1 root_between.2 (by decide : 887272 < 2 ^ 20) hm
  rw [← ratioOf_eq] at hlow hhigh
  have hone : (one : ℝ) = 2 ^ 128 := by
    rw [one]
    norm_num
  have hspread := (Rat.cast_le (K := ℝ)).2 spread_bounds.1
  push_cast at hspread
  change one * root⁻¹ ^ m * (spread : ℝ) ≤ ratioOf m + (20 : Nat) at hlow
  change (ratioOf m : ℝ) * (spread : ℝ) ≤ one * root⁻¹ ^ m at hhigh
  rw [hone] at hlow hhigh
  have hlarge := power_large hm
  have hpower : 0 ≤ (2 : ℝ) ^ 128 * root⁻¹ ^ m :=
    mul_nonneg (by norm_num) (inv_root_pow_pos m).le
  constructor
  · -- the floors lose 20 units of at least `2 ^ 64`
    have hscaled := mul_le_mul_of_nonneg_left hspread hpower
    push_cast at hlow
    linarith
  · have hscaled := mul_le_mul_of_nonneg_left hspread (Nat.cast_nonneg (α := ℝ) (ratioOf m))
    exact hscaled.trans hhigh

/-! ## The price of a tick -/

theorem root_zpow_of_nonpos {tick : Int} (h : tick ≤ 0) : root ^ tick = root⁻¹ ^ tick.natAbs := by
  obtain ⟨n, rfl⟩ := Int.exists_eq_neg_ofNat h
  rw [Int.natAbs_neg, Int.natAbs_natCast, zpow_neg, zpow_natCast, inv_pow]

theorem root_zpow_mul {tick : Int} (h : 0 ≤ tick) : root ^ tick * root⁻¹ ^ tick.natAbs = 1 := by
  obtain ⟨n, rfl⟩ := Int.eq_ofNat_of_zero_le h
  rw [Int.natAbs_natCast, zpow_natCast, inv_pow, mul_inv_cancel₀ (pow_pos root_pos n).ne']

/-- The quotient of the two words, for a positive tick: a price of at least 1. -/
theorem quotient_near {m : Nat} (hm : m ≤ 887272) {price : ℝ} (hprice : price * root⁻¹ ^ m = 1) :
    2 ^ 128 * price * (1 - 1 / 2 ^ 58) ≤ (maxUint256 / ratioOf m : Nat) ∧
      ((maxUint256 / ratioOf m : Nat) : ℝ) ≤ 2 ^ 128 * price * (1 + 1 / 2 ^ 58) := by
  obtain ⟨hlow, hhigh⟩ := ratioOf_near hm
  have hpower := inv_root_pow_pos m
  have hratio : 0 < ratioOf m := (Nat.zero_le _).trans_lt (ratioOf_gt hm)
  have hpos : 0 < price := pos_of_mul_pos_left (hprice ▸ one_pos) hpower.le
  have hprice1 : 1 ≤ price := by
    have hle : root⁻¹ ^ m ≤ 1 :=
      pow_le_one₀ (inv_pos.2 root_pos).le (inv_le_one_of_one_le₀ one_lt_root.le)
    have hmul := mul_le_mul_of_nonneg_left hle hpos.le
    linarith
  let x := maxUint256 / ratioOf m
  -- the division, as reals
  have hfloor : (x : ℝ) * ratioOf m ≤ 2 ^ 256 := by
    have hnat : x * ratioOf m ≤ 2 ^ 256 := (Nat.div_mul_le_self _ _).trans (by decide)
    exact_mod_cast hnat
  have hnext : (2 : ℝ) ^ 256 ≤ (x + 1) * ratioOf m := by
    have hnat : 2 ^ 256 ≤ (x + 1) * ratioOf m := by
      have hlt : maxUint256 < x * ratioOf m + ratioOf m := Nat.lt_div_mul_add hratio
      have hmax : maxUint256 + 1 = 2 ^ 256 := rfl
      rw [Nat.add_mul, Nat.one_mul, ← hmax]
      exact hlt
    exact_mod_cast hnat
  have hx : (0 : ℝ) ≤ x := Nat.cast_nonneg x
  have hcancel : ∀ y : ℝ, y * (2 ^ 128 * root⁻¹ ^ m) * price = y * 2 ^ 128 := by
    intro y
    calc y * (2 ^ 128 * root⁻¹ ^ m) * price = y * 2 ^ 128 * (price * root⁻¹ ^ m) := by ring
      _ = y * 2 ^ 128 := by rw [hprice, mul_one]
  constructor
  · have hscaled := mul_le_mul_of_nonneg_left hhigh (by linarith : (0 : ℝ) ≤ x + 1)
    have hchain : (2 : ℝ) ^ 256 * (1 - 1 / 2 ^ 80) ≤ (x + 1) * (2 ^ 128 * root⁻¹ ^ m) := by
      have hleft := mul_le_mul_of_nonneg_right hnext (by norm_num : (0 : ℝ) ≤ 1 - 1 / 2 ^ 80)
      linarith
    have hmul := mul_le_mul_of_nonneg_right hchain hpos.le
    rw [hcancel] at hmul
    linarith
  · have hscaled := mul_le_mul_of_nonneg_left hlow hx
    have hchain : (x : ℝ) * (1 - 1 / 2 ^ 59) * (2 ^ 128 * root⁻¹ ^ m) ≤ 2 ^ 256 := by linarith
    have hmul := mul_le_mul_of_nonneg_right hchain hpos.le
    rw [hcancel] at hmul
    -- `1 / (1 - e)` is at most `1 + 2 e`
    have hbound : (x : ℝ) * (1 - 1 / 2 ^ 59) ≤ 2 ^ 128 * price := by linarith
    have hfinal := mul_le_mul_of_nonneg_right hbound (by norm_num : (0 : ℝ) ≤ 1 + 1 / 2 ^ 58)
    have hslack : (x : ℝ) ≤ x * (1 - 1 / 2 ^ 59) * (1 + 1 / 2 ^ 58) := by
      have hfactor : (1 : ℝ) ≤ (1 - 1 / 2 ^ 59) * (1 + 1 / 2 ^ 58) := by norm_num
      calc (x : ℝ) = x * 1 := (mul_one _).symm
        _ ≤ x * ((1 - 1 / 2 ^ 59) * (1 + 1 / 2 ^ 58)) := mul_le_mul_of_nonneg_left hfactor hx
        _ = x * (1 - 1 / 2 ^ 59) * (1 + 1 / 2 ^ 58) := (mul_assoc _ _ _).symm
    linarith

/-- The price with 128 places is close to the exact one. -/
theorem sqrtPriceX128_near {tick : Int} (h : tick.natAbs ≤ 887272) :
    2 ^ 128 * root ^ tick * (1 - 1 / 2 ^ 58) ≤ sqrtPriceX128 tick ∧
      (sqrtPriceX128 tick : ℝ) ≤ 2 ^ 128 * root ^ tick * (1 + 1 / 2 ^ 58) := by
  rw [sqrtPriceX128]
  split
  · rename_i hpos
    exact quotient_near h (root_zpow_mul hpos.le)
  · rename_i hnonpos
    obtain ⟨hlow, hhigh⟩ := ratioOf_near h
    rw [root_zpow_of_nonpos (not_lt.1 hnonpos)]
    have hpower : 0 ≤ (2 : ℝ) ^ 128 * root⁻¹ ^ tick.natAbs :=
      mul_nonneg (by norm_num) (inv_root_pow_pos _).le
    have hratio : (0 : ℝ) ≤ ratioOf tick.natAbs := Nat.cast_nonneg _
    constructor
    · linarith
    · have hfinal := mul_le_mul_of_nonneg_right hhigh (by norm_num : (0 : ℝ) ≤ 1 + 1 / 2 ^ 58)
      have hfactor : (1 : ℝ) ≤ (1 - 1 / 2 ^ 80) * (1 + 1 / 2 ^ 58) := by norm_num
      have hslack := mul_le_mul_of_nonneg_left hfactor hratio
      linarith

theorem roundedUp_bounds (k : Nat) : k ≤ 2 ^ 32 * roundedUp k ∧ 2 ^ 32 * roundedUp k < k + 2 ^ 32 := by
  rw [roundedUp, Nat.shiftRight_eq_div_pow]
  split
  · omega
  · omega

/-- So is the rounded price. -/
theorem roundedUp_near {tick : Int} (h : tick.natAbs ≤ 887272) :
    exactPrice tick * (1 - 1 / 2 ^ 58) ≤ roundedUp (sqrtPriceX128 tick) ∧
      (roundedUp (sqrtPriceX128 tick) : ℝ) < exactPrice tick * (1 + 1 / 2 ^ 58) + 1 := by
  obtain ⟨hlow, hhigh⟩ := sqrtPriceX128_near h
  obtain ⟨hceil, hceil'⟩ := roundedUp_bounds (sqrtPriceX128 tick)
  have hup : (sqrtPriceX128 tick : ℝ) ≤ 2 ^ 32 * roundedUp (sqrtPriceX128 tick) := by
    exact_mod_cast hceil
  have hup' : (2 : ℝ) ^ 32 * roundedUp (sqrtPriceX128 tick) < sqrtPriceX128 tick + 2 ^ 32 := by
    exact_mod_cast hceil'
  rw [exactPrice]
  constructor
  · linarith
  · linarith

/-- **The price of a tick is exact** to one part in `2 ^ 58` and one unit in the last place, for every
tick of the range. -/
theorem getSqrtRatioAtTick_near {tick : Int} (h : IsInt24 tick) {r : Nat}
    (hr : getSqrtRatioAtTick tick = .ok r) :
    exactPrice tick * (1 - 1 / 2 ^ 58) ≤ r ∧ (r : ℝ) < exactPrice tick * (1 + 1 / 2 ^ 58) + 1 := by
  obtain ⟨hrange, rfl⟩ := (getSqrtRatioAtTick_eq_ok h).1 hr
  exact roundedUp_near hrange

theorem getSqrtRatioAtTick_near_lowest :
    exactPrice (-887272) * (1 - 1 / 2 ^ 58) ≤ (4295128739 : Nat) ∧
      ((4295128739 : Nat) : ℝ) < exactPrice (-887272) * (1 + 1 / 2 ^ 58) + 1 :=
  getSqrtRatioAtTick_near (by decide) (by decide)

theorem exactPrice_pos (tick : Int) : 0 < exactPrice tick :=
  mul_pos (by norm_num) (zpow_pos root_pos tick)

/-- The price of a later tick is higher by more than one part in `2 ^ 15`. -/
theorem exactPrice_step {tick tick' : Int} (h : tick < tick') :
    exactPrice tick * (1 + 1 / 2 ^ 15) ≤ exactPrice tick' := by
  have hroot : 1 + 1 / 2 ^ 15 ≤ root := by
    rw [root]
    apply Real.le_sqrt_of_sq_le
    norm_num
  calc exactPrice tick * (1 + 1 / 2 ^ 15) ≤ exactPrice tick * root :=
        mul_le_mul_of_nonneg_left hroot (exactPrice_pos tick).le
    _ = exactPrice (tick + 1) := by
        rw [exactPrice, exactPrice, zpow_add_one₀ root_pos.ne', mul_assoc]
    _ ≤ exactPrice tick' :=
        mul_le_mul_of_nonneg_left (zpow_le_zpow_right₀ one_lt_root.le h) (by norm_num)

/-- Even the lowest price has 32 places to spare. -/
theorem exactPrice_large {tick : Int} (h : tick.natAbs ≤ 887272) : 2 ^ 32 ≤ exactPrice tick := by
  have hlowest : (2 : ℝ) ^ 32 ≤ exactPrice (-887272) := by
    have hpower := power_large (le_refl 887272)
    have hzpow := @root_zpow_of_nonpos (-887272) (by decide)
    rw [exactPrice, hzpow]
    change (2 : ℝ) ^ 32 ≤ 2 ^ 96 * root⁻¹ ^ 887272
    linarith
  refine hlowest.trans ?_
  exact mul_le_mul_of_nonneg_left (zpow_le_zpow_right₀ one_lt_root.le (by omega)) (by norm_num)

/-- **Every tick has a price of its own**, below that of the next. -/
theorem getSqrtRatioAtTick_lt {tick tick' : Int} (h : IsInt24 tick) (h' : IsInt24 tick')
    (hlt : tick < tick') {r r' : Nat} (hr : getSqrtRatioAtTick tick = .ok r)
    (hr' : getSqrtRatioAtTick tick' = .ok r') : r < r' := by
  obtain ⟨hrange, rfl⟩ := (getSqrtRatioAtTick_eq_ok h).1 hr
  obtain ⟨hrange', rfl⟩ := (getSqrtRatioAtTick_eq_ok h').1 hr'
  obtain ⟨-, hhigh⟩ := roundedUp_near hrange
  obtain ⟨hlow, -⟩ := roundedUp_near hrange'
  have hnext := exactPrice_step hlt
  have hlarge := exactPrice_large hrange
  have hreal : (roundedUp (sqrtPriceX128 tick) : ℝ) < roundedUp (sqrtPriceX128 tick') := by
    have hscaled := mul_le_mul_of_nonneg_right hnext (by norm_num : (0 : ℝ) ≤ 1 - 1 / 2 ^ 58)
    linarith
  exact_mod_cast hreal

theorem getSqrtRatioAtTick_lt_lowest : 4295128739 < 4295343490 :=
  @getSqrtRatioAtTick_lt (-887272) (-887271) (by decide) (by decide) (by decide) _ _
    (by decide) (by decide)

end StrategyBuilder.Contracts.TickMath
