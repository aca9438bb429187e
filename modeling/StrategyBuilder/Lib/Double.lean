import Mathlib.Algebra.Order.Floor.Ring
import Mathlib.Data.Nat.Log
import Mathlib.Data.Rat.Floor
import Mathlib.Tactic.FieldSimp
import Mathlib.Tactic.Linarith
import Mathlib.Tactic.Positivity
import StrategyBuilder.Lib.Js

/-!
# Doubles

The rounding of a rational number to the nearest double, the even one of two, and to an infinity beyond
the largest of them. `doubleNumber` is `Number` with that rounding of literals; whole numbers up to
`2 ^ 53` are not rounded (`double_ofInt`), larger numbers not below it (`le_toDouble`), and the quotient
of small integers keeps its floor and ceiling (`toDouble_quotient`).
-/

set_option autoImplicit false

namespace StrategyBuilder.Lib.Js

/-- The nearest integer, the even one of two. -/
def roundEven (q : Rat) : Int :=
  let below := q.floor
  if q - below < 1 / 2 then below
  else if 1 / 2 < q - below then below + 1
  else below + below % 2

/-- `2 ^ k` -/
def powTwo (k : Int) : Rat := if 0 ≤ k then 2 ^ k.toNat else 1 / 2 ^ (-k).toNat

/-- The exponent of the last binary digit in which doubles of the size of `q` differ. -/
def lastExponent (q : Rat) : Int :=
  let e : Int := q.num.natAbs.log2 - q.den.log2
  max ((if |q| < powTwo e then e - 1 else e) - 52) (-1074)

/-- The double of a rational number. -/
def toDouble (q : Rat) : JsNumber :=
  let unit := powTwo (lastExponent q)
  let rounded := roundEven (q / unit) * unit
  if 2 ^ 1024 ≤ |rounded| then .infinity (decide (rounded < 0)) else .finite rounded

/-- The nearest double. -/
def JsNumber.double : JsNumber → JsNumber
  | .finite q => toDouble q
  | x => x

/-- `Number(value)`; a number is a double already. -/
def doubleNumber : JsValue → JsNumber
  | .str s => (stringToNumber s).double
  | value => toNumber value

/-! ## Arithmetic

The sign of a zero is not kept. -/

namespace JsNumber

/-- `-x` -/
def neg : JsNumber → JsNumber
  | .nan => .nan
  | .infinity negative => .infinity !negative
  | .finite q => .finite (-q)

/-- `x + y` -/
def add : JsNumber → JsNumber → JsNumber
  | .finite a, .finite b => toDouble (a + b)
  | .infinity s, .infinity t => if s = t then .infinity s else .nan
  | .infinity s, .finite _ => .infinity s
  | .finite _, .infinity t => .infinity t
  | _, _ => .nan

/-- `x - y` -/
def sub (x y : JsNumber) : JsNumber := x.add y.neg

/-- `x * y` -/
def mul : JsNumber → JsNumber → JsNumber
  | .finite a, .finite b => toDouble (a * b)
  | .infinity s, .infinity t => .infinity (s != t)
  | .infinity s, .finite b => if b = 0 then .nan else .infinity (s != decide (b < 0))
  | .finite a, .infinity t => if a = 0 then .nan else .infinity (decide (a < 0) != t)
  | _, _ => .nan

/-- `x / y` -/
def div : JsNumber → JsNumber → JsNumber
  | .finite a, .finite b =>
      if b ≠ 0 then toDouble (a / b) else if a = 0 then .nan else .infinity (decide (a < 0))
  | .infinity s, .finite b => .infinity (s != decide (b < 0))
  | .finite _, .infinity _ => .finite 0
  | _, _ => .nan

/-- `x <= y` -/
def le : JsNumber → JsNumber → Bool
  | .finite a, .finite b => decide (a ≤ b)
  | .infinity s, .infinity t => s || !t
  | .infinity s, .finite _ => s
  | .finite _, .infinity t => !t
  | _, _ => false

/-- `x < y` -/
def lt (x y : JsNumber) : Bool := x.le y && !y.le x

/-- `x % y`, with the sign of `x`; it is exact. -/
def rem : JsNumber → JsNumber → JsNumber
  | .finite a, .finite b =>
      if b = 0 then .nan
      else .finite (a - b * if 0 ≤ a / b then (a / b).floor else (a / b).ceil)
  | .finite a, .infinity _ => .finite a
  | _, _ => .nan

/-- `Math.floor(x)` -/
def floor : JsNumber → JsNumber
  | .finite q => .ofInt q.floor
  | x => x

/-- `Math.ceil(x)` -/
def ceil : JsNumber → JsNumber
  | .finite q => .ofInt q.ceil
  | x => x

/-- `x.toFixed(digits)`, the larger of two nearest texts. -/
def toFixed (x : JsNumber) (digits : Nat) : String :=
  match x with
  | .finite q =>
      -- as the standard has it, from here on `toFixed` is `String`
      if 10 ^ 21 ≤ |q| then numberToString x
      else
        let n := (|q| * 10 ^ digits + 1 / 2).floor.toNat
        let ds := (toString n).toList.leftpad (digits + 1) '0'
        let k := ds.length - digits
        (if q < 0 then "-" else "") ++
          if digits = 0 then toString n
          else String.ofList (ds.take k) ++ "." ++ String.ofList (ds.drop k)
  | x => numberToString x

end JsNumber

/-! ## Whole numbers -/

theorem roundEven_intCast (n : Int) : roundEven n = n := by
  rw [roundEven, Rat.floor_intCast, sub_self, if_pos (by norm_num)]

theorem powTwo_of_nonpos {k : Int} (h : k ≤ 0) : powTwo k = 1 / 2 ^ (-k).toNat := by
  rw [powTwo]
  split
  · have hk : k = 0 := by omega
    subst hk
    norm_num
  · rfl

/-- A whole multiple of the last digit is not rounded. -/
theorem toDouble_of_multiple {q : Rat} {m : Int} (hq : q = m * powTwo (lastExponent q))
    (hpos : 0 < powTwo (lastExponent q)) (hsize : |q| < 2 ^ 1024) : toDouble q = .finite q := by
  have hdiv : q / powTwo (lastExponent q) = m := by
    rw [div_eq_iff (ne_of_gt hpos)]
    exact hq
  have hrounded : (roundEven (q / powTwo (lastExponent q)) : Rat) * powTwo (lastExponent q) = q := by
    rw [hdiv, roundEven_intCast, ← hq]
  simp only [toDouble, hrounded]
  exact if_neg (not_le.2 hsize)

/-- The last digit of a whole number up to `2 ^ 53` is no higher than the ones, except for `2 ^ 53`
itself. -/
theorem lastExponent_intCast {n : Int} (h : n.natAbs ≤ 2 ^ 53) :
    lastExponent n ≤ 0 ∨ lastExponent n = 1 ∧ n.natAbs = 2 ^ 53 := by
  have hlog : n.natAbs.log2 ≤ 53 := by
    rcases Nat.eq_zero_or_pos n.natAbs with hzero | hpos
    · rw [hzero]
      decide
    · have hlt : n.natAbs < 2 ^ 54 := lt_of_le_of_lt h (by decide)
      have := (Nat.log2_lt (ne_of_gt hpos)).2 hlt
      omega
  -- with 54 bits it can only be the bound itself
  have hmax : n.natAbs.log2 = 53 → n.natAbs = 2 ^ 53 := by
    intro hlog53
    have hne : n.natAbs ≠ 0 := by
      intro hzero
      rw [hzero] at hlog53
      exact absurd hlog53 (by decide)
    exact le_antisymm h ((Nat.le_log2 hne).1 (le_of_eq hlog53.symm))
  have hone : Nat.log2 1 = 0 := by decide
  rw [lastExponent, Rat.num_intCast, Rat.den_intCast, hone]
  split
  · left
    omega
  · by_cases hlog53 : n.natAbs.log2 = 53
    · right
      exact ⟨by omega, hmax hlog53⟩
    · left
      omega

/-- **Whole numbers up to `2 ^ 53` are doubles.** -/
theorem toDouble_intCast {n : Int} (h : n.natAbs ≤ 2 ^ 53) : toDouble n = .ofInt n := by
  have hsize : |(n : Rat)| < 2 ^ 1024 := by
    have hcast : |(n : Rat)| = (n.natAbs : Rat) := by
      rw [Nat.cast_natAbs, Int.cast_abs]
    have hle : (n.natAbs : Rat) ≤ 2 ^ 53 := by exact_mod_cast h
    rw [hcast]
    exact lt_of_le_of_lt hle (pow_lt_pow_right₀ (by norm_num) (by norm_num))
  rcases lastExponent_intCast h with hk | ⟨hk, hmax⟩
  · have hunit := powTwo_of_nonpos hk
    have hpos : (0 : Rat) < 2 ^ (-lastExponent n).toNat := by positivity
    apply toDouble_of_multiple (m := n * 2 ^ (-lastExponent n).toNat)
    · rw [hunit]
      push_cast
      field_simp
    · rw [hunit]
      positivity
    · exact hsize
  · have hunit : powTwo (lastExponent n) = 2 := by
      rw [hk]
      rfl
    -- `2 ^ 53` is even
    obtain ⟨m, hm⟩ : ∃ m : Int, n = m * 2 := by
      rcases Int.natAbs_eq n with hn | hn
      · exact ⟨2 ^ 52, by rw [hn, hmax]; norm_num⟩
      · exact ⟨-2 ^ 52, by rw [hn, hmax]; norm_num⟩
    apply toDouble_of_multiple (m := m)
    · rw [hunit]
      exact_mod_cast hm
    · rw [hunit]
      norm_num
    · exact hsize

theorem double_ofInt {n : Int} (h : n.natAbs ≤ 2 ^ 53) : (JsNumber.ofInt n).double = .ofInt n :=
  toDouble_intCast h

theorem div_ofInt (a : Int) {b : Int} (hb : b ≠ 0) :
    (JsNumber.ofInt a).div (.ofInt b) = toDouble (a / b) := by
  have hcast : (b : Rat) ≠ 0 := Int.cast_ne_zero.2 hb
  simp only [JsNumber.ofInt, JsNumber.div, if_pos hcast]

/-- The product of two whole numbers that is at most `2 ^ 53`. -/
theorem mul_ofInt {a b : Int} (h : (a * b).natAbs ≤ 2 ^ 53) :
    (JsNumber.ofInt a).mul (.ofInt b) = .ofInt (a * b) := by
  have hcast : (a : Rat) * b = (a * b : Int) := (Int.cast_mul a b).symm
  rw [← toDouble_intCast h, ← hcast]
  rfl

/-! ## Rounding -/

/-- `powTwo` is the power of the field. -/
theorem powTwo_eq (k : Int) : powTwo k = (2 : Rat) ^ k := by
  rw [powTwo]
  split
  · rename_i hk
    obtain ⟨n, rfl⟩ := Int.eq_ofNat_of_zero_le hk
    rw [Int.toNat_natCast, zpow_natCast]
  · rename_i hk
    obtain ⟨n, rfl⟩ : ∃ n : Nat, k = -n := ⟨(-k).toNat, by omega⟩
    rw [neg_neg, Int.toNat_natCast, zpow_neg, zpow_natCast, one_div]

theorem le_roundEven {q : Rat} {n : Int} (h : n ≤ q) : n ≤ roundEven q := by
  have hfloor : n ≤ q.floor := Rat.le_floor_iff.2 h
  rw [roundEven]
  split_ifs
  · exact hfloor
  · omega
  · have := Int.emod_nonneg q.floor (by decide : (2 : Int) ≠ 0)
    omega

theorem roundEven_le {q : Rat} {n : Int} (h : q ≤ n) : roundEven q ≤ n := by
  have hfloor : (q.floor : Rat) ≤ q := Rat.floor_le q
  have hle : q.floor ≤ n := by
    exact_mod_cast hfloor.trans h
  rcases eq_or_lt_of_le hle with heq | hlt
  · -- an integer is not rounded
    have hq : q = n := le_antisymm h (heq ▸ hfloor)
    rw [hq, roundEven_intCast]
  · rw [roundEven]
    split_ifs
    · exact hle
    · omega
    · have := Int.emod_lt_of_pos q.floor (by decide : (0 : Int) < 2)
      omega

/-- To round moves by a half at most. -/
theorem abs_roundEven_sub_le (q : Rat) : |(roundEven q : Rat) - q| ≤ 1 / 2 := by
  have hlow : (q.floor : Rat) ≤ q := Rat.floor_le q
  have hhigh : q < q.floor + 1 := by
    exact_mod_cast Rat.lt_floor_add_one q
  rw [abs_le, roundEven]
  split_ifs with hless hmore
  · constructor <;> linarith
  · push_cast
    constructor <;> linarith
  · -- the middle
    have hhalf : q - q.floor = 1 / 2 := le_antisymm (not_lt.1 hmore) (not_lt.1 hless)
    have hmod : (0 : Rat) ≤ (q.floor % 2 : Int) ∧ ((q.floor % 2 : Int) : Rat) ≤ 1 := by
      constructor
      · exact_mod_cast Int.emod_nonneg q.floor (by decide)
      · have := Int.emod_lt_of_pos q.floor (by decide : (0 : Int) < 2)
        exact_mod_cast (by omega : q.floor % 2 ≤ 1)
    push_cast at hmod ⊢
    constructor <;> linarith

/-- The last digit of a number that is not 0 follows from its binary exponent. -/
theorem lastExponent_spec {q : Rat} (hq : q ≠ 0) :
    ∃ e : Int, (2 : Rat) ^ e ≤ |q| ∧ |q| < 2 ^ (e + 1) ∧ lastExponent q = max (e - 52) (-1074) := by
  have hnum : q.num.natAbs ≠ 0 := Int.natAbs_ne_zero.2 (Rat.num_ne_zero.2 hq)
  let a := q.num.natAbs.log2
  let b := q.den.log2
  have hden : (0 : Rat) < q.den := Nat.cast_pos.2 q.den_pos
  have habs : |q| = q.num.natAbs / q.den := by
    conv_lhs => rw [← Rat.num_div_den q]
    rw [abs_div, Nat.abs_cast, Nat.cast_natAbs, Int.cast_abs]
  have hnumLow : (2 : Rat) ^ a ≤ q.num.natAbs := by
    exact_mod_cast Nat.log2_self_le hnum
  have hnumHigh : (q.num.natAbs : Rat) < 2 ^ (a + 1) := by
    exact_mod_cast Nat.lt_log2_self
  have hdenLow : (2 : Rat) ^ b ≤ q.den := by
    exact_mod_cast Nat.log2_self_le q.den_nz
  have hdenHigh : (q.den : Rat) < 2 ^ (b + 1) := by
    exact_mod_cast Nat.lt_log2_self
  have htwo : (2 : Rat) ≠ 0 := by norm_num
  -- the logarithms of numerator and denominator leave two candidates for the exponent
  have hlow : (2 : Rat) ^ ((a : Int) - b - 1) < |q| := by
    rw [habs, lt_div_iff₀ hden, zpow_sub₀ htwo, zpow_sub₀ htwo, zpow_natCast, zpow_natCast, zpow_one,
      div_div, ← pow_succ, div_mul_eq_mul_div, div_lt_iff₀ (by positivity)]
    calc (2 : Rat) ^ a * q.den ≤ q.num.natAbs * q.den := mul_le_mul_of_nonneg_right hnumLow hden.le
      _ < q.num.natAbs * 2 ^ (b + 1) :=
          mul_lt_mul_of_pos_left hdenHigh (lt_of_lt_of_le (by positivity) hnumLow)
  have hhigh : |q| < (2 : Rat) ^ ((a : Int) - b + 1) := by
    rw [habs, div_lt_iff₀ hden, zpow_add₀ htwo, zpow_sub₀ htwo, zpow_natCast, zpow_natCast, zpow_one,
      div_mul_eq_mul_div, div_mul_eq_mul_div, lt_div_iff₀ (by positivity)]
    calc (q.num.natAbs : Rat) * 2 ^ b ≤ q.num.natAbs * q.den :=
          mul_le_mul_of_nonneg_left hdenLow (Nat.cast_nonneg _)
      _ < 2 ^ (a + 1) * q.den := mul_lt_mul_of_pos_right hnumHigh hden
      _ = 2 ^ a * 2 * q.den := by rw [pow_succ]
  rw [lastExponent]
  simp only [powTwo_eq]
  split
  -- one comparison tells which it is
  · rename_i hless
    exact ⟨(a : Int) - b - 1, hlow.le, by rwa [sub_add_cancel], rfl⟩
  · rename_i hmore
    exact ⟨(a : Int) - b, not_lt.1 hmore, hhigh, rfl⟩

/-- A number from `2 ^ 53` on is not rounded below it. -/
theorem le_toDouble {q : Rat} (h : 2 ^ 53 ≤ q) :
    toDouble q = .infinity false ∨ ∃ r, toDouble q = .finite r ∧ 2 ^ 53 ≤ r := by
  have hq : 0 < q := lt_of_lt_of_le (by norm_num) h
  obtain ⟨e, hlow, hhigh, hlast⟩ := lastExponent_spec hq.ne'
  rw [abs_of_pos hq] at hlow hhigh
  have he : 53 ≤ e := by
    have hlt : (2 : Rat) ^ (53 : Int) < 2 ^ (e + 1) := lt_of_le_of_lt (by exact_mod_cast h) hhigh
    have := (zpow_lt_zpow_iff_right₀ (by norm_num : (1 : Rat) < 2)).1 hlt
    omega
  have hunit : powTwo (lastExponent q) = (2 : Rat) ^ (e - 52) := by
    rw [powTwo_eq, hlast, max_eq_left (by omega)]
  have hunitPos : (0 : Rat) < 2 ^ (e - 52) := zpow_pos (by norm_num) _
  -- in units of the last digit the number is at least `2 ^ 52`
  have hdigits : ((2 ^ 52 : Int) : Rat) ≤ q / 2 ^ (e - 52) := by
    rw [le_div_iff₀ hunitPos]
    calc ((2 ^ 52 : Int) : Rat) * 2 ^ (e - 52) = 2 ^ (52 : Int) * 2 ^ (e - 52) := by norm_num
      _ = 2 ^ e := by
          rw [← zpow_add₀ (by norm_num)]
          congr 1
          omega
      _ ≤ q := hlow
  have hrounded : (2 : Rat) ^ 53 ≤ roundEven (q / 2 ^ (e - 52)) * 2 ^ (e - 52) := by
    have hround : ((2 ^ 52 : Int) : Rat) ≤ roundEven (q / 2 ^ (e - 52)) := by
      exact_mod_cast le_roundEven hdigits
    have hdouble : (2 : Rat) ≤ 2 ^ (e - 52) := by
      calc (2 : Rat) = 2 ^ (1 : Int) := by norm_num
        _ ≤ 2 ^ (e - 52) := zpow_le_zpow_right₀ (by norm_num) (by omega)
    calc (2 : Rat) ^ 53 = ((2 ^ 52 : Int) : Rat) * 2 := by norm_num
      _ ≤ roundEven (q / 2 ^ (e - 52)) * 2 ^ (e - 52) :=
          mul_le_mul hround hdouble (by norm_num)
            ((by norm_num : (0 : Rat) ≤ ((2 ^ 52 : Int) : Rat)).trans hround)
  simp only [toDouble, hunit]
  split
  · left
    rw [decide_eq_false]
    exact not_lt.2 ((by norm_num : (0 : Rat) ≤ 2 ^ 53).trans hrounded)
  · exact Or.inr ⟨_, rfl, hrounded⟩

/-- The double stands for a natural number, of which it may know no more than that it is large. -/
def StandsFor (x : JsNumber) (n : Nat) : Prop :=
  n < 2 ^ 53 ∧ x = .ofInt n ∨
    2 ^ 53 ≤ n ∧ (x = .infinity false ∨ ∃ r, x = .finite r ∧ 2 ^ 53 ≤ r)

/-- The double of a natural number stands for it. -/
theorem toDouble_standsFor (n : Nat) : StandsFor (toDouble n) n := by
  rcases Nat.lt_or_ge n (2 ^ 53) with hsmall | hlarge
  · have h := toDouble_intCast (n := n) (by rw [Int.natAbs_natCast]; exact hsmall.le)
    rw [Int.cast_natCast] at h
    exact Or.inl ⟨hsmall, h⟩
  · have hcast : (2 ^ 53 : Rat) ≤ n := by exact_mod_cast hlarge
    exact Or.inr ⟨hlarge, le_toDouble hcast⟩

/-- What stands for a number below the limit compares like the number. -/
theorem StandsFor.le_iff {x : JsNumber} {n now : Nat} (h : StandsFor x n) (hnow : now < 2 ^ 53) :
    x.le (.ofInt now) = true ↔ n ≤ now := by
  rcases h with ⟨-, rfl⟩ | ⟨hlarge, rfl | ⟨r, rfl, hr⟩⟩
  · simp [JsNumber.ofInt, JsNumber.le]
  · simp only [JsNumber.ofInt, JsNumber.le, Bool.false_eq_true, false_iff]
    omega
  · have hcast : (now : Rat) < 2 ^ 53 := by exact_mod_cast hnow
    simp only [JsNumber.ofInt, JsNumber.le, decide_eq_true_eq, Int.cast_natCast]
    constructor
    · intro hle
      exact absurd (hr.trans hle) (not_le.2 hcast)
    · omega

/-- Only 0 is shown as 0. -/
theorem StandsFor.eq_zero_iff {x : JsNumber} {n : Nat} (h : StandsFor x n) : x = .ofInt 0 ↔ n = 0 := by
  rcases h with ⟨-, rfl⟩ | ⟨hlarge, rfl | ⟨r, rfl, hr⟩⟩
  · constructor
    · intro heq
      exact_mod_cast JsNumber.ofInt_injective heq
    · rintro rfl
      rfl
  · simp only [JsNumber.ofInt, reduceCtorEq, false_iff]
    omega
  · simp only [JsNumber.ofInt, JsNumber.finite.injEq, Int.cast_zero]
    constructor
    · rintro rfl
      norm_num at hr
    · omega

/-- A sum stands for the sum. -/
theorem StandsFor.add {x y : JsNumber} {m n : Nat} (hx : StandsFor x m) (hy : StandsFor y n) :
    StandsFor (x.add y) (m + n) := by
  -- each summand is exact, infinite, or large and rounded; one that is not exact makes the sum large
  rcases hx with ⟨hm, rfl⟩ | ⟨hm, rfl | ⟨r, rfl, hr⟩⟩
  · rcases hy with ⟨hn, rfl⟩ | ⟨hn, rfl | ⟨s, rfl, hs⟩⟩
    · have hsum : (JsNumber.ofInt m).add (.ofInt n) = toDouble (m + n : Nat) := by
        push_cast
        rfl
      rw [hsum]
      exact toDouble_standsFor (m + n)
    · exact Or.inr ⟨by omega, Or.inl rfl⟩
    · have hcast : (0 : Rat) ≤ ((m : Int) : Rat) := by
        rw [Int.cast_natCast]
        exact Nat.cast_nonneg m
      exact Or.inr ⟨by omega, le_toDouble (by linarith)⟩
  · rcases hy with ⟨hn, rfl⟩ | ⟨hn, rfl | ⟨s, rfl, hs⟩⟩
    · exact Or.inr ⟨by omega, Or.inl rfl⟩
    · exact Or.inr ⟨by omega, Or.inl rfl⟩
    · exact Or.inr ⟨by omega, Or.inl rfl⟩
  · rcases hy with ⟨hn, rfl⟩ | ⟨hn, rfl | ⟨s, rfl, hs⟩⟩
    · have hcast : (0 : Rat) ≤ ((n : Int) : Rat) := by
        rw [Int.cast_natCast]
        exact Nat.cast_nonneg n
      exact Or.inr ⟨by omega, le_toDouble (by linarith)⟩
    · exact Or.inr ⟨by omega, Or.inl rfl⟩
    · exact Or.inr ⟨by omega, le_toDouble (by linarith)⟩

/-- A number within `2 ^ 52` is rounded in the unit of its last digit, and not over an integer. -/
theorem toDouble_unit {q : Rat} (hq : q ≠ 0) (h : |q| ≤ 2 ^ 52) :
    ∃ (e : Int) (r : Rat), (2 : Rat) ^ e ≤ |q| ∧ toDouble q = .finite r ∧
      |r - q| ≤ 2 ^ (max (e - 52) (-1074)) / 2 ∧ (∀ c : Int, c ≤ q → c ≤ r) ∧
      ∀ c : Int, q ≤ c → r ≤ c := by
  have hqle : |q| ≤ 2 ^ (52 : Int) := by exact_mod_cast h
  obtain ⟨e, hlow, -, hlast⟩ := lastExponent_spec hq
  have he : e ≤ 52 := (zpow_le_zpow_iff_right₀ (by norm_num : (1 : Rat) < 2)).1 (hlow.trans hqle)
  -- the unit of the last digit divides 1
  obtain ⟨k, hk⟩ : ∃ k : Nat, lastExponent q = -k := ⟨(-lastExponent q).toNat, by omega⟩
  have hunit : powTwo (lastExponent q) = 1 / 2 ^ k := by
    rw [powTwo_eq, hk, zpow_neg, zpow_natCast, one_div]
  have hscale : (0 : Rat) < 2 ^ k := by positivity
  let m := roundEven (q * 2 ^ k)
  let r : Rat := m / 2 ^ k
  have hround : |r - q| ≤ 1 / 2 / 2 ^ k := by
    have hm := abs_roundEven_sub_le (q * 2 ^ k)
    have hr : r - q = ((m : Rat) - q * 2 ^ k) / 2 ^ k := by
      rw [sub_div, mul_div_cancel_right₀ q hscale.ne']
    rw [hr, abs_div, abs_of_pos hscale]
    exact div_le_div_of_nonneg_right hm hscale.le
  refine ⟨e, r, hlow, ?_, ?_, ?_, ?_⟩
  · have hrounded : (roundEven (q / (1 / 2 ^ k)) : Rat) * (1 / 2 ^ k) = r := by
      rw [div_div_eq_mul_div, div_one, mul_one_div]
    have hone : (1 : Rat) / 2 / 2 ^ k ≤ 1 :=
      (div_le_self (by norm_num) (one_le_pow₀ (by norm_num))).trans (by norm_num)
    have hsize : |r| < 2 ^ 1024 := by
      calc |r| = |r - q + q| := by rw [sub_add_cancel]
        _ ≤ |r - q| + |q| := abs_add_le _ _
        _ ≤ 1 + 2 ^ 52 := add_le_add (hround.trans hone) h
        _ < 2 ^ 53 := by norm_num
        _ < 2 ^ 1024 := pow_lt_pow_right₀ (by norm_num) (by norm_num)
    simp only [toDouble, hunit, hrounded]
    exact if_neg (not_le.2 hsize)
  · rw [← hlast, hk, zpow_neg, zpow_natCast]
    calc |r - q| ≤ 1 / 2 / 2 ^ k := hround
      _ = (2 ^ k)⁻¹ / 2 := by rw [div_right_comm, one_div]
  · intro c hc
    have hm : c * 2 ^ k ≤ m := le_roundEven (by
      push_cast
      exact mul_le_mul_of_nonneg_right hc hscale.le)
    rw [le_div_iff₀ hscale]
    exact_mod_cast hm
  · intro c hc
    have hm : m ≤ c * 2 ^ k := roundEven_le (by
      push_cast
      exact mul_le_mul_of_nonneg_right hc hscale.le)
    rw [div_le_iff₀ hscale]
    exact_mod_cast hm

/-- A number below `2 ^ 23` is rounded by little, and not over an integer. -/
theorem toDouble_near {q : Rat} (h : |q| ≤ 2 ^ 23) :
    ∃ r, toDouble q = .finite r ∧ |r - q| ≤ 1 / 2 ^ 30 ∧ (∀ c : Int, c ≤ q → c ≤ r) ∧
      ∀ c : Int, q ≤ c → r ≤ c := by
  rcases eq_or_ne q 0 with rfl | hq
  · refine ⟨0, toDouble_intCast (n := 0) (by decide), ?_, fun c hc => hc, fun c hc => hc⟩
    rw [sub_self, abs_zero]
    positivity
  obtain ⟨e, r, hlow, hr, hround, hmin, hmax⟩ := toDouble_unit hq (h.trans (by norm_num))
  have hqle : |q| ≤ 2 ^ (23 : Int) := by exact_mod_cast h
  have he : e ≤ 23 := (zpow_le_zpow_iff_right₀ (by norm_num : (1 : Rat) < 2)).1 (hlow.trans hqle)
  refine ⟨r, hr, hround.trans ?_, hmin, hmax⟩
  calc (2 : Rat) ^ (max (e - 52) (-1074)) / 2 ≤ 2 ^ (-29 : Int) / 2 :=
        div_le_div_of_nonneg_right (zpow_le_zpow_right₀ (by norm_num) (by omega)) (by norm_num)
    _ = 1 / 2 ^ 30 := by norm_num

/-- A number from 1 to `2 ^ 52` is rounded by at most a part in `2 ^ 53`, and not below 1. -/
theorem toDouble_relative {q : Rat} (hone : 1 ≤ q) (h : q ≤ 2 ^ 52) :
    ∃ r, toDouble q = .finite r ∧ 1 ≤ r ∧ |r - q| ≤ q / 2 ^ 53 := by
  have hpos : 0 < q := lt_of_lt_of_le one_pos hone
  obtain ⟨e, r, hlow, hr, hround, hmin, -⟩ := toDouble_unit hpos.ne' (by rwa [abs_of_pos hpos])
  rw [abs_of_pos hpos] at hlow
  refine ⟨r, hr, by exact_mod_cast hmin 1 (by exact_mod_cast hone), ?_⟩
  rcases le_or_gt (-1074) (e - 52) with he | he
  · rw [max_eq_left he] at hround
    calc |r - q| ≤ 2 ^ (e - 52) / 2 := hround
      _ = 2 ^ e / 2 ^ 53 := by
          rw [zpow_sub₀ (by norm_num), div_div]
          norm_num
      _ ≤ q / 2 ^ 53 := div_le_div_of_nonneg_right hlow (by norm_num)
  · -- the unit is far below the precision of a number from 1 on
    rw [max_eq_right he.le] at hround
    calc |r - q| ≤ 2 ^ (-1074 : Int) / 2 := hround
      _ ≤ 2 ^ (-53 : Int) := by
          refine (div_le_self (zpow_nonneg (by norm_num) _) (by norm_num)).trans ?_
          exact zpow_le_zpow_right₀ (by norm_num) (by norm_num)
      _ = 1 / 2 ^ 53 := by norm_num
      _ ≤ q / 2 ^ 53 := div_le_div_of_nonneg_right hone (by norm_num)

/-- A quotient that is no integer is at least `1 / d` from the next one. -/
theorem floor_of_near {n d : Int} {r : Rat} (hd : 0 < d) (hnear : |r - n / d| < 1 / d)
    (hmin : ∀ c : Int, (c : Rat) ≤ n / d → (c : Rat) ≤ r) : r.floor = n / d := by
  have hdpos : (0 : Rat) < d := Int.cast_pos.2 hd
  have hle : ((n / d : Int) : Rat) ≤ n / d := by
    rw [le_div_iff₀ hdpos]
    exact_mod_cast Int.ediv_mul_le n hd.ne'
  have hlt : (n : Rat) / d ≤ (n / d : Int) + 1 - 1 / d := by
    have hn : n ≤ (n / d) * d + d - 1 := by
      have := Int.lt_ediv_add_one_mul_self n hd
      linarith
    have hcast : (n : Rat) ≤ (n / d : Int) * d + d - 1 := by exact_mod_cast hn
    have hsplit : ((n / d : Int) : Rat) + 1 - 1 / d = ((n / d : Int) * d + d - 1) / d := by
      rw [sub_div, add_div, mul_div_cancel_right₀ _ hdpos.ne', div_self hdpos.ne']
    rw [hsplit]
    exact div_le_div_of_nonneg_right hcast hdpos.le
  apply le_antisymm
  · have hbelow : (r.floor : Rat) < (n / d : Int) + 1 := by
      have := Rat.floor_le r
      have := (abs_lt.1 hnear).2
      linarith
    have : r.floor < n / d + 1 := by exact_mod_cast hbelow
    omega
  · exact Rat.le_floor_iff.2 (hmin _ hle)

/-- **Floor and ceiling of a rounded quotient** of small integers are those of the quotient. -/
theorem toDouble_quotient {n d : Int} (hn : |n| ≤ 2 ^ 23) (hd : 0 < d) (hd' : d < 2 ^ 23) :
    ∃ r, toDouble (n / d) = .finite r ∧ r.floor = n / d ∧ r.ceil = -(-n / d) := by
  have hdpos : (0 : Rat) < d := Int.cast_pos.2 hd
  have hsmall : |(n : Rat) / d| ≤ 2 ^ 23 := by
    rw [abs_div, abs_of_pos hdpos, div_le_iff₀ hdpos]
    have hcast : |(n : Rat)| ≤ 2 ^ 23 := by exact_mod_cast hn
    have hone : (1 : Rat) ≤ d := by exact_mod_cast hd
    linarith
  obtain ⟨r, hr, hround, hmin, hmax⟩ := toDouble_near hsmall
  -- the error is below the distance of the quotient to the next integer
  have hnear : |r - n / d| < 1 / d := by
    have hd23 : (d : Rat) < 2 ^ 23 := by exact_mod_cast hd'
    calc |r - n / d| ≤ 1 / 2 ^ 30 := hround
      _ < 1 / d := by
          rw [div_lt_div_iff₀ (by norm_num) hdpos]
          linarith
  refine ⟨r, hr, floor_of_near hd hnear hmin, ?_⟩
  rw [Rat.ceil_eq_neg_floor_neg, floor_of_near (n := -n) hd]
  · rw [Int.cast_neg, neg_div, neg_sub_neg, abs_sub_comm]
    exact hnear
  · intro c hc
    have hc' : (n : Rat) / d ≤ (-c : Int) := by
      push_cast at hc ⊢
      rw [neg_div] at hc
      linarith
    have := hmax (-c) hc'
    push_cast at this
    linarith

end StrategyBuilder.Lib.Js
