import Mathlib.Algebra.Order.Field.Basic
import Mathlib.Data.Nat.Cast.Order.Ring
import Mathlib.Tactic.Ring

/-!
# Floored division against exact quotients

Natural numbers with floored division, compared with the exact quotients of an ordered field. A value
`v` in units of `p / s` is floored to `v * s / p` units: these are worth no more than `v`, and one unit
more is worth more than `v` (`units_mul_le`, `lt_units_succ_mul`). Twice by a ratio in two stages loses
less than the ratio and 1 (`lt_staged`).

A quotient of integers that is truncated toward 0 is the floored one after a correction by 1, made where
the dividend is negative and the remainder is not 0 (`tdiv_sub_one_eq_ediv`,
`tdiv_eq_ediv_of_uncorrected`).
-/

set_option autoImplicit false

namespace StrategyBuilder.Lib

universe u

variable {K : Type u} [Field K] [LinearOrder K] [IsStrictOrderedRing K]

theorem floorDiv_mul_le (a b : Nat) : ((a / b : Nat) : K) * b ≤ a := by
  exact_mod_cast Nat.div_mul_le_self a b

theorem lt_floorDiv_succ_mul (a : Nat) {b : Nat} (hb : 0 < b) :
    (a : K) < ((a / b : Nat) + 1) * b := by
  have h : a < (a / b + 1) * b := by
    rw [Nat.mul_comm]
    exact Nat.lt_mul_div_succ a hb
  exact_mod_cast h

/-- The floor is within one of the exact quotient. -/
theorem div_lt_floorDiv_succ (a : Nat) {b : Nat} (hb : 0 < b) : (a : K) / b < (a / b : Nat) + 1 := by
  have hb' : (0 : K) < b := Nat.cast_pos.2 hb
  rw [div_lt_iff₀ hb']
  exact lt_floorDiv_succ_mul a hb

theorem floorDiv_le_div (a : Nat) {b : Nat} (hb : 0 < b) : ((a / b : Nat) : K) ≤ a / b := by
  have hb' : (0 : K) < b := Nat.cast_pos.2 hb
  rw [le_div_iff₀ hb']
  exact floorDiv_mul_le a b

section Units

variable {s p : Nat}

/-- The units that a value is floored to are worth no more than the value. -/
theorem units_mul_le (v : Nat) (hs : 0 < s) : ((v * s / p : Nat) : K) * (p / s) ≤ v := by
  have hs' : (0 : K) < s := Nat.cast_pos.2 hs
  have h : ((v * s / p : Nat) : K) * p ≤ v * s := by
    have := floorDiv_mul_le (K := K) (v * s) p
    rwa [Nat.cast_mul v s] at this
  rw [← mul_div_assoc, div_le_iff₀ hs']
  exact h

/-- One unit more is worth more than the value. -/
theorem lt_units_succ_mul (v : Nat) (hs : 0 < s) (hp : 0 < p) :
    (v : K) < ((v * s / p : Nat) + 1) * (p / s) := by
  have hs' : (0 : K) < s := Nat.cast_pos.2 hs
  have h : (v : K) * s < ((v * s / p : Nat) + 1) * p := by
    have := lt_floorDiv_succ_mul (K := K) (v * s) hp
    rwa [Nat.cast_mul v s] at this
  rw [← mul_div_assoc, lt_div_iff₀ hs']
  exact h

end Units

section Staged

variable {q : Nat}

theorem mulDiv_le (x p : Nat) (hq : 0 < q) : ((x * p / q : Nat) : K) ≤ x * (p / q) := by
  have h := floorDiv_le_div (K := K) (x * p) hq
  rwa [Nat.cast_mul, mul_div_assoc] at h

theorem lt_mulDiv_succ (x p : Nat) (hq : 0 < q) : (x : K) * (p / q) < (x * p / q : Nat) + 1 := by
  have h := div_lt_floorDiv_succ (K := K) (x * p) hq
  rwa [Nat.cast_mul, mul_div_assoc] at h

/-- Twice by a ratio, floored at each stage, is at most the square of the ratio. -/
theorem staged_le (x p : Nat) (hq : 0 < q) :
    ((x * p / q * p / q : Nat) : K) ≤ x * (p / q) ^ 2 := by
  have hratio : (0 : K) ≤ p / q := div_nonneg (Nat.cast_nonneg p) (Nat.cast_nonneg q)
  calc ((x * p / q * p / q : Nat) : K) ≤ (x * p / q : Nat) * (p / q) := mulDiv_le _ p hq
    _ ≤ x * (p / q) * (p / q) := mul_le_mul_of_nonneg_right (mulDiv_le x p hq) hratio
    _ = x * (p / q) ^ 2 := by ring

/-- The first floor loses up to the ratio, the second up to 1. -/
theorem lt_staged (x p : Nat) (hq : 0 < q) :
    (x : K) * (p / q) ^ 2 < (x * p / q * p / q : Nat) + p / q + 1 := by
  have hratio : (0 : K) ≤ p / q := div_nonneg (Nat.cast_nonneg p) (Nat.cast_nonneg q)
  have hfirst := mul_le_mul_of_nonneg_right (lt_mulDiv_succ (K := K) x p hq).le hratio
  have hsecond := lt_mulDiv_succ (K := K) (x * p / q) p hq
  calc (x : K) * (p / q) ^ 2 = x * (p / q) * (p / q) := by ring
    _ ≤ ((x * p / q : Nat) + 1) * (p / q) := hfirst
    _ = (x * p / q : Nat) * (p / q) + p / q := by ring
    _ < (x * p / q * p / q : Nat) + 1 + p / q := by gcongr
    _ = (x * p / q * p / q : Nat) + p / q + 1 := by ring

end Staged

section Truncated

variable {a b : Int}

/-- The correction of a negative quotient that was cut. -/
theorem tdiv_sub_one_eq_ediv (hb : 0 < b) (ha : a < 0) (hrest : a.tmod b ≠ 0) :
    a.tdiv b - 1 = a / b := by
  have hinexact : ¬ (0 ≤ a ∨ b ∣ a) := by
    rw [Int.dvd_iff_tmod_eq_zero]
    exact not_or.2 ⟨Int.not_le.2 ha, hrest⟩
  rw [Int.tdiv_eq_ediv, if_neg hinexact, Int.sign_eq_one_of_pos hb, Int.add_sub_cancel]

/-- A quotient that needs no correction is the floor. -/
theorem tdiv_eq_ediv_of_uncorrected (h : ¬ (a < 0 ∧ a.tmod b ≠ 0)) : a.tdiv b = a / b := by
  have hexact : 0 ≤ a ∨ b ∣ a := by
    rw [Int.dvd_iff_tmod_eq_zero]
    by_cases ha : a < 0
    · exact Or.inr (not_not.1 fun hrest => h ⟨ha, hrest⟩)
    · exact Or.inl (Int.not_lt.1 ha)
  rw [Int.tdiv_eq_ediv, if_pos hexact, Int.add_zero]

end Truncated

end StrategyBuilder.Lib
