import Mathlib.Algebra.Order.Field.Basic
import Mathlib.Algebra.Order.Ring.Pow
import Mathlib.Data.Nat.Bitwise
import Mathlib.Data.Nat.Cast.Order.Field
import Mathlib.Data.Rat.Cast.Order
import Mathlib.Data.Real.Basic
import Mathlib.Tactic.FieldSimp
import Mathlib.Tactic.Linarith
import Mathlib.Tactic.Positivity
import Mathlib.Tactic.Ring

/-!
# Powers in fixed point

A power of a number below 1 as the product of the squares that the binary digits of the exponent select.
Numbers are multiples of `1 / one`, the squares stand in a table, and every product is rounded down.

The result lies between the powers of two numbers that the table lies between (`tablePower_ge`,
`tablePower_le`), less one for each product. Where these are close it falls with the exponent
(`tablePower_succ_le`), and it is close to the powers of every real number between them
(`tablePower_near`). Whether a table lies between the squares of two numbers is a computation with
`squares`.
-/

set_option autoImplicit false

namespace StrategyBuilder.Lib.FixedPower

/-- The product of the entries for the `n` last digits of `m`. -/
def tablePower (one : Nat) (table : Nat → Nat) : Nat → Nat → Nat
  | 0, _ => one
  | n + 1, m =>
      if m.testBit n then tablePower one table n m * table n / one else tablePower one table n m

variable {one n : Nat} {table : Nat → Nat}

/-- A loop over the digits from the `j`-th on. -/
theorem foldl_tablePower {σ : Type} {step : Nat → σ → Nat} (l : List σ) (j m : Nat)
    (hstep : ∀ k s, l[k]? = some s →
      step (tablePower one table (j + k) m) s = tablePower one table (j + k + 1) m) :
    l.foldl step (tablePower one table j m) = tablePower one table (j + l.length) m := by
  induction l generalizing j with
  | nil => rfl
  | cons s l ih =>
    have hfirst := hstep 0 s rfl
    rw [Nat.add_zero] at hfirst
    have hrest := ih (j + 1) fun k t ht => by
      have hk := hstep (k + 1) t ht
      rwa [← Nat.add_assoc, Nat.add_right_comm j k 1] at hk
    rw [List.foldl_cons, hfirst, hrest, List.length_cons, Nat.add_right_comm, Nat.add_assoc]

/-- A power of factors below one is below one. -/
theorem tablePower_le_one (htable : ∀ i < n, table i ≤ one) (m : Nat) :
    tablePower one table n m ≤ one := by
  induction n with
  | zero => exact Nat.le_refl one
  | succ n ih =>
    have hn := ih fun i hi => htable i (Nat.lt_succ_of_lt hi)
    rw [tablePower]
    split
    · have hmul := Nat.mul_le_mul_left (tablePower one table n m) (htable n (Nat.lt_succ_self n))
      exact (Nat.div_le_of_le_mul (by rwa [Nat.mul_comm one])).trans hn
    · exact hn

/-- The last digit adds its power of two to the exponent. -/
theorem mod_succ (m n : Nat) : m % 2 ^ (n + 1) = m % 2 ^ n + if m.testBit n then 2 ^ n else 0 := by
  rw [Nat.mod_pow_succ, ← Nat.toNat_testBit]
  cases m.testBit n with
  | false => simp
  | true => simp

section

variable {x y : Rat}

/-- A table above the squares of `x` gives its power, but for one for each product. -/
theorem tablePower_ge (hone : 0 < one) (hx : 0 ≤ x) (htable : ∀ i < n, table i ≤ one)
    (hsquares : ∀ i < n, one * x ^ 2 ^ i ≤ table i) (m : Nat) :
    one * x ^ (m % 2 ^ n) - n ≤ tablePower one table n m := by
  have hpos : (0 : Rat) < one := Nat.cast_pos.2 hone
  induction n with
  | zero => simp [tablePower, Nat.mod_one]
  | succ n ih =>
    have hn := ih (fun i hi => htable i (Nat.lt_succ_of_lt hi))
      fun i hi => hsquares i (Nat.lt_succ_of_lt hi)
    rw [tablePower, mod_succ]
    push_cast
    split
    · have hle : (table n : Rat) ≤ one := Nat.cast_le.2 (htable n (Nat.lt_succ_self n))
      have hsquare := hsquares n (Nat.lt_succ_self n)
      have hfloor : (tablePower one table n m * table n : Rat) / one - 1 <
          (tablePower one table n m * table n / one : Nat) := by
        have hlt := Nat.lt_div_mul_add hone (a := tablePower one table n m * table n)
        have hcast : (tablePower one table n m * table n : Rat) <
            (tablePower one table n m * table n / one : Nat) * one + one := by
          exact_mod_cast hlt
        rw [sub_lt_iff_lt_add, div_lt_iff₀ hpos]
        linarith
      -- the entry is at least the square, and at most 1
      have hpower : one * x ^ (m % 2 ^ n) * x ^ 2 ^ n - n ≤
          (tablePower one table n m * table n : Rat) / one := by
        rw [le_div_iff₀ hpos]
        have hpow : 0 ≤ x ^ (m % 2 ^ n) := pow_nonneg hx _
        have hentry : (0 : Rat) ≤ table n := Nat.cast_nonneg _
        calc (one * x ^ (m % 2 ^ n) * x ^ 2 ^ n - n) * one
            = one * x ^ (m % 2 ^ n) * (one * x ^ 2 ^ n) - n * one := by ring
          _ ≤ one * x ^ (m % 2 ^ n) * table n - n * table n := by
              have hleft := mul_le_mul_of_nonneg_left hsquare (mul_nonneg hpos.le hpow)
              have hright := mul_le_mul_of_nonneg_left hle (Nat.cast_nonneg n (α := Rat))
              linarith
          _ = (one * x ^ (m % 2 ^ n) - n) * table n := by ring
          _ ≤ tablePower one table n m * table n := mul_le_mul_of_nonneg_right hn hentry
      rw [pow_add, ← mul_assoc]
      linarith
    · simp only [add_zero]
      linarith

/-- A table below the squares of `y` gives at most its power. -/
theorem tablePower_le (hone : 0 < one) (hy : 0 ≤ y)
    (hsquares : ∀ i < n, (table i : Rat) ≤ one * y ^ 2 ^ i)
    (m : Nat) : (tablePower one table n m : Rat) ≤ one * y ^ (m % 2 ^ n) := by
  have hpos : (0 : Rat) < one := Nat.cast_pos.2 hone
  induction n with
  | zero => simp [tablePower, Nat.mod_one]
  | succ n ih =>
    have hn := ih fun i hi => hsquares i (Nat.lt_succ_of_lt hi)
    rw [tablePower, mod_succ]
    split
    · have hsquare := hsquares n (Nat.lt_succ_self n)
      calc ((tablePower one table n m * table n / one : Nat) : Rat)
          ≤ (tablePower one table n m * table n : Nat) / one := Nat.cast_div_le
        _ = tablePower one table n m * table n / one := by rw [Nat.cast_mul]
        _ ≤ (one * y ^ (m % 2 ^ n)) * (one * y ^ 2 ^ n) / one := by
            have hpow : 0 ≤ y ^ (m % 2 ^ n) := pow_nonneg hy _
            have hmul := mul_le_mul hn hsquare (Nat.cast_nonneg _) (mul_nonneg hpos.le hpow)
            exact div_le_div_of_nonneg_right hmul hpos.le
        _ = one * y ^ (m % 2 ^ n + 2 ^ n) := by
            rw [pow_add]
            field_simp
    · simpa using hn

/-- Between close powers the result falls with the exponent, up to an exponent `N`. -/
theorem tablePower_succ_le (hone : 0 < one) (hx : 0 < x) (hx1 : x ≤ 1) (hxy : x ≤ y)
    (htable : ∀ i < n, table i ≤ one) (hlower : ∀ i < n, one * x ^ 2 ^ i ≤ table i)
    (hupper : ∀ i < n, (table i : Rat) ≤ one * y ^ 2 ^ i) {N : Nat} (hN : N < 2 ^ n)
    (hclose : (n : Rat) ≤ one * x ^ N * (1 - N * (1 - x / y) - y)) {m : Nat} (hm : m < N) :
    tablePower one table n (m + 1) ≤ tablePower one table n m := by
  have hy : 0 < y := lt_of_lt_of_le hx hxy
  have hpos : (0 : Rat) < one := Nat.cast_pos.2 hone
  have hmod : m % 2 ^ n = m := Nat.mod_eq_of_lt (by omega)
  have hmod' : (m + 1) % 2 ^ n = m + 1 := Nat.mod_eq_of_lt (by omega)
  have hbelow := tablePower_ge hone hx.le htable hlower m
  have habove := tablePower_le hone hy.le hupper (m + 1)
  rw [hmod] at hbelow
  rw [hmod'] at habove
  let gap := 1 - N * (1 - x / y) - y
  have hgap : 0 ≤ gap := by
    have hunit : 0 < one * x ^ N := mul_pos hpos (pow_pos hx N)
    exact nonneg_of_mul_nonneg_right ((Nat.cast_nonneg n).trans hclose) hunit
  have hquotient : x / y ≤ 1 := (div_le_one hy).2 hxy
  -- Bernoulli: the powers part by at most `m` times the quotient
  have hratio : 1 - N * (1 - x / y) ≤ (x / y) ^ m := by
    have hbernoulli := one_add_mul_le_pow (a := x / y - 1) (by
      have := div_pos hx hy
      linarith) m
    have hcast : (m : Rat) ≤ N := Nat.cast_le.2 hm.le
    have hmul := mul_le_mul_of_nonneg_right hcast (sub_nonneg.2 hquotient)
    rw [add_sub_cancel] at hbernoulli
    linarith
  have hpower : y ^ m * gap ≤ x ^ m - y ^ (m + 1) := by
    have hmul := mul_le_mul_of_nonneg_left hratio (pow_nonneg hy.le m)
    rw [← mul_pow, mul_div_cancel₀ x hy.ne'] at hmul
    calc y ^ m * gap = y ^ m * (1 - N * (1 - x / y)) - y ^ m * y := by ring
      _ ≤ x ^ m - y ^ (m + 1) := by
          rw [pow_succ]
          linarith
  have hlarge : x ^ N ≤ y ^ m :=
    (pow_le_pow_of_le_one hx.le hx1 hm.le).trans (pow_le_pow_left₀ hx.le hxy m)
  have hfar : (n : Rat) ≤ one * x ^ m - one * y ^ (m + 1) := by
    calc (n : Rat) ≤ one * x ^ N * gap := hclose
      _ ≤ one * y ^ m * gap :=
          mul_le_mul_of_nonneg_right (mul_le_mul_of_nonneg_left hlarge hpos.le) hgap
      _ = one * (y ^ m * gap) := by ring
      _ ≤ one * (x ^ m - y ^ (m + 1)) := mul_le_mul_of_nonneg_left hpower hpos.le
      _ = one * x ^ m - one * y ^ (m + 1) := by ring
  have hcast : (tablePower one table n (m + 1) : Rat) ≤ tablePower one table n m := by
    linarith
  exact Nat.cast_le.1 hcast

/-- Bernoulli: the powers of a quotient up to the `N`-th. -/
theorem one_sub_mul_le_pow {q : Rat} (hq : 0 ≤ q) (hq1 : q ≤ 1) {m N : Nat} (hm : m ≤ N) :
    1 - N * (1 - q) ≤ q ^ m := by
  have hbernoulli := one_add_mul_le_pow (a := q - 1) (by linarith) m
  have hcast : (m : Rat) ≤ N := Nat.cast_le.2 hm
  have hmul := mul_le_mul_of_nonneg_right hcast (sub_nonneg.2 hq1)
  rw [add_sub_cancel] at hbernoulli
  linarith

/-- **Accuracy.** A table between the squares of two close numbers gives the powers of every real number
between them, up to one for each product and a factor that Bernoulli bounds. -/
theorem tablePower_near (hone : 0 < one) (hx : 0 < x) (htable : ∀ i < n, table i ≤ one)
    (hlower : ∀ i < n, one * x ^ 2 ^ i ≤ table i) (hupper : ∀ i < n, (table i : Rat) ≤ one * y ^ 2 ^ i)
    {t : Real} (hxt : (x : Real) ≤ t) (hty : t ≤ (y : Real)) {N : Nat} (hN : N < 2 ^ n) {m : Nat}
    (hm : m ≤ N) :
    one * t ^ m * ((1 - N * (1 - x / y) : Rat) : Real) ≤ tablePower one table n m + n ∧
      (tablePower one table n m : Real) * ((1 - N * (1 - x / y) : Rat) : Real) ≤ one * t ^ m := by
  have hxreal : (0 : Real) < x := Rat.cast_pos.2 hx
  have ht : 0 < t := lt_of_lt_of_le hxreal hxt
  have hxy : x ≤ y := Rat.cast_le.1 (hxt.trans hty)
  have hy : 0 < y := lt_of_lt_of_le hx hxy
  have hquotient : x / y ≤ 1 := (div_le_one hy).2 hxy
  have hmod : m % 2 ^ n = m := Nat.mod_eq_of_lt (by omega)
  have hbelow := tablePower_ge hone hx.le htable hlower m
  have habove := tablePower_le hone hy.le hupper m
  rw [hmod] at hbelow habove
  have hbelowReal : (one : Real) * (x : Real) ^ m - n ≤ tablePower one table n m := by
    exact_mod_cast hbelow
  have haboveReal : (tablePower one table n m : Real) ≤ one * (y : Real) ^ m := by exact_mod_cast habove
  have hgap : ((1 - N * (1 - x / y) : Rat) : Real) ≤ ((x : Real) / y) ^ m := by
    exact_mod_cast one_sub_mul_le_pow (div_nonneg hx.le hy.le) hquotient hm
  have honeReal : (0 : Real) ≤ one := Nat.cast_nonneg one
  have hpowx : (0 : Real) ≤ (x : Real) ^ m := pow_nonneg hxreal.le m
  have hpowy : (0 : Real) < (y : Real) ^ m := pow_pos (Rat.cast_pos.2 hy) m
  -- both powers of `t` are between those of `x` and `y`
  have hlow : (x : Real) ^ m ≤ t ^ m := pow_le_pow_left₀ hxreal.le hxt m
  have hhigh : t ^ m ≤ (y : Real) ^ m := pow_le_pow_left₀ ht.le hty m
  have hshrink : (y : Real) ^ m * ((1 - N * (1 - x / y) : Rat) : Real) ≤ (x : Real) ^ m := by
    calc (y : Real) ^ m * ((1 - N * (1 - x / y) : Rat) : Real)
        ≤ (y : Real) ^ m * ((x : Real) / y) ^ m := mul_le_mul_of_nonneg_left hgap hpowy.le
      _ = (x : Real) ^ m := by
          rw [← mul_pow, mul_div_cancel₀ _ (Rat.cast_pos.2 hy).ne']
  by_cases hsign : 0 ≤ ((1 - N * (1 - x / y) : Rat) : Real)
  · constructor
    · calc (one : Real) * t ^ m * ((1 - N * (1 - x / y) : Rat) : Real)
          ≤ one * (y : Real) ^ m * ((1 - N * (1 - x / y) : Rat) : Real) :=
            mul_le_mul_of_nonneg_right (mul_le_mul_of_nonneg_left hhigh honeReal) hsign
        _ = one * ((y : Real) ^ m * ((1 - N * (1 - x / y) : Rat) : Real)) := by ring
        _ ≤ one * (x : Real) ^ m := mul_le_mul_of_nonneg_left hshrink honeReal
        _ ≤ tablePower one table n m + n := by linarith
    · calc (tablePower one table n m : Real) * ((1 - N * (1 - x / y) : Rat) : Real)
          ≤ one * (y : Real) ^ m * ((1 - N * (1 - x / y) : Rat) : Real) :=
            mul_le_mul_of_nonneg_right haboveReal hsign
        _ = one * ((y : Real) ^ m * ((1 - N * (1 - x / y) : Rat) : Real)) := by ring
        _ ≤ one * (x : Real) ^ m := mul_le_mul_of_nonneg_left hshrink honeReal
        _ ≤ one * t ^ m := mul_le_mul_of_nonneg_left hlow honeReal
  · -- the numbers are too far apart for the bound to say anything
    have hneg : ((1 - N * (1 - x / y) : Rat) : Real) ≤ 0 := (not_le.1 hsign).le
    have hpower : 0 ≤ (one : Real) * t ^ m := mul_nonneg honeReal (pow_nonneg ht.le m)
    have hresult : (0 : Real) ≤ tablePower one table n m := Nat.cast_nonneg _
    have hdigits : (0 : Real) ≤ n := Nat.cast_nonneg n
    have hfirst := mul_nonpos_of_nonneg_of_nonpos hpower hneg
    have hsecond := mul_nonpos_of_nonneg_of_nonpos hresult hneg
    exact ⟨by linarith, by linarith⟩

end

/-! ## Squares -/

/-- Repeated squares of `d`, each with `up` more than its floor. -/
def squares (one up d : Nat) : Nat → Nat
  | 0 => d
  | i + 1 => squares one up d i * squares one up d i / one + up

/-- The rounded squares are below the powers. -/
theorem squares_le (hone : 0 < one) (d i : Nat) :
    (squares one 0 d i : Rat) ≤ one * ((d : Rat) / one) ^ 2 ^ i := by
  have hpos : (0 : Rat) < one := Nat.cast_pos.2 hone
  induction i with
  | zero =>
    rw [squares, pow_zero, pow_one, mul_div_cancel₀ _ hpos.ne']
  | succ i ih =>
    calc (squares one 0 d (i + 1) : Rat)
        ≤ (squares one 0 d i * squares one 0 d i : Nat) / one := Nat.cast_div_le
      _ = squares one 0 d i * squares one 0 d i / one := by rw [Nat.cast_mul]
      _ ≤ (one * ((d : Rat) / one) ^ 2 ^ i) * (one * ((d : Rat) / one) ^ 2 ^ i) / one :=
          div_le_div_of_nonneg_right
            (mul_le_mul ih ih (Nat.cast_nonneg _) ((Nat.cast_nonneg _).trans ih)) hpos.le
      _ = one * ((d : Rat) / one) ^ 2 ^ (i + 1) := by
          rw [pow_succ 2 i, pow_mul, sq]
          field_simp

/-- The squares that are rounded up are above them. -/
theorem squares_ge (hone : 0 < one) (d i : Nat) :
    one * ((d : Rat) / one) ^ 2 ^ i ≤ squares one 1 d i := by
  have hpos : (0 : Rat) < one := Nat.cast_pos.2 hone
  induction i with
  | zero =>
    rw [squares, pow_zero, pow_one, mul_div_cancel₀ _ hpos.ne']
  | succ i ih =>
    have hpow : 0 ≤ one * ((d : Rat) / one) ^ 2 ^ i := by positivity
    have hfloor : (squares one 1 d i * squares one 1 d i : Rat) / one ≤ squares one 1 d (i + 1) := by
      have hlt := (Nat.lt_div_mul_add hone (a := squares one 1 d i * squares one 1 d i)).le
      rw [div_le_iff₀ hpos, squares]
      have hcast : (squares one 1 d i * squares one 1 d i : Rat) ≤
          (squares one 1 d i * squares one 1 d i / one : Nat) * one + one := by
        exact_mod_cast hlt
      push_cast
      linarith
    calc (one : Rat) * ((d : Rat) / one) ^ 2 ^ (i + 1)
        = (one * ((d : Rat) / one) ^ 2 ^ i) * (one * ((d : Rat) / one) ^ 2 ^ i) / one := by
          rw [pow_succ 2 i, pow_mul, sq]
          field_simp
      _ ≤ (squares one 1 d i : Rat) * squares one 1 d i / one :=
          div_le_div_of_nonneg_right (mul_le_mul ih ih hpow (Nat.cast_nonneg _)) hpos.le
      _ ≤ squares one 1 d (i + 1) := hfloor

end StrategyBuilder.Lib.FixedPower
