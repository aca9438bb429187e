import Mathlib.Algebra.BigOperators.Finprod
import Mathlib.Algebra.Order.BigOperators.Group.Finset
import Mathlib.Algebra.Order.Ring.Int
import Mathlib.Data.Int.Cast.Basic

/-!
# Pooled custody

A custodian holds one balance that belongs to many parties: a deposit for every account of an
arbitrary type and one common fee pot. `Move` lists what can happen to such a pool; `Pool.apply` is
its effect and `Pool.Covers` its guard. The custodian is solvent when the balance covers what it
owes. `surplus` is the difference: a guarded move changes it by exactly the move's `gift`
(`surplus_apply`), so it never falls, and a pool without gifts keeps it.

Deposits are a function on all accounts. The sum over them is a finite sum because only finitely
many accounts ever hold one (`supportFinite_apply`).
-/

set_option autoImplicit false

namespace StrategyBuilder.Lib

universe u v

section Update

variable {α : Type u} [DecidableEq α] {M : Type v} [AddCommMonoid M]

theorem support_update_finite {f : α → M} (hf : (Function.support f).Finite) (a : α) (x : M) :
    (Function.support (Function.update f a x)).Finite := by
  refine (hf.insert a).subset ?_
  intro b hb
  by_cases h : b = a
  · exact Or.inl h
  · rw [Function.mem_support, Function.update_of_ne h] at hb
    exact Or.inr hb

/-- Replacing one value of a finitely supported function changes its sum by the difference. -/
theorem finsum_update_add {f : α → M} (hf : (Function.support f).Finite) (a : α) (x : M) :
    (∑ᶠ b, Function.update f a x b) + f a = (∑ᶠ b, f b) + x := by
  classical
  let s : Finset α := insert a hf.toFinset
  have ha : a ∈ s := Finset.mem_insert_self a _
  have hsub : Function.support f ⊆ ↑s := by
    intro b hb
    exact Finset.mem_coe.2 (Finset.mem_insert_of_mem (hf.mem_toFinset.2 hb))
  have hsub' : Function.support (Function.update f a x) ⊆ ↑s := by
    intro b hb
    by_cases h : b = a
    · subst h
      exact Finset.mem_coe.2 ha
    · rw [Function.mem_support, Function.update_of_ne h] at hb
      exact hsub hb
  rw [finsum_eq_sum_of_support_subset _ hsub, finsum_eq_sum_of_support_subset _ hsub',
    Finset.sum_update_of_mem ha]
  have hsplit : ∑ b ∈ s, f b = f a + ∑ b ∈ s \ {a}, f b := by
    rw [Finset.sdiff_singleton_eq_erase, Finset.add_sum_erase s f ha]
  rw [hsplit]
  ac_rfl

end Update

/-- A custodian's books for one asset: what it owes each account, what it owes the fee pot, and the
balance it holds. -/
structure Pool (α : Type u) where
  deposits : α → ℕ
  fees : ℕ
  balance : ℕ

/-- What can happen to a pool. `retain` takes a deposit off the books and leaves the balance where
it is: a payment of the custodian to itself. `donate` is a payment that no book records. -/
inductive Move (α : Type u) where
  | idle
  | fund (a : α) (n : ℕ)
  | pay (a : α) (n : ℕ)
  | retain (a : α) (n : ℕ)
  | collect (n : ℕ)
  | sweep
  | donate (n : ℕ)

namespace Move

variable {α : Type u}

/-- What the move adds to the balance without adding to the books. -/
def gift : Move α → ℕ
  | retain _ n => n
  | donate n => n
  | _ => 0

/-- The account whose deposit the move lowers. -/
def payer : Move α → Option α
  | pay a _ => some a
  | retain a _ => some a
  | _ => none

variable [DecidableEq α]

/-- What the move adds to the deposit of `a`. -/
def credit (a : α) : Move α → ℕ
  | fund b n => if b = a then n else 0
  | _ => 0

/-- What the move takes off the deposit of `a`. -/
def debit (a : α) : Move α → ℕ
  | pay b n => if b = a then n else 0
  | retain b n => if b = a then n else 0
  | _ => 0

/-- A move debits its payer only. -/
theorem debit_eq_zero {m : Move α} {a : α} (ha : m.payer ≠ some a) : m.debit a = 0 := by
  cases m with
  | pay b n => exact if_neg fun h => ha (congrArg some h)
  | retain b n => exact if_neg fun h => ha (congrArg some h)
  | idle => rfl
  | fund b n => rfl
  | collect n => rfl
  | sweep => rfl
  | donate n => rfl

end Move

namespace Pool

variable {α : Type u}

/-- Only finitely many accounts hold a deposit. -/
def SupportFinite (p : Pool α) : Prop := (Function.support p.deposits).Finite

/-- What the custodian owes. -/
noncomputable def owed (p : Pool α) : ℕ := (∑ᶠ a, p.deposits a) + p.fees

/-- The balance beyond what the custodian owes; negative for an insolvent custodian. -/
noncomputable def surplus (p : Pool α) : ℤ := (p.balance : ℤ) - (p.owed : ℤ)

/-- One deposit is at most what the custodian owes. -/
theorem deposit_le_owed {p : Pool α} (hp : p.SupportFinite) (a : α) : p.deposits a ≤ p.owed := by
  have h : p.deposits a ≤ ∑ᶠ b, p.deposits b := single_le_finsum a hp fun b => Nat.zero_le _
  exact le_trans h (Nat.le_add_right _ _)

/-- A solvent custodian can pay out any deposit. -/
theorem deposit_le_balance {p : Pool α} (hp : p.SupportFinite) (hs : 0 ≤ p.surplus) (a : α) :
    p.deposits a ≤ p.balance := by
  have h := deposit_le_owed hp a
  simp only [surplus] at hs
  omega

/-- The guard of a move: a payment is covered by the books it is taken from and by the balance. -/
def Covers (p : Pool α) : Move α → Prop
  | .pay a n => n ≤ p.deposits a ∧ n ≤ p.balance
  | .retain a n => n ≤ p.deposits a
  | .sweep => p.fees ≤ p.balance
  | _ => True

section Moves

variable [DecidableEq α]

/-- The effect of a move. -/
def apply (p : Pool α) : Move α → Pool α
  | .idle => p
  | .fund a n =>
      { p with deposits := Function.update p.deposits a (p.deposits a + n), balance := p.balance + n }
  | .pay a n =>
      { p with deposits := Function.update p.deposits a (p.deposits a - n), balance := p.balance - n }
  | .retain a n => { p with deposits := Function.update p.deposits a (p.deposits a - n) }
  | .collect n => { p with fees := p.fees + n, balance := p.balance + n }
  | .sweep => { p with fees := 0, balance := p.balance - p.fees }
  | .donate n => { p with balance := p.balance + n }

/-- A move keeps the support finite. -/
theorem supportFinite_apply {p : Pool α} (hp : p.SupportFinite) (m : Move α) :
    (p.apply m).SupportFinite := by
  cases m with
  | idle => exact hp
  | fund a n => exact support_update_finite hp a _
  | pay a n => exact support_update_finite hp a _
  | retain a n => exact support_update_finite hp a _
  | collect n => exact hp
  | sweep => exact hp
  | donate n => exact hp

/-- **A covered move changes the surplus by its gift.** -/
theorem surplus_apply {p : Pool α} (hp : p.SupportFinite) {m : Move α} (hm : p.Covers m) :
    (p.apply m).surplus = p.surplus + (m.gift : ℤ) := by
  cases m with
  | idle => simp [apply, Move.gift]
  | fund a n =>
    have h := finsum_update_add hp a (p.deposits a + n)
    simp only [surplus, owed, apply, Move.gift]
    omega
  | pay a n =>
    obtain ⟨hd, hb⟩ := hm
    have h := finsum_update_add hp a (p.deposits a - n)
    simp only [surplus, owed, apply, Move.gift]
    omega
  | retain a n =>
    have hd : n ≤ p.deposits a := hm
    have h := finsum_update_add hp a (p.deposits a - n)
    simp only [surplus, owed, apply, Move.gift]
    omega
  | collect n =>
    simp only [surplus, owed, apply, Move.gift]
    omega
  | sweep =>
    have hf : p.fees ≤ p.balance := hm
    simp only [surplus, owed, apply, Move.gift]
    omega
  | donate n =>
    simp only [surplus, owed, apply, Move.gift]
    omega

/-- **A covered move changes a deposit by its credit minus its debit.** -/
theorem deposits_apply {p : Pool α} {m : Move α} (hm : p.Covers m) (a : α) :
    (p.apply m).deposits a + m.debit a = p.deposits a + m.credit a := by
  cases m with
  | idle => rfl
  | fund b n =>
    rcases eq_or_ne b a with rfl | h
    · simp [apply, Move.credit, Move.debit]
    · simp [apply, Move.credit, Move.debit, h, Function.update_of_ne h.symm]
  | pay b n =>
    obtain ⟨hd, -⟩ := hm
    rcases eq_or_ne b a with rfl | h
    · simp only [apply, Move.credit, Move.debit, Function.update_self, if_true]
      omega
    · simp [apply, Move.credit, Move.debit, h, Function.update_of_ne h.symm]
  | retain b n =>
    have hd : n ≤ p.deposits b := hm
    rcases eq_or_ne b a with rfl | h
    · simp only [apply, Move.credit, Move.debit, Function.update_self, if_true]
      omega
    · simp [apply, Move.credit, Move.debit, h, Function.update_of_ne h.symm]
  | collect n => rfl
  | sweep => rfl
  | donate n => rfl

/-- A move lowers no deposit but its payer's. -/
theorem deposits_le_apply {p : Pool α} {m : Move α} (hm : p.Covers m) {a : α}
    (ha : m.payer ≠ some a) : p.deposits a ≤ (p.apply m).deposits a := by
  have h := deposits_apply hm a
  have hd := Move.debit_eq_zero ha
  omega

end Moves

end Pool

end StrategyBuilder.Lib
