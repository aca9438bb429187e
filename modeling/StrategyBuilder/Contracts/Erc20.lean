import StrategyBuilder.Contracts.Solidity

/-!
# Standard ERC-20 tokens

The ledgers of all tokens in one state: balances and allowances by token. `transfer` and
`transferFrom` are those of a standard token: they move exactly the amount they are asked to move,
refuse `address(0)` on either side, and `transferFrom` spends the allowance of its caller unless
that allowance is infinite. `none` is a revert of the token.
-/

set_option autoImplicit false

namespace StrategyBuilder.Contracts

/-- The state of all tokens: `balanceOf token holder` and `allowance token owner spender`. -/
structure Erc20 where
  balanceOf : Address → Address → Nat
  allowance : Address → Address → Address → Nat

namespace Erc20

/-- Move `amount` from one balance to another. -/
def move (s : Erc20) (token sender recipient : Address) (amount : Nat) : Erc20 :=
  let debited := update₂ s.balanceOf token sender (s.balanceOf token sender - amount)
  { s with balanceOf := update₂ debited token recipient (debited token recipient + amount) }

/-- `token.transfer(recipient, amount)` called by `sender`. -/
def transfer (s : Erc20) (token sender recipient : Address) (amount : Nat) : Option Erc20 :=
  if sender = Address.zero ∨ recipient = Address.zero ∨ s.balanceOf token sender < amount then none
  else some (s.move token sender recipient amount)

/-- `token.approve(spender, amount)` called by `owner`. -/
def approve (s : Erc20) (token owner spender : Address) (amount : Nat) : Erc20 :=
  { s with
    allowance := Function.update s.allowance token (update₂ (s.allowance token) owner spender amount) }

/-- Take `amount` off an allowance; an infinite allowance stays. -/
def spendAllowance (s : Erc20) (token owner spender : Address) (amount : Nat) : Erc20 :=
  if s.allowance token owner spender = maxUint256 then s
  else s.approve token owner spender (s.allowance token owner spender - amount)

/-- `token.transferFrom(sender, recipient, amount)` called by `spender`. -/
def transferFrom (s : Erc20) (token spender sender recipient : Address) (amount : Nat) :
    Option Erc20 :=
  if s.allowance token sender spender < amount then none
  else (s.spendAllowance token sender spender amount).transfer token sender recipient amount

/-- New tokens for `recipient`. -/
def mint (s : Erc20) (token recipient : Address) (amount : Nat) : Erc20 :=
  { s with
    balanceOf := update₂ s.balanceOf token recipient (s.balanceOf token recipient + amount) }

@[simp] theorem spendAllowance_balanceOf (s : Erc20) (token owner spender : Address)
    (amount : Nat) : (s.spendAllowance token owner spender amount).balanceOf = s.balanceOf := by
  unfold spendAllowance
  split
  · rfl
  · rfl

/-- The balances after a movement of at most what the sender holds. -/
theorem move_balanceOf {s : Erc20} {token sender recipient : Address} {amount : Nat} (t a : Address) :
    (s.move token sender recipient amount).balanceOf t a =
      if t = token ∧ a = recipient then
        (if sender = recipient then s.balanceOf token sender - amount
          else s.balanceOf token recipient) + amount
      else if t = token ∧ a = sender then s.balanceOf token sender - amount
      else s.balanceOf t a := by
  simp only [move, update₂_apply]
  by_cases hr : t = token ∧ a = recipient
  · by_cases hs : sender = recipient
    · simp [hr, hs]
    · have hs' : ¬ recipient = sender := fun h => hs h.symm
      simp [hr, hs, hs']
  · simp [hr]

/-- A transfer returns exactly when both sides are accounts and the balance covers it. -/
theorem transfer_eq_some {s s' : Erc20} {token sender recipient : Address} {amount : Nat} :
    s.transfer token sender recipient amount = some s' ↔
      sender ≠ Address.zero ∧ recipient ≠ Address.zero ∧ amount ≤ s.balanceOf token sender ∧
        s' = s.move token sender recipient amount := by
  unfold transfer
  by_cases h : sender = Address.zero ∨ recipient = Address.zero ∨ s.balanceOf token sender < amount
  · rw [if_pos h]
    constructor
    · intro h'
      cases h'
    · rintro ⟨h1, h2, h3, -⟩
      rcases h with h | h | h
      · exact absurd h h1
      · exact absurd h h2
      · exact absurd h3 (Nat.not_le.2 h)
  · rw [if_neg h]
    simp only [not_or, Nat.not_lt] at h
    obtain ⟨h1, h2, h3⟩ := h
    constructor
    · intro h'
      exact ⟨h1, h2, h3, (Option.some.inj h').symm⟩
    · rintro ⟨-, -, -, rfl⟩
      rfl

/-- A `transferFrom` returns exactly when the allowance and the balance cover it and both sides
are accounts. -/
theorem transferFrom_eq_some {s s' : Erc20} {token spender sender recipient : Address}
    {amount : Nat} :
    s.transferFrom token spender sender recipient amount = some s' ↔
      amount ≤ s.allowance token sender spender ∧ sender ≠ Address.zero ∧
        recipient ≠ Address.zero ∧ amount ≤ s.balanceOf token sender ∧
        s' = (s.spendAllowance token sender spender amount).move token sender recipient amount := by
  unfold transferFrom
  by_cases h : s.allowance token sender spender < amount
  · rw [if_pos h]
    constructor
    · intro h'
      cases h'
    · rintro ⟨h', -⟩
      exact absurd h' (Nat.not_le.2 h)
  · rw [if_neg h, transfer_eq_some, spendAllowance_balanceOf]
    simp only [Nat.le_of_not_lt h, true_and]

/-! ## Movements -/

/-- `amount` of the token went from one holder to another, and nothing else moved. -/
structure Moved (s s' : Erc20) (token sender recipient : Address) (amount : Nat) : Prop where
  balance : ∀ a, s'.balanceOf token a + (if a = sender then amount else 0) =
    s.balanceOf token a + (if a = recipient then amount else 0)
  others : ∀ t, t ≠ token → s'.balanceOf t = s.balanceOf t

theorem Moved.refl (s : Erc20) (token sender recipient : Address) :
    Moved s s token sender recipient 0 where
  balance a := by simp only [ite_self]
  others _ _ := rfl

/-- Two payments out of one account. -/
theorem Moved.then_balance {s s' s'' : Erc20} {token sender first second : Address} {m n : Nat}
    (h : Moved s s' token sender first m) (h' : Moved s' s'' token sender second n) (a : Address) :
    s''.balanceOf token a + (if a = sender then m + n else 0) =
      s.balanceOf token a + (if a = first then m else 0) + (if a = second then n else 0) := by
  have hfirst := h.balance a
  have hsecond := h'.balance a
  by_cases ha : a = sender
  · simp only [ha, if_true] at hfirst hsecond ⊢
    omega
  · simp only [ha, if_false] at hfirst hsecond ⊢
    omega

/-- A transfer that is covered moves the amount. -/
theorem moved_move {s : Erc20} {token sender recipient : Address} {amount : Nat}
    (h : amount ≤ s.balanceOf token sender) :
    Moved s (s.move token sender recipient amount) token sender recipient amount where
  balance a := by
    rw [move_balanceOf]
    by_cases hs : a = sender
    · subst hs
      by_cases hr : a = recipient
      · simp only [hr, and_self, if_true]
        rw [hr] at h
        omega
      · simp only [hr, and_false, if_false, and_self, if_true]
        omega
    · by_cases hr : a = recipient
      · have hne : ¬ sender = recipient := fun h => hs (hr.trans h.symm)
        simp only [hr, and_self, if_true, hne, if_false]
        rw [if_neg (fun h => hne h.symm), Nat.add_zero]
      · simp only [hr, hs, and_false, if_false]
  others t ht := by
    funext a
    rw [move_balanceOf, if_neg (fun h => ht h.1), if_neg (fun h => ht h.1)]

/-- Balances are all that a movement depends on. -/
theorem Moved.congr_left {s r s' : Erc20} {token sender recipient : Address} {amount : Nat}
    (h : Moved s s' token sender recipient amount) (hr : r.balanceOf = s.balanceOf) :
    Moved r s' token sender recipient amount where
  balance a := by
    rw [hr]
    exact h.balance a
  others t ht := by
    rw [hr]
    exact h.others t ht

/-- An allowance that is spent to the end is gone. -/
theorem spendAllowance_allowance {s : Erc20} {token owner spender : Address} {amount : Nat}
    (h : s.allowance token owner spender ≠ maxUint256) :
    (s.spendAllowance token owner spender amount).allowance token owner spender =
      s.allowance token owner spender - amount := by
  rw [spendAllowance, if_neg h]
  simp [approve]

@[simp] theorem move_allowance (s : Erc20) (token sender recipient : Address) (amount : Nat) :
    (s.move token sender recipient amount).allowance = s.allowance := rfl

@[simp] theorem approve_balanceOf (s : Erc20) (token owner spender : Address) (amount : Nat) :
    (s.approve token owner spender amount).balanceOf = s.balanceOf := rfl

@[simp] theorem approve_allowance (s : Erc20) (token owner spender : Address) (amount : Nat) :
    (s.approve token owner spender amount).allowance token owner spender = amount := by
  simp [approve]

end Erc20

end StrategyBuilder.Contracts
