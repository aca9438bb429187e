import StrategyBuilder.Contracts.VaultFees

/-!
# Keeping the deposit of a vault

`FeeDepositAction.sol` tops up the deposit from which a vault pays its executors, whenever it is below
the vault's own minimum: by a fixed amount, or up to the minimum, and by no more than the balance. The
action runs by `delegatecall`, so it is the vault that approves the registry and calls `depositFor`; for
the registry a top-up is these two steps (`execute_run`), and what holds of its runs holds of runs with
top-ups.

Top-ups are no drain. Whatever else is done with the registry, they cost the vault no more than its
largest minimum, one fixed amount, and what was paid out of its deposit in the meantime
(`topUps_bounded`).
-/

set_option autoImplicit false

namespace StrategyBuilder.Contracts.FeeDepositAction

open StrategyBuilder.Contracts
open StrategyBuilder.Contracts.FeeRegistry (World Registry Msg Solvent Fresh Outside paidOut
  vaultDeposit)
open StrategyBuilder.Contracts.VaultFees (called called_eq_ok registryAt registryAt_eq_ok)
open StrategyBuilder.Lib
open StrategyBuilder.Lib.Transition

/-! ## The action -/

/-- The decoded parameters. -/
structure Params where
  feeRegistry : Address
  token : Address
  topUpAmount : Nat
deriving DecidableEq, Repr

/-- The custom errors of the action. -/
inductive Error where
  | ZeroFeeRegistry
  | ZeroToken
deriving DecidableEq, Repr

/-- Run for the vault `self`, of which `minimum` is the `minFeeDeposit`. -/
def execute (self : Address) (msg : Msg) (minimum : Nat) (p : Params) (w : World) :
    Result Error World := do
  revertIf (p.feeRegistry = Address.zero) .ZeroFeeRegistry
  revertIf (p.token = Address.zero) .ZeroToken
  let reg ← registryAt w p.feeRegistry
  let current := vaultDeposit self p.token reg
  if minimum = 0 ∨ minimum ≤ current then return w
  else do
    -- a fixed top-up, or what is missing
    let needed := if 0 < p.topUpAmount then p.topUpAmount else minimum - current
    let available := w.erc20.balanceOf p.token self
    let toDeposit := if available < needed then available else needed
    if toDeposit = 0 then return w
    else do
      let w := w.setErc20 (w.erc20.approve p.token self p.feeRegistry toDeposit)
      called (FeeRegistry.depositFor { msg with sender := self } self p.token toDeposit w)

/-- What a top-up moves, from what it reads. -/
def topUp (minimum topUpAmount current available : Nat) : Nat :=
  if minimum = 0 ∨ minimum ≤ current then 0
  else min (if 0 < topUpAmount then topUpAmount else minimum - current) available

/-- A top-up of `n` tokens: from the balance of the vault to its deposit, and no approval is left. -/
structure ToppedUp (w w' : World) (vault token : Address) (n : Nat) : Prop where
  moved : Erc20.Moved w.erc20 w'.erc20 token vault w.self n
  deposit : w'.registry.vaultDeposits =
    update₂ w.registry.vaultDeposits vault token (w.registry.vaultDeposits vault token + n)
  approval : 0 < n → n < maxUint256 → w'.erc20.allowance token vault w.self = 0

section

variable {self : Address} {msg : Msg} {minimum : Nat} {p : Params} {w w' : World}

/-- The two steps of the registry that a top-up is. -/
def topUpLabels (self : Address) (msg : Msg) (w : World) (token : Address) (n : Nat) :
    List FeeRegistry.Label :=
  [.approve token self w.self n, .call { msg with sender := self } (.depositFor self token n)]

theorem toDeposit_eq (available needed : Nat) :
    (if available < needed then available else needed) = min needed available := by
  split
  · omega
  · omega

/-- A top-up that returns did nothing, or the two steps. -/
theorem execute_cases (h : execute self msg minimum p w = .ok w') :
    let n := topUp minimum p.topUpAmount (w.registry.vaultDeposits self p.token)
      (w.erc20.balanceOf p.token self)
    (n = 0 ∧ w' = w) ∨
      (n ≠ 0 ∧ FeeRegistry.depositFor { msg with sender := self } self p.token n
        (w.setErc20 (w.erc20.approve p.token self w.self n)) = .ok w') := by
  intro n
  simp only [execute, bind_eq_ok, registryAt_eq_ok] at h
  obtain ⟨-, -, -, -, reg, ⟨hreg, rfl⟩, h⟩ := h
  by_cases hnone : minimum = 0 ∨ minimum ≤ vaultDeposit self p.token w.registry
  · rw [if_pos hnone, pure_eq_ok] at h
    exact .inl ⟨if_pos hnone, h.symm⟩
  · rw [if_neg hnone, toDeposit_eq] at h
    have hn : n = min (if 0 < p.topUpAmount then p.topUpAmount
        else minimum - vaultDeposit self p.token w.registry) (w.erc20.balanceOf p.token self) :=
      if_neg hnone
    rw [← hn] at h
    by_cases hzero : n = 0
    · rw [if_pos hzero, pure_eq_ok] at h
      exact .inl ⟨hzero, h.symm⟩
    · rw [if_neg hzero, called_eq_ok, hreg] at h
      exact .inr ⟨hzero, h⟩

/-- Nothing is topped up. -/
theorem toppedUp_zero (w : World) (self token : Address) : ToppedUp w w self token 0 where
  moved := .refl w.erc20 token self w.self
  deposit := by
    funext v t
    rw [update₂_apply, Nat.add_zero]
    split
    · rename_i h
      rw [h.1, h.2]
    · rfl
  approval := fun h => absurd h (Nat.lt_irrefl 0)

/-- **What a top-up does**: exactly `topUp` tokens become deposit, and the registry keeps no approval. -/
theorem execute_toppedUp (h : execute self msg minimum p w = .ok w') :
    ToppedUp w w' self p.token (topUp minimum p.topUpAmount (w.registry.vaultDeposits self p.token)
      (w.erc20.balanceOf p.token self)) := by
  rcases execute_cases h with ⟨hzero, rfl⟩ | ⟨-, hdeposit⟩
  · rw [hzero]
    exact toppedUp_zero w' self p.token
  · generalize topUp minimum p.topUpAmount (w.registry.vaultDeposits self p.token)
      (w.erc20.balanceOf p.token self) = n at hdeposit ⊢
    simp only [FeeRegistry.depositFor, bind_eq_ok, pure_eq_ok, checkedAdd_eq_ok] at hdeposit
    obtain ⟨-, -, -, -, pulled, hpull, deposit, ⟨-, rfl⟩, rfl⟩ := hdeposit
    obtain ⟨hle, rfl⟩ := FeeRegistry.safeTransferFrom_eq_ok hpull
    let approved := w.erc20.approve p.token self w.self n
    have hallowance : approved.allowance p.token self w.self = n := Erc20.approve_allowance ..
    have hspent := Erc20.spendAllowance_balanceOf approved p.token self w.self n
    have hmoved : Erc20.Moved _ _ p.token self w.self n :=
      Erc20.moved_move (s := approved.spendAllowance p.token self w.self n) (hspent.symm ▸ hle)
    refine ⟨hmoved.congr_left hspent.symm, rfl, fun _ hmax => ?_⟩
    change (approved.spendAllowance p.token self w.self n).allowance p.token self w.self = 0
    rw [Erc20.spendAllowance_allowance (by rw [hallowance]; exact hmax.ne), hallowance, Nat.sub_self]

/-- For the registry a top-up is a run of its own steps. -/
theorem execute_run (hself : self ≠ w.self) (h : execute self msg minimum p w = .ok w') :
    ∃ ls, Admitted FeeRegistry.step Outside w ls ∧ run FeeRegistry.step w ls = w' := by
  rcases execute_cases h with ⟨-, rfl⟩ | ⟨-, hdeposit⟩
  · exact ⟨[], trivial, rfl⟩
  · generalize topUp minimum p.topUpAmount (w.registry.vaultDeposits self p.token)
      (w.erc20.balanceOf p.token self) = n at hdeposit
    refine ⟨topUpLabels self msg w p.token n, ⟨trivial, hself, trivial⟩, ?_⟩
    rw [topUpLabels, run_cons, run_cons, run_nil]
    change FeeRegistry.applyCall { msg with sender := self } (w.setErc20 _) _ = w'
    rw [FeeRegistry.applyCall, FeeRegistry.call, hdeposit]

/-- A top-up ends at the minimum at most, or a fixed amount above where it was. -/
theorem topUp_le (minimum topUpAmount current available : Nat) :
    topUp minimum topUpAmount current available = 0 ∨
      current + topUp minimum topUpAmount current available ≤ minimum + topUpAmount := by
  rw [topUp]
  split
  · exact .inl rfl
  · rename_i hbelow
    right
    split
    · omega
    · omega

end

/-! ## Runs -/

/-- A top-up of the vault, or a step of the registry and the tokens. -/
inductive Label where
  | topUp (msg : Msg) (minimum : Nat) (p : Params)
  | registry (l : FeeRegistry.Label)

/-- A top-up that reverts changes nothing. -/
def step (self : Address) (w : World) : Label → World
  | .topUp msg minimum p =>
      match execute self msg minimum p w with
      | .ok w' => w'
      | .error _ => w
  | .registry l => FeeRegistry.step w l

/-- The steps of the registry are taken by others. -/
def Label.Outside (w : World) : Label → Prop
  | .topUp _ _ _ => True
  | .registry l => FeeRegistry.Outside w l

/-- The bounds of what the vault's owner set. -/
def Label.Within (minimum topUpAmount : Nat) : Label → Prop
  | .topUp _ m p => m ≤ minimum ∧ p.topUpAmount ≤ topUpAmount
  | .registry _ => True

/-- What a top-up takes from the balance of the vault. -/
def toppedUp (self token : Address) (w : World) : Label → Nat
  | .topUp msg m p =>
      w.erc20.balanceOf token self - (step self w (.topUp msg m p)).erc20.balanceOf token self
  | .registry _ => 0

/-- What is paid out of the deposit of the vault. -/
def paid (self token : Address) (w : World) : Label → Nat
  | .topUp _ _ _ => 0
  | .registry l => paidOut self token w l

section

variable {self token : Address} {w w₀ : World}

/-- A top-up brings the deposit above the minimum by the fixed amount at most. -/
theorem step_topUp (self : Address) (w : World) (msg : Msg) (minimum : Nat) (p : Params) :
    (∃ n, ToppedUp w (step self w (.topUp msg minimum p)) self p.token n ∧
      (n = 0 ∨ w.registry.vaultDeposits self p.token + n ≤ minimum + p.topUpAmount)) := by
  rw [step]
  cases h : execute self msg minimum p w with
  | error e => exact ⟨0, toppedUp_zero w self p.token, .inl rfl⟩
  | ok w' => exact ⟨_, execute_toppedUp h, topUp_le _ _ _ _⟩

/-- The registry stays solvent, at its address. -/
theorem step_solvent (hself : self ≠ w.self) (hw : Solvent w) {l : Label} (hl : l.Outside w) :
    Solvent (step self w l) ∧ (step self w l).self = w.self := by
  cases l with
  | topUp msg minimum p =>
    rw [step]
    cases h : execute self msg minimum p w with
    | error e => exact ⟨hw, rfl⟩
    | ok w' =>
      obtain ⟨ls, hls, rfl⟩ := execute_run hself h
      exact ⟨run_invariant FeeRegistry.step_solvent hw hls, FeeRegistry.run_self hls⟩
  | registry l =>
    have hls : Admitted FeeRegistry.step Outside w [l] := ⟨hl, trivial⟩
    exact ⟨FeeRegistry.step_solvent w l hw hl, FeeRegistry.run_self hls⟩

/-- The deposit up to a bound that no top-up exceeds rises by what top-ups add, and falls by at most what
is paid out. -/
theorem step_deposit (hself : self ≠ w.self) {minimum topUpAmount : Nat} {l : Label}
    (hl : l.Outside w) (hwithin : l.Within minimum topUpAmount) (token : Address) :
    min (w.registry.vaultDeposits self token) (minimum + topUpAmount) + toppedUp self token w l ≤
      min ((step self w l).registry.vaultDeposits self token) (minimum + topUpAmount) +
        paid self token w l := by
  cases l with
  | topUp msg m p =>
    obtain ⟨n, htopped, hbound⟩ := step_topUp self w msg m p
    obtain ⟨hm, hp⟩ := hwithin
    rw [toppedUp, paid, Nat.add_zero, htopped.deposit, update₂_apply]
    by_cases ht : token = p.token
    · subst ht
      rw [if_pos ⟨rfl, rfl⟩]
      have hbalance := htopped.moved.balance self
      rw [if_pos rfl, if_neg hself, Nat.add_zero] at hbalance
      -- nothing was due, or the top-up stays within the two parameters
      rcases hbound with hzero | hbound
      · omega
      · omega
    · rw [if_neg fun h => ht h.2, htopped.moved.others token ht, Nat.sub_self, Nat.add_zero]
  | registry l =>
    obtain ⟨m, hm⟩ := FeeRegistry.step_moves (w := w) hl token
    -- any other step is a move of the pool
    have hdeposit := Pool.deposits_apply hm.covers self
    rw [← hm.pool, ← hm.debit] at hdeposit
    change (FeeRegistry.step w l).registry.vaultDeposits self token + paidOut self token w l =
      w.registry.vaultDeposits self token + m.credit self at hdeposit
    rw [toppedUp, paid, Nat.add_zero]
    change _ ≤ min ((FeeRegistry.step w l).registry.vaultDeposits self token) _ + _
    omega

/-- **Top-ups are no drain.** Over any run of a registry, its tokens and the vault's own top-ups, the
top-ups take from the vault at most the largest minimum, one fixed amount, and what was paid out of its
deposit; and the registry stays solvent. -/
theorem topUps_bounded (h₀ : Fresh w₀) (hself : self ≠ w₀.self) {minimum topUpAmount : Nat}
    {ls : List Label} (hls : Admitted (step self) Label.Outside w₀ ls)
    (hwithin : ∀ l ∈ ls, l.Within minimum topUpAmount) (token : Address) :
    Solvent (run (step self) w₀ ls) ∧
      runTotal (step self) (toppedUp self token) w₀ ls ≤
        minimum + topUpAmount + runTotal (step self) (paid self token) w₀ ls := by
  let I (w : World) : Prop := Solvent w ∧ w.self = w₀.self
  let ok (w : World) (l : Label) : Prop := l.Outside w ∧ l.Within minimum topUpAmount
  have hI : ∀ w l, I w → ok w l → I (step self w l) := by
    intro w l hw hl
    obtain ⟨hsolvent, hsame⟩ := step_solvent (hw.2 ▸ hself) hw.1 hl.1
    exact ⟨hsolvent, hsame.trans hw.2⟩
  have hstart : I w₀ := ⟨FeeRegistry.fresh_solvent h₀, rfl⟩
  have hboth : Admitted (step self) ok w₀ ls := hls.and_forall hwithin
  refine ⟨(run_invariant hI hstart hboth).1, ?_⟩
  have htotal := run_balance_le
    (Φ := fun w : World => min (w.registry.vaultDeposits self token) (minimum + topUpAmount))
    hI (fun w l hw hl => step_deposit (hw.2 ▸ hself) hl.1 hl.2 token) hstart hboth
  have hcap := Nat.min_le_right ((run (step self) w₀ ls).registry.vaultDeposits self token)
    (minimum + topUpAmount)
  omega

end

/-- The vault 3 fills its deposit to 60, takes 20 out of it, and fills it again. -/
def sampleRun : List Label :=
  let refill := .topUp (FeeRegistry.sampleMsg 5) 60 ⟨⟨1⟩, ⟨4⟩, 0⟩
  [.registry (.mint ⟨4⟩ ⟨3⟩ 100),
    .registry (.call (FeeRegistry.sampleMsg 2) (.addAcceptedToken ⟨4⟩ 6)), refill,
    .registry (.call (FeeRegistry.sampleMsg 3) (.withdrawDeposit ⟨4⟩ 20)), refill]

theorem topUps_bounded_sample :
    runTotal (step ⟨3⟩) (toppedUp ⟨3⟩ ⟨4⟩) FeeRegistry.sampleWorld sampleRun = 80 ∧
      runTotal (step ⟨3⟩) (toppedUp ⟨3⟩ ⟨4⟩) FeeRegistry.sampleWorld sampleRun ≤
        60 + 0 + runTotal (step ⟨3⟩) (paid ⟨3⟩ ⟨4⟩) FeeRegistry.sampleWorld sampleRun := by
  have hls : Admitted (step ⟨3⟩) Label.Outside FeeRegistry.sampleWorld sampleRun :=
    ⟨trivial, show (⟨2⟩ : Address) ≠ ⟨1⟩ by decide, trivial, show (⟨3⟩ : Address) ≠ ⟨1⟩ by decide,
      trivial, trivial⟩
  have hwithin : ∀ l ∈ sampleRun, l.Within 60 0 := by
    simp [sampleRun, Label.Within]
  refine ⟨by decide, ?_⟩
  exact (topUps_bounded FeeRegistry.sampleWorld_fresh (by decide) hls hwithin ⟨4⟩).2

end StrategyBuilder.Contracts.FeeDepositAction
