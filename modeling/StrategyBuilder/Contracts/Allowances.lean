import Mathlib.Algebra.Order.BigOperators.Group.List
import Mathlib.Algebra.Order.Ring.Nat
import StrategyBuilder.Contracts.Erc20
import StrategyBuilder.Lib.Transition

/-!
# What others can take from an account

Standard tokens while others act. A call by anybody but the account neither raises an allowance of the
account nor lowers what it holds by more than a spender has left of its allowance (`others_cases`). So
where one spender has an allowance at most, any run of such calls costs the account no more than that
allowance (`others_run`).

An account that approves, calls out and then takes its approvals back is a `Bracket`: whatever others do
while it calls out, it ends without allowances, and of each token it has lost no more than it approved
(`Bracket.performed_bracket`).
-/

set_option autoImplicit false

namespace StrategyBuilder.Contracts.Erc20

open StrategyBuilder.Contracts
open StrategyBuilder.Lib.Transition

/-! ## Calls -/

/-- A call of a token by somebody, or new tokens for somebody. -/
inductive Call where
  | transfer (token sender recipient : Address) (amount : Nat)
  | transferFrom (token spender sender recipient : Address) (amount : Nat)
  | approve (token owner spender : Address) (amount : Nat)
  | mint (token recipient : Address) (amount : Nat)
deriving DecidableEq, Repr

/-- Who makes a call. -/
def Call.caller : Call → Option Address
  | .transfer _ sender _ _ => some sender
  | .transferFrom _ spender _ _ _ => some spender
  | .approve _ owner _ _ => some owner
  | .mint _ _ _ => none

/-- A call that reverts changes nothing. -/
def apply (s : Erc20) : Call → Erc20
  | .transfer token sender recipient amount => (s.transfer token sender recipient amount).getD s
  | .transferFrom token spender sender recipient amount =>
      (s.transferFrom token spender sender recipient amount).getD s
  | .approve token owner spender amount => s.approve token owner spender amount
  | .mint token recipient amount => s.mint token recipient amount

/-- A call that an account does not make itself. -/
structure CallByOthers (account : Address) where
  call : Call
  others : call.caller ≠ some account

/-- The tokens after a call of somebody else. -/
def applyByOthers {account : Address} (s : Erc20) (c : CallByOthers account) : Erc20 := s.apply c.call

/-! ## One call -/

section

variable {s : Erc20} {account : Address}

/-- A spender used its allowance for `amount`. -/
structure Spent (s s' : Erc20) (account token spender : Address) (amount : Nat) : Prop where
  allowed : amount ≤ s.allowance token account spender
  balance : s.balanceOf token account ≤ s'.balanceOf token account + amount
  allowance : s'.allowance token account =
    if s.allowance token account spender = maxUint256 then s.allowance token account
    else Function.update (s.allowance token account) spender
      (s.allowance token account spender - amount)

/-- A call left what the account holds and allows of a token. -/
structure Spared (s s' : Erc20) (account token : Address) : Prop where
  balance : s.balanceOf token account ≤ s'.balanceOf token account
  allowance : s'.allowance token account = s.allowance token account

theorem Spared.refl (s : Erc20) (account token : Address) : Spared s s account token := ⟨le_rfl, rfl⟩

/-- Somebody else's tokens moved. -/
theorem spared_move {token sender recipient : Address} {amount : Nat} (h : sender ≠ account)
    (t : Address) :
    Spared s (s.move token sender recipient amount) account t where
  balance := by
    rw [move_balanceOf]
    by_cases hr : t = token ∧ account = recipient
    · have hne : ¬ sender = recipient := fun he => h (he.trans hr.2.symm)
      rw [if_pos hr, if_neg hne, hr.1, hr.2]
      exact Nat.le_add_right _ _
    · rw [if_neg hr, if_neg (fun hs => h hs.2.symm)]
  allowance := rfl

/-- An approval of another token or account changes nothing. -/
theorem approve_of_ne {token owner : Address} (spender : Address) (amount : Nat) (t : Address)
    (h : t ≠ token ∨ account ≠ owner) :
    (s.approve token owner spender amount).allowance t account = s.allowance t account := by
  change Function.update s.allowance token (update₂ (s.allowance token) owner spender amount) t account =
    s.allowance t account
  by_cases ht : t = token
  · subst ht
    have howner : account ≠ owner := h.resolve_left fun hne => hne rfl
    rw [Function.update_self, update₂, Function.update_of_ne howner]
  · rw [Function.update_of_ne ht]

theorem approve_self (token spender : Address) (amount : Nat) :
    (s.approve token account spender amount).allowance token account =
      Function.update (s.allowance token account) spender amount := by
  change Function.update s.allowance token (update₂ (s.allowance token) account spender amount) token
    account = _
  rw [Function.update_self, update₂, Function.update_self]

/-- An allowance that another account has given is spent. -/
theorem spendAllowance_of_ne {token owner : Address} (spender : Address) (amount : Nat) (t : Address)
    (h : t ≠ token ∨ account ≠ owner) :
    (s.spendAllowance token owner spender amount).allowance t account = s.allowance t account := by
  rw [spendAllowance]
  split
  · rfl
  · exact approve_of_ne spender _ t h

/-- An unlimited allowance is not spent. -/
theorem spendAllowance_self (token spender : Address) (amount : Nat) :
    (s.spendAllowance token account spender amount).allowance token account =
      if s.allowance token account spender = maxUint256 then s.allowance token account
      else Function.update (s.allowance token account) spender
        (s.allowance token account spender - amount) := by
  rw [spendAllowance]
  split
  · rfl
  · exact approve_self token spender _

/-- A payment out of the account costs it at most the amount. -/
theorem le_move (token recipient : Address) (amount : Nat) :
    s.balanceOf token account ≤
      (s.move token account recipient amount).balanceOf token account + amount := by
  rw [move_balanceOf]
  by_cases hr : account = recipient
  · simp only [hr, and_self, if_true]
    omega
  · simp only [hr, and_false, if_false, and_self, if_true]
    omega

/-- What a call by somebody else can do to the account's balance and allowances of a token. -/
theorem others_cases (c : CallByOthers account) (t : Address) :
    Spared s (s.applyByOthers c) account t ∨
      ∃ spender amount, Spent s (s.applyByOthers c) account t spender amount := by
  obtain ⟨call, hothers⟩ := c
  cases call with
  | transfer token sender recipient amount =>
    left
    have hsender : sender ≠ account := fun h => hothers (congrArg some h)
    change Spared s ((s.transfer token sender recipient amount).getD s) account t
    cases h : s.transfer token sender recipient amount with
    | none => exact .refl s account t
    | some s' =>
      obtain ⟨-, -, -, rfl⟩ := transfer_eq_some.1 h
      exact spared_move hsender t
  | transferFrom token spender sender recipient amount =>
    change Spared s ((s.transferFrom token spender sender recipient amount).getD s) account t ∨
      ∃ p n, Spent s ((s.transferFrom token spender sender recipient amount).getD s) account t p n
    cases h : s.transferFrom token spender sender recipient amount with
    | none => exact .inl (.refl s account t)
    | some s' =>
      obtain ⟨hallowed, -, -, -, rfl⟩ := transferFrom_eq_some.1 h
      have hbalance := spendAllowance_balanceOf s token sender spender amount
      by_cases hsender : sender = account
      · subst hsender
        by_cases ht : t = token
        · -- the account's own tokens, by a spender that it approved
          subst ht
          right
          refine ⟨spender, amount, hallowed, ?_, spendAllowance_self t spender amount⟩
          have hle : (s.spendAllowance t sender spender amount).balanceOf t sender ≤ _ :=
            le_move t recipient amount
          rwa [hbalance] at hle
        · left
          refine ⟨le_of_eq ?_, spendAllowance_of_ne spender amount t (.inl ht)⟩
          rw [Option.getD_some, move_balanceOf, if_neg (fun h => ht h.1), if_neg (fun h => ht h.1),
            hbalance]
      · left
        have hspared : Spared (s.spendAllowance token sender spender amount)
            ((s.spendAllowance token sender spender amount).move token sender recipient amount)
            account t := spared_move hsender t
        refine ⟨?_, hspared.allowance.trans
          (spendAllowance_of_ne spender amount t (.inr (Ne.symm hsender)))⟩
        have hle := hspared.balance
        rwa [hbalance] at hle
  | approve token owner spender amount =>
    left
    have howner : account ≠ owner := fun h => hothers (congrArg some h.symm)
    exact ⟨le_rfl, approve_of_ne spender amount t (.inr howner)⟩
  | mint token recipient amount =>
    left
    refine ⟨?_, rfl⟩
    change s.balanceOf t account ≤ update₂ s.balanceOf token recipient
      (s.balanceOf token recipient + amount) t account
    rw [update₂_apply]
    split
    · rename_i h
      rw [h.1, h.2]
      exact Nat.le_add_right _ _
    · exact le_rfl

/-! ## Any number of calls -/

/-- No spender but one has an allowance of the account for the token. -/
def OnlySpender (s : Erc20) (account token spender : Address) : Prop :=
  ∀ p, p ≠ spender → s.allowance token account p = 0

/-- The account has approved nobody. -/
def NoAllowance (s : Erc20) (account : Address) : Prop :=
  ∀ token spender, s.allowance token account spender = 0

/-- What the allowance of the only spender allowed others to change since `s`. -/
structure Drawn (s s' : Erc20) (account token spender : Address) : Prop where
  only : OnlySpender s' account token spender
  allowance : s'.allowance token account spender ≤ s.allowance token account spender
  balance : s.allowance token account spender < maxUint256 →
    s.balanceOf token account + s'.allowance token account spender ≤
      s'.balanceOf token account + s.allowance token account spender

/-- A call of somebody else draws from the allowance at most. -/
theorem drawn_step {s' : Erc20} {token spender : Address} (h : Drawn s s' account token spender)
    (c : CallByOthers account) : Drawn s (s'.applyByOthers c) account token spender := by
  rcases others_cases (s := s') c token with hspared | ⟨p, amount, hspent⟩
  · refine ⟨?_, ?_, ?_⟩
    · intro q hq
      rw [hspared.allowance]
      exact h.only q hq
    · rw [hspared.allowance]
      exact h.allowance
    · intro hlimited
      rw [hspared.allowance]
      exact (h.balance hlimited).trans (Nat.add_le_add_right hspared.balance _)
  · have hallowance := hspent.allowance
    by_cases hp : p = spender
    · subst hp
      by_cases hunlimited : s'.allowance token account p = maxUint256
      · rw [if_pos hunlimited] at hallowance
        have hle := h.allowance
        refine ⟨fun q hq => ?_, ?_, fun hlimited => ?_⟩
        · rw [hallowance]
          exact h.only q hq
        · rw [hallowance]
          exact hle
        · rw [hunlimited] at hle
          exact absurd (lt_of_le_of_lt hle hlimited) (lt_irrefl _)
      · rw [if_neg hunlimited] at hallowance
        have hself : (s'.applyByOthers c).allowance token account p =
            s'.allowance token account p - amount := by rw [hallowance, Function.update_self]
        refine ⟨fun q hq => ?_, ?_, fun hlimited => ?_⟩
        · rw [hallowance, Function.update_of_ne hq]
          exact h.only q hq
        · rw [hself]
          exact (Nat.sub_le _ _).trans h.allowance
        · -- what the balance lost, the allowance lost as well
          have hbefore := h.balance hlimited
          have hallowed := hspent.allowed
          have hpaid := hspent.balance
          rw [hself]
          omega
    · -- another spender has nothing left to spend
      have hzero : s'.allowance token account p = 0 := h.only p hp
      have hnone : amount = 0 := Nat.le_zero.1 (hzero ▸ hspent.allowed)
      have hsame : (s'.applyByOthers c).allowance token account = s'.allowance token account := by
        rw [hallowance]
        split
        · rfl
        · rw [hnone, Nat.sub_zero, Function.update_eq_self]
      have hbalance := hspent.balance
      rw [hnone, Nat.add_zero] at hbalance
      refine ⟨fun q hq => ?_, ?_, fun hlimited => ?_⟩
      · rw [hsame]
        exact h.only q hq
      · rw [hsame]
        exact h.allowance
      · rw [hsame]
        exact (h.balance hlimited).trans (Nat.add_le_add_right hbalance _)

/-- Others draw at most on the allowance of the only spender, whatever they call and in which order. -/
theorem others_run {token spender : Address} (h : OnlySpender s account token spender)
    (calls : List (CallByOthers account)) :
    Drawn s (run applyByOthers s calls) account token spender := by
  have hstart : Drawn s s account token spender := ⟨h, le_rfl, fun _ => le_rfl⟩
  exact run_invariant (I := fun s' => Drawn s s' account token spender)
    (fun _ c hs' _ => drawn_step hs' c) hstart (admitted_true _ _ calls)

/-- What an allowance can cost: an unlimited one the whole balance. -/
def limit (amount balance : Nat) : Nat := if amount < maxUint256 then amount else balance

/-- A balance falls by the allowance at most, or by all of it. -/
theorem le_add_limit {balance balance' amount amount' : Nat} (hamount : amount ≤ amount')
    (h : amount < maxUint256 → balance ≤ balance' + amount) :
    balance ≤ balance' + limit amount' balance := by
  rw [limit]
  split
  · rename_i hlimited
    have hle := h (lt_of_le_of_lt hamount hlimited)
    omega
  · omega

theorem le_add_limit_mono {balance balance' amount amount' : Nat} (hamount : amount ≤ amount')
    (h : balance ≤ balance' + limit amount balance) : balance ≤ balance' + limit amount' balance := by
  refine le_add_limit hamount fun hlimited => ?_
  rwa [limit, if_pos hlimited] at h

/-- Without an allowance nobody else takes anything. -/
theorem noAllowance_run (h : NoAllowance s account) (calls : List (CallByOthers account)) :
    NoAllowance (run applyByOthers s calls) account ∧
      ∀ t, s.balanceOf t account ≤ (run applyByOthers s calls).balanceOf t account := by
  have hdrawn : ∀ t p, Drawn s (run applyByOthers s calls) account t p :=
    fun t p => others_run (fun q _ => h t q) calls
  constructor
  · intro t p
    exact Nat.le_zero.1 (h t p ▸ (hdrawn t p).allowance)
  · intro t
    have hbalance := (hdrawn t account).balance (by rw [h]; decide)
    rw [h] at hbalance
    omega

end

/-! ## Approving, calling out, taking it back -/

/-- What an account does itself: an approval, or a call of a contract, during which others act. -/
inductive OwnCall where
  | forceApprove (token spender : Address) (amount : Nat)
  | callOut
deriving DecidableEq, Repr

/-- What a call approves of a token. -/
def OwnCall.approved (token : Address) : OwnCall → Nat
  | .forceApprove t _ amount => if t = token then amount else 0
  | .callOut => 0

/-- What the calls approve of a token, all together. -/
def approved (token : Address) (calls : List OwnCall) : Nat := (calls.map (OwnCall.approved token)).sum

/-- The calls of an account in order, with what others do in the rounds in which it calls out. -/
def performed (account : Address) : List OwnCall → List (List (CallByOthers account)) → Erc20 → Erc20
  | [], _, s => s
  | .forceApprove token spender amount :: calls, rounds, s =>
      performed account calls rounds (s.approve token account spender amount)
  | .callOut :: calls, [], s => performed account calls [] s
  | .callOut :: calls, round :: rounds, s => performed account calls rounds (run applyByOthers s round)

/-- Approvals of different tokens for one spender, calls of contracts, and the approvals taken back. -/
structure Bracket where
  spender : Address
  approvals : List (Address × Nat)
  callsOut : Nat
  nodup : (approvals.map Prod.fst).Nodup

/-- The approvals of these amounts. -/
def approveAll (spender : Address) (approvals : List (Address × Nat)) : List OwnCall :=
  approvals.map fun a => .forceApprove a.1 spender a.2

/-- The calls of an action: approvals, what it does, and the approvals set back to 0. -/
def Bracket.calls (b : Bracket) : List OwnCall :=
  approveAll b.spender b.approvals ++ (List.replicate b.callsOut .callOut ++
    approveAll b.spender (b.approvals.map fun a => (a.1, 0)))

section

variable {account : Address} {rounds : List (List (CallByOthers account))}

/-- Calls are performed one after the other. -/
theorem performed_append (calls calls' : List OwnCall) (rounds : List (List (CallByOthers account)))
    (s : Erc20) :
    performed account (calls ++ calls') rounds s =
      performed account calls' (rounds.drop (calls.count .callOut))
        (performed account calls rounds s) := by
  induction calls generalizing rounds s with
  | nil => rfl
  | cons c calls ih =>
    cases c with
    | forceApprove token spender amount =>
      have hne : OwnCall.forceApprove token spender amount ≠ .callOut := by
        intro heq
        cases heq
      rw [List.cons_append, performed, performed, ih, List.count_cons_of_ne hne]
    | callOut =>
      rw [List.cons_append, List.count_cons_self]
      cases rounds with
      | nil => rw [performed, performed, ih, List.drop_nil, List.drop_nil]
      | cons round rounds => rw [performed, performed, ih, List.drop_succ_cons]

/-- Calling out is a run of calls by others. -/
theorem performed_callOut (n : Nat) (rounds : List (List (CallByOthers account))) (s : Erc20) :
    performed account (List.replicate n .callOut) rounds s =
      run applyByOthers s (rounds.take n).flatten := by
  induction n generalizing rounds s with
  | zero => rfl
  | succ n ih =>
    rw [List.replicate_succ]
    cases rounds with
    | nil =>
      rw [performed, ih, List.take_nil, List.take_nil]
    | cons round rounds =>
      rw [performed, ih, List.take_succ_cons, List.flatten_cons, run_append]

/-- The approvals stand as they were made, and nothing else changed. -/
structure Approved (s s' : Erc20) (account spender : Address) (approvals : List (Address × Nat)) :
    Prop where
  balance : s'.balanceOf = s.balanceOf
  allowance : ∀ a ∈ approvals, s'.allowance a.1 account spender = a.2
  others : ∀ t p, p ≠ spender ∨ t ∉ approvals.map Prod.fst →
    s'.allowance t account p = s.allowance t account p

/-- The approvals stand after they were given. -/
theorem performed_approveAll (spender : Address) {approvals : List (Address × Nat)}
    (hnodup : (approvals.map Prod.fst).Nodup) (rounds : List (List (CallByOthers account))) (s : Erc20) :
    Approved s (performed account (approveAll spender approvals) rounds s) account spender
      approvals := by
  induction approvals generalizing s with
  | nil => exact ⟨rfl, fun a ha => absurd ha List.not_mem_nil, fun _ _ _ => rfl⟩
  | cons head approvals ih =>
    rw [List.map_cons, List.nodup_cons] at hnodup
    have hrest := ih hnodup.2 (s.approve head.1 account spender head.2)
    change Approved s (performed account (approveAll spender approvals) rounds
      (s.approve head.1 account spender head.2)) account spender (head :: approvals)
    refine ⟨hrest.balance, ?_, ?_⟩
    · intro a ha
      rcases List.mem_cons.1 ha with rfl | ha
      · rw [hrest.others a.1 spender (.inr hnodup.1), approve_self, Function.update_self]
      · exact hrest.allowance a ha
    · intro t p h
      rw [List.map_cons, List.mem_cons, not_or] at h
      rw [hrest.others t p (h.imp_right And.right)]
      by_cases ht : t = head.1
      · have hp : p ≠ spender := h.resolve_right fun hne => hne.1 ht
        rw [ht, approve_self, Function.update_of_ne hp]
      · rw [approve_of_ne spender head.2 t (.inl ht)]

/-- Each approval is counted. -/
theorem le_approved {spender : Address} {a : Address × Nat} {approvals : List (Address × Nat)}
    (h : a ∈ approvals) (calls : List OwnCall) :
    a.2 ≤ approved a.1 (approveAll spender approvals ++ calls) := by
  have hmem : a.2 ∈ (approveAll spender approvals ++ calls).map (OwnCall.approved a.1) := by
    refine List.mem_map.2 ⟨.forceApprove a.1 spender a.2, ?_, if_pos rfl⟩
    exact List.mem_append_left _ (List.mem_map.2 ⟨a, h, rfl⟩)
  exact List.single_le_sum (fun _ _ => Nat.zero_le _) _ hmem

/-- **A bracket closes.** From a state without allowances, a bracket ends in one, and of each token the
account lost at most what it approved. -/
theorem Bracket.performed_bracket (b : Bracket) {s : Erc20} (h : NoAllowance s account)
    (rounds : List (List (CallByOthers account))) :
    NoAllowance (performed account b.calls rounds s) account ∧
      ∀ t, s.balanceOf t account ≤ (performed account b.calls rounds s).balanceOf t account +
        limit (approved t b.calls) (s.balanceOf t account) := by
  let opened := performed account (approveAll b.spender b.approvals) rounds s
  have hopen : Approved s opened account b.spender b.approvals :=
    performed_approveAll b.spender b.nodup rounds s
  let count := (approveAll b.spender b.approvals).count OwnCall.callOut
  let acted := run applyByOthers opened ((rounds.drop count).take b.callsOut).flatten
  have hdrawn : ∀ t, Drawn opened acted account t b.spender := by
    intro t
    apply others_run
    intro p hp
    rw [hopen.others t p (.inl hp)]
    exact h t p
  have hnodup : ((b.approvals.map fun a => (a.1, 0)).map Prod.fst).Nodup := by
    rw [List.map_map]
    exact b.nodup
  let rest := (rounds.drop count).drop ((List.replicate b.callsOut OwnCall.callOut).count .callOut)
  have hclosed : Approved acted (performed account b.calls rounds s) account b.spender
      (b.approvals.map fun a => (a.1, 0)) := by
    have hclose := performed_approveAll b.spender hnodup rest acted
    rw [Bracket.calls, performed_append, performed_append, performed_callOut]
    exact hclose
  constructor
  · intro t p
    by_cases hp : p = b.spender
    · subst hp
      by_cases ht : t ∈ b.approvals.map Prod.fst
      · -- taken back at the end
        obtain ⟨a, ha, rfl⟩ := List.mem_map.1 ht
        exact hclosed.allowance (a.1, 0) (List.mem_map.2 ⟨a, ha, rfl⟩)
      · -- never approved
        have hnone : t ∉ (b.approvals.map fun a => (a.1, 0)).map Prod.fst := by
          rw [List.map_map]
          exact ht
        have hle := (hdrawn t).allowance
        rw [hopen.others t b.spender (.inr ht), h] at hle
        rw [hclosed.others t b.spender (.inr hnone)]
        exact Nat.le_zero.1 hle
    · rw [hclosed.others t p (.inl hp)]
      exact (hdrawn t).only p hp
  · intro t
    have hbalance := (hdrawn t).balance
    rw [congrFun (congrFun hopen.balance t) account] at hbalance
    rw [congrFun (congrFun hclosed.balance t) account]
    by_cases ht : t ∈ b.approvals.map Prod.fst
    · obtain ⟨a, ha, rfl⟩ := List.mem_map.1 ht
      rw [hopen.allowance a ha] at hbalance
      refine le_add_limit (le_approved ha _) fun hlimited => ?_
      have hle := hbalance hlimited
      omega
    · rw [hopen.others t b.spender (.inr ht), h] at hbalance
      have hle := hbalance (by decide)
      omega

end

end StrategyBuilder.Contracts.Erc20
