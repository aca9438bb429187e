import StrategyBuilder.Contracts.FeeRegistry
import StrategyBuilder.Lib.Pool
import StrategyBuilder.Lib.Transition

/-!
# Custody of the fee registry

For every token the registry is a pool: it owes the vaults their deposits and its owner the
collected fees, and holds one token balance. `call_effect` says once what a call that returns has
done; `step_move` reads every step of the world as one covered move of the pool of a token. The pool
rules then give the registry's conservation law over all runs (`conservation`).

The second half is about a single vault. Nobody but the vault lowers its deposit, what leaves a
deposit was credited to it before, and the registry can always pay it back (`vault_isolation`).
-/

set_option autoImplicit false

namespace StrategyBuilder.Contracts.FeeRegistry

open StrategyBuilder.Contracts
open StrategyBuilder.Lib
open StrategyBuilder.Lib.Transition

/-! ## What a call does -/

/-- The registry sends `n` tokens. -/
def World.pay (w : World) (token recipient : Address) (n : Nat) : World :=
  (w.setErc20 (w.erc20.move token w.self recipient n)).emit (.transfer token w.self recipient n)

/-- The registry pulls `n` tokens out of the allowance that `sender` gave it. -/
def World.pull (w : World) (token sender : Address) (n : Nat) : World :=
  (w.setErc20 ((w.erc20.spendAllowance token sender w.self n).move token sender w.self n)).emit
    (.transfer token sender w.self n)

/-- A transfer succeeds if the registry has the amount. -/
theorem safeTransfer_eq_ok {w w' : World} {token recipient : Address} {n : Nat} :
    safeTransfer w token recipient n = .ok w' ↔
      w.self ≠ Address.zero ∧ recipient ≠ Address.zero ∧ n ≤ w.erc20.balanceOf token w.self ∧
        w.pay token recipient n = w' := by
  simp only [safeTransfer, bind_eq_ok, passThrough_eq_ok, pure_eq_ok, Erc20.transfer_eq_some]
  constructor
  · rintro ⟨s, ⟨h1, h2, h3, rfl⟩, rfl⟩
    exact ⟨h1, h2, h3, rfl⟩
  · rintro ⟨h1, h2, h3, rfl⟩
    exact ⟨_, ⟨h1, h2, h3, rfl⟩, rfl⟩

/-- What is drawn from the sender is there. -/
theorem safeTransferFrom_eq_ok {w w' : World} {token sender : Address} {n : Nat}
    (h : safeTransferFrom w token sender n = .ok w') :
    n ≤ w.erc20.balanceOf token sender ∧ w.pull token sender n = w' := by
  simp only [safeTransferFrom, bind_eq_ok, passThrough_eq_ok, pure_eq_ok,
    Erc20.transferFrom_eq_some] at h
  obtain ⟨s, ⟨-, -, -, h3, rfl⟩, rfl⟩ := h
  exact ⟨h3, rfl⟩

/-- An operation that touches neither books nor tokens. -/
def Op.IsConfig : Op → Prop
  | .addAcceptedToken _ _ => True
  | .removeAcceptedToken _ => True
  | .setDepositFeeBps _ => True
  | .setWithdrawFeeBps _ => True
  | .setGasConfig _ _ _ _ _ => True
  | .transferOwnership _ => True
  | .renounceOwnership => True
  | _ => False

/-- `w'` is `w` after a change of configuration that emits `l`. -/
structure Reconfigured (w : World) (l : Log) (w' : World) : Prop where
  self : w'.self = w.self
  erc20 : w'.erc20 = w.erc20
  vaultDeposits : w'.registry.vaultDeposits = w.registry.vaultDeposits
  collectedFees : w'.registry.collectedFees = w.registry.collectedFees
  logs : w'.logs = w.logs ++ [l]

/-- The logs of a change of configuration. -/
def Log.IsConfig : Log → Prop
  | .tokenAdded _ _ => True
  | .tokenRemoved _ => True
  | .gasConfigSet _ _ _ _ _ => True
  | .depositFeeBpsSet _ => True
  | .withdrawFeeBpsSet _ => True
  | .ownershipTransferred _ _ => True
  | _ => False

/-- Everything a call that returns can have done, with its guards. -/
inductive Effect (msg : Msg) (w : World) : Op → World → Prop where
  | config {op : Op} {l : Log} {w' : World} : op.IsConfig → l.IsConfig → Reconfigured w l w' →
      Effect msg w op w'
  | withdrawFees {token : Address} : msg.sender = w.registry.owner →
      w.registry.collectedFees token ≤ w.erc20.balanceOf token w.self →
      Effect msg w (.withdrawFees token)
        (((w.setCollected token 0).pay token w.registry.owner
          (w.registry.collectedFees token)).emit
            (.feesWithdrawn token (w.registry.collectedFees token)))
  | depositFor {vault token : Address} {n : Nat} : vault ≠ Address.zero →
      n ≤ w.erc20.balanceOf token msg.sender →
      Effect msg w (.depositFor vault token n)
        (((w.pull token msg.sender n).setDeposit vault token
          (w.registry.vaultDeposits vault token + n)).emit (.feeDeposited vault token n))
  | withdrawDeposit {token : Address} {amount n : Nat} : n ≤ w.registry.vaultDeposits msg.sender token →
      n ≤ w.erc20.balanceOf token w.self →
      Effect msg w (.withdrawDeposit token amount)
        (((w.setDeposit msg.sender token (w.registry.vaultDeposits msg.sender token - n)).pay token
          msg.sender n).emit (.feeDepositWithdrawn msg.sender token n))
  | collectFee {token : Address} {n : Nat} : n ≤ w.erc20.balanceOf token msg.sender →
      Effect msg w (.collectFee token n)
        (((w.pull token msg.sender n).setCollected token
          (w.registry.collectedFees token + n)).emit (.feeCollected msg.sender token n))
  | deductGasComp {token executor : Address} {gasUsed n : Nat} :
      n ≤ w.registry.vaultDeposits msg.sender token → n ≤ w.erc20.balanceOf token w.self →
      Effect msg w (.deductGasComp token executor gasUsed)
        (((w.setDeposit msg.sender token (w.registry.vaultDeposits msg.sender token - n)).pay token
          executor n).emit (.gasCompDeducted msg.sender executor token n))
  | nothing {op : Op} : Effect msg w op w

/-- A call that succeeds has the effect of its operation. -/
theorem call_effect {msg : Msg} {w w' : World} {op : Op} (h : call msg w op = .ok w') :
    Effect msg w op w' := by
  cases op with
  | addAcceptedToken token decimals =>
    simp only [call, addAcceptedToken, onlyOwner, bind_eq_ok, revertIf_eq_ok, pure_eq_ok] at h
    obtain ⟨-, -, -, -, rfl⟩ := h
    exact .config (l := .tokenAdded token decimals) trivial trivial ⟨rfl, rfl, rfl, rfl, rfl⟩
  | removeAcceptedToken token =>
    simp only [call, removeAcceptedToken, onlyOwner, bind_eq_ok, revertIf_eq_ok, pure_eq_ok] at h
    obtain ⟨-, -, rfl⟩ := h
    exact .config (l := .tokenRemoved token) trivial trivial ⟨rfl, rfl, rfl, rfl, rfl⟩
  | setDepositFeeBps bps =>
    simp only [call, setDepositFeeBps, onlyOwner, bind_eq_ok, revertIf_eq_ok, pure_eq_ok] at h
    obtain ⟨-, -, -, -, rfl⟩ := h
    exact .config (l := .depositFeeBpsSet bps) trivial trivial ⟨rfl, rfl, rfl, rfl, rfl⟩
  | setWithdrawFeeBps bps =>
    simp only [call, setWithdrawFeeBps, onlyOwner, bind_eq_ok, revertIf_eq_ok, pure_eq_ok] at h
    obtain ⟨-, -, -, -, rfl⟩ := h
    exact .config (l := .withdrawFeeBpsSet bps) trivial trivial ⟨rfl, rfl, rfl, rfl, rfl⟩
  | setGasConfig priceOracle nativeToken executorMarkupBps overhead maxGasPrice =>
    simp only [call, setGasConfig, onlyOwner, bind_eq_ok, revertIf_eq_ok, pure_eq_ok] at h
    obtain ⟨-, -, rfl⟩ := h
    exact .config (l := .gasConfigSet priceOracle nativeToken executorMarkupBps overhead maxGasPrice)
      trivial trivial ⟨rfl, rfl, rfl, rfl, rfl⟩
  -- the operations that move tokens: what is left of the guards goes into the effect
  | withdrawFees token =>
    simp only [call, withdrawFees, onlyOwner, bind_eq_ok, revertIf_eq_ok, pure_eq_ok,
      safeTransfer_eq_ok, not_not] at h
    obtain ⟨-, howner, -, -, -, ⟨-, -, hb, rfl⟩, rfl⟩ := h
    exact .withdrawFees howner hb
  | depositFor vault token n =>
    simp only [call, depositFor, bind_eq_ok, revertIf_eq_ok, pure_eq_ok, checkedAdd_eq_ok] at h
    obtain ⟨-, hv, -, -, w₁, hpull, m, ⟨-, rfl⟩, rfl⟩ := h
    obtain ⟨hb, rfl⟩ := safeTransferFrom_eq_ok hpull
    exact .depositFor hv hb
  | withdrawDeposit token amount =>
    simp only [call, withdrawDeposit, bind_eq_ok, revertIf_eq_ok, pure_eq_ok, safeTransfer_eq_ok] at h
    obtain ⟨-, -, -, hn, -, ⟨-, -, hb, rfl⟩, rfl⟩ := h
    exact .withdrawDeposit (Nat.le_of_not_lt hn) hb
  | collectFee token n =>
    simp only [call, collectFee] at h
    split at h
    · rw [pure_eq_ok] at h
      subst h
      -- a fee of zero is not collected
      exact .nothing
    · simp only [bind_eq_ok, pure_eq_ok, checkedAdd_eq_ok] at h
      obtain ⟨w₁, hpull, m, ⟨-, rfl⟩, rfl⟩ := h
      obtain ⟨hb, rfl⟩ := safeTransferFrom_eq_ok hpull
      exact .collectFee hb
  | deductGasComp token executor gasUsed =>
    simp only [call, deductGasComp, bind_eq_ok] at h
    obtain ⟨r, ⟨n, -, hr⟩, h⟩ := h
    rw [pure_eq_ok] at h
    subst h
    split at hr
    · rw [pure_eq_ok] at hr
      subst hr
      -- no compensation is due
      exact .nothing
    · simp only [bind_eq_ok, revertIf_eq_ok, pure_eq_ok, safeTransfer_eq_ok] at hr
      obtain ⟨-, hn, -, ⟨-, -, hb, rfl⟩, rfl⟩ := hr
      exact .deductGasComp (Nat.le_of_not_lt hn) hb
  | transferOwnership newOwner =>
    simp only [call, transferOwnership, onlyOwner, bind_eq_ok, revertIf_eq_ok, pure_eq_ok] at h
    obtain ⟨-, -, -, -, rfl⟩ := h
    exact .config (l := .ownershipTransferred w.registry.owner newOwner) trivial trivial
      ⟨rfl, rfl, rfl, rfl, rfl⟩
  | renounceOwnership =>
    simp only [call, renounceOwnership, onlyOwner, bind_eq_ok, revertIf_eq_ok, pure_eq_ok] at h
    obtain ⟨-, -, rfl⟩ := h
    exact .config (l := .ownershipTransferred w.registry.owner Address.zero) trivial trivial
      ⟨rfl, rfl, rfl, rfl, rfl⟩

/-! ## The pool of a token -/

/-- The books of the registry for the token `t`. -/
def World.pool (w : World) (t : Address) : Pool Address where
  deposits := fun v => w.registry.vaultDeposits v t
  fees := w.registry.collectedFees t
  balance := w.erc20.balanceOf t w.self

section Pools

variable {w : World} {t token : Address}

@[simp] theorem pool_emit (l : Log) : (w.emit l).pool t = w.pool t := rfl

theorem pool_setDeposit (vault : Address) (n : Nat) :
    (w.setDeposit vault t n).pool t =
      { w.pool t with deposits := Function.update (w.pool t).deposits vault n } := by
  simp only [World.pool, World.setDeposit, update₂_column]

theorem pool_setDeposit_of_ne (vault : Address) (n : Nat) (h : t ≠ token) :
    (w.setDeposit vault token n).pool t = w.pool t := by
  simp only [World.pool, World.setDeposit, update₂_column_of_ne _ _ _ _ h]

theorem pool_setCollected (n : Nat) :
    (w.setCollected t n).pool t = { w.pool t with fees := n } := by
  simp only [World.pool, World.setCollected, Function.update_self]

theorem pool_setCollected_of_ne (n : Nat) (h : t ≠ token) :
    (w.setCollected token n).pool t = w.pool t := by
  simp only [World.pool, World.setCollected, Function.update_of_ne h]

/-- New balances that agree on the registry's balance of `t` leave the pool of `t` as it is. -/
theorem pool_setErc20 {s : Erc20} (h : s.balanceOf t w.self = w.erc20.balanceOf t w.self) :
    (w.setErc20 s).pool t = w.pool t := by
  simp only [World.pool, World.setErc20, h]

theorem pool_pay {recipient : Address} (n : Nat) (h : recipient ≠ w.self) :
    (w.pay t recipient n).pool t = { w.pool t with balance := (w.pool t).balance - n } := by
  have hb : (w.erc20.move t w.self recipient n).balanceOf t w.self =
      w.erc20.balanceOf t w.self - n := by
    rw [Erc20.move_balanceOf, if_neg (fun hr => h hr.2.symm), if_pos ⟨rfl, rfl⟩]
  simp only [World.pool, World.pay, World.emit, World.setErc20, hb]

/-- A payment to itself leaves the registry with the balance it had. -/
theorem pool_pay_self {n : Nat} (h : n ≤ w.erc20.balanceOf t w.self) :
    (w.pay t w.self n).pool t = w.pool t := by
  rw [World.pay, pool_emit]
  refine pool_setErc20 ?_
  rw [Erc20.move_balanceOf, if_pos ⟨rfl, rfl⟩, if_pos rfl]
  exact Nat.sub_add_cancel h

theorem pool_pay_of_ne (recipient : Address) (n : Nat) (h : t ≠ token) :
    (w.pay token recipient n).pool t = w.pool t := by
  rw [World.pay, pool_emit]
  refine pool_setErc20 ?_
  rw [Erc20.move_balanceOf, if_neg (fun hr => h hr.1), if_neg (fun hr => h hr.1)]

theorem pool_pull {sender : Address} (n : Nat) (h : sender ≠ w.self) :
    (w.pull t sender n).pool t = { w.pool t with balance := (w.pool t).balance + n } := by
  have hb : ((w.erc20.spendAllowance t sender w.self n).move t sender w.self n).balanceOf t w.self =
      w.erc20.balanceOf t w.self + n := by
    rw [Erc20.move_balanceOf, if_pos ⟨rfl, rfl⟩, if_neg h, Erc20.spendAllowance_balanceOf]
  simp only [World.pool, World.pull, World.emit, World.setErc20, hb]

theorem pool_pull_of_ne (sender : Address) (n : Nat) (h : t ≠ token) :
    (w.pull token sender n).pool t = w.pool t := by
  rw [World.pull, pool_emit]
  refine pool_setErc20 ?_
  rw [Erc20.move_balanceOf, if_neg (fun hr => h hr.1), if_neg (fun hr => h hr.1),
    Erc20.spendAllowance_balanceOf]

theorem Reconfigured.pool {w' : World} {l : Log} (h : Reconfigured w l w') (t : Address) :
    w'.pool t = w.pool t := by
  simp only [World.pool, h.vaultDeposits, h.collectedFees, h.erc20, h.self]

end Pools

/-! ## What a step gives, credits and pays -/

/-- The steps that hand tokens `t` to the registry without entering them in its books: a transfer
to the registry that is not one of its own, and gas compensation for the registry as executor. -/
def Label.Gift (self t : Address) : Label → Prop
  | .call _ (.deductGasComp token executor _) => token = t ∧ executor = self
  | .transfer token _ recipient _ => token = t ∧ recipient = self
  | .mint token recipient _ => token = t ∧ recipient = self
  | _ => False

/-- The logs of a step. -/
def emitted (w : World) (l : Label) : List Log := (step w l).logs.drop w.logs.length

theorem emitted_eq {w : World} {l : Label} (logs : List Log)
    (h : (step w l).logs = w.logs ++ logs) : emitted w l = logs := by
  rw [emitted, h, List.drop_left]

/-- The tokens `t` that a log credits to the deposit of `v`. -/
def Log.credited (v t : Address) : Log → Nat
  | .feeDeposited vault token n => if token = t ∧ vault = v then n else 0
  | _ => 0

/-- The tokens `t` that a log moves out of the account `self`. -/
def Log.sent (self t : Address) : Log → Nat
  | .transfer token sender _ n => if token = t ∧ sender = self then n else 0
  | _ => 0

/-- The tokens `t` that a step credits to the deposit of `v`. -/
def credited (v t : Address) (w : World) (l : Label) : Nat :=
  ((emitted w l).map (Log.credited v t)).sum

/-- The tokens `t` that a step pays out of the deposit of `v`: what the registry sends when `v`
calls `withdrawDeposit` or `deductGasComp`. -/
def paidOut (v t : Address) (w : World) : Label → Nat
  | .call msg (.withdrawDeposit token amount) =>
      if msg.sender = v then
        ((emitted w (.call msg (.withdrawDeposit token amount))).map (Log.sent w.self t)).sum
      else 0
  | .call msg (.deductGasComp token executor gasUsed) =>
      if msg.sender = v then
        ((emitted w (.call msg (.deductGasComp token executor gasUsed))).map
          (Log.sent w.self t)).sum
      else 0
  | _ => 0

/-- The caller of the step is `v`. -/
def Label.CalledBy (v : Address) : Label → Prop
  | .call msg _ => msg.sender = v
  | _ => False

/-- The step `l` is the move `m` of the pool of `t`. -/
structure Moves (w : World) (l : Label) (t : Address) (m : Move Address) : Prop where
  self : (step w l).self = w.self
  covers : (w.pool t).Covers m
  pool : (step w l).pool t = (w.pool t).apply m
  gift : 0 < m.gift → l.Gift w.self t
  payer : ∀ v, m.payer = some v → l.CalledBy v
  credit : ∀ v, credited v t w l = m.credit v
  debit : ∀ v, paidOut v t w l = m.debit v
  credit_zero : m.credit Address.zero = 0

section Steps

variable {w : World} {t : Address}

/-- A step that leaves the pool as it is and neither credits nor pays is the idle move. -/
theorem moves_idle {l : Label} (hself : (step w l).self = w.self)
    (hpool : (step w l).pool t = w.pool t) (hcredit : ∀ v, credited v t w l = 0)
    (hdebit : ∀ v, paidOut v t w l = 0) : Moves w l t .idle where
  self := hself
  covers := trivial
  pool := hpool
  gift := fun h => absurd h (Nat.lt_irrefl 0)
  payer := fun v h => by cases h
  credit := hcredit
  debit := hdebit
  credit_zero := rfl

/-- A call that sends none of the registry's tokens pays nobody. -/
theorem paidOut_eq_zero {msg : Msg} {op : Op}
    (h : ((emitted w (.call msg op)).map (Log.sent w.self t)).sum = 0) (v : Address) :
    paidOut v t w (.call msg op) = 0 := by
  cases op with
  | withdrawDeposit token amount =>
    simp only [paidOut, h]
    exact ite_self 0
  | deductGasComp token executor gasUsed =>
    simp only [paidOut, h]
    exact ite_self 0
  | _ => rfl

theorem Log.IsConfig.credited {l : Log} (hl : l.IsConfig) (v t : Address) : l.credited v t = 0 := by
  cases l with
  | feeDeposited vault token n => exact hl.elim
  | _ => rfl

theorem Log.IsConfig.sent {l : Log} (hl : l.IsConfig) (self t : Address) : l.sent self t = 0 := by
  cases l with
  | transfer token sender recipient n => exact hl.elim
  | _ => rfl

/-- A call that moves tokens of another kind, or none at all, is the idle move of the pool. -/
theorem moves_idle_of_emitted {msg : Msg} {op : Op} (logs : List Log)
    (hself : (step w (.call msg op)).self = w.self)
    (hpool : (step w (.call msg op)).pool t = w.pool t)
    (hlogs : (step w (.call msg op)).logs = w.logs ++ logs)
    (hcredit : ∀ v, (logs.map (Log.credited v t)).sum = 0)
    (hsent : (logs.map (Log.sent w.self t)).sum = 0) : Moves w (.call msg op) t .idle := by
  have hem := emitted_eq _ hlogs
  refine moves_idle hself hpool (fun v => ?_) (fun v => ?_)
  · rw [credited, hem]
    exact hcredit v
  · refine paidOut_eq_zero ?_ v
    rw [hem]
    exact hsent

/-- What a call that returns does to the pool of `t`. -/
theorem effect_moves {msg : Msg} {op : Op} {w' : World} (hs : msg.sender ≠ w.self)
    (he : Effect msg w op w') (hstep : step w (.call msg op) = w') :
    ∃ m, Moves w (.call msg op) t m := by
  cases he with
  | @config _ l _ hop hl hw =>
    refine ⟨.idle, moves_idle_of_emitted [l] ?_ ?_ ?_ (fun v => ?_) ?_⟩
    · rw [hstep, hw.self]
    · rw [hstep, hw.pool]
    · rw [hstep, hw.logs]
    · simp [hl.credited]
    · simp [hl.sent]
  | nothing =>
    refine ⟨.idle, moves_idle_of_emitted [] ?_ ?_ ?_ (fun v => rfl) rfl⟩
    · rw [hstep]
    · rw [hstep]
    · rw [hstep, List.append_nil]
  | @withdrawFees token howner hb =>
    have hown : w.registry.owner ≠ w.self := fun h => hs (howner.trans h)
    have hlogs : (step w (.call msg (.withdrawFees token))).logs = w.logs ++
        [.transfer token w.self w.registry.owner (w.registry.collectedFees token),
          .feesWithdrawn token (w.registry.collectedFees token)] := by
      rw [hstep]
      exact List.append_assoc _ _ _
    rcases eq_or_ne t token with rfl | ht
    · refine ⟨.sweep, ?_, hb, ?_, ?_, ?_, fun v => ?_, fun v => rfl, rfl⟩
      · rw [hstep]
        rfl
      · rw [hstep, pool_emit, pool_pay (w := w.setCollected t 0) _ hown, pool_setCollected]
        rfl
      · exact fun h => absurd h (Nat.lt_irrefl 0)
      · exact fun v h => by cases h
      · rw [credited, emitted_eq _ hlogs]
        rfl
    · refine ⟨.idle, moves_idle ?_ ?_ (fun v => ?_) (fun v => rfl)⟩
      · rw [hstep]
        rfl
      · rw [hstep, pool_emit, pool_pay_of_ne _ _ ht, pool_setCollected_of_ne _ ht]
      · rw [credited, emitted_eq _ hlogs]
        rfl
  | @depositFor vault token n hv hb =>
    have hlogs : (step w (.call msg (.depositFor vault token n))).logs =
        w.logs ++ [.transfer token msg.sender w.self n, .feeDeposited vault token n] := by
      rw [hstep]
      exact List.append_assoc _ _ _
    rcases eq_or_ne t token with rfl | ht
    · refine ⟨.fund vault n, ?_, trivial, ?_, ?_, ?_, fun v => ?_, fun v => rfl, if_neg hv⟩
      · rw [hstep]
        rfl
      · rw [hstep, pool_emit, pool_setDeposit, pool_pull _ hs]
        rfl
      · exact fun h => absurd h (Nat.lt_irrefl 0)
      · exact fun v h => by cases h
      · rw [credited, emitted_eq _ hlogs]
        simp [Log.credited, Move.credit]
    · refine ⟨.idle, moves_idle ?_ ?_ (fun v => ?_) (fun v => rfl)⟩
      · rw [hstep]
        rfl
      · rw [hstep, pool_emit, pool_setDeposit_of_ne _ _ ht, pool_pull_of_ne _ _ ht]
      · rw [credited, emitted_eq _ hlogs]
        simp [Log.credited, ht.symm]
  | @withdrawDeposit token amount n hd hb =>
    have hlogs : (step w (.call msg (.withdrawDeposit token amount))).logs = w.logs ++
        [.transfer token w.self msg.sender n, .feeDepositWithdrawn msg.sender token n] := by
      rw [hstep]
      exact List.append_assoc _ _ _
    rcases eq_or_ne t token with rfl | ht
    · refine ⟨.pay msg.sender n, ?_, ⟨hd, hb⟩, ?_, ?_, ?_, fun v => ?_, fun v => ?_, rfl⟩
      · rw [hstep]
        rfl
      · rw [hstep, pool_emit, pool_pay (w := w.setDeposit msg.sender t _) _ hs, pool_setDeposit]
        rfl
      · exact fun h => absurd h (Nat.lt_irrefl 0)
      · exact fun v h => Option.some.inj h
      · rw [credited, emitted_eq _ hlogs]
        rfl
      · simp [paidOut, emitted_eq _ hlogs, Log.sent, Move.debit]
    · refine ⟨.idle, moves_idle_of_emitted _ ?_ ?_ hlogs (fun v => rfl) ?_⟩
      · rw [hstep]
        rfl
      · rw [hstep, pool_emit, pool_pay_of_ne _ _ ht, pool_setDeposit_of_ne _ _ ht]
      · simp [Log.sent, ht.symm]
  | @collectFee token n hb =>
    have hlogs : (step w (.call msg (.collectFee token n))).logs =
        w.logs ++ [.transfer token msg.sender w.self n, .feeCollected msg.sender token n] := by
      rw [hstep]
      exact List.append_assoc _ _ _
    rcases eq_or_ne t token with rfl | ht
    · refine ⟨.collect n, ?_, trivial, ?_, ?_, ?_, fun v => ?_, fun v => rfl, rfl⟩
      · rw [hstep]
        rfl
      · rw [hstep, pool_emit, pool_setCollected, pool_pull _ hs]
        rfl
      · exact fun h => absurd h (Nat.lt_irrefl 0)
      · exact fun v h => by cases h
      · rw [credited, emitted_eq _ hlogs]
        rfl
    · refine ⟨.idle, moves_idle ?_ ?_ (fun v => ?_) (fun v => rfl)⟩
      · rw [hstep]
        rfl
      · rw [hstep, pool_emit, pool_setCollected_of_ne _ ht, pool_pull_of_ne _ _ ht]
      · rw [credited, emitted_eq _ hlogs]
        rfl
  | @deductGasComp token executor gasUsed n hd hb =>
    have hlogs : (step w (.call msg (.deductGasComp token executor gasUsed))).logs = w.logs ++
        [.transfer token w.self executor n, .gasCompDeducted msg.sender executor token n] := by
      rw [hstep]
      exact List.append_assoc _ _ _
    rcases eq_or_ne t token with rfl | ht
    · have hdebit (v : Address) : paidOut v t w (.call msg (.deductGasComp t executor gasUsed)) =
          (Move.pay msg.sender n).debit v := by
        simp [paidOut, emitted_eq _ hlogs, Log.sent, Move.debit]
      have hcredit (v : Address) :
          credited v t w (.call msg (.deductGasComp t executor gasUsed)) = 0 := by
        rw [credited, emitted_eq _ hlogs]
        rfl
      -- the registry as executor pays itself: the books fall and the balance stays
      rcases eq_or_ne executor w.self with rfl | hex
      · refine ⟨.retain msg.sender n, ?_, hd, ?_, ?_, ?_, hcredit, hdebit, rfl⟩
        · rw [hstep]
          rfl
        · rw [hstep, pool_emit]
          exact (pool_pay_self (w := w.setDeposit msg.sender t _) hb).trans (pool_setDeposit _ _)
        · exact fun _ => ⟨rfl, rfl⟩
        · exact fun v h => Option.some.inj h
      · refine ⟨.pay msg.sender n, ?_, ⟨hd, hb⟩, ?_, ?_, ?_, hcredit, hdebit, rfl⟩
        · rw [hstep]
          rfl
        · rw [hstep, pool_emit, pool_pay (w := w.setDeposit msg.sender t _) _ hex, pool_setDeposit]
          rfl
        · exact fun h => absurd h (Nat.lt_irrefl 0)
        · exact fun v h => Option.some.inj h
    · refine ⟨.idle, moves_idle_of_emitted _ ?_ ?_ hlogs (fun v => rfl) ?_⟩
      · rw [hstep]
        rfl
      · rw [hstep, pool_emit, pool_pay_of_ne _ _ ht, pool_setDeposit_of_ne _ _ ht]
      · simp [Log.sent, ht.symm]

/-- **Every step that is not the registry's own is one covered move of the pool of `t`.** -/
theorem step_moves {l : Label} (hl : l.Outside w.self) (t : Address) : ∃ m, Moves w l t m := by
  cases l with
  | call msg op =>
    cases h : call msg w op with
    | ok w' =>
      refine effect_moves hl (call_effect h) ?_
      simp only [step, applyCall, h]
    | error e =>
      -- a call that reverts leaves everything as it was
      have hstep : step w (.call msg op) = w := by
        simp only [step, applyCall, h]
      exact effect_moves hl .nothing hstep
  | transfer token sender recipient amount =>
    -- the registry itself sends only in its calls
    have hsender : sender ≠ w.self := hl
    cases h : w.erc20.transfer token sender recipient amount with
    | none =>
      have hstep : step w (.transfer token sender recipient amount) = w := by
        simp only [step, h]
      refine ⟨.idle, moves_idle ?_ ?_ (fun v => ?_) (fun v => rfl)⟩
      · rw [hstep]
      · rw [hstep]
      · rw [credited, emitted_eq [] (by rw [hstep, List.append_nil])]
        rfl
    | some s =>
      obtain ⟨-, -, -, rfl⟩ := Erc20.transfer_eq_some.1 h
      have hstep : step w (.transfer token sender recipient amount) =
          (w.setErc20 (w.erc20.move token sender recipient amount)).emit
            (.transfer token sender recipient amount) := by
        simp only [step, h]
      have hcredit (v : Address) :
          credited v t w (.transfer token sender recipient amount) = 0 := by
        rw [credited, emitted_eq [.transfer token sender recipient amount]
          (by rw [hstep]; rfl)]
        rfl
      -- a transfer to the registry is a gift, any other one does not touch the pool
      by_cases hr : t = token ∧ w.self = recipient
      · obtain ⟨rfl, hr⟩ := hr
        refine ⟨.donate amount, ?_, trivial, ?_, ?_, ?_, hcredit, fun v => rfl, rfl⟩
        · rw [hstep]
          rfl
        · have hb : (w.erc20.move t sender recipient amount).balanceOf t w.self =
              w.erc20.balanceOf t w.self + amount := by
            rw [Erc20.move_balanceOf, if_pos ⟨rfl, hr⟩, if_neg (hr ▸ hsender), hr]
          rw [hstep, pool_emit]
          simp only [World.pool, World.setErc20, hb, Pool.apply]
        · exact fun _ => ⟨rfl, hr.symm⟩
        · exact fun v h => by cases h
      · refine ⟨.idle, moves_idle ?_ ?_ hcredit (fun v => rfl)⟩
        · rw [hstep]
          rfl
        · rw [hstep, pool_emit]
          refine pool_setErc20 ?_
          rw [Erc20.move_balanceOf, if_neg hr, if_neg (fun h => hsender h.2.symm)]
  | approve token owner spender amount =>
    refine ⟨.idle, moves_idle rfl (pool_setErc20 rfl) (fun v => ?_) (fun v => rfl)⟩
    rw [credited, emitted_eq [] (List.append_nil _).symm]
    rfl
  | mint token recipient amount =>
    have hcredit (v : Address) : credited v t w (.mint token recipient amount) = 0 := by
      rw [credited, emitted_eq [.transfer token Address.zero recipient amount] rfl]
      rfl
    by_cases hr : t = token ∧ w.self = recipient
    · obtain ⟨rfl, rfl⟩ := hr
      refine ⟨.donate amount, rfl, trivial, ?_, ?_, ?_, hcredit, fun v => rfl, rfl⟩
      · have hb : (w.erc20.mint t w.self amount).balanceOf t w.self =
            w.erc20.balanceOf t w.self + amount := update₂_self _ _ _ _
        rw [step, pool_emit]
        simp only [World.pool, World.setErc20, hb, Pool.apply]
      · exact fun _ => ⟨rfl, rfl⟩
      · exact fun v h => by cases h
    · refine ⟨.idle, moves_idle rfl ?_ hcredit (fun v => rfl)⟩
      rw [step, pool_emit]
      refine pool_setErc20 ?_
      exact update₂_of_ne _ _ _ _ (not_and_or.1 hr)

end Steps

/-! ## The solvency invariant -/

/-- Every step of the run is taken by somebody else than the registry. -/
def Outside (w : World) (l : Label) : Prop := l.Outside w.self

/-- The books of the registry add up and its balances cover them. -/
structure Solvent (w : World) : Prop where
  self_ne_zero : w.self ≠ Address.zero
  support : ∀ t, (w.pool t).SupportFinite
  surplus : ∀ t, 0 ≤ (w.pool t).surplus
  zero_deposit : ∀ t, (w.pool t).deposits Address.zero = 0

/-- A registry that was just deployed at an address. Tokens may have been sent there before. -/
def Fresh (w : World) : Prop :=
  w.self ≠ Address.zero ∧ ∃ deployer, w.registry = Registry.deployed deployer

theorem fresh_pool {w : World} (hw : Fresh w) (t : Address) :
    w.pool t = { deposits := fun _ => 0, fees := 0, balance := w.erc20.balanceOf t w.self } := by
  obtain ⟨-, deployer, hd⟩ := hw
  simp only [World.pool, hd, Registry.deployed]

theorem fresh_surplus {w : World} (hw : Fresh w) (t : Address) :
    (w.pool t).surplus = w.erc20.balanceOf t w.self := by
  simp [fresh_pool hw, Pool.surplus, Pool.owed]

/-- A fresh registry is solvent. -/
theorem fresh_solvent {w : World} (hw : Fresh w) : Solvent w where
  self_ne_zero := hw.1
  support := fun t => by simp [fresh_pool hw, Pool.SupportFinite]
  surplus := fun t => by
    rw [fresh_surplus hw]
    exact Int.natCast_nonneg _
  zero_deposit := fun t => by rw [fresh_pool hw]

/-- A step of others keeps the registry solvent. -/
theorem step_solvent (w : World) (l : Label) (hw : Solvent w) (hl : Outside w l) :
    Solvent (step w l) := by
  have hmoves (t : Address) := step_moves (w := w) hl t
  refine ⟨?_, fun t => ?_, fun t => ?_, fun t => ?_⟩
  · obtain ⟨m, hm⟩ := hmoves Address.zero
    rw [hm.self]
    exact hw.self_ne_zero
  · obtain ⟨m, hm⟩ := hmoves t
    rw [hm.pool]
    exact Pool.supportFinite_apply (hw.support t) m
  · obtain ⟨m, hm⟩ := hmoves t
    rw [hm.pool, Pool.surplus_apply (hw.support t) hm.covers]
    exact Int.add_nonneg (hw.surplus t) (Int.natCast_nonneg _)
  · obtain ⟨m, hm⟩ := hmoves t
    have h := Pool.deposits_apply hm.covers Address.zero
    rw [hm.credit_zero, hw.zero_deposit, ← hm.pool] at h
    exact Nat.eq_zero_of_add_eq_zero_right h

theorem run_solvent {w₀ : World} (h₀ : Fresh w₀) {ls : List Label}
    (hls : Admitted step Outside w₀ ls) : Solvent (run step w₀ ls) :=
  run_invariant step_solvent (fresh_solvent h₀) hls

/-- The registry stays at its address. -/
theorem run_self {w₀ : World} {ls : List Label} (hls : Admitted step Outside w₀ ls) :
    (run step w₀ ls).self = w₀.self := by
  refine run_invariant (I := fun w => w.self = w₀.self) (fun w l hw hl => ?_) rfl hls
  obtain ⟨m, hm⟩ := step_moves (w := w) hl Address.zero
  rw [hm.self, hw]

/-! ## Conservation -/

/-- What the registry owes in `t`: all vault deposits and the collected fees. -/
noncomputable def owed (w : World) (t : Address) : Nat :=
  (∑ᶠ v, w.registry.vaultDeposits v t) + w.registry.collectedFees t

/-- What the registry holds in `t` beyond what it owes. -/
noncomputable def surplus (w : World) (t : Address) : ℤ :=
  (w.erc20.balanceOf t w.self : ℤ) - (owed w t : ℤ)

/-- The surplus never falls, and rises by gifts only. -/
theorem surplus_step {w : World} (hw : Solvent w) {l : Label} (hl : Outside w l) (t : Address) :
    surplus w t ≤ surplus (step w l) t ∧
      (surplus w t < surplus (step w l) t → l.Gift w.self t) := by
  obtain ⟨m, hm⟩ := step_moves (w := w) hl t
  have h : surplus (step w l) t = surplus w t + m.gift := by
    have hp := Pool.surplus_apply (hw.support t) hm.covers
    rwa [← hm.pool] at hp
  refine ⟨by omega, fun hlt => hm.gift ?_⟩
  omega

/-- Without gifts the surplus stays what it was. -/
theorem surplus_run {w₀ : World} (h₀ : Solvent w₀) {ls : List Label}
    (hls : Admitted step Outside w₀ ls) {t : Address} (hgift : ∀ l ∈ ls, ¬ l.Gift w₀.self t) :
    surplus (run step w₀ ls) t = surplus w₀ t := by
  induction ls generalizing w₀ with
  | nil => rfl
  | cons l ls ih =>
    obtain ⟨hl, hls⟩ := hls
    obtain ⟨hle, hlt⟩ := surplus_step h₀ hl t
    have hone : Admitted step Outside w₀ [l] := ⟨hl, trivial⟩
    have hself : (step w₀ l).self = w₀.self := run_self hone
    have heq : surplus (step w₀ l) t = surplus w₀ t := by
      refine le_antisymm (not_lt.1 fun h => ?_) hle
      exact hgift l (List.mem_cons_self ..) (hlt h)
    rw [run_cons, ih (step_solvent w₀ l h₀ hl) hls (fun l' hl' => ?_), heq]
    rw [hself]
    exact hgift l' (List.mem_cons_of_mem l hl')

/-- **Conservation.** After every run from a fresh registry the balance covers the books, no step
lowers the surplus, and only a gift raises it. Without gifts, to the address before deployment or
during the run, the documented equality holds. -/
theorem conservation {w₀ : World} (h₀ : Fresh w₀) {ls : List Label}
    (hls : Admitted step Outside w₀ ls) (t : Address) :
    let w := run step w₀ ls
    (Function.support fun v => w.registry.vaultDeposits v t).Finite ∧
      0 ≤ surplus w t ∧
      (∀ l, Outside w l → surplus w t ≤ surplus (step w l) t ∧
        (surplus w t < surplus (step w l) t → l.Gift w.self t)) ∧
      (w₀.erc20.balanceOf t w₀.self = 0 → (∀ l ∈ ls, ¬ l.Gift w₀.self t) →
        w.erc20.balanceOf t w.self = owed w t) := by
  intro w
  have hw : Solvent w := run_solvent h₀ hls
  refine ⟨hw.support t, hw.surplus t, fun l hl => surplus_step hw hl t, fun hb hgift => ?_⟩
  have hrun : surplus w t = surplus w₀ t := surplus_run (fresh_solvent h₀) hls hgift
  have hzero : surplus w₀ t = 0 := (fresh_surplus h₀ t).trans (by rw [hb]; rfl)
  have h : (w.erc20.balanceOf t w.self : ℤ) - (owed w t : ℤ) = 0 := hrun.trans hzero
  omega

/-- A fresh registry at the address 1, deployed by 2. -/
def sampleWorld : World where
  self := ⟨1⟩
  registry := Registry.deployed ⟨2⟩
  erc20 := ⟨fun _ _ => 0, fun _ _ _ => 0⟩
  logs := []

/-- A call of this sender, in a block in which no other contract answers. -/
def sampleMsg (sender : Nat) : Msg := ⟨⟨sender⟩, 1, fun _ _ => .reverted⟩

/-- The vault 3 deposits 60 of the token 4 and takes 20 back. -/
def sampleRun : List Label :=
  [.mint ⟨4⟩ ⟨3⟩ 100, .call (sampleMsg 2) (.addAcceptedToken ⟨4⟩ 6), .approve ⟨4⟩ ⟨3⟩ ⟨1⟩ 60,
    .call (sampleMsg 3) (.depositFor ⟨3⟩ ⟨4⟩ 60), .call (sampleMsg 3) (.withdrawDeposit ⟨4⟩ 20)]

theorem sampleWorld_fresh : Fresh sampleWorld := ⟨by decide, ⟨2⟩, rfl⟩

theorem sampleRun_admitted : Admitted step Outside sampleWorld sampleRun :=
  ⟨trivial, show (⟨2⟩ : Address) ≠ ⟨1⟩ by decide, trivial, show (⟨3⟩ : Address) ≠ ⟨1⟩ by decide,
    show (⟨3⟩ : Address) ≠ ⟨1⟩ by decide, trivial⟩

theorem conservation_sample :
    (run step sampleWorld sampleRun).erc20.balanceOf ⟨4⟩ ⟨1⟩ = 40 ∧
      (run step sampleWorld sampleRun).erc20.balanceOf ⟨4⟩ ⟨1⟩ =
        owed (run step sampleWorld sampleRun) ⟨4⟩ := by
  refine ⟨by decide, ?_⟩
  refine (conservation sampleWorld_fresh sampleRun_admitted ⟨4⟩).2.2.2 rfl ?_
  simp [sampleRun, Label.Gift, sampleWorld]

/-! ## Isolation between vaults -/

/-- A call of another sender takes nothing of a deposit. -/
theorem applyCall_deposit_le {w : World} {msg : Msg} (op : Op) (hs : msg.sender ≠ w.self)
    {v : Address} (hv : msg.sender ≠ v) (t : Address) :
    w.registry.vaultDeposits v t ≤ (applyCall msg w op).registry.vaultDeposits v t := by
  obtain ⟨m, hm⟩ := step_moves (w := w) (l := .call msg op) hs t
  have hpayer : m.payer ≠ some v := fun h => hv (hm.payer v h)
  have h := Pool.deposits_le_apply hm.covers hpayer
  rwa [← hm.pool] at h

/-- Over every run, what is paid out of a deposit was credited to it. -/
theorem paidOut_le_credited {w₀ : World} (h₀ : Fresh w₀) {ls : List Label}
    (hls : Admitted step Outside w₀ ls) (v t : Address) :
    runTotal step (paidOut v t) w₀ ls ≤ runTotal step (credited v t) w₀ ls := by
  have h : ((run step w₀ ls).pool t).deposits v + runTotal step (paidOut v t) w₀ ls =
      (w₀.pool t).deposits v + runTotal step (credited v t) w₀ ls := by
    refine run_balance (Φ := fun w : World => (w.pool t).deposits v) step_solvent ?_
      (fresh_solvent h₀) hls
    intro w l _ hl
    obtain ⟨m, hm⟩ := step_moves (w := w) hl t
    rw [hm.pool, hm.credit, hm.debit]
    exact Pool.deposits_apply hm.covers v
  have hzero : (w₀.pool t).deposits v = 0 := by rw [fresh_pool h₀]
  omega

/-- The owner's reconfigurations of tokens and gas compensation. -/
def Op.IsReconfiguration : Op → Prop
  | .addAcceptedToken _ _ => True
  | .removeAcceptedToken _ => True
  | .setGasConfig _ _ _ _ _ => True
  | _ => False

theorem Op.IsReconfiguration.isConfig {op : Op} (h : op.IsReconfiguration) : op.IsConfig := by
  cases op with
  | addAcceptedToken token decimals => trivial
  | removeAcceptedToken token => trivial
  | setGasConfig priceOracle nativeToken executorMarkupBps overhead maxGasPrice => trivial
  | _ => exact h.elim

/-- Books, balances and address are the same in both worlds. -/
structure SameBooks (w w' : World) : Prop where
  self : w'.self = w.self
  erc20 : w'.erc20 = w.erc20
  vaultDeposits : w'.registry.vaultDeposits = w.registry.vaultDeposits
  collectedFees : w'.registry.collectedFees = w.registry.collectedFees

theorem SameBooks.refl (w : World) : SameBooks w w := ⟨rfl, rfl, rfl, rfl⟩

theorem SameBooks.trans {w₁ w₂ w₃ : World} (h : SameBooks w₁ w₂) (h' : SameBooks w₂ w₃) :
    SameBooks w₁ w₃ :=
  ⟨h'.self.trans h.self, h'.erc20.trans h.erc20, h'.vaultDeposits.trans h.vaultDeposits,
    h'.collectedFees.trans h.collectedFees⟩

/-- The same books are as solvent. -/
theorem SameBooks.solvent {w w' : World} (h : SameBooks w w') (hw : Solvent w) : Solvent w' := by
  have hpool (t : Address) : w'.pool t = w.pool t := by
    simp only [World.pool, h.vaultDeposits, h.collectedFees, h.erc20, h.self]
  refine ⟨h.self ▸ hw.self_ne_zero, fun t => ?_, fun t => ?_, fun t => ?_⟩
  · rw [hpool]
    exact hw.support t
  · rw [hpool]
    exact hw.surplus t
  · rw [hpool]
    exact hw.zero_deposit t

/-- A configuration leaves the books. -/
theorem applyCall_sameBooks (msg : Msg) (w : World) {op : Op} (hop : op.IsConfig) :
    SameBooks w (applyCall msg w op) := by
  cases h : call msg w op with
  | error e =>
    simp only [applyCall, h]
    exact .refl w
  | ok w' =>
    simp only [applyCall, h]
    cases call_effect h with
    | config _ _ hw => exact ⟨hw.self, hw.erc20, hw.vaultDeposits, hw.collectedFees⟩
    | nothing => exact .refl w
    | _ => exact hop.elim

/-- So do any number of them. -/
theorem run_sameBooks (w : World) (cfgs : List (Msg × Op)) (h : ∀ c ∈ cfgs, c.2.IsConfig) :
    SameBooks w (run (fun w c => applyCall c.1 w c.2) w cfgs) := by
  induction cfgs generalizing w with
  | nil => exact .refl w
  | cons c cfgs ih =>
    have hc := applyCall_sameBooks c.1 w (h c (List.mem_cons_self ..))
    exact hc.trans (ih _ fun c' hc' => h c' (List.mem_cons_of_mem c hc'))

/-- A solvent registry pays back any part of a deposit. -/
theorem withdrawDeposit_pays {w : World} (hw : Solvent w) {msg : Msg} (hs : msg.sender ≠ w.self)
    {t : Address} {a : Nat} (ha : 0 < a) (hle : a ≤ w.registry.vaultDeposits msg.sender t) :
    ∃ w', call msg w (.withdrawDeposit t a) = .ok w' ∧
      w'.registry.vaultDeposits msg.sender t = w.registry.vaultDeposits msg.sender t - a ∧
      w'.erc20.balanceOf t msg.sender = w.erc20.balanceOf t msg.sender + a ∧
      w'.erc20.balanceOf t w.self + a = w.erc20.balanceOf t w.self := by
  have hpool : (w.pool t).deposits msg.sender ≤ (w.pool t).balance :=
    Pool.deposit_le_balance (hw.support t) (hw.surplus t) msg.sender
  have hb : a ≤ w.erc20.balanceOf t w.self := le_trans hle hpool
  -- the token refuses `address(0)`, which never holds a deposit
  have hzero : msg.sender ≠ Address.zero := by
    intro h
    have hd : w.registry.vaultDeposits msg.sender t = 0 := by
      rw [h]
      exact hw.zero_deposit t
    omega
  have hn : toWithdraw (w.registry.vaultDeposits msg.sender t) a = a := if_neg (by omega)
  let debited := w.setDeposit msg.sender t (w.registry.vaultDeposits msg.sender t - a)
  refine ⟨(debited.pay t msg.sender a).emit (.feeDepositWithdrawn msg.sender t a), ?_, ?_, ?_, ?_⟩
  · simp only [call, withdrawDeposit, bind_eq_ok, revertIf_eq_ok, pure_eq_ok, safeTransfer_eq_ok, hn]
    exact ⟨(), by omega, (), by omega, _, ⟨hw.self_ne_zero, hzero, hb, rfl⟩, rfl⟩
  · exact update₂_self _ _ _ _
  · change (w.erc20.move t w.self msg.sender a).balanceOf t msg.sender = _
    rw [Erc20.move_balanceOf, if_pos ⟨rfl, rfl⟩, if_neg hs.symm]
  · change (w.erc20.move t w.self msg.sender a).balanceOf t w.self + a = _
    rw [Erc20.move_balanceOf, if_neg (fun h => hs h.2.symm), if_pos ⟨rfl, rfl⟩]
    exact Nat.sub_add_cancel hb

/-- **Isolation.** In every reachable state no caller but `v` lowers the deposit of `v`; over the
run `v` was paid at most what was credited to it; and whatever its owner reconfigures, the registry
pays back any part of the deposit. -/
theorem vault_isolation {w₀ : World} (h₀ : Fresh w₀) {ls : List Label}
    (hls : Admitted step Outside w₀ ls) (v t : Address) :
    let w := run step w₀ ls
    (∀ msg op, msg.sender ≠ w.self → msg.sender ≠ v →
      w.registry.vaultDeposits v t ≤ (applyCall msg w op).registry.vaultDeposits v t) ∧
    runTotal step (paidOut v t) w₀ ls ≤ runTotal step (credited v t) w₀ ls ∧
    ∀ (cfgs : List (Msg × Op)), (∀ c ∈ cfgs, c.2.IsReconfiguration) →
      let w' := run (fun w c => applyCall c.1 w c.2) w cfgs
      ∀ (msg : Msg) (a : Nat), msg.sender = v → v ≠ w.self → 0 < a →
        a ≤ w.registry.vaultDeposits v t →
        ∃ w'', call msg w' (.withdrawDeposit t a) = .ok w'' ∧
          w''.registry.vaultDeposits v t = w.registry.vaultDeposits v t - a ∧
          w''.erc20.balanceOf t v = w.erc20.balanceOf t v + a ∧
          w''.erc20.balanceOf t w.self + a = w.erc20.balanceOf t w.self := by
  intro w
  have hw : Solvent w := run_solvent h₀ hls
  refine ⟨fun msg op hs hv => applyCall_deposit_le op hs hv t, paidOut_le_credited h₀ hls v t, ?_⟩
  intro cfgs hcfgs w' msg a hv hs ha hle
  subst hv
  have hsame : SameBooks w w' := run_sameBooks w cfgs fun c hc => (hcfgs c hc).isConfig
  have hs' : msg.sender ≠ w'.self := by rwa [hsame.self]
  have hle' : a ≤ w'.registry.vaultDeposits msg.sender t := by rwa [hsame.vaultDeposits]
  have hpays := withdrawDeposit_pays (hsame.solvent hw) hs' ha hle'
  rwa [hsame.self, hsame.erc20, hsame.vaultDeposits] at hpays

/-- The owner takes the token off the list and changes the gas compensation. -/
def sampleReconfigurations : List (Msg × Op) :=
  [(sampleMsg 2, .removeAcceptedToken ⟨4⟩), (sampleMsg 2, .setGasConfig ⟨5⟩ ⟨6⟩ 500 21000 9)]

/-- The vault gets back a token that the registry no longer accepts. -/
theorem vault_isolation_sample :
    let w' := run (fun w c => applyCall c.1 w c.2) (run step sampleWorld sampleRun)
      sampleReconfigurations
    ((w'.registry.tokens ⟨4⟩).enabled = false ∧ w'.registry.gasOverhead = 21000) ∧
      ∃ w, call (sampleMsg 3) w' (.withdrawDeposit ⟨4⟩ 15) = .ok w ∧
        w.registry.vaultDeposits ⟨3⟩ ⟨4⟩ = 25 := by
  intro w'
  have hreconfigured : ∀ c ∈ sampleReconfigurations, c.2.IsReconfiguration := by
    rintro c (_ | ⟨_, _ | ⟨_, ⟨⟩⟩⟩)
    · trivial
    · trivial
  obtain ⟨w, hcall, hdeposit, -, -⟩ :=
    (vault_isolation sampleWorld_fresh sampleRun_admitted ⟨3⟩ ⟨4⟩).2.2 sampleReconfigurations
      hreconfigured (sampleMsg 3) 15 rfl (by decide) (by decide) (by decide)
  exact ⟨⟨by decide, by decide⟩, w, hcall, hdeposit.trans (by decide)⟩

end StrategyBuilder.Contracts.FeeRegistry
