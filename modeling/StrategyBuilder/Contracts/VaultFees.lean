import StrategyBuilder.Contracts.AaveActions
import StrategyBuilder.Contracts.FeeRegistryCustody

/-!
# Fees on tokens in and out of a vault

`deposit` and `withdraw` of `StrategyBuilderVault.sol` and `ERC20TransferAction.sol`: tokens enter a
vault from its owner and leave it by two paths, and the fee registry collects its share. Each of the
three computes the share on its own and transfers, approves and collects in its own order.

The state is that of the registry with the token ledgers (`World`). Everything here is put together
from two movements of tokens, the one of the amount and the one of the fee (`FeePaid`); the order in
which they come does not matter (`Split`). The action runs by `delegatecall`, so `address(this)` is the
vault there too. Its parameters come decoded.
-/

set_option autoImplicit false

namespace StrategyBuilder.Contracts.VaultFees

open StrategyBuilder.Contracts
open StrategyBuilder.Contracts.AaveActions (noSlot singleSlotDiff)
open StrategyBuilder.Contracts.FeeRegistry (World Registry Msg maxFeeBps)
open StrategyBuilder.Lib.Abi
open StrategyBuilder.Lib.Transition

/-! ## Calls of tokens and of the registry -/

section Calls

variable {ε : Type}

/-- A call of another contract, whose revert is passed through. -/
def called {δ α : Type} : Result δ α → Result ε α
  | .ok a => .ok a
  | .error _ => .error .external

/-- `IERC20(token).safeTransferFrom(sender, address(this), amount)` -/
def safeTransferFrom (self token sender : Address) (amount : Nat) (w : World) : Result ε World := do
  let erc20 ← passThrough (w.erc20.transferFrom token self sender self amount)
  return (w.setErc20 erc20).emit (.transfer token sender self amount)

/-- `IERC20(token).safeTransfer(recipient, amount)` -/
def safeTransfer (self token recipient : Address) (amount : Nat) (w : World) : Result ε World := do
  let erc20 ← passThrough (w.erc20.transfer token self recipient amount)
  return (w.setErc20 erc20).emit (.transfer token self recipient amount)

/-- `IFeeRegistry(reg)`: calls of another address than that of a registry revert. -/
def registryAt (w : World) (reg : Address) : Result ε Registry :=
  passThrough (if reg = w.self then some w.registry else none)

/-- `(amount * feeBps) / 10_000` -/
def feeOf (amount feeBps : Nat) : Result ε Nat := do
  let x ← checkedMul amount feeBps
  return x / 10000

/-- `IERC20(token).forceApprove(reg, fee); reg.collectFee(token, fee);` -/
def payFee (self : Address) (msg : Msg) (reg token : Address) (fee : Nat) (w : World) :
    Result ε World := do
  let w := w.setErc20 (w.erc20.approve token self reg fee)
  let _ ← registryAt w reg
  called (FeeRegistry.collectFee { msg with sender := self } token fee w)

end Calls

/-! ## The vault -/

/-- The vault at an address, with the storage that its token operations read. -/
structure VaultAccount where
  self : Address
  owner : Address
  feeRegistry : Address

/-- The custom errors of deposits and withdrawals. -/
inductive FundsError where
  | ownableUnauthorizedAccount (account : Address)
  | zeroRecipient
deriving DecidableEq, Repr

/-- The events of deposits and withdrawals. -/
inductive FundsLog where
  | deposited (token : Address) (amount : Nat)
  | withdrawn (token : Address) (amount fee : Nat) (recipient : Address)
deriving DecidableEq, Repr

/-- The fee at one of the two rates of the registry: what `deposit` and `withdraw` share. Returns the
state and the fee. -/
def collectFeeAt (rate : Registry → Nat) (v : VaultAccount) (msg : Msg) (token : Address)
    (amount : Nat) (w : World) : Result FundsError (World × Nat) :=
  if v.feeRegistry = Address.zero then return (w, 0)
  else do
    let reg ← registryAt w v.feeRegistry
    if rate reg = 0 then return (w, 0)
    else do
      let fee ← feeOf amount (rate reg)
      let w ← payFee v.self msg v.feeRegistry token fee w
      return (w, fee)

/-- `deposit`: the vault takes the amount, and pays the fee out of it. -/
def deposit (v : VaultAccount) (msg : Msg) (token : Address) (amount : Nat) (w : World) :
    Result FundsError (World × FundsLog) := do
  revertIf (msg.sender ≠ v.owner) (.ownableUnauthorizedAccount msg.sender)
  let w ← safeTransferFrom v.self token msg.sender amount w
  let r ← collectFeeAt Registry.depositFeeBps v msg token amount w
  return (r.1, .deposited token amount)

/-- `withdraw`: the vault pays the fee, and the recipient gets the rest. -/
def withdraw (v : VaultAccount) (msg : Msg) (token : Address) (amount : Nat) (recipient : Address)
    (w : World) : Result FundsError (World × FundsLog) := do
  revertIf (msg.sender ≠ v.owner) (.ownableUnauthorizedAccount msg.sender)
  revertIf (recipient = Address.zero) .zeroRecipient
  let r ← collectFeeAt Registry.withdrawFeeBps v msg token amount w
  let rest ← checkedSub amount r.2
  let w ← safeTransfer v.self token recipient rest r.1
  return (w, .withdrawn token amount r.2 recipient)

/-! ## The action -/

namespace ERC20TransferAction

/-- The custom errors of the transfer action. -/
inductive ActionError where
  | zeroToken
  | zeroRecipient
  | slotOutOfBounds (slot : Nat)
deriving DecidableEq, Repr

/-- The decoded parameters. -/
structure Params where
  token : Address
  recipient : Address
  amount : Nat
  amountFromSlot : Nat
  amountToSlot : Nat
  feeRegistry : Address

/-- The transfer amount: that of a slot, the whole balance, or the one of the parameters. -/
def transferAmount (p : Params) (ctx : List Bytes) (balance : Nat) : Result ActionError Nat :=
  if p.amountFromSlot ≠ noSlot then do
    revertIf (ctx.length % 2 ^ 32 ≤ p.amountFromSlot) (.slotOutOfBounds p.amountFromSlot)
    let raw ← readAt ctx p.amountFromSlot
    decoded (decodeUint256 raw)
  else if p.amount = 0 then return balance
  else return p.amount

/-- The fee of a transfer: none without a registry, for a zero amount, or at a zero rate. -/
def withdrawFee (p : Params) (amount : Nat) (w : World) : Result ActionError Nat :=
  if p.feeRegistry ≠ Address.zero ∧ 0 < amount then do
    let reg ← registryAt w p.feeRegistry
    if 0 < reg.withdrawFeeBps then feeOf amount reg.withdrawFeeBps else return 0
  else return 0

/-- Run for the vault `self`. Returns the state and the diff of the context. -/
def execute (self : Address) (msg : Msg) (p : Params) (ctx : List Bytes) (w : World) :
    Result ActionError (World × List Nat × List Bytes) := do
  revertIf (p.token = Address.zero) .zeroToken
  revertIf (p.recipient = Address.zero) .zeroRecipient
  let amount ← transferAmount p ctx (w.erc20.balanceOf p.token self)
  let fee ← withdrawFee p amount w
  let w ← (if fee < amount then safeTransfer self p.token p.recipient (amount - fee) w else pure w)
  let w ← (if 0 < fee then payFee self msg p.feeRegistry p.token fee w else pure w)
  return (w, singleSlotDiff p.amountToSlot amount)

end ERC20TransferAction

/-! ## The rates -/

/-- The rates of the registry are within its bound. -/
def RatesBounded (w : World) : Prop :=
  w.registry.depositFeeBps ≤ maxFeeBps ∧ w.registry.withdrawFeeBps ≤ maxFeeBps

section Rates

open FeeRegistry

/-- Only the two setters touch a rate, and they check the bound. -/
theorem call_ratesBounded {msg : Msg} {w w' : World} {op : Op} (h : call msg w op = .ok w')
    (hw : RatesBounded w) : RatesBounded w' := by
  cases op with
  | setDepositFeeBps bps =>
    simp only [call, setDepositFeeBps, onlyOwner, bind_eq_ok, revertIf_eq_ok, pure_eq_ok] at h
    obtain ⟨-, -, -, hbps, rfl⟩ := h
    exact ⟨Nat.le_of_not_lt hbps, hw.2⟩
  | setWithdrawFeeBps bps =>
    simp only [call, setWithdrawFeeBps, onlyOwner, bind_eq_ok, revertIf_eq_ok, pure_eq_ok] at h
    obtain ⟨-, -, -, hbps, rfl⟩ := h
    exact ⟨hw.1, Nat.le_of_not_lt hbps⟩
  | addAcceptedToken token decimals =>
    simp only [call, addAcceptedToken, onlyOwner, bind_eq_ok, revertIf_eq_ok, pure_eq_ok] at h
    obtain ⟨-, -, -, -, rfl⟩ := h
    exact hw
  | removeAcceptedToken token =>
    simp only [call, removeAcceptedToken, onlyOwner, bind_eq_ok, revertIf_eq_ok, pure_eq_ok] at h
    obtain ⟨-, -, rfl⟩ := h
    exact hw
  | setGasConfig priceOracle nativeToken executorMarkupBps overhead maxGasPrice =>
    simp only [call, setGasConfig, onlyOwner, bind_eq_ok, revertIf_eq_ok, pure_eq_ok] at h
    obtain ⟨-, -, rfl⟩ := h
    exact hw
  | transferOwnership newOwner =>
    simp only [call, transferOwnership, onlyOwner, bind_eq_ok, revertIf_eq_ok, pure_eq_ok] at h
    obtain ⟨-, -, -, -, rfl⟩ := h
    exact hw
  | renounceOwnership =>
    simp only [call, renounceOwnership, onlyOwner, bind_eq_ok, revertIf_eq_ok, pure_eq_ok] at h
    obtain ⟨-, -, rfl⟩ := h
    exact hw
  -- the other operations move tokens, and no rate
  | withdrawFees token =>
    cases call_effect h with
    | config hop => exact hop.elim
    | withdrawFees => exact hw
    | nothing => exact hw
  | depositFor vault token n =>
    cases call_effect h with
    | config hop => exact hop.elim
    | depositFor => exact hw
    | nothing => exact hw
  | withdrawDeposit token n =>
    cases call_effect h with
    | config hop => exact hop.elim
    | withdrawDeposit => exact hw
    | nothing => exact hw
  | collectFee token n =>
    cases call_effect h with
    | config hop => exact hop.elim
    | collectFee => exact hw
    | nothing => exact hw
  | deductGasComp token executor gasUsed =>
    cases call_effect h with
    | config hop => exact hop.elim
    | deductGasComp => exact hw
    | nothing => exact hw

/-- A step keeps the rates below the bound. -/
theorem step_ratesBounded (w : World) (l : Label) (hw : RatesBounded w) : RatesBounded (step w l) := by
  cases l with
  | call msg op =>
    rw [step, applyCall]
    cases h : call msg w op with
    | ok w' => exact call_ratesBounded h hw
    | error e => exact hw
  | transfer token sender recipient amount =>
    rw [step]
    cases w.erc20.transfer token sender recipient amount with
    | none => exact hw
    | some erc20 => exact hw
  | approve token owner spender amount => exact hw
  | mint token recipient amount => exact hw

/-- **Bounded rates**: no run of the registry raises a rate above the bound. -/
theorem ratesBounded_run {w : World} (h : Fresh w) (ls : List Label) : RatesBounded (run step w ls) := by
  have hstart : RatesBounded w := by
    obtain ⟨-, deployer, hdeployed⟩ := h
    rw [RatesBounded, hdeployed]
    exact ⟨Nat.zero_le _, Nat.zero_le _⟩
  have hstep (w : World) (l : Label) (hw : RatesBounded w) (_ : True) : RatesBounded (step w l) :=
    step_ratesBounded w l hw
  exact run_invariant hstep hstart (admitted_true step w ls)

end Rates

/-! ## The fee of an operation -/

/-- The payer paid `fee` to the registry, which booked it. Of an allowance for the registry nothing is
left. -/
structure FeePaid (w w' : World) (token payer : Address) (fee : Nat) : Prop where
  moved : Erc20.Moved w.erc20 w'.erc20 token payer w.self fee
  registry : w'.registry = (w.setCollected token (w.registry.collectedFees token + fee)).registry
  self : w'.self = w.self
  allowance : w'.erc20.allowance token payer w.self = 0 ∨ w'.erc20.allowance = w.erc20.allowance
  spent : 0 < fee → w'.erc20.allowance token payer w.self = 0

theorem FeePaid.none (w : World) (token payer : Address) : FeePaid w w token payer 0 where
  moved := Erc20.Moved.refl ..
  registry := by simp [World.setCollected]
  self := rfl
  allowance := Or.inr rfl
  spent h := absurd h (Nat.lt_irrefl 0)

section Calls

variable {ε : Type} {w w' : World} {self token recipient sender reg : Address} {msg : Msg}
  {amount fee : Nat}

theorem called_eq_ok {δ α : Type} {x : Result δ α} {a : α} :
    (called x : Result ε α) = .ok a ↔ x = .ok a := by
  cases x with
  | ok b => simp [called]
  | error e => simp [called]

theorem registryAt_eq_ok {r : Registry} :
    (registryAt w reg : Result ε Registry) = .ok r ↔ reg = w.self ∧ w.registry = r := by
  rw [registryAt, passThrough_eq_ok]
  split
  · next h => simp [h]
  · next h => simp [h]

/-- The fee is a floored share, unless its product is no word. -/
theorem feeOf_eq_ok {bps : Nat} :
    (feeOf amount bps : Result ε Nat) = .ok fee ↔
      amount * bps ≤ maxUint256 ∧ amount * bps / 10000 = fee := by
  simp only [feeOf, bind_eq_ok, checkedMul_eq_ok, pure_eq_ok]
  constructor
  · rintro ⟨_, ⟨hmax, rfl⟩, hfee⟩
    exact ⟨hmax, hfee⟩
  · rintro ⟨hmax, hfee⟩
    exact ⟨_, ⟨hmax, rfl⟩, hfee⟩

theorem safeTransfer_moved (h : (safeTransfer self token recipient amount w : Result ε World) = .ok w') :
    Erc20.Moved w.erc20 w'.erc20 token self recipient amount ∧
      w'.erc20.allowance = w.erc20.allowance ∧ w'.registry = w.registry ∧ w'.self = w.self := by
  simp only [safeTransfer, bind_eq_ok, passThrough_eq_ok, pure_eq_ok, Erc20.transfer_eq_some] at h
  obtain ⟨s, ⟨-, -, hle, rfl⟩, rfl⟩ := h
  exact ⟨Erc20.moved_move hle, rfl, rfl, rfl⟩

/-- A transfer moves the amount, and leaves the registry. -/
theorem safeTransferFrom_moved
    (h : (safeTransferFrom self token sender amount w : Result ε World) = .ok w') :
    Erc20.Moved w.erc20 w'.erc20 token sender self amount ∧
      w'.registry = w.registry ∧ w'.self = w.self := by
  simp only [safeTransferFrom, bind_eq_ok, passThrough_eq_ok, pure_eq_ok,
    Erc20.transferFrom_eq_some] at h
  obtain ⟨s, ⟨-, -, -, hle, rfl⟩, rfl⟩ := h
  have hspend := Erc20.spendAllowance_balanceOf w.erc20 token sender self amount
  have hmoved : Erc20.Moved _ _ token sender self amount :=
    Erc20.moved_move (s := w.erc20.spendAllowance token sender self amount) (hspend.symm ▸ hle)
  exact ⟨hmoved.congr_left hspend.symm, rfl, rfl⟩

/-- **Approve and collect**: the fee is paid, and the allowance is used up. -/
theorem payFee_feePaid (h : (payFee self msg reg token fee w : Result ε World) = .ok w')
    (hmax : fee < maxUint256) :
    FeePaid w w' token self fee ∧ w'.erc20.allowance token self w.self = 0 := by
  simp only [payFee, bind_eq_ok, registryAt_eq_ok, called_eq_ok] at h
  obtain ⟨-, ⟨hreg, -⟩, h⟩ := h
  change reg = w.self at hreg
  subst hreg
  -- the allowance is exactly the fee, whatever stood there before
  let approved := w.setErc20 (w.erc20.approve token self w.self fee)
  have hallowance : approved.erc20.allowance token self w.self = fee :=
    Erc20.approve_allowance ..
  by_cases hzero : fee = 0
  · subst hzero
    rw [FeeRegistry.collectFee, if_pos rfl, pure_eq_ok] at h
    rw [← h]
    have hmoved : Erc20.Moved w.erc20 approved.erc20 token self w.self 0 :=
      (Erc20.Moved.refl approved.erc20 token self w.self).congr_left rfl
    exact ⟨⟨hmoved, by simp [World.setCollected, World.setErc20], rfl, Or.inl hallowance,
      fun _ => hallowance⟩, hallowance⟩
  · rw [FeeRegistry.collectFee, if_neg hzero] at h
    simp only [bind_eq_ok, pure_eq_ok, checkedAdd_eq_ok] at h
    obtain ⟨w₁, hpull, m, ⟨-, rfl⟩, rfl⟩ := h
    obtain ⟨hle, rfl⟩ := FeeRegistry.safeTransferFrom_eq_ok hpull
    have hmoved : Erc20.Moved _ _ token self w.self fee :=
      Erc20.moved_move (s := approved.erc20.spendAllowance token self w.self fee)
        ((Erc20.spendAllowance_balanceOf approved.erc20 ..).symm ▸ hle)
    -- an allowance below the maximum is spent
    have hspent : (approved.erc20.spendAllowance token self w.self fee).allowance token self
        w.self = 0 := by
      rw [Erc20.spendAllowance_allowance (by rw [hallowance]; exact hmax.ne), hallowance,
        Nat.sub_self]
    have hbalance : w.erc20.balanceOf =
        (approved.erc20.spendAllowance token self w.self fee).balanceOf :=
      (Erc20.spendAllowance_balanceOf approved.erc20 ..).symm
    exact ⟨⟨hmoved.congr_left hbalance, rfl, rfl, Or.inl hspent, fun _ => hspent⟩, hspent⟩

end Calls

/-! ## The split of an amount -/

/-- What the rate takes of an amount. -/
def feeAt (rate amount : Nat) : Nat := amount * rate / 10000

/-- The rate that applies to a vault: none without a registry. -/
def rateFor (rate : Registry → Nat) (feeRegistry : Address) (w : World) : Nat :=
  if feeRegistry = Address.zero then 0 else rate w.registry

theorem feeAt_zero (amount : Nat) : feeAt 0 amount = 0 := by simp [feeAt]

/-- A fee that was computed without overflow is less than an infinite allowance. -/
theorem feeAt_lt {rate amount : Nat} (h : amount * rate ≤ maxUint256) :
    feeAt rate amount < maxUint256 := by
  have hpos : 0 < maxUint256 := by decide
  unfold feeAt
  omega

theorem feeAt_le {rate amount : Nat} (h : rate ≤ maxFeeBps) : feeAt rate amount ≤ amount := by
  have hmul : amount * rate ≤ amount * 1000 := Nat.mul_le_mul_left amount h
  unfold feeAt
  omega

/-- `payer` gave up `amount`: the registry got and booked the fee, `payee` got the rest. -/
structure Split (w w' : World) (token payer payee : Address) (amount fee : Nat) : Prop where
  balance : ∀ a, w'.erc20.balanceOf token a + (if a = payer then amount else 0) =
    w.erc20.balanceOf token a + (if a = payee then amount - fee else 0) +
      (if a = w.self then fee else 0)
  others : ∀ t, t ≠ token → w'.erc20.balanceOf t = w.erc20.balanceOf t
  registry : w'.registry = (w.setCollected token (w.registry.collectedFees token + fee)).registry

/-- Where the three are different accounts, each has what the split says. -/
theorem Split.accounts {w w' : World} {token payer payee : Address} {amount fee : Nat}
    (h : Split w w' token payer payee amount fee) (hpayee : payee ≠ payer)
    (hpayer : payer ≠ w.self) (hself : payee ≠ w.self) :
    w'.erc20.balanceOf token payer + amount = w.erc20.balanceOf token payer ∧
      w'.erc20.balanceOf token payee = w.erc20.balanceOf token payee + (amount - fee) ∧
      w'.erc20.balanceOf token w.self = w.erc20.balanceOf token w.self + fee := by
  have hfrom := h.balance payer
  have hto := h.balance payee
  have hregistry := h.balance w.self
  simp only [if_true, hpayee, hpayee.symm, hpayer, hpayer.symm, hself, hself.symm, if_false] at *
  exact ⟨hfrom, hto, hregistry⟩

/-- Nothing of an approval for the registry is left behind: what the vault had allowed it before may
still stand, but not after a fee. -/
def NothingApproved (w w' : World) (token vault : Address) (fee : Nat) : Prop :=
  w'.erc20.allowance token vault w.self ≤ w.erc20.allowance token vault w.self ∧
    (0 < fee → w'.erc20.allowance token vault w.self = 0)

section Splits

variable {w w₁ w' : World} {token payer payee : Address} {amount fee : Nat}

/-- To pay a fee leaves no allowance. -/
theorem FeePaid.nothingApproved (h : FeePaid w w' token payer fee) :
    NothingApproved w w' token payer fee := by
  refine ⟨?_, h.spent⟩
  rcases h.allowance with hzero | hsame
  · rw [hzero]
    exact Nat.zero_le _
  · rw [hsame]

/-- The fee is paid out of what came in. -/
theorem Split.of_incoming {owner vault : Address}
    (hin : Erc20.Moved w.erc20 w₁.erc20 token owner vault amount) (hregistry : w₁.registry = w.registry)
    (hself : w₁.self = w.self) (hfee : FeePaid w₁ w' token vault fee) (hle : fee ≤ amount) :
    Split w w' token owner vault amount fee where
  balance a := by
    have h := hin.balance a
    have h' := hfee.moved.balance a
    rw [hself] at h'
    by_cases ha : a = vault
    · simp only [ha, if_true] at h h' ⊢
      omega
    · simp only [ha, if_false] at h h' ⊢
      omega
  others t ht := (hfee.moved.others t ht).trans (hin.others t ht)
  registry := by
    rw [hfee.registry]
    simp only [World.setCollected, hregistry]

/-- The fee is paid before the rest goes out. -/
theorem Split.of_feeFirst {vault recipient : Address} (hfee : FeePaid w w₁ token vault fee)
    (hout : Erc20.Moved w₁.erc20 w'.erc20 token vault recipient (amount - fee))
    (hregistry : w'.registry = w₁.registry) (hle : fee ≤ amount) :
    Split w w' token vault recipient amount fee where
  balance a := by
    rw [Nat.add_right_comm, ← hfee.moved.then_balance hout a, Nat.add_sub_cancel' hle]
  others t ht := (hout.others t ht).trans (hfee.moved.others t ht)
  registry := hregistry.trans hfee.registry

/-- The rest goes out before the fee is paid. -/
theorem Split.of_feeLast {vault recipient : Address}
    (hout : Erc20.Moved w.erc20 w₁.erc20 token vault recipient (amount - fee))
    (hregistry : w₁.registry = w.registry) (hself : w₁.self = w.self)
    (hfee : FeePaid w₁ w' token vault fee) (hle : fee ≤ amount) :
    Split w w' token vault recipient amount fee where
  balance a := by
    rw [← hself, ← hout.then_balance hfee.moved a, Nat.sub_add_cancel hle]
  others t ht := (hfee.moved.others t ht).trans (hout.others t ht)
  registry := by
    rw [hfee.registry]
    simp only [World.setCollected, hregistry]

end Splits

/-! ## What the operations do -/

section Operations

variable {v : VaultAccount} {msg : Msg} {token : Address} {amount : Nat} {w w' : World}

/-- The fee of the rate is paid. -/
theorem collectFeeAt_feePaid {rate : Registry → Nat} {r : World × Nat}
    (h : collectFeeAt rate v msg token amount w = .ok r) :
    r.2 = feeAt (rateFor rate v.feeRegistry w) amount ∧ FeePaid w r.1 token v.self r.2 := by
  rw [collectFeeAt] at h
  split at h
  · next hnone =>
    rw [pure_eq_ok] at h
    subst h
    rw [rateFor, if_pos hnone, feeAt_zero]
    exact ⟨rfl, FeePaid.none ..⟩
  · next hsome =>
    simp only [bind_eq_ok, registryAt_eq_ok] at h
    obtain ⟨_, ⟨hreg, rfl⟩, h⟩ := h
    rw [rateFor, if_neg hsome]
    split at h
    · next hzero =>
      rw [pure_eq_ok] at h
      subst h
      rw [hzero, feeAt_zero]
      exact ⟨rfl, FeePaid.none ..⟩
    · simp only [bind_eq_ok, feeOf_eq_ok, pure_eq_ok] at h
      obtain ⟨_, ⟨hmax, rfl⟩, w₁, hpay, rfl⟩ := h
      exact ⟨rfl, (payFee_feePaid hpay (feeAt_lt hmax)).1⟩

/-- **Deposit**: the owner gives up the amount, the vault keeps what the fee leaves. -/
theorem deposit_split (hrates : RatesBounded w) {r : World × FundsLog}
    (h : deposit v msg token amount w = .ok r) :
    r.2 = .deposited token amount ∧
      Split w r.1 token v.owner v.self amount
        (feeAt (rateFor Registry.depositFeeBps v.feeRegistry w) amount) := by
  simp only [deposit, bind_eq_ok, revertIf_eq_ok, not_not, pure_eq_ok] at h
  obtain ⟨-, howner, w₁, hin, c, hfee, rfl⟩ := h
  obtain ⟨hmoved, hregistry, hself⟩ := safeTransferFrom_moved hin
  obtain ⟨hc, hpaid⟩ := collectFeeAt_feePaid hfee
  have hrate : rateFor Registry.depositFeeBps v.feeRegistry w₁ =
      rateFor Registry.depositFeeBps v.feeRegistry w := by
    rw [rateFor, hregistry, rateFor]
  have hbound : rateFor Registry.depositFeeBps v.feeRegistry w ≤ maxFeeBps := by
    rw [rateFor]
    split
    · exact Nat.zero_le _
    · exact hrates.1
  rw [hc, hrate] at hpaid
  rw [howner] at hmoved
  exact ⟨rfl, Split.of_incoming hmoved hregistry hself hpaid (feeAt_le hbound)⟩

/-- **Withdraw**: the vault gives up the amount, the recipient gets what the fee leaves. -/
theorem withdraw_split {recipient : Address} {r : World × FundsLog}
    (h : withdraw v msg token amount recipient w = .ok r) :
    let fee := feeAt (rateFor Registry.withdrawFeeBps v.feeRegistry w) amount
    r.2 = .withdrawn token amount fee recipient ∧
      Split w r.1 token v.self recipient amount fee ∧ NothingApproved w r.1 token v.self fee := by
  intro fee
  simp only [withdraw, bind_eq_ok, revertIf_eq_ok, pure_eq_ok, checkedSub_eq_ok] at h
  obtain ⟨-, -, -, -, c, hfee, _, ⟨hle, rfl⟩, w₂, hout, rfl⟩ := h
  obtain ⟨hmoved, hallowance, hregistry, hself⟩ := safeTransfer_moved hout
  obtain ⟨hc, hpaid⟩ := collectFeeAt_feePaid hfee
  have hnothing := hpaid.nothingApproved
  rw [hc] at hpaid hmoved hle hnothing
  refine ⟨by rw [hc], Split.of_feeFirst hpaid hmoved hregistry hle, ?_⟩
  rw [NothingApproved, hallowance]
  exact hnothing

end Operations

namespace ERC20TransferAction

/-- The fee of a transfer is that of the rate. -/
theorem withdrawFee_eq {p : Params} {amount fee : Nat} {w : World}
    (h : withdrawFee p amount w = .ok fee) :
    fee = feeAt (rateFor Registry.withdrawFeeBps p.feeRegistry w) amount ∧ fee < maxUint256 := by
  have hpos : 0 < maxUint256 := by decide
  rw [withdrawFee] at h
  split at h
  · next hcond =>
    simp only [bind_eq_ok, registryAt_eq_ok] at h
    obtain ⟨_, ⟨-, rfl⟩, h⟩ := h
    rw [rateFor, if_neg hcond.1]
    split at h
    · obtain ⟨hmax, rfl⟩ := feeOf_eq_ok.1 h
      exact ⟨rfl, feeAt_lt hmax⟩
    · next hzero =>
      rw [pure_eq_ok] at h
      rw [Nat.eq_zero_of_not_pos hzero, feeAt_zero, ← h]
      exact ⟨rfl, hpos⟩
  · next hcond =>
    rw [pure_eq_ok] at h
    subst h
    refine ⟨?_, hpos⟩
    rw [not_and_or, not_not] at hcond
    -- without a registry, or for nothing, there is no fee
    rcases hcond with hnone | hzero
    · rw [rateFor, if_pos hnone, feeAt_zero]
    · rw [Nat.eq_zero_of_not_pos hzero, feeAt, Nat.zero_mul, Nat.zero_div]

/-- **The action** splits an amount as `withdraw` does. -/
theorem execute_split {self : Address} {msg : Msg} {p : Params} {ctx : List Bytes} {w : World}
    {r : World × List Nat × List Bytes} {amount : Nat} (hrates : RatesBounded w)
    (hamount : transferAmount p ctx (w.erc20.balanceOf p.token self) = .ok amount)
    (h : execute self msg p ctx w = .ok r) :
    let fee := feeAt (rateFor Registry.withdrawFeeBps p.feeRegistry w) amount
    Split w r.1 p.token self p.recipient amount fee ∧ NothingApproved w r.1 p.token self fee := by
  intro fee
  simp only [execute, bind_eq_ok, revertIf_eq_ok, pure_eq_ok] at h
  obtain ⟨-, -, -, -, a, ha, f, hf, w₁, hout, w₂, hpay, rfl⟩ := h
  obtain rfl : a = amount := Except.ok.inj (ha.symm.trans hamount)
  obtain ⟨rfl, hmax⟩ := withdrawFee_eq hf
  have hbound : rateFor Registry.withdrawFeeBps p.feeRegistry w ≤ maxFeeBps := by
    rw [rateFor]
    split
    · exact Nat.zero_le _
    · exact hrates.2
  have hle : fee ≤ a := feeAt_le hbound
  -- where the fee takes all, there is nothing to transfer
  have hsent : Erc20.Moved w.erc20 w₁.erc20 p.token self p.recipient (a - fee) ∧
      w₁.erc20.allowance = w.erc20.allowance ∧ w₁.registry = w.registry ∧ w₁.self = w.self := by
    split at hout
    · exact safeTransfer_moved hout
    · next hnot =>
      rw [pure_eq_ok] at hout
      subst hout
      rw [Nat.sub_eq_zero_of_le (Nat.le_of_not_lt hnot)]
      exact ⟨Erc20.Moved.refl .., rfl, rfl, rfl⟩
  obtain ⟨hmoved, hallowance, hregistry, hself⟩ := hsent
  have hpaid : FeePaid w₁ w₂ p.token self fee := by
    split at hpay
    · exact (payFee_feePaid hpay hmax).1
    · next hnot =>
      rw [pure_eq_ok] at hpay
      subst hpay
      have hzero : fee = 0 := Nat.eq_zero_of_not_pos hnot
      rw [hzero]
      exact FeePaid.none ..
  refine ⟨Split.of_feeLast hmoved hregistry hself hpaid hle, ?_⟩
  have hnothing := hpaid.nothingApproved
  rw [NothingApproved, hself, hallowance] at hnothing
  exact hnothing

end ERC20TransferAction

end StrategyBuilder.Contracts.VaultFees
