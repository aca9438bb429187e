import StrategyBuilder.Contracts.Solidity
import StrategyBuilder.Lib.Abi

/-!
# The Aave actions

`ActionLib.sol` and the four actions on an Aave V3 position: `AaveV3SupplyAction.sol`,
`AaveV3WithdrawAction.sol`, `AaveV3BorrowAction.sol` and `AaveV3RepayAction.sol`. An action resolves an
amount from its mode, makes at most one call of the pool, and returns the diff of its output slot.

What the actions read of the pool, its oracle and the tokens is a parameter (`Aave`), and so is what
the pool returns. The parameters of a step come decoded; approvals are left out. Base values are in
`WAD`, the pool reports them with 8 decimals.
-/

set_option autoImplicit false

namespace StrategyBuilder.Contracts.AaveActions

open StrategyBuilder.Contracts
open StrategyBuilder.Lib.Abi

/-! ## ActionLib -/

/-- `NO_SLOT` -/
def noSlot : Nat := maxUint32

/-- `WAD` -/
def WAD : Nat := 10 ^ 18

/-- `BPS` -/
def BPS : Nat := 10 ^ 4

/-- 8-decimal base to `WAD`. -/
def BASE_TO_WAD : Nat := 10 ^ 10

/-- `MIN_TARGET_HF`, 1.05. -/
def minTargetHF : Nat := 105 * 10 ^ 16

/-- `HAIRCUT_BPS`, half a percent. -/
def haircutBps : Nat := 50

/-- How an action finds its amount. -/
inductive AmountMode where
  | FIXED
  | FROM_SLOT
  | MAX_AVAILABLE
  | TARGET_HF
deriving DecidableEq, Repr

/-- The custom errors of the library and of the actions. -/
inductive ActionError where
  | slotOutOfBounds (slot : Nat)
  | invalidTargetHealthFactor (target : Nat)
  | zeroAsset
  | zeroAmount
deriving DecidableEq, Repr

/-- `ActionLib.AmountMode(mode)`: another number is a panic. -/
def toAmountMode : Nat → Result ActionError AmountMode
  | 0 => .ok .FIXED
  | 1 => .ok .FROM_SLOT
  | 2 => .ok .MAX_AVAILABLE
  | 3 => .ok .TARGET_HF
  | _ => .error (.panic 0x21)

/-- `readUint256Slot`: the slot is checked against the length as a `uint32`. -/
def readUint256Slot (ctx : List Bytes) (slot : Nat) : Result ActionError Nat := do
  revertIf (ctx.length % 2 ^ 32 ≤ slot) (.slotOutOfBounds slot)
  let raw ← readAt ctx slot
  decoded (decodeUint256 raw)

/-- `normalizeBase`: from 8 decimals to 18. -/
def normalizeBase (v8 : Nat) : Result ActionError Nat := checkedMul v8 BASE_TO_WAD

/-- Base value to token units, floored. -/
def baseToToken (base18 price assetDecimals : Nat) : Result ActionError Nat :=
  if price = 0 then return 0
  else do
    let scale ← checkedPow 10 assetDecimals
    let scaled ← checkedMul base18 scale
    return scaled / price

/-- `applyHaircut`: the margin that is kept back. -/
def applyHaircut (base18 : Nat) : Result ActionError Nat := do
  let x ← checkedMul base18 (BPS - haircutBps)
  return x / BPS

/-- `targetDebtBase`: the debt with which the health factor is the target; 0 has none. -/
def targetDebtBase (collateral18 ltBps targetHF : Nat) : Result ActionError Nat :=
  if targetHF = 0 then return 0
  else do
    let weighted ← checkedMul collateral18 ltBps
    let scaled ← checkedMul weighted WAD
    let divisor ← checkedMul BPS targetHF
    return scaled / divisor

/-- `targetCollateralBase`: the collateral that the target asks for. -/
def targetCollateralBase (debt18 ltBps targetHF : Nat) : Result ActionError Nat :=
  if ltBps = 0 then return 0
  else do
    let needed ← checkedMul targetHF debt18
    let scaled ← checkedMul needed BPS
    let divisor ← checkedMul ltBps WAD
    return scaled / divisor

/-- `maxSafeWithdrawBase`: all without debt, otherwise what is above the floor, less the margin. -/
def maxSafeWithdrawBase (collateral18 debt18 ltBps : Nat) : Result ActionError Nat :=
  if debt18 = 0 then return maxUint256
  else if ltBps = 0 then return 0
  else do
    let scaled ← checkedMul debt18 BPS
    let collateralFloor := scaled / ltBps
    if collateral18 ≤ collateralFloor then return 0
    else applyHaircut (collateral18 - collateralFloor)

/-- `requireValidTargetHF`: a target has to be above the least one. -/
def requireValidTargetHF (targetHF : Nat) : Result ActionError Unit :=
  revertIf (targetHF ≤ minTargetHF) (.invalidTargetHealthFactor targetHF)

/-- The diff of an output slot. -/
def singleSlotDiff (slot value : Nat) : List Nat × List Bytes :=
  if slot = noSlot then ([], []) else ([slot], [encodeWord value])

/-! ## What the actions read -/

/-- `getUserAccountData` of the vault, as far as the actions use it; base values have 8 decimals. -/
structure AccountData where
  collateral : Nat
  debt : Nat
  availableBorrows : Nat
  liquidationThreshold : Nat
deriving DecidableEq, Repr

/-- What the pool, its oracle and the tokens answer. A token that the pool does not list is `none`. -/
structure Aave where
  account : AccountData
  assetPrice : Address → Nat
  decimals : Address → Nat
  balanceOf : Address → Nat
  aTokenBalance : Address → Option Nat
  variableDebtBalance : Address → Option Nat

/-- The calls of the pool that change a position. -/
inductive PoolCall where
  | supply (asset : Address) (amount : Nat)
  | withdraw (asset : Address) (amount : Nat)
  | borrow (asset : Address) (amount : Nat)
  | repay (asset : Address) (amount : Nat)
deriving DecidableEq, Repr

/-- The decoded parameters, which the actions share. -/
structure Params where
  asset : Address
  mode : Nat
  amount : Nat
  amountFromSlot : Nat
  targetHealthFactor : Nat
  amountToSlot : Nat
deriving DecidableEq, Repr

/-- The two modes that all actions share. -/
def explicitAmount (amount : Nat) : Result ActionError Nat := do
  revertIf (amount = 0) .zeroAmount
  return amount

/-- `_resolveAmount`, over what an action does in its own two modes. -/
def resolveAmount (maxAvailable targetHf : Result ActionError Nat) (p : Params) (ctx : List Bytes) :
    Result ActionError Nat := do
  let mode ← toAmountMode p.mode
  match mode with
  | .FIXED => explicitAmount p.amount
  | .FROM_SLOT => do
      let a ← readUint256Slot ctx p.amountFromSlot
      explicitAmount a
  | .MAX_AVAILABLE => maxAvailable
  | .TARGET_HF => targetHf

namespace Aave

variable (aave : Aave)

/-- `_price` -/
def price (asset : Address) : Result ActionError Nat := normalizeBase (aave.assetPrice asset)

/-- `ActionLib.baseToToken` at the price and the decimals of the asset. -/
def tokens (base18 : Nat) (asset : Address) : Result ActionError Nat := do
  let price ← aave.price asset
  baseToToken base18 price (aave.decimals asset)

/-! ## Withdraw -/

/-- `_capByAToken` -/
def capByAToken (asset : Address) (tokens : Nat) : Nat :=
  let bal := (aave.aTokenBalance asset).getD 0
  if tokens < bal then tokens else bal

/-- `_maxWithdraw` -/
def maxWithdraw (asset : Address) : Result ActionError Nat :=
  let a := aave.account
  if a.debt = 0 then return maxUint256
  else do
    let collateral18 ← normalizeBase a.collateral
    let debt18 ← normalizeBase a.debt
    let safeBase ← maxSafeWithdrawBase collateral18 debt18 a.liquidationThreshold
    if safeBase = 0 then return 0
    else do
      let tokens ← aave.tokens safeBase asset
      return aave.capByAToken asset tokens

/-- `_targetHfWithdraw` -/
def targetHfWithdraw (asset : Address) (targetHF : Nat) : Result ActionError Nat := do
  requireValidTargetHF targetHF
  let a := aave.account
  -- without a debt there is no health factor to aim at
  if a.debt = 0 then return 0
  else do
    let collateral18 ← normalizeBase a.collateral
    let debt18 ← normalizeBase a.debt
    let targetColl ← targetCollateralBase debt18 a.liquidationThreshold targetHF
    if collateral18 ≤ targetColl then return 0
    else do
      let tokens ← aave.tokens (collateral18 - targetColl) asset
      return aave.capByAToken asset tokens

/-! ## Borrow -/

/-- `_maxBorrow` -/
def maxBorrow (asset : Address) : Result ActionError Nat :=
  let avail := aave.account.availableBorrows
  if avail = 0 then return 0
  else do
    let avail18 ← normalizeBase avail
    let base ← applyHaircut avail18
    aave.tokens base asset

/-- `_targetHfBorrow` -/
def targetHfBorrow (asset : Address) (targetHF : Nat) : Result ActionError Nat := do
  requireValidTargetHF targetHF
  let a := aave.account
  let collateral18 ← normalizeBase a.collateral
  let targetDebt ← targetDebtBase collateral18 a.liquidationThreshold targetHF
  let curDebt ← normalizeBase a.debt
  if targetDebt ≤ curDebt then return 0
  else aave.tokens (targetDebt - curDebt) asset

/-! ## Repay and supply -/

/-- The best-effort cap at the vault's balance. -/
def capByBalance (asset : Address) (tokens : Nat) : Nat :=
  let balance := aave.balanceOf asset
  if tokens < balance then tokens else balance

/-- `_targetHfRepay` -/
def targetHfRepay (asset : Address) (targetHF : Nat) : Result ActionError Nat := do
  requireValidTargetHF targetHF
  let a := aave.account
  if a.debt = 0 then return 0
  else do
    let collateral18 ← normalizeBase a.collateral
    let targetDebt ← targetDebtBase collateral18 a.liquidationThreshold targetHF
    let curDebt ← normalizeBase a.debt
    if curDebt ≤ targetDebt then return 0
    else do
      let tokens ← aave.tokens (curDebt - targetDebt) asset
      return aave.capByBalance asset tokens

/-- `_targetHfAmount` of the supply action. -/
def targetHfAmount (asset : Address) (targetHF : Nat) : Result ActionError Nat := do
  requireValidTargetHF targetHF
  let a := aave.account
  if a.debt = 0 then return 0
  else do
    let collateral18 ← normalizeBase a.collateral
    let debt18 ← normalizeBase a.debt
    let targetCollateral ← targetCollateralBase debt18 a.liquidationThreshold targetHF
    if targetCollateral ≤ collateral18 then return 0
    else do
      let tokens ← aave.tokens (targetCollateral - collateral18) asset
      return aave.capByBalance asset tokens

/-- What `_repayMax` asks the pool to repay; the whole debt is `type(uint256).max`. -/
def repayMax (asset : Address) : Nat :=
  let debt := (aave.variableDebtBalance asset).getD 0
  let balance := aave.balanceOf asset
  if debt = 0 ∨ balance = 0 then 0
  else if debt ≤ balance then maxUint256
  else balance

end Aave

/-! ## The actions -/

/-- The end of every `execute`: one call of the pool where there is an amount, and the diff of the
output slot. The pool's `none` is a revert. -/
def callPool (pool : PoolCall → Option Nat) (call : Nat → PoolCall) (amount slot : Nat) :
    Result ActionError (List PoolCall × List Nat × List Bytes) :=
  if 0 < amount then do
    let actual ← passThrough (pool (call amount))
    return ([call amount], singleSlotDiff slot actual)
  else return ([], singleSlotDiff slot 0)

section Execute

variable (aave : Aave) (pool : PoolCall → Option Nat) (p : Params) (ctx : List Bytes)

/-- `AaveV3WithdrawAction.execute` -/
def withdraw : Result ActionError (List PoolCall × List Nat × List Bytes) := do
  revertIf (p.asset = Address.zero) .zeroAsset
  let requested ← resolveAmount (aave.maxWithdraw p.asset)
    (aave.targetHfWithdraw p.asset p.targetHealthFactor) p ctx
  callPool pool (.withdraw p.asset) requested p.amountToSlot

/-- `AaveV3BorrowAction.execute`. The pool returns nothing; the output is the amount. -/
def borrow : Result ActionError (List PoolCall × List Nat × List Bytes) := do
  revertIf (p.asset = Address.zero) .zeroAsset
  let amount ← resolveAmount (aave.maxBorrow p.asset)
    (aave.targetHfBorrow p.asset p.targetHealthFactor) p ctx
  callPool (fun call => (pool call).map fun _ => amount) (.borrow p.asset) amount p.amountToSlot

/-- `AaveV3RepayAction.execute` -/
def repay : Result ActionError (List PoolCall × List Nat × List Bytes) := do
  revertIf (p.asset = Address.zero) .zeroAsset
  let amount ← resolveAmount (return aave.repayMax p.asset)
    (aave.targetHfRepay p.asset p.targetHealthFactor) p ctx
  callPool pool (.repay p.asset) amount p.amountToSlot

/-- `AaveV3SupplyAction.execute`. The pool returns nothing; the output is the amount. -/
def supply : Result ActionError (List PoolCall × List Nat × List Bytes) := do
  revertIf (p.asset = Address.zero) .zeroAsset
  let amount ← resolveAmount (return aave.balanceOf p.asset)
    (aave.targetHfAmount p.asset p.targetHealthFactor) p ctx
  callPool (fun call => (pool call).map fun _ => amount) (.supply p.asset) amount p.amountToSlot

end Execute

/-! ## What an action moves -/

/-- The amount of a call of the pool. -/
def PoolCall.amount : PoolCall → Nat
  | .supply _ n | .withdraw _ n | .borrow _ n | .repay _ n => n

/-- What the calls of an action move. -/
def moved (calls : List PoolCall) : Nat := (calls.map PoolCall.amount).sum

/-- The pool is called for the resolved amount. -/
theorem callPool_ok {pool : PoolCall → Option Nat} {call : Nat → PoolCall} {amount slot : Nat}
    {out : List PoolCall × List Nat × List Bytes} (hcall : ∀ n, (call n).amount = n)
    (h : callPool pool call amount slot = .ok out) : moved out.1 = amount := by
  rw [callPool] at h
  by_cases hpos : 0 < amount
  · rw [if_pos hpos] at h
    obtain ⟨actual, -, h⟩ := bind_eq_ok.1 h
    cases h
    exact hcall amount
  · rw [if_neg hpos] at h
    cases h
    exact (Nat.eq_zero_of_not_pos hpos).symm

section Resolved

variable {aave : Aave} {pool : PoolCall → Option Nat} {p : Params} {ctx : List Bytes}
  {out : List PoolCall × List Nat × List Bytes}

theorem resolveAmount_max {maxAvailable targetHf : Result ActionError Nat} (h : p.mode = 2) :
    resolveAmount maxAvailable targetHf p ctx = maxAvailable := by
  rw [resolveAmount, h]
  rfl

theorem resolveAmount_target {maxAvailable targetHf : Result ActionError Nat} (h : p.mode = 3) :
    resolveAmount maxAvailable targetHf p ctx = targetHf := by
  rw [resolveAmount, h]
  rfl

/-- An action moves the amount that it resolves. -/
theorem execute_ok {maxAvailable targetHf : Result ActionError Nat} {call : Nat → PoolCall}
    (pools : Nat → PoolCall → Option Nat) (hcall : ∀ n, (call n).amount = n)
    (h : (do
      revertIf (p.asset = Address.zero) ActionError.zeroAsset
      let n ← resolveAmount maxAvailable targetHf p ctx
      callPool (pools n) call n p.amountToSlot) = .ok out) :
    resolveAmount maxAvailable targetHf p ctx = .ok (moved out.1) := by
  obtain ⟨-, -, h⟩ := bind_eq_ok.1 h
  obtain ⟨n, hn, h⟩ := bind_eq_ok.1 h
  rw [callPool_ok hcall h, hn]

theorem withdraw_max (hmode : p.mode = 2) (h : withdraw aave pool p ctx = .ok out) :
    aave.maxWithdraw p.asset = .ok (moved out.1) := by
  have hresolved := execute_ok (fun _ => pool) (fun _ => rfl) h
  rwa [resolveAmount_max hmode] at hresolved

theorem withdraw_target (hmode : p.mode = 3) (h : withdraw aave pool p ctx = .ok out) :
    aave.targetHfWithdraw p.asset p.targetHealthFactor = .ok (moved out.1) := by
  have hresolved := execute_ok (fun _ => pool) (fun _ => rfl) h
  rwa [resolveAmount_target hmode] at hresolved

theorem borrow_target (hmode : p.mode = 3) (h : borrow aave pool p ctx = .ok out) :
    aave.targetHfBorrow p.asset p.targetHealthFactor = .ok (moved out.1) := by
  have hresolved := execute_ok (fun n call => (pool call).map fun _ => n) (fun _ => rfl) h
  rwa [resolveAmount_target hmode] at hresolved

theorem repay_target (hmode : p.mode = 3) (h : repay aave pool p ctx = .ok out) :
    aave.targetHfRepay p.asset p.targetHealthFactor = .ok (moved out.1) := by
  have hresolved := execute_ok (fun _ => pool) (fun _ => rfl) h
  rwa [resolveAmount_target hmode] at hresolved

theorem supply_target (hmode : p.mode = 3) (h : supply aave pool p ctx = .ok out) :
    aave.targetHfAmount p.asset p.targetHealthFactor = .ok (moved out.1) := by
  have hresolved := execute_ok (fun n call => (pool call).map fun _ => n) (fun _ => rfl) h
  rwa [resolveAmount_target hmode] at hresolved

end Resolved

end StrategyBuilder.Contracts.AaveActions
