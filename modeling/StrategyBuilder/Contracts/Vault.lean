import StrategyBuilder.Contracts.Solidity
import StrategyBuilder.Lib.Abi
import StrategyBuilder.Lib.While

/-!
# The vault

`StrategyBuilderVault.sol`: the automations of one owner, the shared context, and the execution of an
automation. The state is the vault's storage with its logs. What the vault calls is a parameter of
the transaction (`Env`): conditions and actions may answer anything, and may answer differently each
time they are asked. An action changes the vault's storage only through the slot diff it returns.

The traversal of an automation is the loop of the source with its local variables (`Loop`). Gas is
not counted: a loop that did not end within `maxSteps + 1` rounds would run out of gas.

`deposit`, `withdraw`, `withdrawETH` and `depositFees` move tokens and touch neither automations nor
context; they are left out here. So is the reentrancy guard, which is open between transactions.
-/

set_option autoImplicit false

namespace StrategyBuilder.Contracts.Vault

open StrategyBuilder.Contracts
open StrategyBuilder.Lib
open StrategyBuilder.Lib.Abi

/-- A `bytes4`. -/
abbrev Selector := UInt32

/-- The step reference that ends an execution. -/
def DONE : Nat := maxUint32

/-- `MAX_STEPS`. -/
def maxSteps : Nat := 256

/-- `IStepTypes.StepType` -/
inductive StepType where
  | condition
  | action
deriving DecidableEq, Repr

/-- A step, with the steps that follow it. -/
structure Step where
  stepType : StepType
  target : Address
  selector : Selector
  nextOnTrue : Nat
  nextOnFalse : Nat
  data : Bytes
deriving DecidableEq, Repr

/-- A stored automation. -/
structure Automation where
  active : Bool
  ownerOnly : Bool
  steps : List Step
deriving DecidableEq, Repr

/-- The custom errors of the vault and of `Ownable`. -/
inductive VaultError where
  | noSteps
  | firstStepMustBeCondition
  | invalidStepReference (stepIndex : Nat)
  | zeroTargetAddress (stepIndex : Nat)
  | zeroSelector (stepIndex : Nat)
  | automationNotActive
  | automationDoesNotExist
  | callerNotOwner
  | triggerNotMet
  | conditionCallFailed (stepIndex : Nat) (reason : Bytes)
  | actionExecutionFailed (stepIndex : Nat) (reason : Bytes)
  | maxStepsExceeded
  | contextSlotOutOfBounds (slot : Nat)
  | contextDiffLengthMismatch
  | ownableUnauthorizedAccount (account : Address)
deriving DecidableEq, Repr

/-- The events of the vault. -/
inductive Log where
  | automationCreated (automationId stepCount : Nat)
  | automationExecuted (automationId : Nat) (executor : Address)
  | automationActiveChanged (automationId : Nat) (active : Bool)
  | automationStepsUpdated (automationId stepCount : Nat)
  | contextSlotSet (slot : Nat)
  | minFeeDepositUpdated (newMinFeeDeposit : Nat)
  | gasCompSettled (automationId : Nat) (executor token : Address) (gasCompTokens : Nat)
deriving DecidableEq, Repr

/-- The storage of the vault, and its logs so far. -/
structure State where
  owner : Address
  automations : Nat → Automation
  automationCount : Nat
  ctx : List Bytes
  feeRegistry : Address
  depositToken : Address
  minFeeDeposit : Nat
  logs : List Log

/-- The storage after the initializer ran through the proxy. -/
def initialized (initialOwner feeRegistry depositToken : Address) : State where
  owner := initialOwner
  automations := fun _ => ⟨false, false, []⟩
  automationCount := 0
  ctx := []
  feeRegistry := feeRegistry
  depositToken := depositToken
  minFeeDeposit := 0
  logs := []

/-- What a low-level call returns. -/
inductive CallResult where
  | success (ret : Bytes)
  | failure (reason : Bytes)
deriving DecidableEq, Repr

/-- The world around a transaction: the time of its block, the gas it uses, and the answers of
everything it calls. The first argument of `staticcall` and `delegatecall` counts the rounds of the
traversal before the call, so one contract may answer differently from call to call. -/
structure Env where
  timestamp : Nat
  timestamp_lt : timestamp < 2 ^ 256
  gasUsed : Nat
  staticcall : Nat → Address → Selector → Bytes → List Bytes → CallResult
  delegatecall : Nat → Address → Selector → Bytes → List Bytes → CallResult
  /-- `deductGasComp` of a registry for a token, an executor and the gas used; `none` reverts. -/
  deductGasComp : Address → Address → Address → Nat → Option Nat

namespace State

/-- The vault after an event. -/
def emit (v : State) (l : Log) : State := { v with logs := v.logs ++ [l] }

/-- The vault with this automation. -/
def setAutomation (v : State) (automationId : Nat) (a : Automation) : State :=
  { v with automations := Function.update v.automations automationId a }

/-- The vault with this context. -/
def setCtx (v : State) (ctx : List Bytes) : State := { v with ctx := ctx }

@[simp] theorem emit_ctx (v : State) (l : Log) : (v.emit l).ctx = v.ctx := rfl
@[simp] theorem emit_automations (v : State) (l : Log) :
    (v.emit l).automations = v.automations := rfl
@[simp] theorem setAutomation_ctx (v : State) (id : Nat) (a : Automation) :
    (v.setAutomation id a).ctx = v.ctx := rfl
@[simp] theorem setCtx_ctx (v : State) (ctx : List Bytes) : (v.setCtx ctx).ctx = ctx := rfl

end State

/-- The modifier `onlyOwner`. -/
def onlyOwner (sender : Address) (v : State) : Result VaultError Unit :=
  revertIf (sender ≠ v.owner) (.ownableUnauthorizedAccount sender)

/-! ## Step validation and storage -/

/-- One round of the loop in `_validateSteps`. -/
def validateStep (len i : Nat) (s : Step) : Result VaultError Unit := do
  revertIf (s.target = Address.zero) (.zeroTargetAddress i)
  revertIf (s.selector = 0) (.zeroSelector i)
  revertIf (s.nextOnTrue ≠ DONE ∧ len ≤ s.nextOnTrue) (.invalidStepReference i)
  match s.stepType with
  | .condition => revertIf (s.nextOnFalse ≠ DONE ∧ len ≤ s.nextOnFalse) (.invalidStepReference i)
  | .action => revertIf (s.nextOnFalse ≠ DONE) (.invalidStepReference i)

/-- The loop in `_validateSteps`, from the index `i` on and for `n` rounds. -/
def validateLoop (steps : List Step) (len : Nat) : Nat → Nat → Result VaultError Unit
  | _, 0 => .ok ()
  | i, n + 1 => do
      let s ← readAt steps i
      validateStep len i s
      validateLoop steps len (i + 1) n

/-- `_validateSteps`. The length is cut to a `uint32`. -/
def validateSteps (steps : List Step) (ownerOnly : Bool) : Result VaultError Unit := do
  revertIf (steps.length = 0) .noSteps
  let first ← readAt steps 0
  revertIf (ownerOnly = false ∧ first.stepType ≠ .condition) .firstStepMustBeCondition
  let len := steps.length % 2 ^ 32
  validateLoop steps len 0 len

/-- `_storeAutomation` -/
def storeAutomation (steps : List Step) (ownerOnly : Bool) (v : State) :
    Result VaultError (State × Nat) := do
  let automationId := v.automationCount
  if maxUint32 ≤ automationId then .error (.panic 0x11)
  else do
    let stored ← pushLoop steps 0 steps.length (v.automations automationId).steps
    let v := { v with automationCount := automationId + 1 }
    return ((v.setAutomation automationId ⟨true, ownerOnly, stored⟩).emit
      (.automationCreated automationId steps.length), automationId)

/-- `createAutomation`: a public automation starts with a condition. -/
def createAutomation (sender : Address) (steps : List Step) (v : State) :
    Result VaultError (State × Nat) := do
  onlyOwner sender v
  validateSteps steps false
  storeAutomation steps false v

/-- `createOwnerAutomation`: an automation that only the owner executes. -/
def createOwnerAutomation (sender : Address) (steps : List Step) (v : State) :
    Result VaultError (State × Nat) := do
  onlyOwner sender v
  validateSteps steps true
  storeAutomation steps true v

/-- The three loops of `updateAutomationSteps`: overwrite what both arrays have, push what is new,
pop what is left over. -/
def replaceSteps (old steps : List Step) : Result VaultError (List Step) := do
  let overwrite := min old.length steps.length
  let written ← writeLoop steps 0 overwrite old
  let pushed ← pushLoop steps overwrite (steps.length - overwrite) written
  popLoop (old.length - steps.length) pushed

/-- `updateAutomationSteps`: checked by the kind that the automation has. -/
def updateAutomationSteps (sender : Address) (automationId : Nat) (steps : List Step) (v : State) :
    Result VaultError State := do
  onlyOwner sender v
  revertIf (v.automationCount ≤ automationId) .automationDoesNotExist
  let automation := v.automations automationId
  validateSteps steps automation.ownerOnly
  let stored ← replaceSteps automation.steps steps
  return (v.setAutomation automationId { automation with steps := stored }).emit
    (.automationStepsUpdated automationId steps.length)

/-- `setAutomationActive` -/
def setAutomationActive (sender : Address) (automationId : Nat) (active : Bool) (v : State) :
    Result VaultError State := do
  onlyOwner sender v
  revertIf (v.automationCount ≤ automationId) .automationDoesNotExist
  return (v.setAutomation automationId { v.automations automationId with active := active }).emit
    (.automationActiveChanged automationId active)

/-! ## Shared context -/

/-- The three loops that `setContext` and `_saveCtx` run on the stored context: push empty slots,
pop what is left over, write every slot. -/
def replaceCtx (old ctx : List Bytes) : Result VaultError (List Bytes) := do
  let grown := growLoop [] (ctx.length - old.length) old
  let shrunk ← popLoop (old.length - ctx.length) grown
  writeLoop ctx 0 ctx.length shrunk

/-- `setContext`: the whole context is replaced. -/
def setContext (sender : Address) (ctx : List Bytes) (v : State) : Result VaultError State := do
  onlyOwner sender v
  let stored ← replaceCtx v.ctx ctx
  return v.setCtx stored

/-- `setContextSlot`: one slot that is there is written. -/
def setContextSlot (sender : Address) (slot : Nat) (value : Bytes) (v : State) :
    Result VaultError State := do
  onlyOwner sender v
  revertIf (v.ctx.length ≤ slot) (.contextSlotOutOfBounds slot)
  let stored ← writeAt v.ctx slot value
  return (v.setCtx stored).emit (.contextSlotSet slot)

/-- `_loadCtx` -/
def loadCtx (v : State) : Result VaultError (List Bytes) :=
  writeLoop v.ctx 0 v.ctx.length (List.replicate v.ctx.length [])

/-- `_saveCtx` -/
def saveCtx (ctx : List Bytes) (v : State) : Result VaultError State := do
  let stored ← replaceCtx v.ctx ctx
  return v.setCtx stored

/-- `setMinFeeDeposit` -/
def setMinFeeDeposit (sender : Address) (minAmount : Nat) (v : State) : Result VaultError State := do
  onlyOwner sender v
  return { v with minFeeDeposit := minAmount }.emit (.minFeeDepositUpdated minAmount)

/-! ## Conditions, actions and the trigger -/

/-- `_checkCondition` -/
def checkCondition (env : Env) (k : Nat) (step : Step) (stepIndex : Nat) (ctx : List Bytes) :
    Result VaultError Bool :=
  match env.staticcall k step.target step.selector step.data ctx with
  | .failure reason => .error (.error (.conditionCallFailed stepIndex reason))
  | .success result => do
      revertIf (result.length < 32) (.conditionCallFailed stepIndex result)
      decoded (decodeBool result)

/-- The loop of `_executeAction` over the diff. -/
def applyDiff : List Nat → List Bytes → List Bytes → Result VaultError (List Bytes)
  | slot :: slots, value :: values, ctx => do
      revertIf (ctx.length ≤ slot) (.contextSlotOutOfBounds slot)
      let ctx ← writeAt ctx slot value
      applyDiff slots values ctx
  | _, _, ctx => .ok ctx

/-- `_executeAction` -/
def executeAction (env : Env) (k : Nat) (step : Step) (stepIndex : Nat) (ctx : List Bytes) :
    Result VaultError (List Bytes) :=
  match env.delegatecall k step.target step.selector step.data ctx with
  | .failure reason => .error (.error (.actionExecutionFailed stepIndex reason))
  | .success returnData =>
      if 0 < returnData.length then do
        let (slots, values) ← decoded (decodeUint32sBytesList returnData)
        revertIf (slots.length ≠ values.length) .contextDiffLengthMismatch
        applyDiff slots values ctx
      else .ok ctx

/-- The loop of `_updateTriggerCondition` over the diff: slots out of bounds are skipped. -/
def applyKnownSlots : List Nat → List Bytes → List Bytes → List Bytes
  | slot :: slots, value :: values, ctx =>
      applyKnownSlots slots values (if slot < ctx.length then ctx.set slot value else ctx)
  | _, _, ctx => ctx

/-- `IUpdatableCondition.afterExecution.selector` -/
def afterExecutionSelector : Selector := 0xb2792168

/-- `_updateTriggerCondition`: whatever goes wrong, the context stays as it is. -/
def updateTriggerCondition (env : Env) (k : Nat) (step : Step) (ctx : List Bytes) : List Bytes :=
  match env.staticcall k step.target afterExecutionSelector step.data ctx with
  | .failure _ => ctx
  | .success ret =>
      if ret.length = 0 then ctx
      else match decodeUint32sBytesList ret with
        | none => ctx
        | some (slots, values) =>
            if slots.length ≠ values.length then ctx else applyKnownSlots slots values ctx

/-! ## Execution -/

/-- The local variables of `executeAutomation`. -/
structure Loop where
  ctx : List Bytes
  current : Nat
  stepCount : Nat
  triggerFired : Bool
  ctxDirty : Bool
deriving DecidableEq, Repr

/-- `while (current != DONE)` -/
def Loop.running (s : Loop) : Bool := s.current != DONE

/-- The body of the loop. -/
def Loop.round (env : Env) (sender owner : Address) (steps : List Step) (s : Loop) :
    Result VaultError Loop := do
  revertIf (maxSteps ≤ s.stepCount) .maxStepsExceeded
  let step ← readAt steps s.current
  match step.stepType with
  | .condition => do
      let met ← checkCondition env s.stepCount step s.current s.ctx
      -- a later visit to step 0 is an ordinary condition
      let trigger : Bool := s.current = 0 ∧ s.stepCount = 0
      revertIf (trigger = true ∧ met = false ∧ sender ≠ owner) .triggerNotMet
      return { s with
        triggerFired := if trigger then met else s.triggerFired
        current := if met then step.nextOnTrue else step.nextOnFalse
        stepCount := s.stepCount + 1 }
  | .action => do
      let ctx ← executeAction env s.stepCount step s.current s.ctx
      return { s with
        ctx := ctx
        ctxDirty := true
        current := step.nextOnTrue
        stepCount := s.stepCount + 1 }

/-- The local variables before the loop. Step 0 of an `ownerOnly` automation may be an action, which
counts as a trigger that fired. -/
def Loop.start (v : State) (automation : Automation) : Result VaultError Loop := do
  let ctx ← loadCtx v
  if automation.ownerOnly then do
    let first ← readAt automation.steps 0
    return ⟨ctx, 0, 0, first.stepType = .action, false⟩
  else return ⟨ctx, 0, 0, false, false⟩

/-- The loop of `executeAutomation`. -/
def traverse (env : Env) (sender owner : Address) (steps : List Step) (s : Loop) :
    Result VaultError Loop :=
  match whileLoop Loop.running (Loop.round env sender owner steps) (maxSteps + 1) s with
  | some r => r
  | none => .error .outOfGas

/-- `if (triggerFired) ctx = _updateTriggerCondition(...)` -/
def updateTrigger (env : Env) (steps : List Step) (s : Loop) : Result VaultError Loop :=
  if s.triggerFired then do
    let trigger ← readAt steps 0
    return { s with
      ctx := updateTriggerCondition env s.stepCount trigger s.ctx
      ctxDirty := true }
  else return s

/-- `_settleGasComp` -/
def settleGasComp (env : Env) (automationId : Nat) (executor : Address) (v : State) :
    Result VaultError State :=
  if v.feeRegistry = Address.zero ∨ v.depositToken = Address.zero then return v
  else do
    let gasCompTokens ← passThrough
      (env.deductGasComp v.feeRegistry v.depositToken executor env.gasUsed)
    if 0 < gasCompTokens then
      return v.emit (.gasCompSettled automationId executor v.depositToken gasCompTokens)
    else return v

/-- `if (ctxDirty) _saveCtx(ctx)` -/
def saveIfDirty (s : Loop) (v : State) : Result VaultError State :=
  if s.ctxDirty then saveCtx s.ctx v else return v

/-- `if (msg.sender != owner()) _settleGasComp(...)` -/
def settleExecutor (env : Env) (automationId : Nat) (sender : Address) (v : State) :
    Result VaultError State :=
  if sender ≠ v.owner then settleGasComp env automationId sender v else return v

/-- `executeAutomation`: the checks, the loop over the steps, and the update of the trigger. -/
def executeAutomation (env : Env) (sender : Address) (automationId : Nat) (v : State) :
    Result VaultError State := do
  revertIf (v.automationCount ≤ automationId) .automationDoesNotExist
  let automation := v.automations automationId
  revertIf (automation.active = false) .automationNotActive
  revertIf (automation.ownerOnly = true ∧ sender ≠ v.owner) .callerNotOwner
  let start ← Loop.start v automation
  let s ← traverse env sender v.owner automation.steps start
  let s ← updateTrigger env automation.steps s
  let v ← saveIfDirty s v
  let v ← settleExecutor env automationId sender v
  return v.emit (.automationExecuted automationId sender)

/-! ## Views -/

/-- `getAutomation` -/
def getAutomation (automationId : Nat) (v : State) : Result VaultError Automation := do
  revertIf (v.automationCount ≤ automationId) .automationDoesNotExist
  return v.automations automationId

/-- `getContext` -/
def getContext (v : State) : List Bytes := v.ctx

/-- `isTriggerMet`. A check that fails, or returns less than a word, counts as a trigger that is not
met. -/
def isTriggerMet (env : Env) (automationId : Nat) (v : State) : Result VaultError Bool :=
  if v.automationCount ≤ automationId then return false
  else
    let automation := v.automations automationId
    if automation.active = false ∨ automation.steps.length = 0 then return false
    else do
      let trigger ← readAt automation.steps 0
      if automation.ownerOnly = true ∧ trigger.stepType = .action then return true
      else do
        let ctx ← loadCtx v
        match env.staticcall 0 trigger.target trigger.selector trigger.data ctx with
        | .failure _ => return false
        | .success result =>
            -- the decoder reverts on a word that is neither 0 nor 1
            if result.length < 32 then return false else decoded (decodeBool result)

/-! ## The system -/

/-- The operations of the vault on automations and context. -/
inductive Op where
  | createAutomation (steps : List Step)
  | createOwnerAutomation (steps : List Step)
  | updateAutomationSteps (automationId : Nat) (steps : List Step)
  | setAutomationActive (automationId : Nat) (active : Bool)
  | setContext (ctx : List Bytes)
  | setContextSlot (slot : Nat) (value : Bytes)
  | setMinFeeDeposit (minAmount : Nat)
  | executeAutomation (automationId : Nat)
deriving DecidableEq, Repr

/-- One transaction. -/
structure Tx where
  sender : Address
  env : Env
  op : Op

/-- A transaction, which may revert. -/
def call (v : State) (tx : Tx) : Result VaultError State :=
  match tx.op with
  | .createAutomation steps => do
      let r ← createAutomation tx.sender steps v
      return r.1
  | .createOwnerAutomation steps => do
      let r ← createOwnerAutomation tx.sender steps v
      return r.1
  | .updateAutomationSteps automationId steps =>
      updateAutomationSteps tx.sender automationId steps v
  | .setAutomationActive automationId active => setAutomationActive tx.sender automationId active v
  | .setContext ctx => setContext tx.sender ctx v
  | .setContextSlot slot value => setContextSlot tx.sender slot value v
  | .setMinFeeDeposit minAmount => setMinFeeDeposit tx.sender minAmount v
  | .executeAutomation automationId => executeAutomation tx.env tx.sender automationId v

/-- A reverted transaction leaves the state as it was. -/
def step (v : State) (tx : Tx) : State :=
  match call v tx with
  | .ok v' => v'
  | .error _ => v

end StrategyBuilder.Contracts.Vault
