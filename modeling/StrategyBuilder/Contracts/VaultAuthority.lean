import StrategyBuilder.Contracts.TriggerCheck

/-!
# Who decides what a vault does

The configuration of a vault is what an execution is bound to: the owner, the automations with their
steps, and the wiring of the fees. `Config` is a machine of its own, in which only the owner's managing
calls do anything and a call replaces what it changes at once.

Whoever sends whatever to a vault, and whatever the conditions and actions answer, its configuration is
the one that the owner's decisions give on their own (`config_run`): executions, calls of others and
writes of the context do not show in it. All that others can do is to execute an active public automation
whose trigger is met (`stranger_step`); so the steps they run are the owner's.
-/

set_option autoImplicit false

namespace StrategyBuilder.Contracts.Vault

open StrategyBuilder.Contracts
open StrategyBuilder.Lib
open StrategyBuilder.Lib.Abi
open StrategyBuilder.Lib.Transition

/-! ## The configuration -/

/-- What the owner decides. -/
structure Config where
  owner : Address
  automations : Nat → Automation
  automationCount : Nat
  feeRegistry : Address
  depositToken : Address
  minFeeDeposit : Nat

/-- The configuration in a state of the vault. -/
def State.config (v : State) : Config where
  owner := v.owner
  automations := v.automations
  automationCount := v.automationCount
  feeRegistry := v.feeRegistry
  depositToken := v.depositToken
  minFeeDeposit := v.minFeeDeposit

/-- The calls that write the configuration. -/
def Op.manages : Op → Bool
  | .createAutomation _ => true
  | .createOwnerAutomation _ => true
  | .updateAutomationSteps _ _ => true
  | .setAutomationActive _ _ => true
  | .setMinFeeDeposit _ => true
  | .setContext _ => false
  | .setContextSlot _ _ => false
  | .executeAutomation _ => false

/-- A managing call of the owner. -/
def Tx.manages (owner : Address) (tx : Tx) : Bool := decide (tx.sender = owner) && tx.op.manages

namespace Config

/-- The configuration with this automation. -/
def set (c : Config) (id : Nat) (a : Automation) : Config :=
  { c with automations := Function.update c.automations id a }

/-- What a creation of the owner adds; steps that are refused add nothing. -/
def create (steps : List Step) (ownerOnly : Bool) (c : Config) : Config :=
  match validateSteps steps ownerOnly with
  | .error _ => c
  | .ok _ =>
      if maxUint32 ≤ c.automationCount then c
      else { c with automationCount := c.automationCount + 1 }.set c.automationCount
        ⟨true, ownerOnly, (c.automations c.automationCount).steps ++ steps⟩

/-- Replace an automation that exists. -/
def replace (id : Nat) (f : Automation → Option Automation) (c : Config) : Config :=
  if c.automationCount ≤ id then c
  else match f (c.automations id) with
    | some a => c.set id a
    | none => c

/-- What a managing call of the owner does to the configuration. A call that is refused leaves it. -/
def manage (c : Config) : Op → Config
  | .createAutomation steps => c.create steps false
  | .createOwnerAutomation steps => c.create steps true
  | .updateAutomationSteps id steps => c.replace id fun a =>
      match validateSteps steps a.ownerOnly with
      | .ok _ => some { a with steps := steps }
      | .error _ => none
  | .setAutomationActive id active => c.replace id fun a => some { a with active := active }
  | .setMinFeeDeposit minAmount => { c with minFeeDeposit := minAmount }
  | .setContext _ => c
  | .setContextSlot _ _ => c
  | .executeAutomation _ => c

end Config

@[simp] theorem setCtx_config (v : State) (ctx : List Bytes) : (v.setCtx ctx).config = v.config := rfl

@[simp] theorem emit_config (v : State) (l : Log) : (v.emit l).config = v.config := rfl

theorem setAutomation_config (v : State) (id : Nat) (a : Automation) :
    (v.setAutomation id a).config = v.config.set id a := rfl

/-! ## What a transaction does to it -/

/-- To settle the compensation leaves the configuration. -/
theorem settleGasComp_config {env : Env} {id : Nat} {sender : Address} {v v' : State}
    (h : settleGasComp env id sender v = .ok v') : v'.config = v.config := by
  rw [settleGasComp] at h
  split at h
  · rw [pure_eq_ok] at h
    rw [← h]
  · obtain ⟨n, -, h⟩ := bind_eq_ok.1 h
    split at h
    · rw [pure_eq_ok] at h
      rw [← h, emit_config]
    · rw [pure_eq_ok] at h
      rw [← h]

/-- To save the context leaves the configuration. -/
theorem saveIfDirty_config {s : Loop} {v v' : State} (h : saveIfDirty s v = .ok v') :
    v'.config = v.config := by
  rw [saveIfDirty] at h
  split at h
  · rw [saveCtx_eq, Except.ok.injEq] at h
    rw [← h, setCtx_config]
  · rw [pure_eq_ok] at h
    rw [← h]

/-- An execution leaves the configuration alone, whatever its conditions and actions answer. -/
theorem executeAutomation_config {env : Env} {sender : Address} {id : Nat} {v v' : State}
    (h : executeAutomation env sender id v = .ok v') : v'.config = v.config := by
  simp only [executeAutomation, bind_eq_ok] at h
  obtain ⟨-, -, -, -, -, -, start, -, t, -, t', -, w, hsave, w', hgas, hend⟩ := h
  rw [pure_eq_ok] at hend
  have hsettled : w'.config = w.config := by
    rw [settleExecutor] at hgas
    split at hgas
    · exact settleGasComp_config hgas
    · rw [pure_eq_ok] at hgas
      rw [← hgas]
  rw [← hend, emit_config, hsettled, saveIfDirty_config hsave]

/-- The storage after a call that may have failed. -/
def settled (r : Result VaultError State) (v : State) : State :=
  match r with
  | .ok v' => v'
  | .error _ => v

theorem step_settled (v : State) (tx : Tx) : step v tx = settled (call v tx) v := by
  unfold step settled
  cases call v tx <;> rfl

/-- The body that `createAutomation` and `createOwnerAutomation` share. -/
theorem create_config (steps : List Step) (ownerOnly : Bool) (v : State) :
    (settled (do
      let r ← (do
        validateSteps steps ownerOnly
        storeAutomation steps ownerOnly v)
      return r.1) v).config = v.config.create steps ownerOnly := by
  rw [Config.create]
  cases hvalid : validateSteps steps ownerOnly with
  | error e => rfl
  | ok u =>
    by_cases hfull : maxUint32 ≤ v.automationCount
    · have hstore : storeAutomation steps ownerOnly v = .error (.panic 0x11) := by
        rw [storeAutomation, if_pos hfull]
      rw [hstore]
      exact (if_pos hfull).symm
    · cases hstore : storeAutomation steps ownerOnly v with
      | error e =>
        rw [storeAutomation, if_neg hfull, pushLoop_eq (by omega)] at hstore
        cases hstore
      | ok r =>
        change r.1.config = _
        rw [storeAutomation_ok hstore, emit_config, setAutomation_config]
        exact (if_neg hfull).symm

/-- The body of `updateAutomationSteps`. -/
theorem updateAutomationSteps_config (id : Nat) (steps : List Step) (v : State) :
    (settled (do
      revertIf (v.automationCount ≤ id) .automationDoesNotExist
      validateSteps steps (v.automations id).ownerOnly
      let stored ← replaceSteps (v.automations id).steps steps
      return (v.setAutomation id { v.automations id with steps := stored }).emit
        (.automationStepsUpdated id steps.length)) v).config =
      v.config.manage (.updateAutomationSteps id steps) := by
  rw [Config.manage, Config.replace]
  by_cases hid : v.automationCount ≤ id
  · rw [revertIf, if_pos hid]
    exact (if_pos hid).symm
  · rw [revertIf_of_not hid, replaceSteps_eq]
    refine Eq.trans ?_ (if_neg hid).symm
    have hconfig : v.config.automations id = v.automations id := rfl
    rw [hconfig]
    cases validateSteps steps (v.automations id).ownerOnly with
    | error e => rfl
    | ok u => rfl

/-- The owner's switch is one of the configuration. -/
theorem setAutomationActive_config (id : Nat) (active : Bool) (v : State) :
    (settled (do
      revertIf (v.automationCount ≤ id) .automationDoesNotExist
      return (v.setAutomation id { v.automations id with active := active }).emit
        (.automationActiveChanged id active)) v).config =
      v.config.manage (.setAutomationActive id active) := by
  rw [Config.manage, Config.replace]
  by_cases hid : v.automationCount ≤ id
  · rw [revertIf, if_pos hid]
    exact (if_pos hid).symm
  · rw [revertIf_of_not hid]
    exact (if_neg hid).symm

/-- A managing call of the owner acts on the configuration as the machine says. -/
theorem step_manage {v : State} {tx : Tx} (h : tx.manages v.owner = true) :
    (step v tx).config = v.config.manage tx.op := by
  simp only [Tx.manages, Bool.and_eq_true, decide_eq_true_eq] at h
  obtain ⟨hsender, hmanages⟩ := h
  have howner : (onlyOwner tx.sender v : Result VaultError Unit) = .ok () :=
    revertIf_of_not (not_not.2 hsender)
  rw [step_settled, call]
  cases hop : tx.op with
  | createAutomation steps =>
    simp only [createAutomation, howner]
    exact create_config steps false v
  | createOwnerAutomation steps =>
    simp only [createOwnerAutomation, howner]
    exact create_config steps true v
  | updateAutomationSteps id steps =>
    simp only [updateAutomationSteps, howner]
    exact updateAutomationSteps_config id steps v
  | setAutomationActive id active =>
    simp only [setAutomationActive, howner]
    exact setAutomationActive_config id active v
  | setMinFeeDeposit minAmount =>
    simp only [setMinFeeDeposit, howner]
    rfl
  | setContext ctx => simp [hop, Op.manages] at hmanages
  | setContextSlot slot value => simp [hop, Op.manages] at hmanages
  | executeAutomation id => simp [hop, Op.manages] at hmanages

/-- Everything but an execution is for the owner. -/
theorem call_owner {v v' : State} {tx : Tx} (h : call v tx = .ok v')
    (hop : ∀ id, tx.op ≠ .executeAutomation id) : tx.sender = v.owner := by
  have hguard : ∀ u, onlyOwner tx.sender v = .ok u → tx.sender = v.owner := by
    intro u hu
    exact not_not.1 (revertIf_eq_ok.1 hu)
  rw [call] at h
  -- `onlyOwner` is the first statement of each of them
  cases hcase : tx.op with
  | createAutomation steps =>
    simp only [hcase, createAutomation, bind_eq_ok] at h
    obtain ⟨r, ⟨u, hu, -⟩, -⟩ := h
    exact hguard u hu
  | createOwnerAutomation steps =>
    simp only [hcase, createOwnerAutomation, bind_eq_ok] at h
    obtain ⟨r, ⟨u, hu, -⟩, -⟩ := h
    exact hguard u hu
  | updateAutomationSteps id steps =>
    simp only [hcase, updateAutomationSteps, bind_eq_ok] at h
    obtain ⟨u, hu, -⟩ := h
    exact hguard u hu
  | setAutomationActive id active =>
    simp only [hcase, setAutomationActive, bind_eq_ok] at h
    obtain ⟨u, hu, -⟩ := h
    exact hguard u hu
  | setContext ctx =>
    simp only [hcase, setContext, bind_eq_ok] at h
    obtain ⟨u, hu, -⟩ := h
    exact hguard u hu
  | setContextSlot slot value =>
    simp only [hcase, setContextSlot, bind_eq_ok] at h
    obtain ⟨u, hu, -⟩ := h
    exact hguard u hu
  | setMinFeeDeposit minAmount =>
    simp only [hcase, setMinFeeDeposit, bind_eq_ok] at h
    obtain ⟨u, hu, -⟩ := h
    exact hguard u hu
  | executeAutomation id => exact absurd hcase (hop id)

/-- Any other transaction leaves it alone. -/
theorem step_other {v : State} {tx : Tx} (h : tx.manages v.owner = false) :
    (step v tx).config = v.config := by
  cases hcall : call v tx with
  | error e => simp only [step, hcall]
  | ok v' =>
    simp only [step, hcall]
    by_cases hexec : ∃ id, tx.op = .executeAutomation id
    · obtain ⟨id, hop⟩ := hexec
      rw [call, hop] at hcall
      exact executeAutomation_config hcall
    · have hsender := call_owner hcall fun id hop => hexec ⟨id, hop⟩
      have hmanages : tx.op.manages = false := by
        simpa [Tx.manages, hsender] using h
      -- what is left writes the context
      cases hop : tx.op with
      | setContext ctx =>
        simp only [call, hop, setContext, bind_eq_ok, pure_eq_ok] at hcall
        obtain ⟨-, -, stored, -, rfl⟩ := hcall
        exact setCtx_config v stored
      | setContextSlot slot value =>
        simp only [call, hop, setContextSlot, bind_eq_ok, pure_eq_ok] at hcall
        obtain ⟨-, -, -, -, stored, -, rfl⟩ := hcall
        rw [emit_config, setCtx_config]
      | executeAutomation id => exact absurd ⟨id, hop⟩ hexec
      | createAutomation steps => simp [hop, Op.manages] at hmanages
      | createOwnerAutomation steps => simp [hop, Op.manages] at hmanages
      | updateAutomationSteps id steps => simp [hop, Op.manages] at hmanages
      | setAutomationActive id active => simp [hop, Op.manages] at hmanages
      | setMinFeeDeposit minAmount => simp [hop, Op.manages] at hmanages

/-- A managing call neither passes the vault on nor rewires it. -/
theorem manage_fixed (c : Config) (op : Op) :
    (c.manage op).owner = c.owner ∧ (c.manage op).feeRegistry = c.feeRegistry ∧
      (c.manage op).depositToken = c.depositToken := by
  -- both ways to change an automation change nothing else
  have hreplace : ∀ id f, (c.replace id f).owner = c.owner ∧
      (c.replace id f).feeRegistry = c.feeRegistry ∧
      (c.replace id f).depositToken = c.depositToken := by
    intro id f
    rw [Config.replace]
    split
    · exact ⟨rfl, rfl, rfl⟩
    · cases f (c.automations id) <;> exact ⟨rfl, rfl, rfl⟩
  have hcreate : ∀ steps ownerOnly, (c.create steps ownerOnly).owner = c.owner ∧
      (c.create steps ownerOnly).feeRegistry = c.feeRegistry ∧
      (c.create steps ownerOnly).depositToken = c.depositToken := by
    intro steps ownerOnly
    rw [Config.create]
    cases validateSteps steps ownerOnly with
    | error e => exact ⟨rfl, rfl, rfl⟩
    | ok u =>
      dsimp only
      split <;> exact ⟨rfl, rfl, rfl⟩
  cases op with
  | createAutomation steps => exact hcreate steps false
  | createOwnerAutomation steps => exact hcreate steps true
  | updateAutomationSteps id steps => exact hreplace id _
  | setAutomationActive id active => exact hreplace id _
  | setMinFeeDeposit minAmount => exact ⟨rfl, rfl, rfl⟩
  | setContext ctx => exact ⟨rfl, rfl, rfl⟩
  | setContextSlot slot value => exact ⟨rfl, rfl, rfl⟩
  | executeAutomation id => exact ⟨rfl, rfl, rfl⟩

/-! ## Decisions -/

/-- What the owner of a vault can decide. -/
inductive Decision where
  | manage (op : Op)
  | transferOwnership (newOwner : Address)
  | renounceOwnership

/-- The decision in a transaction, which is none if it is not the owner's or decides nothing. Neither the
storage nor the answers of what is called have a part in it. -/
def decision (owner : Address) : OwnedTx → Option Decision
  | .vault tx => if tx.manages owner then some (.manage tx.op) else none
  | .transferOwnership sender newOwner =>
      if sender = owner ∧ newOwner ≠ Address.zero then some (.transferOwnership newOwner) else none
  | .renounceOwnership sender => if sender = owner then some .renounceOwnership else none

/-- The owner after a decision. -/
def Decision.owner (owner : Address) : Decision → Address
  | .manage _ => owner
  | .transferOwnership newOwner => newOwner
  | .renounceOwnership => Address.zero

/-- The decisions in a run of transactions. -/
def decisions : Address → List OwnedTx → List Decision
  | _, [] => []
  | owner, tx :: txs =>
      match decision owner tx with
      | some d => d :: decisions (d.owner owner) txs
      | none => decisions owner txs

/-- The configuration after a decision. -/
def Config.decide (c : Config) : Decision → Config
  | .manage op => c.manage op
  | .transferOwnership newOwner => { c with owner := newOwner }
  | .renounceOwnership => { c with owner := Address.zero }

/-- The configuration after a transaction with this decision, or with none. -/
def Config.after (c : Config) : Option Decision → Config
  | some d => c.decide d
  | none => c

/-- No decision rewires a vault. -/
theorem after_wiring (c : Config) (d : Option Decision) :
    (c.after d).feeRegistry = c.feeRegistry ∧ (c.after d).depositToken = c.depositToken := by
  cases d with
  | none => exact ⟨rfl, rfl⟩
  | some d =>
    cases d with
    | manage op => exact (manage_fixed c op).2
    | transferOwnership newOwner => exact ⟨rfl, rfl⟩
    | renounceOwnership => exact ⟨rfl, rfl⟩

theorem decide_owner (c : Config) (d : Decision) : (c.decide d).owner = d.owner c.owner := by
  cases d with
  | manage op => exact (manage_fixed c op).1
  | transferOwnership newOwner => rfl
  | renounceOwnership => rfl

/-- A transaction does to the configuration what the decision in it says. -/
theorem ownedStep_config (v : State) (tx : OwnedTx) :
    (ownedStep v tx).config = v.config.after (decision v.owner tx) := by
  cases tx with
  | vault tx =>
    rw [decision, ownedStep]
    cases h : tx.manages v.owner with
    | true => exact step_manage h
    | false => exact step_other h
  | transferOwnership sender newOwner =>
    rw [decision, ownedStep]
    split <;> rfl
  | renounceOwnership sender =>
    rw [decision, ownedStep]
    split <;> rfl

/-- **Only the owner configures a vault.** After any run of transactions, by anybody and with any
answers of what is called, the configuration is the one that the owner's decisions give on their own.
Actions write the storage of the vault only through the diff that they return, as `IAction` asks of
them. -/
theorem config_run (v : State) (txs : List OwnedTx) :
    (run ownedStep v txs).config = run Config.decide v.config (decisions v.owner txs) := by
  induction txs generalizing v with
  | nil => rfl
  | cons tx txs ih =>
    have hstep := ownedStep_config v tx
    rw [run_cons, ih, decisions]
    have howner : (ownedStep v tx).owner = (ownedStep v tx).config.owner := rfl
    cases hd : decision v.owner tx with
    | none =>
      rw [hd] at hstep
      rw [howner, hstep]
      rfl
    | some d =>
      rw [hd] at hstep
      have hafter : (v.config.after (some d)).owner = d.owner v.owner := decide_owner v.config d
      rw [howner, hstep, hafter]
      rfl

/-! ## What others can do -/

/-- The transaction executes an active public automation whose trigger is met. -/
structure Triggered (v : State) (tx : Tx) (id : Nat) (trigger : Step) : Prop where
  op : tx.op = .executeAutomation id
  exists_id : id < v.automationCount
  active : (v.automations id).active = true
  isPublic : (v.automations id).ownerOnly = false
  first : (v.automations id).steps[0]? = some trigger
  condition : trigger.stepType = .condition
  met : checkCondition tx.env 0 trigger 0 v.ctx = .ok true

/-- **Others only trigger.** In every reachable state, a transaction of anybody but the owner leaves the
vault exactly as it is, or executes an active public automation whose trigger is met. Of the actions the
same is taken as in `config_run`. -/
theorem stranger_step {v : State} (hv : Reachable ownedStep Initial (fun _ _ => True) v) {tx : Tx}
    (hsender : tx.sender ≠ v.owner) :
    step v tx = v ∨ ∃ id trigger, Triggered v tx id trigger := by
  cases hcall : call v tx with
  | error e =>
    left
    simp only [step, hcall]
  | ok v' =>
    right
    by_cases hop : ∃ id, tx.op = .executeAutomation id
    · obtain ⟨id, hop⟩ := hop
      have hexec : executeAutomation tx.env tx.sender id v = .ok v' := by rwa [call, hop] at hcall
      obtain ⟨s, hrun, -, -⟩ := executeAutomation_ok hexec
      have hpublic : (v.automations id).ownerOnly = false := by
        cases hown : (v.automations id).ownerOnly with
        | false => rfl
        | true => exact absurd (hrun.owner hown) hsender
      obtain ⟨trigger, hfirst, hcond⟩ := (reachable_firstsValid hv).first id hrun.exists_id
      have hrefused := @reachTrigger_refused tx.env _ _ _ _ hrun.exists_id hrun.active hrun.owner
        hfirst (hcond hpublic) hsender
      -- whatever else the check answers, the execution reverts
      have hno : ∀ r, reachTrigger tx.env tx.sender id v ≠ .error r := by
        intro r hr
        rw [executeAutomation_of_reachTrigger hr] at hexec
        cases hexec
      have hmet : checkCondition tx.env 0 trigger 0 v.ctx = .ok true := by
        cases hcheck : checkCondition tx.env 0 trigger 0 v.ctx with
        | error r => exact absurd (hrefused.2 r hcheck) (hno r)
        | ok met =>
          cases met with
          | true => rfl
          | false => exact absurd (hrefused.1 hcheck) (hno _)
      exact ⟨id, trigger, hop, hrun.exists_id, hrun.active, hpublic, hfirst, hcond hpublic, hmet⟩
    · exact absurd (call_owner hcall fun id h => hop ⟨id, h⟩) hsender

theorem stranger_step_sample :
    ∃ id trigger, Triggered sampleVault ⟨⟨2⟩, sampleEnv (encodeBool true), .executeAutomation 0⟩
      id trigger := by
  have hstart : Reachable ownedStep Initial (fun _ _ => True)
      (initialized ⟨1⟩ Address.zero Address.zero) := .start ⟨_, _, _, rfl⟩
  have hv : Reachable ownedStep Initial (fun _ _ => True) sampleVault :=
    Reachable.next (ℓ := OwnedTx) (l := .vault sampleCreate) hstart trivial
  rcases @stranger_step _ hv ⟨⟨2⟩, sampleEnv (encodeBool true), .executeAutomation 0⟩ (by decide)
    with hsame | htriggered
  · -- the execution leaves its log
    have hlogs : (step sampleVault ⟨⟨2⟩, sampleEnv (encodeBool true),
        .executeAutomation 0⟩).logs.length = 2 := by decide
    rw [hsame] at hlogs
    exact absurd hlogs (by decide)
  · exact htriggered

end StrategyBuilder.Contracts.Vault
