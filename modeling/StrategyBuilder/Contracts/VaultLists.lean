import StrategyBuilder.Contracts.VaultSteps

/-!
# The vault as lists

What the vault's storage is for: a list of automations and a list of byte strings, in which every
call replaces a whole list. `ListVault` is that machine. It shares the guards of the contract and has
none of its array loops.

`lists` reads the machine off the storage. Every edit of the owner commutes with it, in what it
returns as in how it reverts (`call_lists`), and so does every run of edits (`vault_refines_lists`).
-/

set_option autoImplicit false

namespace StrategyBuilder.Contracts.Vault

open StrategyBuilder.Contracts
open StrategyBuilder.Lib
open StrategyBuilder.Lib.Abi
open StrategyBuilder.Lib.Transition

/-- The owner's calls that write automations and context. -/
inductive Edit where
  | createAutomation (steps : List Step)
  | createOwnerAutomation (steps : List Step)
  | updateAutomationSteps (automationId : Nat) (steps : List Step)
  | setAutomationActive (automationId : Nat) (active : Bool)
  | setContext (ctx : List Bytes)
  | setContextSlot (slot : Nat) (value : Bytes)
deriving DecidableEq, Repr

/-- The call of the vault that an edit is. -/
def Edit.op : Edit → Op
  | .createAutomation steps => .createAutomation steps
  | .createOwnerAutomation steps => .createOwnerAutomation steps
  | .updateAutomationSteps automationId steps => .updateAutomationSteps automationId steps
  | .setAutomationActive automationId active => .setAutomationActive automationId active
  | .setContext ctx => .setContext ctx
  | .setContextSlot slot value => .setContextSlot slot value

/-- A transaction with one edit, from any account. -/
structure EditTx where
  sender : Address
  env : Env
  edit : Edit

/-- The transaction that an edit is. -/
def EditTx.tx (e : EditTx) : Tx := ⟨e.sender, e.env, e.edit.op⟩

/-- The storage after one edit. -/
def editStep (v : State) (e : EditTx) : State := step v e.tx

/-! ## The list machine -/

/-- Automations and context as lists, and who may edit them. -/
structure ListVault where
  owner : Address
  automations : List Automation
  context : List Bytes
deriving DecidableEq, Repr

namespace ListVault

/-- The machine of a new vault. -/
def empty (owner : Address) : ListVault := ⟨owner, [], []⟩

/-- A new automation goes to the end, active. -/
def create (steps : List Step) (ownerOnly : Bool) (m : ListVault) : Result VaultError ListVault := do
  validateSteps steps ownerOnly
  if maxUint32 ≤ m.automations.length then .error (.panic 0x11)
  else return { m with automations := m.automations ++ [⟨true, ownerOnly, steps⟩] }

/-- Replace the automation `id` by `f` of it. -/
def modify (id : Nat) (f : Automation → Result VaultError Automation) (m : ListVault) :
    Result VaultError ListVault :=
  match m.automations[id]? with
  | none => .error (.error .automationDoesNotExist)
  | some a => do
      let a' ← f a
      return { m with automations := m.automations.set id a' }

/-- What an edit of the owner does. -/
def edit (m : ListVault) : Edit → Result VaultError ListVault
  | .createAutomation steps => m.create steps false
  | .createOwnerAutomation steps => m.create steps true
  | .updateAutomationSteps id steps => m.modify id fun a => do
      validateSteps steps a.ownerOnly
      return { a with steps := steps }
  | .setAutomationActive id active => m.modify id fun a => .ok { a with active := active }
  | .setContext ctx => .ok { m with context := ctx }
  | .setContextSlot slot value => do
      revertIf (m.context.length ≤ slot) (.contextSlotOutOfBounds slot)
      return { m with context := m.context.set slot value }

/-- An edit, which may be refused. -/
def call (m : ListVault) (e : EditTx) : Result VaultError ListVault := do
  revertIf (e.sender ≠ m.owner) (.ownableUnauthorizedAccount e.sender)
  m.edit e.edit

/-- The machine after an edit; one that is refused changes nothing. -/
def step (m : ListVault) (e : EditTx) : ListVault :=
  match m.call e with
  | .ok m' => m'
  | .error _ => m

/-- The automation with this number. -/
def getAutomation (id : Nat) (m : ListVault) : Result VaultError Automation :=
  match m.automations[id]? with
  | none => .error (.error .automationDoesNotExist)
  | some a => .ok a

end ListVault

section

variable {m m' : ListVault} {sender : Address} {env : Env}

theorem ListVault.call_ok {e : EditTx} (h : m.call e = .ok m') : m.edit e.edit = .ok m' := by
  obtain ⟨-, -, h⟩ := bind_eq_ok.1 h
  exact h

/-- New steps replace the steps of their automation and nothing else. -/
theorem ListVault.edit_updateAutomationSteps {id : Nat} {steps : List Step}
    (h : m.edit (.updateAutomationSteps id steps) = .ok m') :
    (∃ a, m.getAutomation id = .ok a ∧ m'.getAutomation id = .ok { a with steps := steps }) ∧
      (∀ id', id' ≠ id → m'.getAutomation id' = m.getAutomation id') ∧ m'.context = m.context := by
  rw [ListVault.edit, ListVault.modify] at h
  cases hid : m.automations[id]? with
  | none =>
    rw [hid] at h
    cases h
  | some a =>
    simp only [hid, bind_eq_ok, pure_eq_ok] at h
    obtain ⟨_, ⟨-, -, rfl⟩, rfl⟩ := h
    have hlt : id < m.automations.length := (List.getElem?_eq_some_iff.1 hid).1
    refine ⟨⟨a, ?_, ?_⟩, fun id' hne => ?_, rfl⟩
    · simp only [ListVault.getAutomation, hid]
    · simp only [ListVault.getAutomation, List.getElem?_set_self hlt]
    · simp only [ListVault.getAutomation, List.getElem?_set_ne hne.symm]

end

/-! ## The abstraction -/

/-- The lists that the storage holds. -/
def lists (v : State) : ListVault where
  owner := v.owner
  automations := (List.range v.automationCount).map v.automations
  context := v.ctx

/-- No steps are stored under an id that is not given out. -/
def Unused (v : State) : Prop := ∀ id, v.automationCount ≤ id → (v.automations id).steps = []

section Lists

variable {v : State} {id : Nat}

@[simp] theorem lists_owner : (lists v).owner = v.owner := rfl
@[simp] theorem lists_context : (lists v).context = v.ctx := rfl
@[simp] theorem lists_emit (l : Log) : lists (v.emit l) = lists v := rfl
@[simp] theorem lists_setCtx (ctx : List Bytes) :
    lists (v.setCtx ctx) = { lists v with context := ctx } := rfl

theorem lists_automations_length : (lists v).automations.length = v.automationCount := by
  simp [lists]

theorem lists_getElem? (hid : id < v.automationCount) :
    (lists v).automations[id]? = some (v.automations id) := by
  simp [lists, List.getElem?_range hid]

theorem lists_getElem?_none (hid : v.automationCount ≤ id) : (lists v).automations[id]? = none := by
  simp [lists, hid]

/-- Writing one automation writes one entry. -/
theorem lists_setAutomation (a : Automation) :
    lists (v.setAutomation id a) =
      { lists v with automations := (lists v).automations.set id a } := by
  simp only [lists, State.setAutomation, ListVault.mk.injEq, true_and, and_true]
  refine List.ext_getElem (by simp) fun i hi hi' => ?_
  rcases eq_or_ne i id with rfl | hne
  · simp
  · simp [Function.update_of_ne hne, List.getElem_set_ne hne.symm]

/-- The automation under the next id is one more entry. -/
theorem lists_create (a : Automation) :
    lists ({ v with automationCount := v.automationCount + 1 }.setAutomation v.automationCount a) =
      { lists v with automations := (lists v).automations ++ [a] } := by
  have hbelow : ∀ i ∈ List.range v.automationCount,
      Function.update v.automations v.automationCount a i = v.automations i := by
    intro i hi
    exact Function.update_of_ne (Nat.ne_of_lt (List.mem_range.1 hi)) a v.automations
  simp only [lists, State.setAutomation, List.range_succ, List.map_append,
    List.map_congr_left hbelow, List.map_singleton, Function.update_self]

/-- The vault and the lists have the same automations. -/
theorem getAutomation_eq (v : State) (id : Nat) :
    getAutomation id v = (lists v).getAutomation id := by
  rw [getAutomation, ListVault.getAutomation]
  by_cases hid : id < v.automationCount
  · rw [lists_getElem? hid, revertIf_of_not (Nat.not_le_of_lt hid)]
    rfl
  · have hle : v.automationCount ≤ id := Nat.le_of_not_lt hid
    rw [lists_getElem?_none hle, revertIf, if_pos hle]
    rfl

end Lists

/-! ## Every edit commutes with the abstraction -/

section Edits

variable {v : State} {sender : Address}

/-- What follows a guard may be compared where the guard lets the call through. -/
theorem map_revertIf {α β : Type} {c : Prop} [Decidable c] {e : VaultError}
    {x : Unit → Result VaultError α} {y : Unit → Result VaultError β} {f : α → β}
    (h : ¬ c → (x ()).map f = y ()) : (revertIf c e >>= x).map f = revertIf c e >>= y := by
  by_cases hc : c
  · rw [revertIf, if_pos hc]
    rfl
  · rw [revertIf_of_not hc]
    exact h hc

/-- What follows the validation may be compared after it. -/
theorem map_bind {α β γ : Type} {r : Result VaultError γ} {x : γ → Result VaultError α}
    {y : γ → Result VaultError β} {f : α → β} (h : ∀ c, (x c).map f = y c) :
    (r >>= x).map f = r >>= y := by
  cases r with
  | error e => rfl
  | ok c => exact h c

/-- To store an automation is to append one. -/
theorem storeAutomation_lists (hv : Unused v) (steps : List Step) (ownerOnly : Bool) :
    (storeAutomation steps ownerOnly v).map (fun r => lists r.1) =
      if maxUint32 ≤ (lists v).automations.length then .error (.panic 0x11)
      else .ok { lists v with automations := (lists v).automations ++ [⟨true, ownerOnly, steps⟩] } := by
  have hpush : (pushLoop steps 0 steps.length (v.automations v.automationCount).steps :
      Result VaultError (List Step)) = .ok steps := by
    rw [pushLoop_eq (by omega), hv _ (Nat.le_refl _)]
    simp
  rw [storeAutomation, lists_automations_length]
  by_cases hmax : maxUint32 ≤ v.automationCount
  · simp only [if_pos hmax]
    rfl
  · simp only [if_neg hmax, hpush]
    change Except.ok (lists (State.emit _ _)) = _
    rw [lists_emit, lists_create]

/-- The id that a creation returns says nothing about the storage. -/
theorem map_fst {r : Result VaultError (State × Nat)} :
    (r >>= fun r => pure r.1 : Result VaultError State).map lists = r.map fun r => lists r.1 := by
  cases r with
  | error e => rfl
  | ok r => rfl

theorem create_lists (hv : Unused v) (steps : List Step) (ownerOnly : Bool) :
    (validateSteps steps ownerOnly >>= fun _ => storeAutomation steps ownerOnly v).map
      (fun r => lists r.1) = (lists v).create steps ownerOnly :=
  map_bind fun _ => storeAutomation_lists hv steps ownerOnly

/-- A call that checks the id and writes its automation modifies one entry. -/
theorem modify_lists {id : Nat} {f : Automation → Result VaultError Automation} {l : Log} :
    (revertIf (v.automationCount ≤ id) .automationDoesNotExist >>= fun _ =>
        f (v.automations id) >>= fun a => pure ((v.setAutomation id a).emit l)).map lists =
      (lists v).modify id f := by
  rw [ListVault.modify]
  by_cases hid : id < v.automationCount
  · rw [lists_getElem? hid, revertIf_of_not (Nat.not_le_of_lt hid)]
    change (f (v.automations id) >>= fun a => _).map lists = f (v.automations id) >>= fun a => _
    refine map_bind fun a => ?_
    change Except.ok (lists (State.emit _ _)) = _
    rw [lists_emit, lists_setAutomation]
    rfl
  · have hle : v.automationCount ≤ id := Nat.le_of_not_lt hid
    rw [lists_getElem?_none hle, revertIf, if_pos hle]
    rfl

/-- An update of the steps is one of the lists. -/
theorem updateAutomationSteps_lists (id : Nat) (steps : List Step) :
    (updateAutomationSteps sender id steps v).map lists =
      revertIf (sender ≠ v.owner) (.ownableUnauthorizedAccount sender) >>= fun _ =>
        (lists v).edit (.updateAutomationSteps id steps) := by
  refine map_revertIf fun _ => ?_
  rw [ListVault.edit, ← modify_lists (l := .automationStepsUpdated id steps.length)]
  simp only [replaceSteps_eq, bind_assoc]
  rfl

/-- The switch is one of the lists. -/
theorem setAutomationActive_lists (id : Nat) (active : Bool) :
    (setAutomationActive sender id active v).map lists =
      revertIf (sender ≠ v.owner) (.ownableUnauthorizedAccount sender) >>= fun _ =>
        (lists v).edit (.setAutomationActive id active) := by
  refine map_revertIf fun _ => ?_
  rw [ListVault.edit, ← modify_lists (l := .automationActiveChanged id active)]
  rfl

/-- A new context is one of the lists. -/
theorem setContext_lists (ctx : List Bytes) :
    (setContext sender ctx v).map lists =
      revertIf (sender ≠ v.owner) (.ownableUnauthorizedAccount sender) >>= fun _ =>
        (lists v).edit (.setContext ctx) := by
  refine map_revertIf fun _ => ?_
  rw [replaceCtx_eq]
  rfl

/-- A slot that is written is one of the lists. -/
theorem setContextSlot_lists (slot : Nat) (value : Bytes) :
    (setContextSlot sender slot value v).map lists =
      revertIf (sender ≠ v.owner) (.ownableUnauthorizedAccount sender) >>= fun _ =>
        (lists v).edit (.setContextSlot slot value) := by
  refine map_revertIf fun _ => map_revertIf fun hslot => ?_
  rw [writeAt, if_pos (Nat.lt_of_not_le hslot)]
  rfl

/-- **The step of the refinement**: an edit of the storage is that edit of the lists, and reverts
where that one does, with the same revert. -/
theorem call_lists (hv : Unused v) (e : EditTx) :
    (call v e.tx).map lists = (lists v).call e := by
  obtain ⟨sender, env, edit⟩ := e
  cases edit with
  | createAutomation steps =>
    refine map_fst.trans ?_
    exact map_revertIf fun _ => create_lists hv steps false
  | createOwnerAutomation steps =>
    refine map_fst.trans ?_
    exact map_revertIf fun _ => create_lists hv steps true
  | updateAutomationSteps id steps => exact updateAutomationSteps_lists id steps
  | setAutomationActive id active => exact setAutomationActive_lists id active
  | setContext ctx => exact setContext_lists ctx
  | setContextSlot slot value => exact setContextSlot_lists slot value

/-- A step of the vault is one of the lists. -/
theorem editStep_lists (hv : Unused v) (e : EditTx) :
    lists (editStep v e) = (lists v).step e := by
  have hcall := call_lists hv e
  rw [editStep, Vault.step, ListVault.step, ← hcall]
  cases call v e.tx with
  | error r => rfl
  | ok v' => rfl

/-- No transaction stores steps under an id that is not given out. -/
theorem step_unused (hv : Unused v) (tx : Tx) : Unused (step v tx) := by
  have hsame {v' : State} (h : SameConfig v v') : Unused v' := by
    intro id hid
    rw [h.automationCount] at hid
    rw [h.automations]
    exact hv id hid
  rcases step_effect v tx with h | h
  · rw [h]
    exact hv
  generalize step v tx = v' at h
  cases h with
  | created hop hvalid =>
    intro id hid
    -- the id that is given out is no longer one of them
    have hlt : v.automationCount + 1 ≤ id := hid
    have hne : id ≠ v.automationCount := by omega
    simp only [State.emit_automations, State.setAutomation, Function.update_of_ne hne]
    exact hv id (by omega)
  | @stepsUpdated updated steps hop hlt hvalid =>
    intro id hid
    have hne : id ≠ updated := Nat.ne_of_gt (Nat.lt_of_lt_of_le hlt hid)
    simp only [State.emit_automations, State.setAutomation, Function.update_of_ne hne]
    exact hv id hid
  | @activeChanged changed active hop hlt =>
    intro id hid
    have hne : id ≠ changed := Nat.ne_of_gt (Nat.lt_of_lt_of_le hlt hid)
    simp only [State.emit_automations, State.setAutomation, Function.update_of_ne hne]
    exact hv id hid
  | contextSet _ h _ => exact hsame h
  | contextSlotSet _ _ h _ => exact hsame h
  | minFeeDeposit _ h _ => exact hsame h
  | executed _ _ h _ => exact hsame h

end Edits

/-! ## Runs -/

/-- The storage after edits, one transaction each, from a vault that was just initialized. -/
def edited (owner feeRegistry depositToken : Address) (es : List EditTx) : State :=
  run editStep (initialized owner feeRegistry depositToken) es

theorem edited_lists (owner feeRegistry depositToken : Address) (es : List EditTx) :
    lists (edited owner feeRegistry depositToken es) = run ListVault.step (.empty owner) es :=
  run_refines (fun _ e hv _ => step_unused hv e.tx) (fun _ e hv _ => editStep_lists hv e)
    (fun _ _ => rfl) (admitted_true editStep _ es)

theorem edited_unused (owner feeRegistry depositToken : Address) (es : List EditTx) :
    Unused (edited owner feeRegistry depositToken es) := by
  have hstart : Unused (initialized owner feeRegistry depositToken) := fun _ _ => rfl
  have hstep (v : State) (e : EditTx) (hv : Unused v) (_ : True) : Unused (editStep v e) :=
    step_unused hv e.tx
  exact run_invariant hstep hstart (admitted_true _ _ _)

/-- What an edit that succeeds leaves in storage is what the list machine makes of the lists. -/
theorem edit_lists {v v' : State} (hv : Unused v) {e : EditTx} (h : call v e.tx = .ok v') :
    (lists v).edit e.edit = .ok (lists v') := by
  have hcall := call_lists hv e
  rw [h] at hcall
  exact ListVault.call_ok hcall.symm

/-- **The vault refines its list model.** After any edits by anyone, reverting ones included, the
views return what the list machine returns. The next edit reverts where the machine's does, and then
changes nothing; steps and context are replaced as a whole, whatever their lengths, and nothing else
is. -/
theorem vault_refines_lists (owner feeRegistry depositToken : Address) (es : List EditTx) :
    let v := edited owner feeRegistry depositToken es
    let m := run ListVault.step (.empty owner) es
    (∀ id, getAutomation id v = m.getAutomation id) ∧ getContext v = m.context ∧
      (∀ e : EditTx, (call v e.tx).map lists = m.call e) ∧
      (∀ (e : EditTx) r, call v e.tx = .error r → editStep v e = v) ∧
      (∀ (e : EditTx) v' id steps, call v e.tx = .ok v' → e.edit = .updateAutomationSteps id steps →
        (∃ a, getAutomation id v = .ok a ∧ getAutomation id v' = .ok { a with steps := steps }) ∧
          (∀ id', id' ≠ id → getAutomation id' v' = getAutomation id' v) ∧
          getContext v' = getContext v) ∧
      ∀ (e : EditTx) v' ctx, call v e.tx = .ok v' → e.edit = .setContext ctx →
        getContext v' = ctx ∧ ∀ id, getAutomation id v' = getAutomation id v := by
  intro v m
  -- the simulation, and with it the views
  have hm : lists v = m := edited_lists owner feeRegistry depositToken es
  have hv : Unused v := edited_unused owner feeRegistry depositToken es
  refine ⟨fun id => ?_, ?_, fun e => ?_, fun e r h => ?_, fun e v' id steps h he => ?_,
    fun e v' ctx h he => ?_⟩
  · rw [getAutomation_eq, hm]
  · rw [← hm]
    rfl
  · rw [← hm]
    exact call_lists hv e
  · simp only [editStep, step, h]
  · have hedit := edit_lists hv h
    rw [he] at hedit
    simp only [getAutomation_eq]
    exact ListVault.edit_updateAutomationSteps hedit
  · have hedit := edit_lists hv h
    rw [he] at hedit
    simp only [ListVault.edit, Except.ok.injEq] at hedit
    refine ⟨(congrArg ListVault.context hedit).symm, fun id => ?_⟩
    rw [getAutomation_eq, getAutomation_eq, ← hedit]
    rfl

/-- The owner 1 stores one condition, and then puts two in its place. -/
def twoConditions (next : Nat) : List Step :=
  [⟨.condition, ⟨7⟩, 0xd89f1e36, next, DONE, []⟩, ⟨.condition, ⟨8⟩, 0xd89f1e36, DONE, DONE, []⟩]

/-- An automation of one step is created. -/
def storeOne : EditTx := ⟨⟨1⟩, sampleEnv [], .createAutomation ((twoConditions DONE).take 1)⟩

/-- Its steps are replaced by two. -/
def storeTwo : EditTx := ⟨⟨1⟩, sampleEnv [], .updateAutomationSteps 0 (twoConditions 1)⟩

theorem vault_refines_lists_sample :
    let v := edited ⟨1⟩ Address.zero Address.zero [storeOne]
    (∃ a, getAutomation 0 v = .ok a ∧
        getAutomation 0 (editStep v storeTwo) = .ok { a with steps := twoConditions 1 }) ∧
      getContext (editStep v storeTwo) = getContext v := by
  intro v
  have h := (vault_refines_lists ⟨1⟩ Address.zero Address.zero [storeOne]).2.2.2.2.1 storeTwo
    (editStep v storeTwo) 0 (twoConditions 1) rfl rfl
  exact ⟨h.1, h.2.2⟩

end StrategyBuilder.Contracts.Vault
