import StrategyBuilder.Contracts.TriggerSchedule
import StrategyBuilder.Contracts.VaultLists

/-!
# What `isTriggerMet` predicts

The view repeats the checks with which an execution begins, with other answers: it returns `false` where
the execution reverts. `reachTrigger` is an execution up to the point at which its trigger is decided,
and `finish` is the rest (`executeAutomation_eq`). For an account other than the owner, the view of a
public automation is true exactly where its execution comes to that point with the trigger fired
(`isTriggerMet_predicts`).

The vaults are those of all runs, in which `OwnableUpgradeable` may also pass on the ownership.
-/

set_option autoImplicit false

namespace StrategyBuilder.Contracts.Vault

open StrategyBuilder.Contracts
open StrategyBuilder.Lib
open StrategyBuilder.Lib.Abi
open StrategyBuilder.Lib.Transition

/-! ## Owners -/

/-- A transaction of the vault, or one of `OwnableUpgradeable`. -/
inductive OwnedTx where
  | vault (tx : Tx)
  | transferOwnership (sender newOwner : Address)
  | renounceOwnership (sender : Address)

/-- A transaction, where the owner may change as well. -/
def ownedStep (v : State) : OwnedTx → State
  | .vault tx => step v tx
  | .transferOwnership sender newOwner =>
      if sender = v.owner ∧ newOwner ≠ Address.zero then { v with owner := newOwner } else v
  | .renounceOwnership sender => if sender = v.owner then { v with owner := Address.zero } else v

/-- What the validation tells of the first step, whatever the length of the array. -/
def FirstValid (steps : List Step) (ownerOnly : Bool) : Prop :=
  ∃ first, steps[0]? = some first ∧ (ownerOnly = false → first.stepType = .condition)

theorem validateSteps_first {steps : List Step} {ownerOnly : Bool}
    (h : validateSteps steps ownerOnly = .ok ()) : FirstValid steps ownerOnly := by
  simp only [validateSteps, bind_eq_ok, revertIf_eq_ok, readAt_eq_ok] at h
  obtain ⟨-, -, first, hfirst, -, hcond, -⟩ := h
  exact ⟨first, hfirst, fun hpublic => not_not.1 fun hne => hcond ⟨hpublic, hne⟩⟩

/-- Every automation of the vault begins with a valid step, and no other has steps. -/
structure FirstsValid (v : State) : Prop where
  first : ∀ id < v.automationCount, FirstValid (v.automations id).steps (v.automations id).ownerOnly
  unused : Unused v

/-- What keeps the configuration keeps the first steps. -/
theorem SameConfig.firstsValid {v v' : State} (h : SameConfig v v') (hv : FirstsValid v) :
    FirstsValid v' := by
  constructor
  · rw [h.automationCount, h.automations]
    exact hv.first
  · rw [Unused, h.automationCount, h.automations]
    exact hv.unused

/-- In every state a public automation starts with a condition. -/
theorem step_firstsValid {v : State} (hv : FirstsValid v) (tx : Tx) : FirstsValid (step v tx) := by
  refine ⟨?_, step_unused hv.unused tx⟩
  rcases step_effect v tx with h | h
  · rw [h]
    exact hv.first
  generalize step v tx = v' at h
  cases h with
  | @created steps ownerOnly hop hvalid =>
    intro id hid
    have hid' : id < v.automationCount + 1 := hid
    rcases eq_or_ne id v.automationCount with rfl | hne
    · simp only [State.emit_automations, State.setAutomation, Function.update_self,
        hv.unused _ (Nat.le_refl _), List.nil_append]
      -- a new id has no steps left from before
      exact validateSteps_first hvalid
    · simp only [State.emit_automations, State.setAutomation, Function.update_of_ne hne]
      exact hv.first id (by omega)
  | @stepsUpdated updated steps hop hupdated hvalid =>
    intro id hid
    rcases eq_or_ne id updated with rfl | hne
    · simp only [State.emit_automations, State.setAutomation, Function.update_self]
      exact validateSteps_first hvalid
    · simp only [State.emit_automations, State.setAutomation, Function.update_of_ne hne]
      exact hv.first id hid
  | @activeChanged changed active hop hchanged =>
    intro id hid
    rcases eq_or_ne id changed with rfl | hne
    · simp only [State.emit_automations, State.setAutomation, Function.update_self]
      exact hv.first id hchanged
    · simp only [State.emit_automations, State.setAutomation, Function.update_of_ne hne]
      exact hv.first id hid
  | contextSet _ hsame _ => exact (hsame.firstsValid hv).first
  | contextSlotSet _ _ hsame _ => exact (hsame.firstsValid hv).first
  | minFeeDeposit _ hsame _ => exact (hsame.firstsValid hv).first
  | executed _ _ hsame _ => exact (hsame.firstsValid hv).first

/-- A new owner changes no automation. -/
theorem ownedStep_firstsValid {v : State} (hv : FirstsValid v) (tx : OwnedTx) :
    FirstsValid (ownedStep v tx) := by
  cases tx with
  | vault tx => exact step_firstsValid hv tx
  | transferOwnership sender newOwner =>
    simp only [ownedStep]
    split
    · exact ⟨hv.first, hv.unused⟩
    · exact hv
  | renounceOwnership sender =>
    simp only [ownedStep]
    split
    · exact ⟨hv.first, hv.unused⟩
    · exact hv

theorem reachable_firstsValid {v : State} (h : Reachable ownedStep Initial (fun _ _ => True) v) :
    FirstsValid v := by
  refine h.invariant (I := FirstsValid) (fun v hv => ?_) fun v tx hv _ => ownedStep_firstsValid hv tx
  obtain ⟨owner, registry, token, rfl⟩ := hv
  exact ⟨fun id hid => absurd hid (Nat.not_lt_zero id), fun _ _ => rfl⟩

/-! ## The two halves of an execution -/

/-- The loop up to the point at which the trigger is decided: after the round of step 0, or before it
where step 0 is an action. -/
def decideTrigger (env : Env) (sender owner : Address) (steps : List Step) (s : Loop) :
    Result VaultError Loop := do
  let first ← readAt steps 0
  if first.stepType = .condition then s.round env sender owner steps else return s

/-- An execution up to that point. -/
def reachTrigger (env : Env) (sender : Address) (automationId : Nat) (v : State) :
    Result VaultError Loop := do
  revertIf (v.automationCount ≤ automationId) .automationDoesNotExist
  let automation := v.automations automationId
  revertIf (automation.active = false) .automationNotActive
  revertIf (automation.ownerOnly = true ∧ sender ≠ v.owner) .callerNotOwner
  let start ← Loop.start v automation
  decideTrigger env sender v.owner automation.steps start

/-- The loop with the rounds that are left. -/
def traverseOn (env : Env) (sender owner : Address) (steps : List Step) (s : Loop) :
    Result VaultError Loop :=
  match whileLoop Loop.running (Loop.round env sender owner steps) (maxSteps + 1 - s.stepCount) s with
  | some r => r
  | none => .error .outOfGas

/-- An execution from that point on. -/
def finish (env : Env) (sender : Address) (automationId : Nat) (v : State) (s : Loop) :
    Result VaultError State := do
  let automation := v.automations automationId
  let s ← traverseOn env sender v.owner automation.steps s
  let s ← updateTrigger env automation.steps s
  let v ← saveIfDirty s v
  let v ← settleExecutor env automationId sender v
  return v.emit (.automationExecuted automationId sender)

section Halves

variable {env : Env} {sender owner : Address} {steps : List Step} {id : Nat} {v : State}

/-- The loop is a while loop with the bound as fuel. -/
theorem traverse_eq (s : Loop) : traverse env sender owner steps s =
    (whileLoop Loop.running (Loop.round env sender owner steps) (maxSteps + 1) s).getD
      (.error .outOfGas) := by
  unfold traverse
  cases whileLoop Loop.running (Loop.round env sender owner steps) (maxSteps + 1) s with
  | none => rfl
  | some r => rfl

/-- The loop from a state on, with the rest of the fuel. -/
theorem traverseOn_eq {s : Loop} {n : Nat} (h : maxSteps + 1 - s.stepCount = n) :
    traverseOn env sender owner steps s =
      (whileLoop Loop.running (Loop.round env sender owner steps) n s).getD (.error .outOfGas) := by
  subst h
  unfold traverseOn
  cases whileLoop Loop.running (Loop.round env sender owner steps) (maxSteps + 1 - s.stepCount) s with
  | none => rfl
  | some r => rfl

/-- The loop is its first round and the rounds after it. -/
theorem traverse_eq_round {s : Loop} (hrun : s.running = true) (hcount : s.stepCount = 0) :
    traverse env sender owner steps s =
      (s.round env sender owner steps >>= traverseOn env sender owner steps) := by
  cases hround : s.round env sender owner steps with
  | error e =>
    rw [traverse_eq, whileLoop_fail hrun hround]
    rfl
  | ok s' =>
    obtain ⟨-, step, -, hr⟩ := round_ok hround
    have hleft : maxSteps + 1 - s'.stepCount = maxSteps := by
      rw [hr.stepCount, hcount]
      rfl
    change _ = traverseOn env sender owner steps s'
    rw [traverse_eq, whileLoop_succ hrun hround, traverseOn_eq hleft]

/-- The loop is the part before that point and the part after it. -/
theorem traverse_eq_decided {s : Loop} (hcurrent : s.current = 0) (hcount : s.stepCount = 0) :
    traverse env sender owner steps s =
      (decideTrigger env sender owner steps s >>= traverseOn env sender owner steps) := by
  have hrun : s.running = true := by
    rw [running_iff, hcurrent]
    decide
  cases hfirst : (readAt steps 0 : Result VaultError Step) with
  | error e =>
    have hround : s.round env sender owner steps = .error e := by
      simp only [Loop.round, hcount, hcurrent, hfirst]
      rfl
    -- a first step that is an action decides nothing
    have hdecide : decideTrigger env sender owner steps s = .error e := by
      rw [decideTrigger, hfirst]
      rfl
    rw [traverse_eq_round hrun hcount, hround, hdecide]
  | ok first =>
    have hdecide : decideTrigger env sender owner steps s =
        if first.stepType = .condition then s.round env sender owner steps else .ok s := by
      rw [decideTrigger, hfirst]
      rfl
    rw [hdecide]
    split
    · exact traverse_eq_round hrun hcount
    · change _ = traverseOn env sender owner steps s
      rw [traverse_eq, traverseOn_eq (by rw [hcount, Nat.sub_zero])]

/-- **An execution is its two halves.** -/
theorem executeAutomation_eq (env : Env) (sender : Address) (id : Nat) (v : State) :
    executeAutomation env sender id v =
      (reachTrigger env sender id v >>= finish env sender id v) := by
  simp only [executeAutomation, reachTrigger, bind_assoc]
  congr 1
  funext _
  congr 1
  funext _
  congr 1
  funext _
  cases hstart : Loop.start v (v.automations id) with
  | error e => rfl
  | ok s =>
    have hs := loopStart_ok hstart
    have htraverse := @traverse_eq_decided env sender v.owner (v.automations id).steps s
      (by rw [hs]; rfl) (by rw [hs]; rfl)
    change (traverse env sender v.owner (v.automations id).steps s >>= _) = _
    rw [htraverse, bind_assoc]
    rfl

/-- The rounds after the point of decision leave the trigger as it is. -/
theorem traverseOn_fired {s t : Loop} {first : Step} (hfirst : steps[0]? = some first)
    (hs : first.stepType = .condition → 0 < s.stepCount)
    (h : traverseOn env sender owner steps s = .ok t) : t.triggerFired = s.triggerFired := by
  have hloop : whileLoop Loop.running (Loop.round env sender owner steps) (maxSteps + 1 - s.stepCount)
      s = some (.ok t) := by
    rw [traverseOn] at h
    split at h
    · rename_i r hr
      rw [hr, h]
    · cases h
  refine ((whileLoop_ok (I := fun u : Loop => u.triggerFired = s.triggerFired ∧
    (first.stepType = .condition → 0 < u.stepCount)) ?_ ⟨rfl, hs⟩ hloop).1).1
  rintro u u' ⟨hfired, hpos⟩ - hround
  obtain ⟨-, step, hstep, hr⟩ := round_ok hround
  refine ⟨?_, fun _ => by rw [hr.stepCount]; exact Nat.succ_pos _⟩
  cases hr with
  | condition htype =>
    have hnot : ¬ (u.current = 0 ∧ u.stepCount = 0) := by
      rintro ⟨hcurrent, hcount⟩
      rw [hcurrent] at hstep
      obtain rfl := Option.some.inj (hfirst.symm.trans hstep)
      exact absurd hcount (hpos htype).ne'
    simp only [if_neg hnot, hfired]
  | action => exact hfired

end Halves

/-! ## The view -/

section View

variable {env : Env} {sender : Address} {id : Nat} {v : State} {first : Step}

/-- What the view makes of the answer of a condition. -/
def viewAnswer : CallResult → Result VaultError Bool
  | .failure _ => .ok false
  | .success result => if result.length < 32 then .ok false else decoded (decodeBool result)

/-- The view asks the first condition. -/
theorem isTriggerMet_eq (hid : id < v.automationCount) (hactive : (v.automations id).active = true)
    (hfirst : (v.automations id).steps[0]? = some first) (hcond : first.stepType = .condition) :
    isTriggerMet env id v =
      viewAnswer (env.staticcall 0 first.target first.selector first.data v.ctx) := by
  have hne : (v.automations id).steps.length ≠ 0 := by
    have hlt := (List.getElem?_eq_some_iff.1 hfirst).1
    omega
  have hread : (readAt (v.automations id).steps 0 : Result VaultError Step) = .ok first :=
    readAt_eq_ok.2 hfirst
  rw [isTriggerMet, if_neg (Nat.not_le.2 hid)]
  simp only [hactive, hne, hread, hcond, loadCtx_eq, Bool.true_eq_false, or_self, if_false, bind,
    Except.bind, reduceCtorEq, and_false]
  unfold viewAnswer
  cases env.staticcall 0 first.target first.selector first.data v.ctx with
  | failure reason => rfl
  | success result => rfl

/-- What the view makes of the check of step 0. -/
theorem isTriggerMet_check (hid : id < v.automationCount) (hactive : (v.automations id).active = true)
    (hfirst : (v.automations id).steps[0]? = some first) (hcond : first.stepType = .condition) :
    (isTriggerMet env id v = .ok true ↔ checkCondition env 0 first 0 v.ctx = .ok true) ∧
      (isTriggerMet env id v = .ok false ↔
        checkCondition env 0 first 0 v.ctx = .ok false ∨
          ∃ reason, checkCondition env 0 first 0 v.ctx =
            .error (.error (.conditionCallFailed 0 reason))) := by
  rw [isTriggerMet_eq hid hactive hfirst hcond, checkCondition, viewAnswer.eq_def]
  cases env.staticcall 0 first.target first.selector first.data v.ctx with
  | failure reason => simp
  | success result =>
    simp only [bind, Except.bind, revertIf]
    by_cases hshort : result.length < 32
    · simp [hshort]
    · simp only [hshort, if_false]
      cases decodeBool result with
      | none => simp [decoded]
      | some met => simp [decoded]

/-- Past the first guards an execution comes to the point where its trigger is decided. -/
theorem reachTrigger_eq (hid : id < v.automationCount) (hactive : (v.automations id).active = true)
    (howner : (v.automations id).ownerOnly = true → sender = v.owner)
    (hfirst : (v.automations id).steps[0]? = some first) :
    reachTrigger env sender id v =
      if first.stepType = .condition then
        (startLoop v (v.automations id)).round env sender v.owner (v.automations id).steps
      else .ok (startLoop v (v.automations id)) := by
  have hne : (v.automations id).steps ≠ [] := by
    intro hnil
    rw [hnil] at hfirst
    cases hfirst
  have hread : (readAt (v.automations id).steps 0 : Result VaultError Step) = .ok first :=
    readAt_eq_ok.2 hfirst
  have hexists : (revertIf (v.automationCount ≤ id) .automationDoesNotExist : Result VaultError Unit) =
      .ok () := revertIf_of_not (Nat.not_le.2 hid)
  have hon : (revertIf ((v.automations id).active = false) .automationNotActive :
      Result VaultError Unit) = .ok () := revertIf_of_not (by simp [hactive])
  have howned : (revertIf ((v.automations id).ownerOnly = true ∧ sender ≠ v.owner) .callerNotOwner :
      Result VaultError Unit) = .ok () := revertIf_of_not fun h => h.2 (howner h.1)
  simp only [reachTrigger, hexists, hon, howned, loopStart_eq hne, decideTrigger, hread, bind,
    Except.bind]
  rfl

/-- What the round of step 0 makes of the check. -/
theorem reachTrigger_fired (hid : id < v.automationCount) (hactive : (v.automations id).active = true)
    (howner : (v.automations id).ownerOnly = true → sender = v.owner)
    (hfirst : (v.automations id).steps[0]? = some first) (hcond : first.stepType = .condition) :
    (∃ s, reachTrigger env sender id v = .ok s ∧ s.triggerFired = true) ↔
      checkCondition env 0 first 0 v.ctx = .ok true := by
  rw [reachTrigger_eq hid hactive howner hfirst, if_pos hcond]
  constructor
  · rintro ⟨s, hround, hfired⟩
    obtain ⟨-, step, hstep, hr⟩ := round_ok hround
    -- the round was that of step 0, and `triggerFired` is its answer
    obtain rfl := Option.some.inj (hfirst.symm.trans hstep)
    cases hr with
    | @condition met _ hmet _ =>
      have hfired' : met = true := hfired
      rw [← hfired']
      exact hmet
    | action htype _ =>
      rw [hcond] at htype
      cases htype
  · intro hcheck
    have hread : (readAt (v.automations id).steps 0 : Result VaultError Step) = .ok first :=
      readAt_eq_ok.2 hfirst
    refine ⟨{ startLoop v (v.automations id) with
      triggerFired := true, current := first.nextOnTrue, stepCount := 1 }, ?_, rfl⟩
    have hcheck' : checkCondition env (startLoop v (v.automations id)).stepCount first
        (startLoop v (v.automations id)).current (startLoop v (v.automations id)).ctx =
          .ok true := hcheck
    have hread' : (readAt (v.automations id).steps (startLoop v (v.automations id)).current :
        Result VaultError Step) = .ok first := hread
    simp only [Loop.round, hread', hcond, hcheck', bind, Except.bind]
    rfl

/-- A check that is false, or fails, refuses everybody but the owner. -/
theorem reachTrigger_refused (hid : id < v.automationCount)
    (hactive : (v.automations id).active = true)
    (howner : (v.automations id).ownerOnly = true → sender = v.owner)
    (hfirst : (v.automations id).steps[0]? = some first) (hcond : first.stepType = .condition)
    (hsender : sender ≠ v.owner) :
    (checkCondition env 0 first 0 v.ctx = .ok false →
      reachTrigger env sender id v = .error (.error .triggerNotMet)) ∧
    ∀ r, checkCondition env 0 first 0 v.ctx = .error r → reachTrigger env sender id v = .error r := by
  rw [reachTrigger_eq hid hactive howner hfirst, if_pos hcond]
  constructor
  · exact round_refused (s := startLoop v (v.automations id)) hfirst hcond hsender rfl rfl
  · intro r hcheck
    have hread : (readAt (v.automations id).steps (startLoop v (v.automations id)).current :
        Result VaultError Step) = .ok first := readAt_eq_ok.2 hfirst
    have hcheck' : checkCondition env (startLoop v (v.automations id)).stepCount first
        (startLoop v (v.automations id)).current (startLoop v (v.automations id)).ctx =
          .error r := hcheck
    simp only [Loop.round, hread, hcond, hcheck', bind, Except.bind]
    rfl

end View

/-- How an account other than the owner is refused where the view is false. -/
inductive Refused : Revert VaultError → Prop where
  | doesNotExist : Refused (.error .automationDoesNotExist)
  | notActive : Refused (.error .automationNotActive)
  | notMet : Refused (.error .triggerNotMet)
  | checkFailed (reason : Bytes) : Refused (.error (.conditionCallFailed 0 reason))

section Predicts

variable {env : Env} {sender : Address} {id : Nat} {v : State}

theorem executeAutomation_of_reachTrigger {r : Revert VaultError}
    (h : reachTrigger env sender id v = .error r) : executeAutomation env sender id v = .error r := by
  rw [executeAutomation_eq, h]
  rfl

/-- An execution that succeeds fires the trigger if it was fired where it was decided. -/
theorem fired_of_reachTrigger {s : Loop} {v' : State} (h : reachTrigger env sender id v = .ok s)
    (hok : executeAutomation env sender id v = .ok v') :
    fired id v ⟨sender, env, .executeAutomation id⟩ = s.triggerFired := by
  obtain ⟨t, hexec, -⟩ := executeAutomation_ok hok
  have htraverse := hexec.traverse
  rw [traverse_eq_decided rfl rfl, bind_eq_ok] at htraverse
  obtain ⟨s', hdecide, hon⟩ := htraverse
  -- the guards passed, and the loop's start is the same in both
  have hs : s' = s := by
    simp only [reachTrigger, bind_eq_ok] at h
    obtain ⟨-, -, -, -, -, -, start, hstart, h⟩ := h
    rw [loopStart_ok hstart, hdecide] at h
    exact Except.ok.inj h
  subst hs
  simp only [decideTrigger, bind_eq_ok, readAt_eq_ok] at hdecide
  obtain ⟨first, hfirst, hdecide⟩ := hdecide
  -- after the round of step 0 the flag is not written any more
  have hkept : t.triggerFired = s'.triggerFired := by
    apply traverseOn_fired hfirst (fun hcond => ?_) hon
    rw [if_pos hcond] at hdecide
    obtain ⟨-, step, -, hr⟩ := round_ok hdecide
    rw [hr.stepCount]
    exact Nat.succ_pos _
  simp only [fired, call, hok, hexec.traverse, hkept, decide_true, Bool.true_and]
  rfl

/-- The guards before the trigger. -/
theorem reachTrigger_guard (h : v.automationCount ≤ id ∨ (v.automations id).active = false) :
    isTriggerMet env id v = .ok false ∧
      ∃ r, Refused r ∧ reachTrigger env sender id v = .error r := by
  by_cases hid : v.automationCount ≤ id
  · refine ⟨?_, _, .doesNotExist, ?_⟩
    · rw [isTriggerMet, if_pos hid]
      rfl
    · have hnone : (revertIf (v.automationCount ≤ id) .automationDoesNotExist :
          Result VaultError Unit) = .error (.error .automationDoesNotExist) := if_pos hid
      rw [reachTrigger, hnone]
      rfl
  · have hactive := h.resolve_left hid
    refine ⟨?_, _, .notActive, ?_⟩
    · rw [isTriggerMet, if_neg hid]
      simp only [hactive, true_or, if_true]
      rfl
    · have hexists : (revertIf (v.automationCount ≤ id) .automationDoesNotExist :
          Result VaultError Unit) = .ok () := revertIf_of_not hid
      have hoff : (revertIf ((v.automations id).active = false) .automationNotActive :
          Result VaultError Unit) = .error (.error .automationNotActive) := if_pos hactive
      simp only [reachTrigger, hexists, hoff, bind, Except.bind]

/-- **`isTriggerMet` predicts the execution.** Of a public automation it is true exactly where an account
other than the owner comes to the trigger and fires it; where it is false, that account is refused and
nothing changes. Where it is true of an automation for the owner only, the owner fires the trigger. -/
theorem isTriggerMet_predicts (hv : Reachable ownedStep Initial (fun _ _ => True) v) (env : Env)
    (id : Nat) :
    ((v.automations id).ownerOnly = false → ∀ sender, sender ≠ v.owner →
      (isTriggerMet env id v = .ok true ↔
        ∃ s, reachTrigger env sender id v = .ok s ∧ s.triggerFired = true) ∧
      (isTriggerMet env id v = .ok false →
        (∃ r, Refused r ∧ executeAutomation env sender id v = .error r) ∧
          step v ⟨sender, env, .executeAutomation id⟩ = v)) ∧
    ((v.automations id).ownerOnly = true → isTriggerMet env id v = .ok true →
      ∃ s, reachTrigger env v.owner id v = .ok s ∧ s.triggerFired = true) ∧
    ∀ sender,
      executeAutomation env sender id v =
        (reachTrigger env sender id v >>= finish env sender id v) ∧
      ∀ s v', reachTrigger env sender id v = .ok s → executeAutomation env sender id v = .ok v' →
        fired id v ⟨sender, env, .executeAutomation id⟩ = s.triggerFired := by
  refine ⟨fun hpublic sender hsender => ?_, fun hown hmet => ?_, fun sender =>
    ⟨executeAutomation_eq env sender id v, fun s v' => fired_of_reachTrigger⟩⟩
  · have hfree : (v.automations id).ownerOnly = true → sender = v.owner := by
      intro hown
      rw [hpublic] at hown
      cases hown
    -- what refuses the way to the trigger refuses the execution, and a refusal is no step
    have hrefused : (∃ r, Refused r ∧ reachTrigger env sender id v = .error r) →
        (∃ r, Refused r ∧ executeAutomation env sender id v = .error r) ∧
          step v ⟨sender, env, .executeAutomation id⟩ = v := by
      rintro ⟨r, hr, hreach⟩
      have hexec := executeAutomation_of_reachTrigger hreach
      exact ⟨⟨r, hr, hexec⟩, by simp only [step, call, hexec]⟩
    by_cases hguard : v.automationCount ≤ id ∨ (v.automations id).active = false
    · obtain ⟨hfalse, r, hr, hreach⟩ := @reachTrigger_guard env sender id v hguard
      refine ⟨?_, fun _ => hrefused ⟨r, hr, hreach⟩⟩
      rw [hfalse, hreach]
      simp
    · obtain ⟨hid, hactive⟩ : id < v.automationCount ∧ (v.automations id).active = true := by
        simpa only [not_or, not_le, Bool.not_eq_false] using hguard
      obtain ⟨first, hfirst, hcond⟩ := (reachable_firstsValid hv).first id hid
      have hcondition := hcond hpublic
      obtain ⟨htrue, hfalse⟩ := @isTriggerMet_check env id v first hid hactive hfirst hcondition
      obtain ⟨hnotMet, hfails⟩ :=
        @reachTrigger_refused env sender id v first hid hactive hfree hfirst hcondition hsender
      refine ⟨htrue.trans (reachTrigger_fired hid hactive hfree hfirst hcondition).symm, fun h => ?_⟩
      rcases hfalse.1 h with hcheck | ⟨reason, hcheck⟩
      · exact hrefused ⟨_, .notMet, hnotMet hcheck⟩
      · exact hrefused ⟨_, .checkFailed reason, hfails _ hcheck⟩
  · by_cases hguard : v.automationCount ≤ id ∨ (v.automations id).active = false
    · have hfalse := (@reachTrigger_guard env v.owner id v hguard).1
      rw [hfalse] at hmet
      cases hmet
    · obtain ⟨hid, hactive⟩ : id < v.automationCount ∧ (v.automations id).active = true := by
        simpa only [not_or, not_le, Bool.not_eq_false] using hguard
      obtain ⟨first, hfirst, -⟩ := (reachable_firstsValid hv).first id hid
      cases hcond : first.stepType with
      | condition =>
        have htrue := (isTriggerMet_check hid hactive hfirst hcond).1.1 hmet
        exact (reachTrigger_fired hid hactive (fun _ => rfl) hfirst hcond).2 htrue
      | action =>
        -- the trigger of an action is fired from the start
        refine ⟨startLoop v (v.automations id), ?_, ?_⟩
        · rw [reachTrigger_eq hid hactive (fun _ => rfl) hfirst, if_neg (by simp [hcond])]
        · simp only [startLoop, hown, hfirst, hcond, decide_true, Bool.and_self]

theorem isTriggerMet_predicts_sample :
    (isTriggerMet (sampleEnv (encodeBool true)) 0 sampleVault = .ok true ↔
      ∃ s, reachTrigger (sampleEnv (encodeBool true)) ⟨2⟩ 0 sampleVault = .ok s ∧
        s.triggerFired = true) ∧
    (isTriggerMet (sampleEnv []) 0 sampleVault = .ok false →
      ∃ r, Refused r ∧ executeAutomation (sampleEnv []) ⟨2⟩ 0 sampleVault = .error r) := by
  have hstart : Reachable ownedStep Initial (fun _ _ => True)
      (initialized ⟨1⟩ Address.zero Address.zero) := .start ⟨_, _, _, rfl⟩
  have hv : Reachable ownedStep Initial (fun _ _ => True) sampleVault :=
    Reachable.next (ℓ := OwnedTx) (l := .vault sampleCreate) hstart trivial
  have hpublic : (sampleVault.automations 0).ownerOnly = false := rfl
  have hsender : (⟨2⟩ : Address) ≠ sampleVault.owner := by decide
  exact ⟨((isTriggerMet_predicts hv (sampleEnv (encodeBool true)) 0).1 hpublic ⟨2⟩ hsender).1,
    fun h => (((isTriggerMet_predicts hv (sampleEnv []) 0).1 hpublic ⟨2⟩ hsender).2 h).1⟩

end Predicts

end StrategyBuilder.Contracts.Vault
