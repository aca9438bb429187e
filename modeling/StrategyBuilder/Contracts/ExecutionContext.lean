import StrategyBuilder.Contracts.FeeRegistry
import StrategyBuilder.Contracts.VaultSteps

/-!
# The context of an execution

What an execution does to the shared context. `Visits` is its meaning: conditions read the context,
actions write the slot diffs they return, and each step sees the context that the steps before it
have left. The loop with its memory copy, its dirty flag and its final write has exactly this effect
(`traverse_visits`), followed by the diff of the trigger where it fired (`execution_context`).

An execution is one transaction over the vault and the fee registry. A step that fails reverts both.
-/

set_option autoImplicit false

namespace StrategyBuilder.Contracts.Vault

open StrategyBuilder.Contracts
open StrategyBuilder.Lib
open StrategyBuilder.Lib.Abi

/-- Slots with their new values, in the order in which they are written. -/
abbrev SlotDiff := List (Nat × Bytes)

/-- The diff that return data stands for. There is none in data that does not decode, or that pairs
slots and values of different number. -/
def diffOf (ret : Bytes) : Option SlotDiff :=
  if ret.length = 0 then some []
  else match decodeUint32sBytesList ret with
    | none => none
    | some (slots, values) =>
        if slots.length = values.length then some (slots.zip values) else none

/-- The slots of a diff are written in order; a slot that is not there is ignored. -/
def writeDiff (diff : SlotDiff) (ctx : List Bytes) : List Bytes :=
  diff.foldl (fun ctx entry => ctx.set entry.1 entry.2) ctx

/-- The entries of a diff that have their slot in a context of `n` slots. -/
def inRange (n : Nat) (diff : SlotDiff) : SlotDiff := diff.filter fun entry => decide (entry.1 < n)

/-- The steps `is`, visited in this order from round `k` on, lead from one context to another. -/
inductive Visits (env : Env) (steps : List Step) : Nat → List Nat → List Bytes → List Bytes → Prop
  | nil (k : Nat) (ctx : List Bytes) : Visits env steps k [] ctx ctx
  | condition {k i : Nat} {is : List Nat} {ctx ctx' : List Bytes} {step : Step} {met : Bool} :
      steps[i]? = some step → step.stepType = .condition →
      checkCondition env k step i ctx = .ok met → Visits env steps (k + 1) is ctx ctx' →
      Visits env steps k (i :: is) ctx ctx'
  | action {k i : Nat} {is : List Nat} {ctx ctx' : List Bytes} {step : Step} {ret : Bytes}
      {diff : SlotDiff} :
      steps[i]? = some step → step.stepType = .action →
      env.delegatecall k step.target step.selector step.data ctx = .success ret →
      diffOf ret = some diff → (∀ entry ∈ diff, entry.1 < ctx.length) →
      Visits env steps (k + 1) is (writeDiff diff ctx) ctx' → Visits env steps k (i :: is) ctx ctx'

/-- The ways in which a step fails on a context. -/
inductive StepFails (env : Env) (k : Nat) (ctx : List Bytes) (i : Nat) (step : Step) : Prop
  | condition : step.stepType = .condition →
      (∀ met, checkCondition env k step i ctx ≠ .ok met) → StepFails env k ctx i step
  | action {reason : Bytes} : step.stepType = .action →
      env.delegatecall k step.target step.selector step.data ctx = .failure reason →
      StepFails env k ctx i step
  | diff {ret : Bytes} : step.stepType = .action →
      env.delegatecall k step.target step.selector step.data ctx = .success ret →
      diffOf ret = none → StepFails env k ctx i step
  | slot {ret : Bytes} {diff : SlotDiff} {slot : Nat} {value : Bytes} : step.stepType = .action →
      env.delegatecall k step.target step.selector step.data ctx = .success ret →
      diffOf ret = some diff → (slot, value) ∈ diff → ctx.length ≤ slot →
      StepFails env k ctx i step

/-- The trigger fired: the first step is a condition and holds, or the automation belongs to its owner
and starts with an action. -/
def Fired (env : Env) (a : Automation) (ctx : List Bytes) : Prop :=
  ∃ first, a.steps[0]? = some first ∧
    ((first.stepType = .condition ∧ checkCondition env 0 first 0 ctx = .ok true) ∨
      (first.stepType = .action ∧ a.ownerOnly = true))

/-- What `afterExecution` of a step returns; a call that fails has returned nothing. -/
def afterExecutionDiff (env : Env) (k : Nat) (step : Step) (ctx : List Bytes) : SlotDiff :=
  match env.staticcall k step.target afterExecutionSelector step.data ctx with
  | .failure _ => []
  | .success ret => (diffOf ret).getD []

section Diffs

variable {ctx ctx' : List Bytes} {slots : List Nat} {values : List Bytes} {diff : SlotDiff}

@[simp] theorem writeDiff_nil (ctx : List Bytes) : writeDiff [] ctx = ctx := rfl

@[simp] theorem writeDiff_cons (entry : Nat × Bytes) (diff : SlotDiff) (ctx : List Bytes) :
    writeDiff (entry :: diff) ctx = writeDiff diff (ctx.set entry.1 entry.2) := rfl

@[simp] theorem length_writeDiff (diff : SlotDiff) (ctx : List Bytes) :
    (writeDiff diff ctx).length = ctx.length := by
  induction diff generalizing ctx with
  | nil => rfl
  | cons entry diff ih => rw [writeDiff_cons, ih, List.length_set]

/-- The loop of `_executeAction` writes the diff, where every slot is there. -/
theorem applyDiff_ok (h : applyDiff slots values ctx = .ok ctx') :
    (∀ entry ∈ slots.zip values, entry.1 < ctx.length) ∧ ctx' = writeDiff (slots.zip values) ctx := by
  induction slots generalizing values ctx with
  | nil =>
    cases h
    exact ⟨List.forall_mem_nil _, rfl⟩
  | cons slot slots ih =>
    cases values with
    | nil =>
      cases h
      exact ⟨List.forall_mem_nil _, rfl⟩
    | cons value values =>
      simp only [applyDiff, bind_eq_ok, revertIf_eq_ok] at h
      obtain ⟨-, hle, written, hwrite, h⟩ := h
      have hlt : slot < ctx.length := Nat.lt_of_not_le hle
      rw [writeAt, if_pos hlt] at hwrite
      cases hwrite
      obtain ⟨hrange, rfl⟩ := ih h
      refine ⟨fun entry he => ?_, rfl⟩
      rcases List.mem_cons.1 he with rfl | he
      · exact hlt
      · have := hrange entry he
        rwa [List.length_set] at this

/-- The loop of `_updateTriggerCondition` writes the entries in range. -/
theorem applyKnownSlots_eq (slots : List Nat) (values ctx : List Bytes) :
    applyKnownSlots slots values ctx = writeDiff (inRange ctx.length (slots.zip values)) ctx := by
  induction slots generalizing values ctx with
  | nil => rfl
  | cons slot slots ih =>
    cases values with
    | nil => rfl
    | cons value values =>
      rw [applyKnownSlots, ih, List.zip_cons_cons, inRange, inRange, List.filter_cons]
      by_cases hlt : slot < ctx.length
      · simp only [if_pos hlt, decide_eq_true hlt, if_true, List.length_set, writeDiff_cons]
      · simp only [if_neg hlt, decide_eq_false hlt, Bool.false_eq_true, if_false]

/-- An action that succeeds answers a diff that fits the context, which is applied. -/
theorem executeAction_ok {env : Env} {k i : Nat} {step : Step}
    (h : executeAction env k step i ctx = .ok ctx') :
    ∃ ret diff, env.delegatecall k step.target step.selector step.data ctx = .success ret ∧
      diffOf ret = some diff ∧ (∀ entry ∈ diff, entry.1 < ctx.length) ∧
      ctx' = writeDiff diff ctx := by
  rw [executeAction] at h
  cases hcall : env.delegatecall k step.target step.selector step.data ctx with
  | failure reason =>
    rw [hcall] at h
    cases h
  | success ret =>
    simp only [hcall] at h
    refine ⟨ret, ?_⟩
    by_cases hret : ret.length = 0
    · rw [if_neg (by omega)] at h
      cases h
      exact ⟨[], rfl, by rw [diffOf, if_pos hret], List.forall_mem_nil _, rfl⟩
    · rw [if_pos (by omega)] at h
      simp only [bind_eq_ok, decoded_eq_ok, revertIf_eq_ok] at h
      obtain ⟨⟨slots, values⟩, hdec, -, hlen, h⟩ := h
      obtain ⟨hrange, rfl⟩ := applyDiff_ok h
      refine ⟨slots.zip values, rfl, ?_, hrange, rfl⟩
      simp only [diffOf, if_neg hret, hdec, if_pos (not_not.1 hlen)]

/-- Of the trigger's diff the slots that are there are written. -/
theorem updateTriggerCondition_eq (env : Env) (k : Nat) (step : Step) (ctx : List Bytes) :
    updateTriggerCondition env k step ctx =
      writeDiff (inRange ctx.length (afterExecutionDiff env k step ctx)) ctx := by
  rw [updateTriggerCondition, afterExecutionDiff]
  cases env.staticcall k step.target afterExecutionSelector step.data ctx with
  | failure reason => rfl
  | success ret =>
    by_cases hret : ret.length = 0
    · simp only [diffOf, if_pos hret]
      rfl
    · simp only [diffOf, if_neg hret]
      cases hdec : decodeUint32sBytesList ret with
      | none => rfl
      | some p =>
        by_cases hlen : p.1.length = p.2.length
        · simp only [hlen, ne_eq, not_true_eq_false, if_false, if_true, Option.getD_some]
          exact applyKnownSlots_eq p.1 p.2 ctx
        · simp only [ne_eq, hlen, not_false_eq_true, if_true, if_false, Option.getD_none]
          rfl

end Diffs

/-! ## Visits -/

section Visits

variable {env : Env} {steps : List Step} {k i : Nat} {is js : List Nat} {c c' c'' : List Bytes}

theorem Visits.length (h : Visits env steps k is c c') : c'.length = c.length := by
  induction h with
  | nil => rfl
  | condition _ _ _ _ ih => exact ih
  | action _ _ _ _ _ _ ih => rw [ih, length_writeDiff]

/-- The visit of a path is one of its parts in turn. -/
theorem Visits.append (h : Visits env steps k (is ++ js) c c'') :
    ∃ c', Visits env steps k is c c' ∧ Visits env steps (k + is.length) js c' c'' := by
  induction is generalizing k c with
  | nil => exact ⟨c, .nil k c, h⟩
  | cons i is ih =>
    have hk : k + (i :: is).length = k + 1 + is.length := by
      rw [List.length_cons]
      omega
    rw [hk]
    cases h with
    | condition hstep htype hmet hrest =>
      obtain ⟨c', hc', hjs⟩ := ih hrest
      exact ⟨c', .condition hstep htype hmet hc', hjs⟩
    | action hstep htype hcall hdiff hrange hrest =>
      obtain ⟨c', hc', hjs⟩ := ih hrest
      exact ⟨c', .action hstep htype hcall hdiff hrange hc', hjs⟩

/-- The steps determine the context. -/
theorem Visits.unique (h : Visits env steps k is c c') (h' : Visits env steps k is c c'') :
    c' = c'' := by
  induction h with
  | nil =>
    cases h'
    rfl
  | condition hstep htype _ _ ih =>
    cases h' with
    | condition _ _ _ hrest => exact ih hrest
    | action hstep' htype' =>
      rw [hstep] at hstep'
      cases hstep'
      rw [htype] at htype'
      cases htype'
  | action hstep htype hcall hdiff _ _ ih =>
    cases h' with
    | condition hstep' htype' =>
      rw [hstep] at hstep'
      cases hstep'
      rw [htype] at htype'
      cases htype'
    | action hstep' _ hcall' hdiff' _ hrest =>
      rw [hstep] at hstep'
      cases hstep'
      rw [hcall] at hcall'
      cases hcall'
      rw [hdiff] at hdiff'
      cases hdiff'
      exact ih hrest

/-- A step that fails cannot be visited. -/
theorem StepFails.not_visits {step : Step} (hfail : StepFails env k c i step)
    (hstep : steps[i]? = some step) : ¬ Visits env steps k (i :: is) c c' := by
  intro h
  cases h with
  | condition hstep' htype hmet =>
    rw [hstep] at hstep'
    cases hstep'
    cases hfail with
    | condition _ hno => exact hno _ hmet
    | action htype' => simp [htype] at htype'
    | diff htype' => simp [htype] at htype'
    | slot htype' => simp [htype] at htype'
  | action hstep' htype hcall hdiff hrange =>
    rw [hstep] at hstep'
    cases hstep'
    cases hfail with
    | condition htype' => simp [htype] at htype'
    | action _ hcall' =>
      rw [hcall] at hcall'
      cases hcall'
    | diff _ hcall' hnone =>
      rw [hcall] at hcall'
      cases hcall'
      rw [hdiff] at hnone
      cases hnone
    | slot _ hcall' hdiff' hmem hle =>
      rw [hcall] at hcall'
      cases hcall'
      rw [hdiff] at hdiff'
      cases hdiff'
      exact absurd (hrange _ hmem) (Nat.not_lt_of_le hle)

end Visits

/-! ## The loop -/

section Loop

variable {env : Env} {sender owner : Address} {steps : List Step} {s s' t : Loop} {n : Nat}

/-- The steps that a loop of at most `n` rounds runs, in order. -/
def visitedIn (env : Env) (sender owner : Address) (steps : List Step) (n : Nat) (s : Loop) :
    List Nat :=
  ((whileStates Loop.running (Loop.round env sender owner steps) n s).filter
    fun s => decide (s.stepCount < maxSteps)).map Loop.current

theorem visitedIn_stop (hrun : s.running = false) : visitedIn env sender owner steps n s = [] := by
  cases n with
  | zero => rfl
  | succ n =>
    rw [visitedIn, whileStates, hrun]
    rfl

/-- The step of a round comes first. -/
theorem visitedIn_round (hrun : s.running = true)
    (hround : s.round env sender owner steps = .ok s') :
    visitedIn env sender owner steps (n + 1) s =
      s.current :: visitedIn env sender owner steps n s' := by
  rw [visitedIn, whileStates, if_pos hrun, hround, List.filter_cons,
    if_pos (decide_eq_true (round_ok hround).1), List.map_cons]
  rfl

/-- A round that fails is the last one, if it runs a step at all. -/
theorem visitedIn_fail (hrun : s.running = true) {r : Revert VaultError}
    (hround : s.round env sender owner steps = .error r) :
    visitedIn env sender owner steps (n + 1) s = [s.current] ∨
      visitedIn env sender owner steps (n + 1) s = [] := by
  rw [visitedIn, whileStates, if_pos hrun, hround, List.filter_cons]
  split_ifs
  · exact Or.inl rfl
  · exact Or.inr rfl

/-- One round is one visit. -/
theorem Round.visits {step : Step} {is : List Nat} {c : List Bytes}
    (h : Round env sender owner s step s') (hstep : steps[s.current]? = some step)
    (hrest : Visits env steps s'.stepCount is s'.ctx c) :
    Visits env steps s.stepCount (s.current :: is) s.ctx c := by
  cases h with
  | condition htype hmet _ => exact .condition hstep htype hmet hrest
  | action htype hctx =>
    obtain ⟨ret, diff, hcall, hdiff, hrange, rfl⟩ := executeAction_ok hctx
    exact .action hstep htype hcall hdiff hrange hrest

/-- **The loop visits its steps.** By induction on the rounds. -/
theorem loop_visits
    (h : whileLoop Loop.running (Loop.round env sender owner steps) n s = some (.ok t)) :
    Visits env steps s.stepCount (visitedIn env sender owner steps n s) s.ctx t.ctx ∧
      t.stepCount = s.stepCount + (visitedIn env sender owner steps n s).length := by
  induction n generalizing s with
  -- without fuel the loop has to be done
  | zero =>
    cases hrun : s.running with
    | true => simp [whileLoop, hrun] at h
    | false =>
      rw [whileLoop_of_false hrun] at h
      cases h
      exact ⟨.nil _ _, rfl⟩
  | succ n ih =>
    cases hrun : s.running with
    | false =>
      rw [whileLoop_of_false hrun] at h
      cases h
      rw [visitedIn_stop hrun]
      exact ⟨.nil _ _, rfl⟩
    | true =>
      cases hround : s.round env sender owner steps with
      | error r =>
        rw [whileLoop_fail hrun hround] at h
        cases h
      | ok s' =>
        rw [whileLoop_succ hrun hround] at h
        obtain ⟨-, step, hstep, hr⟩ := round_ok hround
        obtain ⟨hvisits, hcount⟩ := ih h
        rw [visitedIn_round hrun hround]
        refine ⟨hr.visits hstep hvisits, ?_⟩
        rw [hcount, hr.stepCount, List.length_cons]
        omega

/-- Whether or not the loop ends well, what it ran before a step led to a context. -/
theorem loop_visits_before {is rest : List Nat} {i : Nat}
    (h : visitedIn env sender owner steps n s = is ++ i :: rest) :
    ∃ c, Visits env steps s.stepCount is s.ctx c := by
  induction n generalizing s is with
  | zero => exact absurd h (by simp [visitedIn, whileStates])
  | succ n ih =>
    cases is with
    | nil => exact ⟨s.ctx, .nil _ _⟩
    | cons j is =>
      cases hrun : s.running with
      | false =>
        rw [visitedIn_stop hrun] at h
        cases h
      | true =>
        cases hround : s.round env sender owner steps with
        | error r =>
          -- a round that fails has at most begun its step
          rcases visitedIn_fail (n := n) hrun hround with hv | hv
          · rw [hv] at h
            simp at h
          · rw [hv] at h
            cases h
        | ok s' =>
          obtain ⟨-, step, hstep, hr⟩ := round_ok hround
          rw [visitedIn_round hrun hround, List.cons_append, List.cons.injEq] at h
          obtain ⟨rfl, h⟩ := h
          obtain ⟨c, hc⟩ := ih h
          exact ⟨c, hr.visits hstep hc⟩

/-- After the first round the flag says whether the trigger fired. -/
theorem traverse_fired {v : State} {a : Automation}
    (h : traverse env sender owner a.steps (startLoop v a) = .ok t) :
    t.triggerFired = true ↔ Fired env a v.ctx := by
  -- the loop starts at step 0, so it runs a round before it ends
  have hinv := whileLoop_ok (I := fun u : Loop => u = startLoop v a ∨
    (0 < u.stepCount ∧ (u.triggerFired = true ↔ Fired env a v.ctx))) ?_ (Or.inl rfl) (traverse_ok h)
  · rcases hinv.1 with rfl | ⟨-, hfired⟩
    · have hstop : (0 != DONE) = false := hinv.2
      exact absurd hstop (by decide)
    · exact hfired
  intro u u' hu _ hround
  obtain ⟨-, step, hstep, hr⟩ := round_ok hround
  refine Or.inr ⟨by rw [hr.stepCount]; omega, ?_⟩
  rcases hu with rfl | ⟨hpos, hfired⟩
  · have hfirst : a.steps[0]? = some step := hstep
    cases hr with
    | @condition met htype hmet _ =>
      have hcheck : checkCondition env 0 step 0 v.ctx = .ok met := hmet
      change (if 0 = 0 ∧ 0 = 0 then met else (startLoop v a).triggerFired) = true ↔ _
      rw [if_pos ⟨rfl, rfl⟩]
      constructor
      · rintro rfl
        exact ⟨step, hfirst, Or.inl ⟨htype, hcheck⟩⟩
      · rintro ⟨first, hget, ⟨-, htrue⟩ | ⟨haction, -⟩⟩
        · rw [hfirst] at hget
          cases hget
          rw [hcheck] at htrue
          exact Except.ok.inj htrue
        · rw [hfirst] at hget
          cases hget
          rw [htype] at haction
          cases haction
    | action htype hctx =>
      have hflag : (startLoop v a).triggerFired = a.ownerOnly := by
        simp [startLoop, hfirst, htype]
      change (startLoop v a).triggerFired = true ↔ _
      rw [hflag]
      constructor
      · intro hown
        exact ⟨step, hfirst, Or.inr ⟨htype, hown⟩⟩
      · rintro ⟨first, hget, ⟨hcond, -⟩ | ⟨-, hown⟩⟩
        · rw [hfirst] at hget
          cases hget
          rw [htype] at hcond
          cases hcond
        · exact hown
  · cases hr with
    | condition => simpa [Nat.ne_of_gt hpos] using hfired
    | action => exact hfired

end Loop

/-! ## The transaction -/

/-- A vault, and a fee registry with its tokens. -/
structure FundedVault where
  vaultAddress : Address
  vault : State
  fees : FeeRegistry.World

/-- A transaction that executes an automation. What actions do outside the vault is `acted`: what the
registry and the tokens are when the loop has ended. -/
structure ExecuteTx where
  sender : Address
  env : Env
  gasprice : Nat
  oracle : Address → Address → FeeRegistry.OracleAnswer
  acted : FeeRegistry.World → FeeRegistry.World
  automationId : Nat

/-- The call of the registry by the vault. -/
def ExecuteTx.msg (tx : ExecuteTx) (c : FundedVault) : FeeRegistry.Msg :=
  ⟨c.vaultAddress, tx.gasprice, tx.oracle⟩

/-- The world of the transaction: `deductGasComp` of the registry is that of its contract. -/
def ExecuteTx.envOf (tx : ExecuteTx) (c : FundedVault) : Env :=
  let w := tx.acted c.fees
  { tx.env with
    deductGasComp := fun registry token executor gasUsed =>
      if registry = w.self then
        match FeeRegistry.deductGasComp (tx.msg c) token executor gasUsed w with
        | .ok r => some r.2
        | .error _ => none
      else tx.env.deductGasComp registry token executor gasUsed }

/-- The registry after `_settleGasComp`. -/
def ExecuteTx.settled (tx : ExecuteTx) (c : FundedVault) : FeeRegistry.World :=
  let w := tx.acted c.fees
  if tx.sender ≠ c.vault.owner ∧ c.vault.feeRegistry = w.self ∧
      c.vault.feeRegistry ≠ Address.zero ∧ c.vault.depositToken ≠ Address.zero then
    match FeeRegistry.deductGasComp (tx.msg c) c.vault.depositToken tx.sender tx.env.gasUsed w with
    | .ok r => r.1
    | .error _ => w
  else w

/-- An execution of the vault, with the fees settled. -/
def FundedVault.execute (tx : ExecuteTx) (c : FundedVault) : Result VaultError FundedVault := do
  let vault ← executeAutomation (tx.envOf c) tx.sender tx.automationId c.vault
  return { c with vault := vault, fees := tx.settled c }

/-- A transaction that reverts leaves vault and registry as they were. -/
def FundedVault.step (tx : ExecuteTx) (c : FundedVault) : FundedVault :=
  match c.execute tx with
  | .ok c' => c'
  | .error _ => c

section Execution

variable {env : Env} {sender : Address} {id : Nat} {v v' : State}

/-- The context that an execution leaves. -/
theorem executeAutomation_context (h : executeAutomation env sender id v = .ok v') :
    let a := v.automations id
    let path := visited env sender v.owner a.steps (startLoop v a)
    ∃ c, Visits env a.steps 0 path v.ctx c ∧
      (Fired env a v.ctx → ∃ trigger, a.steps[0]? = some trigger ∧ v'.ctx =
        writeDiff (inRange c.length (afterExecutionDiff env path.length trigger c)) c) ∧
      (¬ Fired env a v.ctx → v'.ctx = c) := by
  intro a path
  obtain ⟨s, hexec, -, hctx⟩ := executeAutomation_ok h
  obtain ⟨hvisits, hcount⟩ := loop_visits (traverse_ok hexec.traverse)
  have hfired : s.triggerFired = true ↔ Fired env a v.ctx := traverse_fired hexec.traverse
  have hround : s.stepCount = path.length := hcount.trans (Nat.zero_add _)
  refine ⟨s.ctx, hvisits, fun hf => ?_, fun hf => ?_⟩
  · have hf' := hf
    obtain ⟨trigger, htrigger, -⟩ := hf'
    refine ⟨trigger, htrigger, ?_⟩
    rw [hctx, finalCtx, if_pos (hfired.2 hf), htrigger, ← hround]
    exact updateTriggerCondition_eq env s.stepCount trigger s.ctx
  · rw [hctx, finalCtx, if_neg fun ht => hf (hfired.1 ht)]

/-- A visited step that fails reverts the execution. -/
theorem executeAutomation_fails {is rest : List Nat} {i : Nat} {step : Step} {c : List Bytes}
    (hpath : visited env sender v.owner (v.automations id).steps (startLoop v (v.automations id)) =
      is ++ i :: rest)
    (hc : Visits env (v.automations id).steps 0 is v.ctx c)
    (hstep : (v.automations id).steps[i]? = some step) (hfail : StepFails env is.length c i step) :
    ∃ r, executeAutomation env sender id v = .error r := by
  cases hr : executeAutomation env sender id v with
  | error r => exact ⟨r, rfl⟩
  | ok v' =>
    exfalso
    obtain ⟨cEnd, hvisits, -⟩ := executeAutomation_context hr
    simp only [hpath] at hvisits
    obtain ⟨c', hc', hrest⟩ := hvisits.append
    obtain rfl := hc.unique hc'
    rw [Nat.zero_add] at hrest
    exact hfail.not_visits hstep hrest

end Execution

/-- **The context of an execution.** An execution that succeeds keeps the number of slots and leaves
what its visits leave, with the entries in range of the trigger's diff exactly where the trigger fired.
Every step it runs sees a context to which the steps before it have led; a step that fails on that
context reverts the execution; and an execution that reverts leaves automations, context and fee
deposits as they were. -/
theorem execution_context (tx : ExecuteTx) (c : FundedVault) :
    let v := c.vault
    let env := tx.envOf c
    let a := v.automations tx.automationId
    let path := visited env tx.sender v.owner a.steps (startLoop v a)
    (∀ c', c.execute tx = .ok c' → c'.vault.ctx.length = v.ctx.length ∧
      ∃ ctx, Visits env a.steps 0 path v.ctx ctx ∧
        (Fired env a v.ctx → ∃ trigger, a.steps[0]? = some trigger ∧ c'.vault.ctx =
          writeDiff (inRange ctx.length (afterExecutionDiff env path.length trigger ctx)) ctx) ∧
        (¬ Fired env a v.ctx → c'.vault.ctx = ctx)) ∧
      (∀ is i rest, path = is ++ i :: rest → ∃ ctx, Visits env a.steps 0 is v.ctx ctx ∧
        ∀ step, a.steps[i]? = some step → StepFails env is.length ctx i step →
          ∃ r, c.execute tx = .error r) ∧
      ∀ r, c.execute tx = .error r → c.step tx = c := by
  intro v env a path
  refine ⟨fun c' h => ?_, fun is i rest hpath => ?_, fun r h => ?_⟩
  · obtain ⟨v', hv', hc'⟩ := bind_eq_ok.1 h
    cases hc'
    obtain ⟨ctx, hvisits, hfired, hnot⟩ := executeAutomation_context hv'
    -- no diff changes the number of slots
    refine ⟨?_, ctx, hvisits, hfired, hnot⟩
    by_cases hf : Fired env a v.ctx
    · obtain ⟨trigger, -, hctx⟩ := hfired hf
      rw [hctx, length_writeDiff]
      exact hvisits.length
    · rw [hnot hf]
      exact hvisits.length
  · obtain ⟨ctx, hctx⟩ := loop_visits_before hpath
    refine ⟨ctx, hctx, fun step hstep hfail => ?_⟩
    obtain ⟨r, hr⟩ := executeAutomation_fails hpath hctx hstep hfail
    exact ⟨r, bind_eq_error.2 (Or.inl hr)⟩
  · simp only [FundedVault.step, h]

/-- The owner 1 stores a trigger with two actions at the target 8, told apart by their data. -/
def contextCreate : Tx where
  sender := ⟨1⟩
  env := sampleEnv []
  op := .createAutomation [⟨.condition, ⟨7⟩, 0xd89f1e36, 1, DONE, []⟩,
    ⟨.action, ⟨8⟩, 0x24856bc3, 2, DONE, [1]⟩, ⟨.action, ⟨8⟩, 0x24856bc3, DONE, DONE, [2]⟩]

/-- A vault with this automation and two slots, and an empty registry that it does not use. -/
def contextChain : FundedVault where
  vaultAddress := ⟨9⟩
  vault := (step (initialized ⟨1⟩ Address.zero Address.zero) contextCreate).setCtx [[1], [2]]
  fees := ⟨⟨3⟩, .deployed ⟨2⟩, ⟨fun _ _ => 0, fun _ _ _ => 0⟩, []⟩

/-- Somebody executes the automation, and the condition answers `ret`. The first action puts 5 into slot
0, the second copies slot 0 to slot 1, and `afterExecution` puts 6 into slot 0 and into a slot 7. -/
def contextTx (ret : Bytes) : ExecuteTx where
  sender := ⟨2⟩
  env := { sampleEnv ret with
    staticcall := fun _ _ selector _ _ =>
      if selector = afterExecutionSelector then .success (encodeUint32sBytesList [0, 7] [[6], [6]])
      else .success ret
    delegatecall := fun _ _ _ data ctx =>
      if data = [1] then .success (encodeUint32sBytesList [0] [[5]])
      else .success (encodeUint32sBytesList [1] (ctx.take 1)) }
  gasprice := 1
  oracle := fun _ _ => .reverted
  acted := id
  automationId := 0

set_option maxRecDepth 4000 in
/-- The second action sees what the first has written, and the slot 7 is skipped. -/
theorem execution_context_sample :
    (∃ c' ctx trigger, contextChain.execute (contextTx (encodeBool true)) = .ok c' ∧
      Visits ((contextTx (encodeBool true)).envOf contextChain) (contextChain.vault.automations 0).steps
        0 [0, 1, 2] [[1], [2]] ctx ∧
      c'.vault.ctx = writeDiff (inRange ctx.length (afterExecutionDiff
        ((contextTx (encodeBool true)).envOf contextChain) 3 trigger ctx)) ctx ∧
      c'.vault.ctx = [[6], [5]]) ∧
    ∃ r, contextChain.execute (contextTx []) = .error r := by
  have hpath : visited ((contextTx (encodeBool true)).envOf contextChain) ⟨2⟩ contextChain.vault.owner
      (contextChain.vault.automations 0).steps
        (startLoop contextChain.vault (contextChain.vault.automations 0)) = [0, 1, 2] := rfl
  have hok := execution_context (contextTx (encodeBool true)) contextChain
  have hfail := execution_context (contextTx []) contextChain
  constructor
  · obtain ⟨-, ctx, hvisits, hfired, -⟩ := hok.1 _ rfl
    obtain ⟨trigger, -, hctx⟩ := hfired ⟨_, rfl, Or.inl ⟨rfl, rfl⟩⟩
    exact ⟨_, ctx, trigger, rfl, hpath ▸ hvisits, hctx, rfl⟩
  · obtain ⟨ctx, -, h⟩ := hfail.2.1 [] 0 [] rfl
    exact h _ rfl (.condition rfl fun met hmet => by cases hmet)

end StrategyBuilder.Contracts.Vault
