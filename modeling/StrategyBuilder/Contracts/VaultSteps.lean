import StrategyBuilder.Contracts.Vault
import StrategyBuilder.Lib.Transition

/-!
# Stored automations

What the vault accepts as steps, and what it does with them. `validateSteps_eq_ok` reads the
validation loop as a condition on the list; `call_effect` says once what a transaction that succeeds
has done to automations and context. Together they give the storage invariant of all runs
(`Stored`): every automation of the vault is `Executable`.

For an executable automation the traversal stays within the step array and ends, whatever conditions
and actions answer (`traverse_ends`).
-/

set_option autoImplicit false

namespace StrategyBuilder.Contracts.Vault

open StrategyBuilder.Contracts
open StrategyBuilder.Lib
open StrategyBuilder.Lib.Abi
open StrategyBuilder.Lib.Transition

/-! ## What the array loops leave -/

/-- Growing or shrinking, the three loops leave the new steps. -/
theorem replaceSteps_eq (old steps : List Step) : replaceSteps old steps = .ok steps := by
  rcases Nat.le_total old.length steps.length with hle | hle
  · have hwrite : (writeLoop steps 0 old.length old : Result VaultError (List Step)) =
        .ok (steps.take old.length) := by
      rw [writeLoop_zero_eq hle (Nat.le_refl _)]
      simp
    have hpush : (pushLoop steps old.length (steps.length - old.length) (steps.take old.length) :
        Result VaultError (List Step)) = .ok steps := by
      have htake : (steps.drop old.length).take (steps.length - old.length) =
          steps.drop old.length := List.take_of_length_le (Nat.le_of_eq List.length_drop)
      rw [pushLoop_eq (by omega), htake, List.take_append_drop]
    have hpop : old.length - steps.length = 0 := by omega
    simp only [replaceSteps, Nat.min_eq_left hle, bind_eq_ok, hwrite, hpop]
    exact ⟨_, rfl, _, hpush, rfl⟩
  · have hwrite : (writeLoop steps 0 steps.length old : Result VaultError (List Step)) =
        .ok (steps ++ old.drop steps.length) := by
      rw [writeLoop_zero_eq (Nat.le_refl _) hle]
      simp
    have hpop : (popLoop (old.length - steps.length) (steps ++ old.drop steps.length) :
        Result VaultError (List Step)) = .ok steps := by
      rw [popLoop_eq (by simp)]
      simp
    simp only [replaceSteps, Nat.min_eq_right hle, bind_eq_ok, hwrite, Nat.sub_self]
    exact ⟨_, rfl, _, rfl, hpop⟩

/-- Growing or shrinking, the three loops leave the new context. -/
theorem replaceCtx_eq (old ctx : List Bytes) : replaceCtx old ctx = .ok ctx := by
  have hpop : (popLoop (old.length - ctx.length) (growLoop [] (ctx.length - old.length) old) :
      Result VaultError (List Bytes)) =
        .ok ((old ++ List.replicate (ctx.length - old.length) []).take ctx.length) := by
    rw [growLoop_eq, popLoop_eq (by simp only [List.length_append]; omega)]
    congr 2
    rw [List.length_append, List.length_replicate]
    omega
  have hlen : ((old ++ List.replicate (ctx.length - old.length) ([] : Bytes)).take
      ctx.length).length = ctx.length := by
    rw [List.length_take, List.length_append, List.length_replicate]
    omega
  simp only [replaceCtx, bind_eq_ok]
  refine ⟨_, hpop, ?_⟩
  rw [writeLoop_zero_eq (Nat.le_refl _) (by omega)]
  simp

theorem loadCtx_eq (v : State) : loadCtx v = .ok v.ctx := by
  rw [loadCtx, writeLoop_zero_eq (Nat.le_refl _) (by simp)]
  simp

theorem saveCtx_eq (ctx : List Bytes) (v : State) : saveCtx ctx v = .ok (v.setCtx ctx) := by
  rw [saveCtx, replaceCtx_eq]
  rfl

/-! ## Validation -/

/-- A step that may stand in an array of `n` steps. -/
structure ValidStep (n : Nat) (s : Step) : Prop where
  target : s.target ≠ Address.zero
  selector : s.selector ≠ 0
  nextOnTrue : s.nextOnTrue = DONE ∨ s.nextOnTrue < n
  nextOnFalse_condition : s.stepType = .condition → s.nextOnFalse = DONE ∨ s.nextOnFalse < n
  nextOnFalse_action : s.stepType = .action → s.nextOnFalse = DONE

/-- A step that passes is valid. -/
theorem validateStep_eq_ok {n i : Nat} {s : Step} :
    validateStep n i s = .ok () ↔ ValidStep n s := by
  have href (next : Nat) : ¬ (next ≠ DONE ∧ n ≤ next) ↔ next = DONE ∨ next < n := by
    omega
  constructor
  · intro h
    simp only [validateStep, bind_eq_ok, revertIf_eq_ok, href] at h
    obtain ⟨-, htarget, -, hselector, -, hTrue, h⟩ := h
    cases hs : s.stepType with
    | condition =>
      simp only [hs, revertIf_eq_ok, href] at h
      exact ⟨htarget, hselector, hTrue, fun _ => h, fun h' => by simp [hs] at h'⟩
    | action =>
      simp only [hs, revertIf_eq_ok, not_not] at h
      exact ⟨htarget, hselector, hTrue, fun h' => by simp [hs] at h', fun _ => h⟩
  · intro h
    simp only [validateStep, bind_eq_ok, revertIf_eq_ok, href]
    refine ⟨(), h.target, (), h.selector, (), h.nextOnTrue, ?_⟩
    cases hs : s.stepType with
    | condition => exact revertIf_of_not ((href _).2 (h.nextOnFalse_condition hs))
    | action => exact revertIf_of_not (not_not.2 (h.nextOnFalse_action hs))

/-- The loop passes where all steps are valid. -/
theorem validateLoop_eq_ok {steps : List Step} {len i n : Nat} (h : i + n ≤ steps.length) :
    validateLoop steps len i n = .ok () ↔ ∀ s ∈ (steps.drop i).take n, ValidStep len s := by
  induction n generalizing i with
  | zero => simp [validateLoop]
  | succ n ih =>
    have hlt : i < steps.length := by omega
    rw [List.drop_eq_getElem_cons hlt, List.take_succ_cons, List.forall_mem_cons,
      ← ih (by omega)]
    simp only [validateLoop, bind_eq_ok, readAt_eq_ok, List.getElem?_eq_getElem hlt,
      Option.some.injEq]
    constructor
    · rintro ⟨s, rfl, _, hs, hrest⟩
      exact ⟨validateStep_eq_ok.1 hs, hrest⟩
    · rintro ⟨hs, hrest⟩
      exact ⟨_, rfl, (), validateStep_eq_ok.2 hs, hrest⟩

/-- An automation whose every execution stays within its steps. -/
structure Executable (a : Automation) : Prop where
  nonempty : a.steps ≠ []
  valid : ∀ s ∈ a.steps, ValidStep a.steps.length s
  first : a.ownerOnly = false → ∃ s, a.steps[0]? = some s ∧ s.stepType = .condition

/-- The validation accepts exactly the executable lists, unless a length beyond `uint32` hides
steps from it. -/
theorem validateSteps_eq_ok {steps : List Step} {active ownerOnly : Bool}
    (hlen : steps.length < 2 ^ 32) :
    validateSteps steps ownerOnly = .ok () ↔ Executable ⟨active, ownerOnly, steps⟩ := by
  simp only [validateSteps, bind_eq_ok, revertIf_eq_ok, readAt_eq_ok, Nat.mod_eq_of_lt hlen]
  rw [validateLoop_eq_ok (by omega), List.drop_zero, List.take_length]
  constructor
  · rintro ⟨-, hne, s, hs, -, hfirst, hvalid⟩
    refine ⟨fun h => hne (List.length_eq_zero_iff.2 h), hvalid, fun hpub => ⟨s, hs, ?_⟩⟩
    exact not_not.1 fun hc => hfirst ⟨hpub, hc⟩
  · intro h
    have hpos : 0 < steps.length := List.length_pos_iff.2 h.nonempty
    refine ⟨(), by omega, steps[0], List.getElem?_eq_getElem hpos, (), ?_, h.valid⟩
    rintro ⟨hpub, hc⟩
    obtain ⟨s, hs, hcond⟩ := h.first hpub
    rw [List.getElem?_eq_getElem hpos, Option.some.injEq] at hs
    exact hc (hs ▸ hcond)

/-! ## The traversal -/

/-- The automation's steps whose rounds are run, in order. A round that only finds the step limit
reached runs no step. -/
def visited (env : Env) (sender owner : Address) (steps : List Step) (s : Loop) : List Nat :=
  ((whileStates Loop.running (Loop.round env sender owner steps) (maxSteps + 1) s).filter
    fun s => decide (s.stepCount < maxSteps)).map Loop.current

/-- Everything a round that returns can have done. -/
inductive Round (env : Env) (sender owner : Address) (s : Loop) (step : Step) : Loop → Prop where
  | condition {met : Bool} : step.stepType = .condition →
      checkCondition env s.stepCount step s.current s.ctx = .ok met →
      (s.current = 0 → s.stepCount = 0 → met = false → sender = owner) →
      Round env sender owner s step
        { s with
          triggerFired := if s.current = 0 ∧ s.stepCount = 0 then met else s.triggerFired
          current := if met then step.nextOnTrue else step.nextOnFalse
          stepCount := s.stepCount + 1 }
  | action {ctx : List Bytes} : step.stepType = .action →
      executeAction env s.stepCount step s.current s.ctx = .ok ctx →
      Round env sender owner s step
        { s with
          ctx := ctx
          ctxDirty := true
          current := step.nextOnTrue
          stepCount := s.stepCount + 1 }

section Rounds

variable {env : Env} {sender owner : Address} {steps : List Step} {s s' : Loop}

/-- A round that succeeds runs the current step. -/
theorem round_ok (h : s.round env sender owner steps = .ok s') :
    s.stepCount < maxSteps ∧
      ∃ step, steps[s.current]? = some step ∧ Round env sender owner s step s' := by
  simp only [Loop.round, bind_eq_ok, revertIf_eq_ok, readAt_eq_ok] at h
  obtain ⟨-, hcount, step, hstep, h⟩ := h
  refine ⟨Nat.lt_of_not_le hcount, step, hstep, ?_⟩
  cases htype : step.stepType with
  | condition =>
    simp only [htype, bind_eq_ok, revertIf_eq_ok, pure_eq_ok] at h
    obtain ⟨met, hmet, -, htrigger, rfl⟩ := h
    have howner : s.current = 0 → s.stepCount = 0 → met = false → sender = owner := by
      intro hc hn hm
      by_contra hne
      exact htrigger ⟨by simp [hc, hn], hm, hne⟩
    have h := Round.condition htype hmet howner
    simpa using h
  | action =>
    simp only [htype, bind_eq_ok, pure_eq_ok] at h
    obtain ⟨ctx, hctx, rfl⟩ := h
    exact .action htype hctx

theorem Round.stepCount {step : Step} (h : Round env sender owner s step s') :
    s'.stepCount = s.stepCount + 1 := by
  cases h with
  | condition => rfl
  | action => rfl

/-- The reverts that the contract declares, and that of the ABI decoder. -/
def Declared (r : Revert VaultError) : Prop := (∃ e, r = .error e) ∨ r = .decode

/-- The reverts of a condition or an action, and of reading what it answers. -/
inductive StepFailure : Revert VaultError → Prop where
  | condition (i : Nat) (reason : Bytes) : StepFailure (.error (.conditionCallFailed i reason))
  | action (i : Nat) (reason : Bytes) : StepFailure (.error (.actionExecutionFailed i reason))
  | slot (slot : Nat) : StepFailure (.error (.contextSlotOutOfBounds slot))
  | diff : StepFailure (.error .contextDiffLengthMismatch)
  | decode : StepFailure .decode

/-- A failing step has a declared error. -/
theorem StepFailure.declared {r : Revert VaultError} (h : StepFailure r) : Declared r := by
  cases h with
  | condition i reason => exact Or.inl ⟨_, rfl⟩
  | action i reason => exact Or.inl ⟨_, rfl⟩
  | slot slot => exact Or.inl ⟨_, rfl⟩
  | diff => exact Or.inl ⟨_, rfl⟩
  | decode => exact Or.inr rfl

/-- Data that cannot be decoded fails a step. -/
theorem decoded_fails {α : Type} {o : Option α} {r : Revert VaultError}
    (h : (decoded o : Result VaultError α) = .error r) : StepFailure r := by
  cases o with
  | none =>
    cases h
    exact .decode
  | some a => cases h

/-- A condition fails as a step does. -/
theorem checkCondition_fails {k i : Nat} {step : Step} {ctx : List Bytes} {r : Revert VaultError}
    (h : checkCondition env k step i ctx = .error r) : StepFailure r := by
  rw [checkCondition] at h
  cases hcall : env.staticcall k step.target step.selector step.data ctx with
  | failure reason =>
    rw [hcall] at h
    cases h
    exact .condition i reason
  | success ret =>
    rw [hcall] at h
    rcases bind_eq_error.1 h with h | ⟨-, -, h⟩
    · rw [(revertIf_eq_error.1 h).2]
      exact .condition i ret
    · exact decoded_fails h

/-- A diff that does not fit fails a step. -/
theorem applyDiff_fails {slots : List Nat} {values ctx : List Bytes} {r : Revert VaultError}
    (h : applyDiff slots values ctx = .error r) : StepFailure r := by
  induction slots generalizing values ctx with
  | nil => cases h
  | cons slot slots ih =>
    cases values with
    | nil => cases h
    | cons value values =>
      rw [applyDiff] at h
      rcases bind_eq_error.1 h with h | ⟨_, hle, h⟩
      · rw [(revertIf_eq_error.1 h).2]
        exact .slot slot
      · have hlt : slot < ctx.length := Nat.lt_of_not_le (revertIf_eq_ok.1 hle)
        rcases bind_eq_error.1 h with h | ⟨ctx', -, h⟩
        · rw [writeAt, if_pos hlt] at h
          cases h
        · exact ih h

/-- An action fails as a step does. -/
theorem executeAction_fails {k i : Nat} {step : Step} {ctx : List Bytes} {r : Revert VaultError}
    (h : executeAction env k step i ctx = .error r) : StepFailure r := by
  rw [executeAction] at h
  cases hcall : env.delegatecall k step.target step.selector step.data ctx with
  | failure reason =>
    rw [hcall] at h
    cases h
    exact .action i reason
  | success ret =>
    simp only [hcall] at h
    by_cases hret : 0 < ret.length
    · rw [if_pos hret] at h
      rcases bind_eq_error.1 h with h | ⟨⟨slots, values⟩, -, h⟩
      · exact decoded_fails h
      · rcases bind_eq_error.1 h with h | ⟨-, -, h⟩
        · rw [(revertIf_eq_error.1 h).2]
          exact .diff
        · exact applyDiff_fails h
    · rw [if_neg hret] at h
      cases h

/-- What stops a round at a step of the array: the step limit, the trigger, or the step itself. -/
theorem round_error (hlt : s.current < steps.length) {r : Revert VaultError}
    (h : s.round env sender owner steps = .error r) :
    (maxSteps ≤ s.stepCount ∧ r = .error .maxStepsExceeded) ∨ r = .error .triggerNotMet ∨
      StepFailure r := by
  rw [Loop.round] at h
  rcases bind_eq_error.1 h with h | ⟨-, -, h⟩
  · exact Or.inl (revertIf_eq_error.1 h)
  rcases bind_eq_error.1 h with h | ⟨step, -, h⟩
  · rw [readAt, List.getElem?_eq_getElem hlt] at h
    cases h
  cases htype : step.stepType with
  | condition =>
    rw [htype] at h
    rcases bind_eq_error.1 h with h | ⟨met, -, h⟩
    · exact Or.inr (Or.inr (checkCondition_fails h))
    · rcases bind_eq_error.1 h with h | ⟨-, -, h⟩
      · exact Or.inr (Or.inl (revertIf_eq_error.1 h).2)
      · cases h
  | action =>
    rw [htype] at h
    rcases bind_eq_error.1 h with h | ⟨ctx, -, h⟩
    · exact Or.inr (Or.inr (executeAction_fails h))
    · cases h

/-- A round at a step of the array reverts as declared. -/
theorem round_declared (hlt : s.current < steps.length) {r : Revert VaultError}
    (h : s.round env sender owner steps = .error r) : Declared r := by
  rcases round_error hlt h with ⟨-, rfl⟩ | rfl | h
  · exact Or.inl ⟨_, rfl⟩
  · exact Or.inl ⟨_, rfl⟩
  · exact h.declared

/-- The loop invariant: the traversal stands at a step of the array or is done, and has run no more
steps than it may. -/
structure InArray (steps : List Step) (s : Loop) : Prop where
  current : s.current = DONE ∨ s.current < steps.length
  stepCount : s.stepCount ≤ maxSteps

theorem running_iff : s.running = true ↔ s.current ≠ DONE := bne_iff_ne

theorem InArray.lt (hs : InArray steps s) (hrun : s.running = true) : s.current < steps.length :=
  hs.current.resolve_left (running_iff.1 hrun)

/-- A round goes on at a step of the array, or ends. -/
theorem round_inArray (hvalid : ∀ s ∈ steps, ValidStep steps.length s)
    (h : s.round env sender owner steps = .ok s') : InArray steps s' := by
  obtain ⟨hcount, step, hstep, hround⟩ := round_ok h
  have hv := hvalid step (List.mem_of_getElem? hstep)
  refine ⟨?_, ?_⟩
  · cases hround with
    | @condition met htype _ _ =>
      cases met with
      | true => exact hv.nextOnTrue
      | false => exact hv.nextOnFalse_condition htype
    | action htype _ => exact hv.nextOnTrue
  · rw [hround.stepCount]
    exact hcount

/-- **The traversal ends.** Over valid steps it reads no step outside the array, runs at most
`maxSteps` of them, and returns or reverts as declared. -/
theorem traverse_ends (env : Env) (sender owner : Address)
    (hvalid : ∀ s ∈ steps, ValidStep steps.length s) (hs : InArray steps s) :
    (∀ i ∈ visited env sender owner steps s, i < steps.length) ∧
      (visited env sender owner steps s).length ≤ maxSteps - s.stepCount ∧
      ((∃ t, traverse env sender owner steps s = .ok t) ∨
        ∃ r, traverse env sender owner steps s = .error r ∧ Declared r) := by
  -- the invariant: `current` is an index or `DONE`, and the count is within the limit
  have hI (s s' : Loop) (_ : InArray steps s) (_ : s.running = true)
      (h : s.round env sender owner steps = .ok s') : InArray steps s' := round_inArray hvalid h
  refine ⟨fun i hi => ?_, ?_, ?_⟩
  · obtain ⟨t, ht, rfl⟩ := List.mem_map.1 hi
    obtain ⟨hin, hrun⟩ := whileStates_invariant hI hs (List.mem_filter.1 ht).1
    exact hin.lt hrun
  · rw [visited, List.length_map, ← List.countP_eq_length_filter]
    refine countP_whileStates_le (I := InArray steps) (m := fun s => maxSteps - s.stepCount)
      (fun s s' hin hrun h => ?_) (fun s _ _ hp => ?_) hs
    · obtain ⟨hcount, step, -, hround⟩ := round_ok h
      refine ⟨hI s s' hin hrun h, ?_⟩
      rw [hround.stepCount, if_pos (decide_eq_true hcount)]
      omega
    · have hlt := of_decide_eq_true hp
      omega
  -- the fuel is enough: each round adds to the count, which stays within `maxSteps`
  · obtain ⟨r, hr⟩ : ∃ r, whileLoop Loop.running (Loop.round env sender owner steps) (maxSteps + 1) s
        = some r := by
      refine whileLoop_isSome (I := InArray steps) (m := fun s => maxSteps + 1 - s.stepCount)
        (fun s s' hin hrun h => ⟨hI s s' hin hrun h, ?_⟩) hs (Nat.sub_le _ _) (fun s hin _ => ?_)
      · obtain ⟨hcount, step, -, hround⟩ := round_ok h
        rw [hround.stepCount]
        omega
      · have hle := hin.stepCount
        omega
    cases r with
    | ok t =>
      refine Or.inl ⟨t, ?_⟩
      simp only [traverse, hr]
    | error e =>
      obtain ⟨t, hin, hrun, ht⟩ := whileLoop_error hI hs hr
      refine Or.inr ⟨e, ?_, round_declared (hin.lt hrun) ht⟩
      simp only [traverse, hr]

/-- A trigger that is not met refuses everybody but the owner. -/
theorem round_refused {first : Step} (hfirst : steps[0]? = some first)
    (hcond : first.stepType = .condition) (hsender : sender ≠ owner) (hcurrent : s.current = 0)
    (hcount : s.stepCount = 0) (hcheck : checkCondition env 0 first 0 s.ctx = .ok false) :
    s.round env sender owner steps = .error (.error .triggerNotMet) := by
  cases hs' : s.round env sender owner steps with
  | ok s' =>
    exfalso
    obtain ⟨-, step, hstep, hround⟩ := round_ok hs'
    rw [hcurrent, hfirst, Option.some.injEq] at hstep
    subst hstep
    cases hround with
    | @condition met htype hmet howner =>
      rw [hcurrent, hcount, hcheck] at hmet
      cases hmet
      exact hsender (howner hcurrent hcount rfl)
    | action htype _ =>
      rw [hcond] at htype
      cases htype
  | error r =>
    -- the checks of a round in their order: none before the trigger's can fail
    rw [Loop.round] at hs'
    rcases bind_eq_error.1 hs' with h | ⟨-, -, h⟩
    · have hmax := (revertIf_eq_error.1 h).1
      rw [hcount] at hmax
      exact absurd hmax (by decide)
    rcases bind_eq_error.1 h with h | ⟨step, hread, h⟩
    · rw [readAt, hcurrent, hfirst] at h
      cases h
    rw [readAt_eq_ok, hcurrent, hfirst, Option.some.injEq] at hread
    subst hread
    rw [hcond] at h
    rcases bind_eq_error.1 h with h | ⟨met, -, h⟩
    · rw [hcurrent, hcount, hcheck] at h
      cases h
    rcases bind_eq_error.1 h with h | ⟨-, -, h⟩
    · rw [(revertIf_eq_error.1 h).2]
    · cases h

/-- A stranger whose trigger is not met is refused. -/
theorem traverse_refused {first : Step} (hfirst : steps[0]? = some first)
    (hcond : first.stepType = .condition) (hsender : sender ≠ owner) (hcurrent : s.current = 0)
    (hcount : s.stepCount = 0) (hcheck : checkCondition env 0 first 0 s.ctx = .ok false) :
    traverse env sender owner steps s = .error (.error .triggerNotMet) := by
  have hrun : s.running = true := by
    rw [running_iff, hcurrent]
    decide
  have hround := round_refused hfirst hcond hsender hcurrent hcount hcheck
  simp only [traverse, whileLoop_fail hrun hround]

/-- A diff keeps the number of slots. -/
theorem applyDiff_length {slots : List Nat} {values ctx ctx' : List Bytes}
    (h : applyDiff slots values ctx = .ok ctx') : ctx'.length = ctx.length := by
  induction slots generalizing values ctx with
  | nil =>
    cases h
    rfl
  | cons slot slots ih =>
    cases values with
    | nil =>
      cases h
      rfl
    | cons value values =>
      simp only [applyDiff, bind_eq_ok, revertIf_eq_ok] at h
      obtain ⟨-, hle, written, hwrite, h⟩ := h
      rw [writeAt, if_pos (Nat.lt_of_not_le hle)] at hwrite
      cases hwrite
      rw [ih h, List.length_set]

/-- An action keeps the number of slots. -/
theorem executeAction_length {k i : Nat} {s : Step} {ctx ctx' : List Bytes}
    (h : executeAction env k s i ctx = .ok ctx') : ctx'.length = ctx.length := by
  rw [executeAction] at h
  split at h
  · cases h
  · split at h
    · obtain ⟨⟨slots, values⟩, -, h⟩ := bind_eq_ok.1 h
      obtain ⟨-, -, h⟩ := bind_eq_ok.1 h
      exact applyDiff_length h
    · cases h
      rfl

/-- A traversal that succeeds is a run of the while loop. -/
theorem traverse_ok {s t : Loop} (h : traverse env sender owner steps s = .ok t) :
    whileLoop Loop.running (Loop.round env sender owner steps) (maxSteps + 1) s =
      some (.ok t) := by
  rw [traverse] at h
  split at h
  · rename_i r hr
    rw [hr, h]
  · cases h

theorem Round.ctx_length {step : Step} (h : Round env sender owner s step s') :
    s'.ctx.length = s.ctx.length := by
  cases h with
  | condition => rfl
  | action _ hctx => exact executeAction_length hctx

/-- No step changes the number of slots. -/
theorem traverse_length {s t : Loop} (h : traverse env sender owner steps s = .ok t) :
    t.ctx.length = s.ctx.length := by
  refine (whileLoop_ok (I := fun u : Loop => u.ctx.length = s.ctx.length) ?_ rfl
    (traverse_ok h)).1
  intro u u' hu _ hround
  obtain ⟨-, st, -, hr⟩ := round_ok hround
  exact hr.ctx_length.trans hu

end Rounds

/-! ## What a transaction does -/

/-- The local variables before the loop. -/
def startLoop (v : State) (a : Automation) : Loop where
  ctx := v.ctx
  current := 0
  stepCount := 0
  triggerFired := a.ownerOnly && match a.steps[0]? with
    | some first => decide (first.stepType = .action)
    | none => false
  ctxDirty := false

/-- The loop starts at the first step. -/
theorem loopStart_ok {v : State} {a : Automation} {s : Loop} (h : Loop.start v a = .ok s) :
    s = startLoop v a := by
  simp only [Loop.start, loadCtx_eq, bind_eq_ok, Except.ok.injEq, exists_eq_left'] at h
  cases hown : a.ownerOnly with
  | false =>
    simp only [hown, Bool.false_eq_true, if_false, pure_eq_ok] at h
    simp [startLoop, hown, ← h]
  | true =>
    simp only [hown, if_true, bind_eq_ok, readAt_eq_ok, pure_eq_ok] at h
    obtain ⟨first, hfirst, rfl⟩ := h
    simp [startLoop, hown, hfirst]

/-- With a step there is a start. -/
theorem loopStart_eq {v : State} {a : Automation} (h : a.steps ≠ []) :
    Loop.start v a = .ok (startLoop v a) := by
  cases hs : Loop.start v a with
  | ok s => rw [loopStart_ok hs]
  | error e =>
    exfalso
    have hpos : 0 < a.steps.length := List.length_pos_iff.2 h
    simp only [Loop.start, loadCtx_eq] at hs
    change (if a.ownerOnly then _ else _) = _ at hs
    split at hs
    · rw [readAt, List.getElem?_eq_getElem hpos] at hs
      cases hs
    · cases hs

/-- The context that an execution saves, from the local variables at the end of its loop. -/
def finalCtx (env : Env) (steps : List Step) (s : Loop) : List Bytes :=
  if s.triggerFired then
    match steps[0]? with
    | some trigger => updateTriggerCondition env s.stepCount trigger s.ctx
    | none => s.ctx
  else s.ctx

/-- An execution of the automation `id` in the state `v`, whose loop ended with `s`. -/
structure Execution (v : State) (env : Env) (sender : Address) (id : Nat) (s : Loop) : Prop where
  exists_id : id < v.automationCount
  active : (v.automations id).active = true
  owner : (v.automations id).ownerOnly = true → sender = v.owner
  traverse : traverse env sender v.owner (v.automations id).steps
    (startLoop v (v.automations id)) = .ok s

/-- Two states with the same automations, owner and wiring. -/
structure SameConfig (v v' : State) : Prop where
  owner : v'.owner = v.owner
  automations : v'.automations = v.automations
  automationCount : v'.automationCount = v.automationCount

/-- Without an action the loop leaves the context as it found it. -/
theorem traverse_clean {env : Env} {sender owner : Address} {steps : List Step} {s t : Loop}
    (h : traverse env sender owner steps s = .ok t)
    (ht : t.ctxDirty = false) : t.ctx = s.ctx := by
  rw [traverse] at h
  cases hw : whileLoop Loop.running (Loop.round env sender owner steps) (maxSteps + 1) s with
  | none => simp [hw] at h
  | some r =>
    simp only [hw] at h
    subst h
    have hinv := whileLoop_ok (I := fun u : Loop => u.ctxDirty = false → u.ctx = s.ctx) ?_
      (fun _ => rfl) hw
    · exact hinv.1 ht
    · intro u u' hu _ hround hdirty
      obtain ⟨-, step, -, hr⟩ := round_ok hround
      cases hr with
      | condition => exact hu hdirty
      | action => cases hdirty

/-- To settle the compensation keeps the configuration and the context. -/
theorem settleGasComp_ok {env : Env} {id : Nat} {sender : Address} {v v' : State}
    (h : settleGasComp env id sender v = .ok v') : SameConfig v v' ∧ v'.ctx = v.ctx := by
  rw [settleGasComp] at h
  split at h
  · rw [pure_eq_ok] at h
    subst h
    exact ⟨⟨rfl, rfl, rfl⟩, rfl⟩
  · obtain ⟨n, -, h⟩ := bind_eq_ok.1 h
    split at h
    · rw [pure_eq_ok] at h
      subst h
      exact ⟨⟨rfl, rfl, rfl⟩, rfl⟩
    · rw [pure_eq_ok] at h
      subst h
      exact ⟨⟨rfl, rfl, rfl⟩, rfl⟩

/-- **What an execution does**: it runs the loop, updates the trigger, and saves that context. -/
theorem executeAutomation_ok {env : Env} {sender : Address} {id : Nat} {v v' : State}
    (h : executeAutomation env sender id v = .ok v') :
    ∃ s, Execution v env sender id s ∧ SameConfig v v' ∧
      v'.ctx = finalCtx env (v.automations id).steps s := by
  simp only [executeAutomation, bind_eq_ok, revertIf_eq_ok] at h
  obtain ⟨-, hid, -, hactive, -, howner, s₀, hstart, s, htraverse, s', hupdate, w, hsave, w', hgas,
    hend⟩ := h
  obtain rfl := loopStart_ok hstart
  have hexec : Execution v env sender id s := by
    refine ⟨Nat.lt_of_not_le hid, by simpa using hactive, fun hown => ?_, htraverse⟩
    by_contra hne
    exact howner ⟨hown, hne⟩
  -- the trigger's update, if it has fired
  have hs' : s'.ctx = finalCtx env (v.automations id).steps s ∧
      (s'.ctxDirty = false → s'.ctx = v.ctx) := by
    rw [updateTrigger] at hupdate
    cases hfired : s.triggerFired with
    | true =>
      simp only [hfired, if_true, bind_eq_ok, readAt_eq_ok, pure_eq_ok] at hupdate
      obtain ⟨trigger, htrigger, rfl⟩ := hupdate
      refine ⟨?_, fun hd => by cases hd⟩
      simp [finalCtx, hfired, htrigger]
    | false =>
      simp only [hfired, Bool.false_eq_true, if_false, pure_eq_ok] at hupdate
      subst hupdate
      refine ⟨?_, fun hd => traverse_clean htraverse hd⟩
      simp [finalCtx, hfired]
  -- a context that is not dirty is the stored one, so it need not be saved
  have hw : SameConfig v w ∧ w.ctx = s'.ctx := by
    cases hd : s'.ctxDirty with
    | true =>
      rw [saveIfDirty, hd, if_pos rfl, saveCtx_eq] at hsave
      cases hsave
      exact ⟨⟨rfl, rfl, rfl⟩, rfl⟩
    | false =>
      rw [saveIfDirty, hd] at hsave
      cases hsave
      exact ⟨⟨rfl, rfl, rfl⟩, (hs'.2 hd).symm⟩
  -- the payment moves only the deposit
  have hw' : SameConfig w w' ∧ w'.ctx = w.ctx := by
    rw [settleExecutor] at hgas
    split at hgas
    · exact settleGasComp_ok hgas
    · cases hgas
      exact ⟨⟨rfl, rfl, rfl⟩, rfl⟩
  rw [pure_eq_ok] at hend
  subst hend
  refine ⟨s, hexec, ⟨?_, ?_, ?_⟩, ?_⟩
  · exact hw'.1.owner.trans hw.1.owner
  · exact hw'.1.automations.trans hw.1.automations
  · exact hw'.1.automationCount.trans hw.1.automationCount
  · exact hw'.2.trans (hw.2.trans hs'.1)

/-- What stops an execution: a guard, the traversal, or the registry's refusal to pay the executor. -/
theorem executeAutomation_error {env : Env} {sender : Address} {id : Nat} {v : State}
    {r : Revert VaultError} (ha : (v.automations id).steps ≠ [])
    (h : executeAutomation env sender id v = .error r) :
    (r = .error .automationDoesNotExist ∨ r = .error .automationNotActive ∨
        r = .error .callerNotOwner) ∨
      traverse env sender v.owner (v.automations id).steps (startLoop v (v.automations id)) =
        .error r ∨
      r = .external := by
  rw [executeAutomation] at h
  rcases bind_eq_error.1 h with h | ⟨-, -, h⟩
  · exact Or.inl (Or.inl (revertIf_eq_error.1 h).2)
  rcases bind_eq_error.1 h with h | ⟨-, -, h⟩
  · exact Or.inl (Or.inr (Or.inl (revertIf_eq_error.1 h).2))
  rcases bind_eq_error.1 h with h | ⟨-, -, h⟩
  · exact Or.inl (Or.inr (Or.inr (revertIf_eq_error.1 h).2))
  rcases bind_eq_error.1 h with h | ⟨s₀, hs₀, h⟩
  · rw [loopStart_eq ha] at h
    cases h
  rw [loopStart_ok hs₀] at h
  rcases bind_eq_error.1 h with h | ⟨s, -, h⟩
  · exact Or.inr (Or.inl h)
  -- after the loop only the registry can still refuse
  rcases bind_eq_error.1 h with h | ⟨s', -, h⟩
  · rw [updateTrigger] at h
    split at h
    · rw [readAt, List.getElem?_eq_getElem (List.length_pos_iff.2 ha)] at h
      cases h
    · cases h
  rcases bind_eq_error.1 h with h | ⟨w, -, h⟩
  · rw [saveIfDirty] at h
    split at h
    · rw [saveCtx_eq] at h
      cases h
    · cases h
  rcases bind_eq_error.1 h with h | ⟨w', -, h⟩
  · rw [settleExecutor] at h
    split at h
    · rw [settleGasComp] at h
      split at h
      · cases h
      · rcases bind_eq_error.1 h with h | ⟨n, -, h⟩
        · cases hreg : env.deductGasComp w.feeRegistry w.depositToken sender env.gasUsed with
          | none =>
            rw [hreg] at h
            cases h
            exact Or.inr (Or.inr rfl)
          | some n =>
            rw [hreg] at h
            cases h
        · split at h
          · cases h
          · cases h
    · cases h
  · cases h

/-- Everything a transaction that succeeds can have done. -/
inductive Effect (v : State) (tx : Tx) : State → Prop where
  | created {steps : List Step} {ownerOnly : Bool} :
      tx.op = (if ownerOnly then .createOwnerAutomation steps else .createAutomation steps) →
      validateSteps steps ownerOnly = .ok () →
      Effect v tx ((({ v with automationCount := v.automationCount + 1 }).setAutomation
        v.automationCount ⟨true, ownerOnly, (v.automations v.automationCount).steps ++ steps⟩).emit
          (.automationCreated v.automationCount steps.length))
  | stepsUpdated {id : Nat} {steps : List Step} : tx.op = .updateAutomationSteps id steps →
      id < v.automationCount → validateSteps steps (v.automations id).ownerOnly = .ok () →
      Effect v tx ((v.setAutomation id { v.automations id with steps := steps }).emit
        (.automationStepsUpdated id steps.length))
  | activeChanged {id : Nat} {active : Bool} : tx.op = .setAutomationActive id active →
      id < v.automationCount →
      Effect v tx ((v.setAutomation id { v.automations id with active := active }).emit
        (.automationActiveChanged id active))
  | contextSet {ctx : List Bytes} {v' : State} : tx.op = .setContext ctx → SameConfig v v' →
      v'.ctx = ctx → Effect v tx v'
  | contextSlotSet {slot : Nat} {value : Bytes} {v' : State} : tx.op = .setContextSlot slot value →
      slot < v.ctx.length → SameConfig v v' → v'.ctx = v.ctx.set slot value → Effect v tx v'
  | minFeeDeposit {n : Nat} {v' : State} : tx.op = .setMinFeeDeposit n → SameConfig v v' →
      v'.ctx = v.ctx → Effect v tx v'
  | executed {id : Nat} {s : Loop} {v' : State} : tx.op = .executeAutomation id →
      Execution v tx.env tx.sender id s → SameConfig v v' →
      v'.ctx = finalCtx tx.env (v.automations id).steps s → Effect v tx v'

/-- The automation that is stored, active and with its steps. -/
theorem storeAutomation_ok {steps : List Step} {ownerOnly : Bool} {v : State} {r : State × Nat}
    (h : storeAutomation steps ownerOnly v = .ok r) :
    r.1 = (({ v with automationCount := v.automationCount + 1 }).setAutomation v.automationCount
      ⟨true, ownerOnly, (v.automations v.automationCount).steps ++ steps⟩).emit
        (.automationCreated v.automationCount steps.length) := by
  simp only [storeAutomation] at h
  have hpush : (pushLoop steps 0 steps.length (v.automations v.automationCount).steps :
      Result VaultError (List Step)) = .ok ((v.automations v.automationCount).steps ++ steps) := by
    rw [pushLoop_eq (by omega)]
    simp
  split at h
  · cases h
  · rw [hpush] at h
    cases h
    rfl

/-- **What a transaction does.** -/
theorem call_effect {v v' : State} {tx : Tx} (h : call v tx = .ok v') : Effect v tx v' := by
  rw [call] at h
  cases hop : tx.op with
  -- each operation: its guards, and the one write that is left
  | createAutomation steps =>
    simp only [hop, createAutomation, onlyOwner, bind_eq_ok, revertIf_eq_ok, pure_eq_ok] at h
    obtain ⟨r, ⟨-, -, _, hvalid, hstore⟩, rfl⟩ := h
    rw [storeAutomation_ok hstore]
    have hop' : tx.op = if false then .createOwnerAutomation steps else .createAutomation steps := hop
    exact .created hop' hvalid
  | createOwnerAutomation steps =>
    simp only [hop, createOwnerAutomation, onlyOwner, bind_eq_ok, revertIf_eq_ok, pure_eq_ok] at h
    obtain ⟨r, ⟨-, -, _, hvalid, hstore⟩, rfl⟩ := h
    rw [storeAutomation_ok hstore]
    have hop' : tx.op = if true then .createOwnerAutomation steps else .createAutomation steps := hop
    exact .created hop' hvalid
  | updateAutomationSteps id steps =>
    simp only [hop, updateAutomationSteps, onlyOwner, bind_eq_ok, revertIf_eq_ok, pure_eq_ok,
      replaceSteps_eq, Except.ok.injEq] at h
    obtain ⟨-, -, -, hid, _, hvalid, stored, rfl, rfl⟩ := h
    exact .stepsUpdated hop (Nat.lt_of_not_le hid) hvalid
  | setAutomationActive id active =>
    simp only [hop, setAutomationActive, onlyOwner, bind_eq_ok, revertIf_eq_ok, pure_eq_ok] at h
    obtain ⟨-, -, -, hid, rfl⟩ := h
    exact .activeChanged hop (Nat.lt_of_not_le hid)
  | setContext ctx =>
    simp only [hop, setContext, onlyOwner, bind_eq_ok, revertIf_eq_ok, pure_eq_ok, replaceCtx_eq,
      Except.ok.injEq] at h
    obtain ⟨-, -, stored, rfl, rfl⟩ := h
    exact .contextSet hop ⟨rfl, rfl, rfl⟩ rfl
  | setContextSlot slot value =>
    simp only [hop, setContextSlot, onlyOwner, bind_eq_ok, revertIf_eq_ok, pure_eq_ok] at h
    obtain ⟨-, -, -, hslot, stored, hwrite, rfl⟩ := h
    have hlt : slot < v.ctx.length := Nat.lt_of_not_le hslot
    rw [writeAt, if_pos hlt] at hwrite
    cases hwrite
    exact .contextSlotSet hop hlt ⟨rfl, rfl, rfl⟩ rfl
  | setMinFeeDeposit n =>
    simp only [hop, setMinFeeDeposit, onlyOwner, bind_eq_ok, revertIf_eq_ok, pure_eq_ok] at h
    obtain ⟨-, -, rfl⟩ := h
    exact .minFeeDeposit hop ⟨rfl, rfl, rfl⟩ rfl
  | executeAutomation id =>
    simp only [hop] at h
    obtain ⟨s, hexec, hsame, hctx⟩ := executeAutomation_ok h
    exact .executed hop hexec hsame hctx

/-- A step of the vault has the effect of its transaction, or none. -/
theorem step_effect (v : State) (tx : Tx) : step v tx = v ∨ Effect v tx (step v tx) := by
  cases h : call v tx with
  | error e =>
    left
    simp only [step, h]
  | ok v' =>
    right
    simp only [step, h]
    exact call_effect h

/-- The owner's `setContext` replaces the whole context. -/
theorem step_setContext_ctx {v : State} {tx : Tx} {ctx : List Bytes} (hop : tx.op = .setContext ctx)
    (hsender : tx.sender = v.owner) : (step v tx).ctx = ctx := by
  have howner : (revertIf (tx.sender ≠ v.owner) (.ownableUnauthorizedAccount tx.sender) :
      Result VaultError Unit) = .ok () := revertIf_of_not (not_not.2 hsender)
  have hcall : call v tx = .ok (v.setCtx ctx) := by
    simp only [call, hop, setContext, onlyOwner, bind_eq_ok, pure_eq_ok]
    exact ⟨(), howner, ctx, replaceCtx_eq v.ctx ctx, rfl⟩
  simp only [step, hcall, State.setCtx_ctx]

/-- New steps leave the context alone. -/
theorem step_updateAutomationSteps_ctx {v : State} {tx : Tx} {id : Nat} {steps : List Step}
    (hop : tx.op = .updateAutomationSteps id steps) : (step v tx).ctx = v.ctx := by
  cases h : call v tx with
  | error e => simp only [step, h]
  | ok v' =>
    have hcall : updateAutomationSteps tx.sender id steps v = .ok v' := by
      rwa [call, hop] at h
    simp only [updateAutomationSteps, bind_eq_ok, pure_eq_ok] at hcall
    obtain ⟨-, -, -, -, -, -, stored, -, rfl⟩ := hcall
    simp only [step, h, State.emit_ctx, State.setAutomation_ctx]

/-! ## The storage invariant -/

/-- Every automation of the vault is executable, and no other has steps. -/
structure Stored (v : State) : Prop where
  executable : ∀ id < v.automationCount, Executable (v.automations id)
  unused : ∀ id, v.automationCount ≤ id → (v.automations id).steps = []

/-- Step arrays are shorter than `2^32`. -/
def Bounded (tx : Tx) : Prop :=
  match tx.op with
  | .createAutomation steps => steps.length < 2 ^ 32
  | .createOwnerAutomation steps => steps.length < 2 ^ 32
  | .updateAutomationSteps _ steps => steps.length < 2 ^ 32
  | _ => True

/-- The initial states: a vault right after its initializer. -/
def Initial (v : State) : Prop := ∃ owner registry token, v = initialized owner registry token

theorem SameConfig.stored {v v' : State} (h : SameConfig v v') (hv : Stored v) : Stored v' := by
  constructor
  · rw [h.automationCount, h.automations]
    exact hv.executable
  · rw [h.automationCount, h.automations]
    exact hv.unused

/-- An automation is replaced by an executable one. -/
theorem Stored.setAutomation {v : State} (hv : Stored v) {id : Nat} (hid : id < v.automationCount)
    {a : Automation} (ha : Executable a) {log : Log} : Stored ((v.setAutomation id a).emit log) := by
  refine ⟨fun id' hid' => ?_, fun id' hid' => ?_⟩
  · rcases eq_or_ne id' id with rfl | hne
    · simp only [State.emit_automations, State.setAutomation, Function.update_self]
      exact ha
    · simp only [State.emit_automations, State.setAutomation, Function.update_of_ne hne]
      exact hv.executable id' hid'
  · have hne : id' ≠ id := by
      have hid'' : v.automationCount ≤ id' := hid'
      omega
    simp only [State.emit_automations, State.setAutomation, Function.update_of_ne hne]
    exact hv.unused id' hid'

/-- A transaction keeps the bounds of what is stored. -/
theorem step_stored (v : State) (tx : Tx) (hv : Stored v) (htx : Bounded tx) :
    Stored (step v tx) := by
  rcases step_effect v tx with h | h
  · rw [h]
    exact hv
  generalize step v tx = v' at h
  cases h with
  | @created steps ownerOnly hop hvalid =>
    have hlen : steps.length < 2 ^ 32 := by
      cases ownerOnly with
      | true =>
        simp only [Bounded, hop, if_true] at htx
        exact htx
      | false =>
        simp only [Bounded, hop, Bool.false_eq_true, if_false] at htx
        exact htx
    -- what is created has passed the validation, and a new id held nothing before
    have hnew : Executable ⟨true, ownerOnly, steps⟩ := (validateSteps_eq_ok hlen).1 hvalid
    refine ⟨fun id hid => ?_, fun id hid => ?_⟩
    · have hid' : id < v.automationCount + 1 := hid
      rcases eq_or_ne id v.automationCount with rfl | hne
      · simp only [State.emit_automations, State.setAutomation, Function.update_self,
          hv.unused _ (Nat.le_refl _), List.nil_append]
        exact hnew
      · simp only [State.emit_automations, State.setAutomation, Function.update_of_ne hne]
        exact hv.executable id (by omega)
    · have hid' : v.automationCount + 1 ≤ id := hid
      have hne : id ≠ v.automationCount := by omega
      simp only [State.emit_automations, State.setAutomation, Function.update_of_ne hne]
      exact hv.unused id (by omega)
  | @stepsUpdated id steps hop hid hvalid =>
    have hlen : steps.length < 2 ^ 32 := by
      simp only [Bounded, hop] at htx
      exact htx
    exact hv.setAutomation hid ((validateSteps_eq_ok hlen).1 hvalid)
  | @activeChanged id active hop hid =>
    have hexec := hv.executable id hid
    have hkept : Executable { v.automations id with active := active } :=
      ⟨hexec.nonempty, hexec.valid, hexec.first⟩
    exact hv.setAutomation hid hkept
  | contextSet _ hsame _ => exact hsame.stored hv
  | contextSlotSet _ _ hsame _ => exact hsame.stored hv
  | minFeeDeposit _ hsame _ => exact hsame.stored hv
  | executed _ _ hsame _ => exact hsame.stored hv

theorem reachable_stored {v : State} (h : Reachable step Initial (fun _ tx => Bounded tx) v) :
    Stored v := by
  refine h.invariant (fun v hv => ?_) step_stored
  obtain ⟨owner, registry, token, rfl⟩ := hv
  exact ⟨fun id hid => absurd hid (Nat.not_lt_zero id), fun _ _ => rfl⟩

/-- An automation is active only after it was created. -/
theorem step_created (v : State) (tx : Tx)
    (hv : ∀ id, (v.automations id).active = true → id < v.automationCount) :
    ∀ id, ((step v tx).automations id).active = true → id < (step v tx).automationCount := by
  rcases step_effect v tx with h | h
  · rw [h]
    exact hv
  generalize step v tx = v' at h
  -- where the automations stay, there is nothing to show
  have hsame {v'' : State} (h : SameConfig v v'') (id : Nat)
      (hactive : (v''.automations id).active = true) : id < v''.automationCount := by
    rw [h.automations] at hactive
    rw [h.automationCount]
    exact hv id hactive
  intro id hactive
  cases h with
  | created hop hvalid =>
    change id < v.automationCount + 1
    rcases eq_or_ne id v.automationCount with rfl | hne
    · omega
    · simp only [State.emit_automations, State.setAutomation, Function.update_of_ne hne] at hactive
      exact Nat.lt_succ_of_lt (hv id hactive)
  | @stepsUpdated updated steps hop hid hvalid =>
    rcases eq_or_ne id updated with rfl | hne
    · exact hid
    · simp only [State.emit_automations, State.setAutomation, Function.update_of_ne hne] at hactive
      exact hv id hactive
  | @activeChanged changed active hop hid =>
    rcases eq_or_ne id changed with rfl | hne
    · exact hid
    · simp only [State.emit_automations, State.setAutomation, Function.update_of_ne hne] at hactive
      exact hv id hactive
  | contextSet _ h _ => exact hsame h id hactive
  | contextSlotSet _ _ h _ => exact hsame h id hactive
  | minFeeDeposit _ h _ => exact hsame h id hactive
  | executed _ _ h _ => exact hsame h id hactive

theorem reachable_created {v : State} (h : Reachable step Initial (fun _ _ => True) v) :
    ∀ id, (v.automations id).active = true → id < v.automationCount := by
  refine h.invariant (fun v hv id hactive => ?_) fun v tx hv _ => step_created v tx hv
  obtain ⟨owner, registry, token, rfl⟩ := hv
  cases hactive

/-- **Stored automations stay executable.** In every reachable state every automation is executable;
its traversal reads no step outside the array, runs at most `maxSteps` steps, and returns or reverts
as declared; and the whole execution reverts as declared or with the registry's refusal. -/
theorem stored_automations_executable {v : State}
    (hv : Reachable step Initial (fun _ tx => Bounded tx) v) {id : Nat}
    (hid : id < v.automationCount) :
    let a := v.automations id
    Executable a ∧ ∀ (env : Env) (sender : Address),
      (∀ i ∈ visited env sender v.owner a.steps (startLoop v a), i < a.steps.length) ∧
      (visited env sender v.owner a.steps (startLoop v a)).length ≤ maxSteps ∧
      ((∃ s, traverse env sender v.owner a.steps (startLoop v a) = .ok s) ∨
        ∃ r, traverse env sender v.owner a.steps (startLoop v a) = .error r ∧ Declared r) ∧
      ∀ r, executeAutomation env sender id v = .error r → Declared r ∨ r = .external := by
  intro a
  have ha : Executable a := (reachable_stored hv).executable id hid
  refine ⟨ha, fun env sender => ?_⟩
  have hin : InArray a.steps (startLoop v a) :=
    ⟨Or.inr (List.length_pos_iff.2 ha.nonempty), Nat.zero_le _⟩
  obtain ⟨hbounds, hcount, hend⟩ := traverse_ends env sender v.owner ha.valid hin
  refine ⟨hbounds, hcount, hend, fun r hr => ?_⟩
  -- one of the three guards, the loop, or the registry
  rcases executeAutomation_error ha.nonempty hr with (rfl | rfl | rfl) | hloop | rfl
  · exact Or.inl (Or.inl ⟨_, rfl⟩)
  · exact Or.inl (Or.inl ⟨_, rfl⟩)
  · exact Or.inl (Or.inl ⟨_, rfl⟩)
  · rcases hend with ⟨s, hs⟩ | ⟨r', hr', hdecl⟩
    · rw [hs] at hloop
      cases hloop
    · rw [hr'] at hloop
      cases hloop
      exact Or.inl hdecl
  · exact Or.inr rfl

/-- A world in which every condition answers `ret` and every action returns nothing. -/
def sampleEnv (ret : Bytes) : Env where
  timestamp := 1
  timestamp_lt := by decide
  gasUsed := 0
  staticcall := fun _ _ _ _ _ => .success ret
  delegatecall := fun _ _ _ _ _ => .success []
  deductGasComp := fun _ _ _ _ => some 0

/-- The owner 1 stores an automation of one condition. -/
def sampleCreate : Tx where
  sender := ⟨1⟩
  env := sampleEnv []
  op := .createAutomation [⟨.condition, ⟨7⟩, 0xd89f1e36, DONE, DONE, []⟩]

/-- A vault with one automation. -/
def sampleVault : State := step (initialized ⟨1⟩ Address.zero Address.zero) sampleCreate

theorem sampleVault_reachable : Reachable step Initial (fun _ tx => Bounded tx) sampleVault :=
  (Reachable.start ⟨_, _, _, rfl⟩).next (show 1 < 2 ^ 32 by decide)

/-- The owner replaces the steps of the automation. -/
def sampleUpdate (steps : List Step) : Tx where
  sender := ⟨1⟩
  env := sampleEnv []
  op := .updateAutomationSteps 0 steps

/-- The automation grows to three steps and shrinks to two. -/
def growTx : Tx := sampleUpdate [⟨.condition, ⟨7⟩, 0xd89f1e36, 1, DONE, []⟩,
  ⟨.action, ⟨8⟩, 0x24856bc3, 2, DONE, []⟩, ⟨.action, ⟨8⟩, 0x24856bc3, DONE, DONE, []⟩]

/-- The automation is cut to two steps. -/
def shrinkTx : Tx := sampleUpdate [⟨.condition, ⟨7⟩, 0xd89f1e36, 1, DONE, []⟩,
  ⟨.action, ⟨8⟩, 0x24856bc3, DONE, DONE, []⟩]

/-- The vault after both updates. -/
def updatedVault : State := step (step sampleVault growTx) shrinkTx

theorem updatedVault_reachable : Reachable step Initial (fun _ tx => Bounded tx) updatedVault := by
  have hgrow : Bounded growTx := show 3 < 2 ^ 32 by decide
  have hshrink : Bounded shrinkTx := show 2 < 2 ^ 32 by decide
  exact (sampleVault_reachable.next hgrow).next hshrink

/-- No step of the longer automation is left. -/
theorem stored_automations_executable_sample :
    (updatedVault.automations 0).steps.length = 2 ∧ Executable (updatedVault.automations 0) ∧
      visited (sampleEnv (encodeBool true)) ⟨2⟩ ⟨1⟩ (updatedVault.automations 0).steps
        (startLoop updatedVault (updatedVault.automations 0)) = [0, 1] ∧
      (visited (sampleEnv (encodeBool true)) ⟨2⟩ ⟨1⟩ (updatedVault.automations 0).steps
        (startLoop updatedVault (updatedVault.automations 0))).length ≤ maxSteps := by
  have hid : 0 < updatedVault.automationCount := by decide
  obtain ⟨ha, hall⟩ := stored_automations_executable updatedVault_reachable hid
  exact ⟨rfl, ha, rfl, (hall (sampleEnv (encodeBool true)) ⟨2⟩).2.1⟩

/-- A condition that answers a word other than 0 and 1 makes the vault revert with no declared
error: `abi.decode` refuses the answer. -/
theorem malformed_answer_undeclared :
    ¬ ∀ v : State, Reachable step Initial (fun _ tx => Bounded tx) v →
      ∀ id < v.automationCount, ∀ (env : Env) (sender : Address),
        (∃ s, traverse env sender v.owner (v.automations id).steps
          (startLoop v (v.automations id)) = .ok s) ∨
        ∃ e, traverse env sender v.owner (v.automations id).steps
          (startLoop v (v.automations id)) = .error (.error e) := by
  intro h
  have hr : traverse (sampleEnv (encodeWord 2)) ⟨2⟩ sampleVault.owner
      (sampleVault.automations 0).steps (startLoop sampleVault (sampleVault.automations 0)) =
        .error .decode := by
    rfl
  rcases h sampleVault sampleVault_reachable 0 (by decide) (sampleEnv (encodeWord 2)) ⟨2⟩ with
    ⟨s, hs⟩ | ⟨e, he⟩
  · rw [hr] at hs
    cases hs
  · rw [hr] at he
    cases he

end StrategyBuilder.Contracts.Vault
