import StrategyBuilder.Contracts.AcyclicSteps

/-!
# Executions in which every condition holds

From the first step on, an execution in which every condition holds follows `nextOnTrue`. `path` gives
its steps, or nothing where it does not come to `DONE` within the step limit: then the execution
reverts, and no action of it stays (`executedActions_eq`). Arrays with cycles are no exception here.
-/

set_option autoImplicit false

namespace StrategyBuilder.Contracts.Vault

open StrategyBuilder.Contracts
open StrategyBuilder.Lib
open StrategyBuilder.Lib.Abi

/-- The steps from step `i` to `DONE` where every condition holds, if they are `n` at most. -/
def path (steps : List Step) : Nat → Nat → Option (List Nat)
  | 0, i => if i = DONE then some [] else none
  | n + 1, i =>
      if i = DONE then some []
      else match steps[i]? with
        | none => none
        | some step => (path steps n (step.next true)).map (i :: ·)

/-- The step is there, and an action. -/
def isAction (steps : List Step) (i : Nat) : Bool :=
  match steps[i]? with
  | some step => step.stepType = .action
  | none => false

/-- The actions of the array that an execution runs where every condition holds, in order. -/
def actionsOnPath (steps : List Step) : List Nat :=
  ((path steps maxSteps 0).getD []).filter (isAction steps)

/-- The actions that a traversal has run; what reverts has run none. -/
def executedActions (env : Env) (sender owner : Address) (steps : List Step) (s : Loop) : List Nat :=
  match traverse env sender owner steps s with
  | .ok _ => (visited env sender owner steps s).filter (isAction steps)
  | .error _ => []

section Path

variable {env : Env} {sender owner : Address} {steps : List Step} {slots : Nat} {s : Loop}

/-- The steps of a path are steps of the array. -/
theorem path_lt {n i : Nat} {p : List Nat} (h : path steps n i = some p) : ∀ j ∈ p,
    j < steps.length := by
  induction n generalizing i p with
  | zero =>
    rw [path] at h
    split_ifs at h
    cases h
    nofun
  | succ n ih =>
    rw [path] at h
    split_ifs at h
    · cases h
      nofun
    · cases hstep : steps[i]? with
      | none =>
        rw [hstep] at h
        cases h
      | some step =>
        simp only [hstep] at h
        obtain ⟨rest, hrest, rfl⟩ := Option.map_eq_some_iff.1 h
        intro j hj
        rcases List.mem_cons.1 hj with rfl | hj
        · exact (List.getElem?_eq_some_iff.1 hstep).1
        · exact ih hrest j hj

/-- What a loop with `n` rounds left does, where the steps to `DONE` are these. -/
def RunsPath (env : Env) (sender owner : Address) (steps : List Step) (n : Nat) (s : Loop) :
    Option (List Nat) → Prop
  | some p =>
      (∃ t, whileLoop Loop.running (Loop.round env sender owner steps) n s = some (.ok t)) ∧
        ((whileStates Loop.running (Loop.round env sender owner steps) n s).filter
          fun s => decide (s.stepCount < maxSteps)).map Loop.current = p
  | none => ∃ e, whileLoop Loop.running (Loop.round env sender owner steps) n s = some (.error e)

/-- A loop that has come to `DONE` runs nothing more. -/
theorem runsPath_done (hend : s.current = DONE) (n : Nat) :
    RunsPath env sender owner steps n s (some []) := by
  have hstop : s.running = false := by
    rw [Bool.eq_false_iff]
    intro hrun
    exact running_iff.1 hrun hend
  refine ⟨⟨s, whileLoop_of_false hstop n⟩, ?_⟩
  cases n with
  | zero => rfl
  | succ n =>
    rw [whileStates, hstop]
    rfl

/-- A loop whose next round fails has no path. -/
theorem runsPath_fail (hrun : s.running = true)
    (hno : ∀ s', s.round env sender owner steps ≠ .ok s') (n : Nat) :
    RunsPath env sender owner steps (n + 1) s none := by
  cases hround : s.round env sender owner steps with
  | ok s' => exact absurd hround (hno s')
  | error e => exact ⟨e, whileLoop_fail hrun hround n⟩

/-- One round, and the path after it. -/
theorem RunsPath.round {s' : Loop} {n : Nat} {o : Option (List Nat)}
    (h : RunsPath env sender owner steps n s' o) (hrun : s.running = true)
    (hround : s.round env sender owner steps = .ok s') (hlt : s.stepCount < maxSteps) :
    RunsPath env sender owner steps (n + 1) s (o.map (s.current :: ·)) := by
  cases o with
  | none =>
    obtain ⟨e, he⟩ := h
    exact ⟨e, (whileLoop_succ hrun hround n).trans he⟩
  | some p =>
    obtain ⟨⟨t, ht⟩, hstates⟩ := h
    refine ⟨⟨t, (whileLoop_succ hrun hround n).trans ht⟩, ?_⟩
    rw [whileStates, if_pos hrun, hround, List.filter_cons, if_pos (decide_eq_true hlt), List.map_cons]
    exact congrArg (s.current :: ·) hstates

/-- **The loop runs the path**, and fails where there is none. By induction on the rounds that are
left, with the conditions and actions of every round answered. -/
theorem loop_path (henv : Answering env steps slots fun _ => true) {n : Nat}
    (hcount : s.stepCount + n = maxSteps) (hslots : s.ctx.length = slots) :
    RunsPath env sender owner steps (n + 1) s (path steps n s.current) := by
  induction n generalizing s with
  | zero =>
    rw [path]
    split_ifs with hend
    · exact runsPath_done hend 1
    · refine runsPath_fail (running_iff.2 hend) (fun s' hround => ?_) 0
      have hlt := (round_ok hround).1
      omega
  | succ n ih =>
    rw [path]
    split_ifs with hend
    · exact runsPath_done hend (n + 2)
    have hrun : s.running = true := running_iff.2 hend
    cases hstep : steps[s.current]? with
    | none =>
      -- outside the array the round fails
      refine runsPath_fail hrun (fun s' hround => ?_) (n + 1)
      obtain ⟨-, step, hget, -⟩ := round_ok hround
      rw [hstep] at hget
      cases hget
    | some step =>
      have hlt : s.stepCount < maxSteps := by omega
      have htrigger : sender = owner ∨ (fun _ : Nat => true) 0 = true := Or.inr rfl
      obtain ⟨s', hround, hnext, hcount', hslots'⟩ :=
        round_answering henv htrigger hslots hlt hstep
      have hrest := ih (s := s') (by omega) hslots'
      rw [hnext] at hrest
      exact hrest.round hrun hround hlt

/-- **The actions that an execution runs**, where every condition holds and every action succeeds. -/
theorem executedActions_eq (henv : Answering env steps slots fun _ => true)
    (hstart : s.current = 0 ∧ s.stepCount = 0) (hslots : s.ctx.length = slots) :
    executedActions env sender owner steps s = actionsOnPath steps := by
  have hpath : RunsPath env sender owner steps (maxSteps + 1) s (path steps maxSteps 0) := by
    rw [← hstart.1]
    exact loop_path henv (by rw [hstart.2, Nat.zero_add]) hslots
  rw [executedActions, actionsOnPath, traverse]
  cases hp : path steps maxSteps 0 with
  | none =>
    rw [hp] at hpath
    obtain ⟨e, he⟩ := hpath
    simp only [he]
    rfl
  | some p =>
    rw [hp] at hpath
    obtain ⟨⟨t, ht⟩, hstates⟩ := hpath
    simp only [ht]
    rw [visited, hstates, Option.getD_some]

/-- There is a world in which every condition of an array holds and every action succeeds. -/
theorem sampleEnv_answering (steps : List Step) (slots : Nat) :
    Answering (sampleEnv (encodeBool true)) steps slots fun _ => true := by
  constructor
  · intro i step _ _ k ctx _
    have hlen : (encodeBool true).length = 32 := length_encodeWord 1
    simp only [checkCondition, sampleEnv, hlen, decodeBool_encodeBool]
    rfl
  · intro i step _ _ k ctx _
    exact ⟨ctx, rfl⟩

end Path

end StrategyBuilder.Contracts.Vault
