import StrategyBuilder.Contracts.VaultSteps
import Mathlib.Data.List.Perm.Subperm

/-!
# Acyclic step arrays

Step arrays that can be numbered so that every continuation goes down (`Layered`). Whatever
conditions and actions answer, the vault runs no step of such an array twice, and an array of at most
`maxSteps` steps never meets the step limit. Where conditions answer and actions succeed
(`Answering`), the traversal reaches `DONE`, and the steps it runs are those that the continuations
give (`trace`).
-/

set_option autoImplicit false

namespace StrategyBuilder.Contracts.Vault

open StrategyBuilder.Contracts
open StrategyBuilder.Lib
open StrategyBuilder.Lib.Abi

/-- The step after this one, where `answer` is what it answers if it is a condition. -/
def Step.next (step : Step) (answer : Bool) : Nat :=
  match step.stepType with
  | .condition => if answer then step.nextOnTrue else step.nextOnFalse
  | .action => step.nextOnTrue

/-- A numbering of the steps that every continuation lowers. -/
structure Layered (steps : List Step) (rank : Nat → Nat) : Prop where
  rank_lt : ∀ i < steps.length, rank i < steps.length
  next : ∀ i step, steps[i]? = some step → ∀ answer, step.next answer = DONE ∨
    (step.next answer < steps.length ∧ rank (step.next answer) < rank i)

/-- The conditions and actions of the array answer: in round `k` a condition answers `answers k`, and
an action succeeds on every context of `slots` slots. -/
structure Answering (env : Env) (steps : List Step) (slots : Nat) (answers : Nat → Bool) : Prop where
  condition : ∀ i step, steps[i]? = some step → step.stepType = .condition → ∀ k ctx,
    ctx.length = slots → checkCondition env k step i ctx = .ok (answers k)
  action : ∀ i step, steps[i]? = some step → step.stepType = .action → ∀ k ctx,
    ctx.length = slots → ∃ ctx', executeAction env k step i ctx = .ok ctx'

/-- The steps that the continuations lead through from step `i` in round `k` on, `n` at most. -/
def trace (steps : List Step) (answers : Nat → Bool) : Nat → Nat → Nat → List Nat
  | 0, _, _ => []
  | n + 1, k, i =>
      if i = DONE then []
      else match steps[i]? with
        | none => []
        | some step => i :: trace steps answers n (k + 1) (step.next (answers k))

section Layered

variable {env : Env} {sender owner : Address} {steps : List Step} {rank : Nat → Nat} {s s' : Loop}

theorem Round.next {step : Step} (h : Round env sender owner s step s') :
    ∃ answer, s'.current = step.next answer := by
  cases h with
  | @condition met htype _ _ => exact ⟨met, by simp [Step.next, htype]⟩
  | action htype _ => exact ⟨true, by simp [Step.next, htype]⟩

/-- What is left of the traversal at most. -/
def remaining (rank : Nat → Nat) (s : Loop) : Nat := if s.current = DONE then 0 else rank s.current + 1

/-- The loop invariant: the rounds so far and those left are no more than the steps. -/
structure Descending (steps : List Step) (rank : Nat → Nat) (s : Loop) : Prop where
  current : s.current = DONE ∨ s.current < steps.length
  stepCount : s.stepCount + remaining rank s ≤ steps.length

/-- The loop starts with all steps ahead. -/
theorem Descending.start (hsteps : Layered steps rank) (hne : steps ≠ []) (hcurrent : s.current = 0)
    (hcount : s.stepCount = 0) : Descending steps rank s := by
  have hpos : 0 < steps.length := List.length_pos_iff.2 hne
  have hrank := hsteps.rank_lt 0 hpos
  refine ⟨Or.inr (hcurrent ▸ hpos), ?_⟩
  rw [hcount, remaining, hcurrent]
  split
  · omega
  · omega

/-- Every round lowers what is left. -/
theorem round_descending (hsteps : Layered steps rank) (hs : Descending steps rank s)
    (hrun : s.running = true) (h : s.round env sender owner steps = .ok s') :
    Descending steps rank s' ∧ remaining rank s' < remaining rank s := by
  obtain ⟨-, step, hstep, hround⟩ := round_ok h
  obtain ⟨answer, hnext⟩ := hround.next
  have hcount := hs.stepCount
  have hleft : remaining rank s = rank s.current + 1 := if_neg (running_iff.1 hrun)
  rcases hsteps.next s.current step hstep answer with hend | ⟨hlt, hrank⟩
  · have hzero : remaining rank s' = 0 := if_pos (hnext.trans hend)
    refine ⟨⟨Or.inl (hnext.trans hend), ?_⟩, by omega⟩
    rw [hround.stepCount]
    omega
  · have hle : remaining rank s' ≤ rank s'.current + 1 := by
      rw [remaining]
      split
      · omega
      · exact Nat.le_refl _
    rw [hnext] at hle
    refine ⟨⟨Or.inr (hnext ▸ hlt), ?_⟩, by omega⟩
    rw [hround.stepCount]
    omega

/-- A traversal that is not done has not run all steps. -/
theorem Descending.stepCount_lt (hs : Descending steps rank s) (hrun : s.running = true) :
    s.stepCount < steps.length := by
  have hcount := hs.stepCount
  have hleft : remaining rank s = rank s.current + 1 := if_neg (running_iff.1 hrun)
  omega

theorem Descending.lt (hs : Descending steps rank s) (hrun : s.running = true) :
    s.current < steps.length := hs.current.resolve_left (running_iff.1 hrun)

/-- **No step runs twice**, whatever conditions and actions answer. -/
theorem visited_nodup (env : Env) (sender owner : Address) (hsteps : Layered steps rank)
    (hs : Descending steps rank s) : (visited env sender owner steps s).Nodup := by
  have hpairwise : (whileStates Loop.running (Loop.round env sender owner steps) (maxSteps + 1)
      s).Pairwise fun u t => remaining rank t < remaining rank u :=
    whileStates_pairwise (fun u u' hu hrun h => round_descending hsteps hu hrun h) hs
  rw [visited, List.Nodup, List.pairwise_map]
  refine (hpairwise.filter _).imp fun {u t} hlt heq => ?_
  have hsame : remaining rank u = remaining rank t := by rw [remaining, remaining, heq]
  omega

/-- Each step is visited once at most. -/
theorem visited_length_le (env : Env) (sender owner : Address) (hsteps : Layered steps rank)
    (hs : Descending steps rank s) :
    (visited env sender owner steps s).length ≤ steps.length := by
  have hsub : visited env sender owner steps s ⊆ List.range steps.length := by
    intro i hi
    obtain ⟨t, ht, rfl⟩ := List.mem_map.1 hi
    obtain ⟨hdesc, hrun⟩ := whileStates_invariant
      (fun u u' hu hrun h => (round_descending hsteps hu hrun h).1) hs (List.mem_filter.1 ht).1
    exact List.mem_range.2 (hdesc.lt hrun)
  have hle := (List.subperm_of_subset (visited_nodup env sender owner hsteps hs) hsub).length_le
  rwa [List.length_range] at hle

/-- The traversal of an acyclic array ends within the rounds that the loop may take. -/
theorem whileLoop_layered (env : Env) (sender owner : Address) (hsteps : Layered steps rank)
    (hlen : steps.length ≤ maxSteps) (hs : Descending steps rank s) :
    ∃ r, whileLoop Loop.running (Loop.round env sender owner steps) (maxSteps + 1) s = some r := by
  have hleft := hs.stepCount
  refine whileLoop_isSome (fun u u' hu hrun h => round_descending hsteps hu hrun h) hs (by omega) ?_
  intro u _ hrun
  rw [remaining, if_neg (running_iff.1 hrun)]
  exact Nat.succ_pos _

/-- **The step limit is never met** by an acyclic array that is no longer than it. -/
theorem traverse_ne_maxStepsExceeded (env : Env) (sender owner : Address)
    (hsteps : Layered steps rank) (hlen : steps.length ≤ maxSteps) (hs : Descending steps rank s) :
    traverse env sender owner steps s ≠ .error (.error .maxStepsExceeded) := by
  intro h
  obtain ⟨r, hr⟩ := whileLoop_layered env sender owner hsteps hlen hs
  simp only [traverse, hr] at h
  subst h
  obtain ⟨t, ht, hrun, hround⟩ := whileLoop_error
    (fun u u' hu hrun h => (round_descending hsteps hu hrun h).1) hs hr
  rcases round_error (ht.lt hrun) hround with ⟨hmax, -⟩ | h | h
  · have hlt := ht.stepCount_lt hrun
    omega
  · cases h
  · cases h

/-- Layered steps never reach the bound of the loop. -/
theorem executeAutomation_ne_maxStepsExceeded (env : Env) (sender : Address) {id : Nat} {v : State}
    (hsteps : Layered (v.automations id).steps rank) (hne : (v.automations id).steps ≠ [])
    (hlen : (v.automations id).steps.length ≤ maxSteps) :
    executeAutomation env sender id v ≠ .error (.error .maxStepsExceeded) := by
  intro h
  rcases executeAutomation_error hne h with (h | h | h) | h | h
  · cases h
  · cases h
  · cases h
  · exact traverse_ne_maxStepsExceeded env sender v.owner hsteps hlen
      (Descending.start hsteps hne rfl rfl) h
  · cases h

/-! ## With answers -/

variable {slots : Nat} {answers : Nat → Bool}

/-- Where everything answers, a round follows the continuation. The first round must not meet a
trigger that refuses the sender. -/
theorem round_answering (henv : Answering env steps slots answers)
    (htrigger : sender = owner ∨ answers 0 = true) (hslots : s.ctx.length = slots)
    (hcount : s.stepCount < maxSteps) {step : Step} (hstep : steps[s.current]? = some step) :
    ∃ s', s.round env sender owner steps = .ok s' ∧ s'.current = step.next (answers s.stepCount) ∧
      s'.stepCount = s.stepCount + 1 ∧ s'.ctx.length = slots := by
  cases hs' : s.round env sender owner steps with
  | ok s' =>
    obtain ⟨-, step', hstep', hround⟩ := round_ok hs'
    rw [hstep, Option.some.injEq] at hstep'
    subst hstep'
    refine ⟨s', rfl, ?_, hround.stepCount, hround.ctx_length.trans hslots⟩
    cases hround with
    | @condition met htype hmet _ =>
      rw [henv.condition s.current step hstep htype s.stepCount s.ctx hslots] at hmet
      cases hmet
      simp [Step.next, htype]
    | action htype _ => simp [Step.next, htype]
  | error r =>
    -- none of the four ways to fail is open
    exfalso
    unfold Loop.round at hs'
    rcases bind_eq_error.1 hs' with h | ⟨-, -, h⟩
    · have hmax := (revertIf_eq_error.1 h).1
      omega
    rcases bind_eq_error.1 h with h | ⟨step', hread, h⟩
    · rw [readAt, hstep] at h
      cases h
    rw [readAt_eq_ok, hstep, Option.some.injEq] at hread
    subst hread
    cases htype : step.stepType with
    | condition =>
      have hcheck := henv.condition s.current step hstep htype s.stepCount s.ctx hslots
      rw [htype] at h
      rcases bind_eq_error.1 h with h | ⟨met, hmet, h⟩
      · rw [hcheck] at h
        cases h
      rw [hcheck] at hmet
      cases hmet
      rcases bind_eq_error.1 h with h | ⟨-, -, h⟩
      · obtain ⟨⟨hfirst, hfalse, hne⟩, -⟩ := revertIf_eq_error.1 h
        have hzero : s.stepCount = 0 := (of_decide_eq_true hfirst).2
        rcases htrigger with rfl | htrue
        · exact hne rfl
        · rw [hzero, htrue] at hfalse
          cases hfalse
      · cases h
    | action =>
      obtain ⟨ctx', hctx'⟩ := henv.action s.current step hstep htype s.stepCount s.ctx hslots
      rw [htype] at h
      rcases bind_eq_error.1 h with h | ⟨ctx, -, h⟩
      · rw [hctx'] at h
        cases h
      · cases h

/-- The steps whose rounds run are those of the trace. -/
theorem whileStates_trace (hsteps : Layered steps rank) (hlen : steps.length ≤ maxSteps)
    (henv : Answering env steps slots answers) (htrigger : sender = owner ∨ answers 0 = true)
    (n : Nat) (hs : Descending steps rank s) (hslots : s.ctx.length = slots) :
    (whileStates Loop.running (Loop.round env sender owner steps) n s).map Loop.current =
      trace steps answers n s.stepCount s.current := by
  induction n generalizing s with
  | zero => rfl
  | succ n ih =>
    by_cases hend : s.current = DONE
    · have hstop : ¬ s.running = true := fun hrun => running_iff.1 hrun hend
      rw [whileStates, if_neg hstop, trace, if_pos hend]
      rfl
    · have hrun : s.running = true := running_iff.2 hend
      have hstep := List.getElem?_eq_getElem (hs.lt hrun)
      have hcount := hs.stepCount_lt hrun
      obtain ⟨s', hround, hnext, hcount', hslots'⟩ :=
        round_answering henv htrigger hslots (by omega) hstep
      have hdesc := (round_descending hsteps hs hrun hround).1
      rw [whileStates, if_pos hrun, hround, trace, if_neg hend, hstep, List.map_cons,
        ih hdesc hslots', hcount', hnext]

/-- **An answered traversal follows the continuations to `DONE`.** -/
theorem traverse_answering (hsteps : Layered steps rank) (hlen : steps.length ≤ maxSteps)
    (henv : Answering env steps slots answers) (htrigger : sender = owner ∨ answers 0 = true)
    (hs : Descending steps rank s) (hslots : s.ctx.length = slots) :
    visited env sender owner steps s =
        trace steps answers (maxSteps + 1) s.stepCount s.current ∧
      ∃ t, traverse env sender owner steps s = .ok t ∧ t.current = DONE ∧
        t.stepCount ≤ steps.length := by
  have hI (u u' : Loop) (hu : Descending steps rank u ∧ u.ctx.length = slots)
      (hrun : u.running = true) (h : u.round env sender owner steps = .ok u') :
      Descending steps rank u' ∧ u'.ctx.length = slots := by
    obtain ⟨-, step, -, hround⟩ := round_ok h
    exact ⟨(round_descending hsteps hu.1 hrun h).1, hround.ctx_length.trans hu.2⟩
  constructor
  · have hall : (whileStates Loop.running (Loop.round env sender owner steps) (maxSteps + 1)
        s).filter (fun u => decide (u.stepCount < maxSteps)) =
          whileStates Loop.running (Loop.round env sender owner steps) (maxSteps + 1) s := by
      refine List.filter_eq_self.2 fun u hu => ?_
      obtain ⟨⟨hdesc, -⟩, hrun⟩ := whileStates_invariant hI ⟨hs, hslots⟩ hu
      have hlt := hdesc.stepCount_lt hrun
      exact decide_eq_true (by omega)
    rw [visited, hall, whileStates_trace hsteps hlen henv htrigger _ hs hslots]
  · obtain ⟨r, hr⟩ := whileLoop_layered env sender owner hsteps hlen hs
    cases r with
    | ok t =>
      obtain ⟨⟨hdesc, -⟩, hend⟩ := whileLoop_ok hI ⟨hs, hslots⟩ hr
      have hcount := hdesc.stepCount
      refine ⟨t, by simp only [traverse, hr], ?_, by omega⟩
      by_contra hne
      rw [running_iff.2 hne] at hend
      cases hend
    | error e =>
      -- no round of an answered traversal fails
      obtain ⟨t, ⟨hdesc, ht⟩, hrun, hround⟩ := whileLoop_error hI ⟨hs, hslots⟩ hr
      have hlt := hdesc.stepCount_lt hrun
      obtain ⟨t', hok, -⟩ := round_answering henv htrigger ht (by omega)
        (List.getElem?_eq_getElem (hdesc.lt hrun))
      rw [hok] at hround
      cases hround

end Layered

end StrategyBuilder.Contracts.Vault
