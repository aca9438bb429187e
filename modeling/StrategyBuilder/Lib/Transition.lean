import Mathlib.Algebra.Group.Defs
import Mathlib.Algebra.Group.Basic
import Mathlib.Algebra.Order.Monoid.Defs
import Mathlib.Order.Defs.PartialOrder
import Mathlib.Data.List.Infix

/-!
# Runs of a labelled transition function

A system is a function `step : σ → ℓ → σ`: from the state `s` the labelled step `l` leads to
`step s l`. A step that is refused leaves the state as it is. `run` takes a list of labels in order,
`Reachable` collects the states of all runs from given initial states, and `runTotal` adds up a
weight read off every step of a run.

The rules are the ones a verification over whole runs needs: an invariant of every step is an
invariant of every run (`run_invariant`, `Reachable.invariant`), a condition that is exact for each step
is exact for runs (`forall_prefix_iff`), a quantity that no step lowers is
monotone along a run (`le_run`), and a quantity whose change is the difference of two weights in
every step changes by the difference of their totals (`run_balance`, and `run_balance_le` with
inequalities).
-/

set_option autoImplicit false

namespace StrategyBuilder.Lib.Transition

universe u v w

variable {σ : Type u} {ℓ : Type v} (step : σ → ℓ → σ)

/-- The state after the steps `ls`, taken in order from `s`. -/
def run : σ → List ℓ → σ
  | s, [] => s
  | s, l :: ls => run (step s l) ls

@[simp] theorem run_nil (s : σ) : run step s [] = s := rfl

@[simp] theorem run_cons (s : σ) (l : ℓ) (ls : List ℓ) :
    run step s (l :: ls) = run step (step s l) ls := rfl

theorem run_append (s : σ) (ls ms : List ℓ) : run step s (ls ++ ms) = run step (run step s ls) ms := by
  induction ls generalizing s with
  | nil => rfl
  | cons l ls ih => exact ih (step s l)

/-- Every label of a run is admitted in the state in which it is taken. -/
def Admitted (ok : σ → ℓ → Prop) : σ → List ℓ → Prop
  | _, [] => True
  | s, l :: ls => ok s l ∧ Admitted ok (step s l) ls

/-- A run in two parts is admitted if both parts are. -/
theorem admitted_append {ok : σ → ℓ → Prop} (s : σ) (ls ms : List ℓ) :
    Admitted step ok s (ls ++ ms) ↔
      Admitted step ok s ls ∧ Admitted step ok (run step s ls) ms := by
  induction ls generalizing s with
  | nil => simp [Admitted]
  | cons l ls ih => simp [Admitted, ih, and_assoc]

/-- Where every label is admitted in every state, so is every run. -/
theorem admitted_of_true {ok : σ → ℓ → Prop} (h : ∀ s l, ok s l) (s : σ) (ls : List ℓ) :
    Admitted step ok s ls := by
  induction ls generalizing s with
  | nil => trivial
  | cons l ls ih => exact ⟨h s l, ih (step s l)⟩

theorem admitted_true (s : σ) (ls : List ℓ) : Admitted step (fun _ _ => True) s ls :=
  admitted_of_true step (fun _ _ => trivial) s ls

/-- A condition on the labels alone admits a run when all of its labels meet it. -/
theorem admitted_of_forall {ok : ℓ → Prop} (s : σ) {ls : List ℓ} (h : ∀ l ∈ ls, ok l) :
    Admitted step (fun _ l => ok l) s ls := by
  induction ls generalizing s with
  | nil => trivial
  | cons l ls ih =>
    exact ⟨h l List.mem_cons_self, ih (step s l) fun m hm => h m (List.mem_cons_of_mem l hm)⟩

/-- A weaker condition admits every run that a stronger one admits. -/
theorem Admitted.imp {step : σ → ℓ → σ} {ok ok' : σ → ℓ → Prop} {s : σ} {ls : List ℓ}
    (h : Admitted step ok s ls) (himp : ∀ s l, ok s l → ok' s l) : Admitted step ok' s ls := by
  induction ls generalizing s with
  | nil => trivial
  | cons l ls ih => exact ⟨himp s l h.1, ih h.2⟩

theorem Admitted.and_forall {step : σ → ℓ → σ} {ok : σ → ℓ → Prop} {P : ℓ → Prop} {s : σ} {ls : List ℓ}
    (h : Admitted step ok s ls) (hP : ∀ l ∈ ls, P l) : Admitted step (fun s l => ok s l ∧ P l) s ls := by
  induction ls generalizing s with
  | nil => trivial
  | cons l ls ih =>
    exact ⟨⟨h.1, hP l List.mem_cons_self⟩, ih h.2 fun m hm => hP m (List.mem_cons_of_mem l hm)⟩

/-- What an invariant gives at every admitted step holds along every admitted run. -/
theorem Admitted.of_invariant {step : σ → ℓ → σ} {ok P : σ → ℓ → Prop} {I : σ → Prop}
    (hstep : ∀ s l, I s → ok s l → I (step s l)) (hP : ∀ s l, I s → ok s l → P s l) {s : σ}
    (hs : I s) {ls : List ℓ} (h : Admitted step ok s ls) : Admitted step P s ls := by
  induction ls generalizing s with
  | nil => trivial
  | cons l ls ih => exact ⟨hP s l hs h.1, ih (hstep s l hs h.1) h.2⟩

/-- The states of the admitted runs that start in an initial state. -/
inductive Reachable (init : σ → Prop) (ok : σ → ℓ → Prop) : σ → Prop
  | start {s : σ} : init s → Reachable init ok s
  | next {s : σ} {l : ℓ} : Reachable init ok s → ok s l → Reachable init ok (step s l)

variable {step}

/-- An invariant of every admitted step is an invariant of every admitted run. -/
theorem run_invariant {ok : σ → ℓ → Prop} {I : σ → Prop}
    (hstep : ∀ s l, I s → ok s l → I (step s l)) {s : σ} (hs : I s) {ls : List ℓ}
    (hls : Admitted step ok s ls) : I (run step s ls) := by
  induction ls generalizing s with
  | nil => exact hs
  | cons l ls ih => exact ih (hstep s l hs hls.1) hls.2

/-- Where `P` says exactly which admitted steps keep `I`, all states of an admitted run have `I` if and
only if all of its steps meet `P`. -/
theorem forall_prefix_iff {ok P : σ → ℓ → Prop} {I : σ → Prop}
    (hstep : ∀ s l, I s → ok s l → (I (step s l) ↔ P s l)) {s : σ} (hs : I s) {ls : List ℓ}
    (hls : Admitted step ok s ls) :
    (∀ ms, ms <+: ls → I (run step s ms)) ↔ Admitted step P s ls := by
  induction ls generalizing s with
  | nil =>
    refine ⟨fun _ => trivial, fun _ ms hms => ?_⟩
    rw [List.prefix_nil.1 hms]
    exact hs
  | cons l ls ih =>
    constructor
    · intro h
      have hl : I (step s l) := h [l] ⟨ls, rfl⟩
      refine ⟨(hstep s l hs hls.1).1 hl, (ih hl hls.2).1 ?_⟩
      intro ms hms
      exact h (l :: ms) (List.cons_prefix_cons.2 ⟨rfl, hms⟩)
    · rintro ⟨hl, hrest⟩ ms hms
      have hnext : I (step s l) := (hstep s l hs hls.1).2 hl
      cases ms with
      | nil => exact hs
      | cons m ms =>
        obtain ⟨rfl, htail⟩ := List.cons_prefix_cons.1 hms
        exact (ih hnext hls.2).2 hrest ms htail

/-- **Refinement.** An abstraction that commutes with every admitted step commutes with every admitted
run. -/
theorem run_refines {τ : Type w} {step' : τ → ℓ → τ} {abs : σ → τ} {ok : σ → ℓ → Prop}
    {I : σ → Prop} (hI : ∀ s l, I s → ok s l → I (step s l))
    (habs : ∀ s l, I s → ok s l → abs (step s l) = step' (abs s) l) {s : σ} (hs : I s) {ls : List ℓ}
    (hls : Admitted step ok s ls) : abs (run step s ls) = run step' (abs s) ls := by
  induction ls generalizing s with
  | nil => rfl
  | cons l ls ih => rw [run_cons, run_cons, ih (hI s l hs hls.1) hls.2, habs s l hs hls.1]

/-- What holds at the start and is kept by the steps holds of every reachable state. -/
theorem Reachable.invariant {init : σ → Prop} {ok : σ → ℓ → Prop} {I : σ → Prop}
    (hinit : ∀ s, init s → I s) (hstep : ∀ s l, I s → ok s l → I (step s l)) {s : σ}
    (h : Reachable step init ok s) : I s := by
  induction h with
  | start hs => exact hinit _ hs
  | next _ hl ih => exact hstep _ _ ih hl

theorem Reachable.run {init : σ → Prop} {ok : σ → ℓ → Prop} {s : σ}
    (h : Reachable step init ok s) {ls : List ℓ} (hls : Admitted step ok s ls) :
    Reachable step init ok (Transition.run step s ls) :=
  run_invariant (fun _ _ hs hl => hs.next hl) h hls

/-- A quantity that no admitted step lowers is not lowered by a run. -/
theorem le_run {α : Type w} [Preorder α] {ok : σ → ℓ → Prop} {I : σ → Prop} {f : σ → α}
    (hI : ∀ s l, I s → ok s l → I (step s l)) (hle : ∀ s l, I s → ok s l → f s ≤ f (step s l))
    {s : σ} (hs : I s) {ls : List ℓ} (hls : Admitted step ok s ls) : f s ≤ f (run step s ls) := by
  induction ls generalizing s with
  | nil => exact le_refl _
  | cons l ls ih => exact le_trans (hle s l hs hls.1) (ih (hI s l hs hls.1) hls.2)

/-! ## Totals over a run -/

section Totals

variable {M : Type w} [AddCommMonoid M]

/-- The sum of a weight over the steps of a run. -/
def runTotal (step : σ → ℓ → σ) (wt : σ → ℓ → M) : σ → List ℓ → M
  | _, [] => 0
  | s, l :: ls => wt s l + runTotal step wt (step s l) ls

/-- If every admitted step changes `Φ` by `inn` minus `out`, a run changes it by the difference of
the totals. -/
theorem run_balance {ok : σ → ℓ → Prop} {I : σ → Prop} {Φ : σ → M} {inn out : σ → ℓ → M}
    (hI : ∀ s l, I s → ok s l → I (step s l))
    (hbal : ∀ s l, I s → ok s l → Φ (step s l) + out s l = Φ s + inn s l)
    {s : σ} (hs : I s) {ls : List ℓ} (hls : Admitted step ok s ls) :
    Φ (run step s ls) + runTotal step out s ls = Φ s + runTotal step inn s ls := by
  induction ls generalizing s with
  | nil => rfl
  | cons l ls ih =>
    have key := ih (hI s l hs hls.1) hls.2
    have hl := hbal s l hs hls.1
    calc
      Φ (run step s (l :: ls)) + runTotal step out s (l :: ls)
          = (Φ (run step (step s l) ls) + runTotal step out (step s l) ls) + out s l := by
            simp only [run_cons, runTotal]
            rw [add_comm (out s l), ← add_assoc]
      _ = (Φ (step s l) + out s l) + runTotal step inn (step s l) ls := by
            rw [key, add_right_comm]
      _ = Φ s + runTotal step inn s (l :: ls) := by
            rw [hl, add_assoc]
            rfl

@[simp] theorem runTotal_zero (s : σ) (ls : List ℓ) : runTotal step (fun _ _ => (0 : M)) s ls = 0 := by
  induction ls generalizing s with
  | nil => rfl
  | cons l ls ih => rw [runTotal, ih, add_zero]

/-- If every admitted step raises `Φ` by at least `inn` minus `out`, a run raises it by at least the
difference of the totals. -/
theorem run_balance_le [PartialOrder M] [IsOrderedAddMonoid M] {ok : σ → ℓ → Prop} {I : σ → Prop}
    {Φ : σ → M} {inn out : σ → ℓ → M} (hI : ∀ s l, I s → ok s l → I (step s l))
    (hle : ∀ s l, I s → ok s l → Φ s + inn s l ≤ Φ (step s l) + out s l) {s : σ} (hs : I s)
    {ls : List ℓ} (hls : Admitted step ok s ls) :
    Φ s + runTotal step inn s ls ≤ Φ (run step s ls) + runTotal step out s ls := by
  induction ls generalizing s with
  | nil => exact le_rfl
  | cons l ls ih =>
    calc
      Φ s + runTotal step inn s (l :: ls)
          = (Φ s + inn s l) + runTotal step inn (step s l) ls := by
            rw [add_assoc]
            rfl
      _ ≤ (Φ (step s l) + out s l) + runTotal step inn (step s l) ls :=
        add_le_add_left (hle s l hs hls.1) _
      _ = (Φ (step s l) + runTotal step inn (step s l) ls) + out s l := add_right_comm _ _ _
      _ ≤ (Φ (run step (step s l) ls) + runTotal step out (step s l) ls) + out s l :=
        add_le_add_left (ih (hI s l hs hls.1) hls.2) _
      _ = Φ (run step s (l :: ls)) + runTotal step out s (l :: ls) := by
        rw [add_assoc, add_comm _ (out s l)]
        rfl

/-- If no admitted step lowers `Φ` by more than its weight, a run lowers it by at most the total. -/
theorem le_run_add_total [PartialOrder M] [IsOrderedAddMonoid M] {ok : σ → ℓ → Prop} {I : σ → Prop}
    {Φ : σ → M} {wt : σ → ℓ → M} (hI : ∀ s l, I s → ok s l → I (step s l))
    (hle : ∀ s l, I s → ok s l → Φ s ≤ Φ (step s l) + wt s l) {s : σ} (hs : I s) {ls : List ℓ}
    (hls : Admitted step ok s ls) : Φ s ≤ Φ (run step s ls) + runTotal step wt s ls := by
  have hzero : ∀ s l, I s → ok s l → Φ s + (fun _ _ => 0 : σ → ℓ → M) s l ≤ Φ (step s l) + wt s l :=
    fun s l hs hl => (add_zero (Φ s)).le.trans (hle s l hs hl)
  have hrun := run_balance_le hI hzero hs hls
  rwa [runTotal_zero, add_zero] at hrun

end Totals

end StrategyBuilder.Lib.Transition
