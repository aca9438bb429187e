import Mathlib.Data.List.Nodup
import Mathlib.Tactic.Common

/-!
# Sets given by events

A set of which only the changes are known: each event puts an element in (`true`) or takes it out
(`false`), and the last event about an element decides whether it is in (`Present`). `listed` is what
remains if the elements ever taken out are crossed off the elements put in, without regard to the order
of the events.

`listed` is the set, without repetition, exactly if every element that is in was put in once and never
taken out (`listed_iff`).
-/

set_option autoImplicit false

namespace StrategyBuilder.Lib.Toggles

universe u

variable {α : Type u} [DecidableEq α]

/-- The events about an element. -/
def history (a : α) (events : List (α × Bool)) : List Bool :=
  (events.filter fun e => e.1 = a).map Prod.snd

/-- The last event about the element put it in. -/
def Present (a : α) (events : List (α × Bool)) : Prop := (history a events).getLast? = some true

instance (a : α) (events : List (α × Bool)) : Decidable (Present a events) :=
  inferInstanceAs (Decidable (_ = _))

/-- The elements of the events of one kind. -/
def having (on : Bool) (events : List (α × Bool)) : List α :=
  (events.filter fun e => e.2 = on).map Prod.fst

/-- The elements put in and never taken out. -/
def listed (events : List (α × Bool)) : List α :=
  (having true events).filter fun a => a ∉ having false events

theorem history_append (a : α) (events events' : List (α × Bool)) :
    history a (events ++ events') = history a events ++ history a events' := by
  rw [history, List.filter_append, List.map_append]
  rfl

theorem history_singleton (a b : α) (on : Bool) :
    history a [(b, on)] = if b = a then [on] else [] := by
  by_cases h : b = a
  · simp [history, h]
  · simp [history, h]

/-- One more event decides about its own element only. -/
theorem present_concat (a b : α) (on : Bool) (events : List (α × Bool)) :
    Present a (events ++ [(b, on)]) ↔ if b = a then on = true else Present a events := by
  rw [Present, history_append, history_singleton]
  by_cases h : b = a
  · rw [if_pos h, if_pos h, List.getLast?_concat, Option.some.injEq]
  · rw [if_neg h, if_neg h, List.append_nil]
    exact Iff.rfl

/-! ## How often an element is listed -/

theorem count_having (on : Bool) (a : α) (events : List (α × Bool)) :
    (having on events).count a = (history a events).count on := by
  induction events with
  | nil => rfl
  | cons e events ih =>
    rw [having, history] at ih ⊢
    by_cases hon : e.2 = on
    · by_cases ha : e.1 = a
      · simp [hon, ha, ih]
      · simp [hon, ha, ih]
    · by_cases ha : e.1 = a
      · simp [hon, ha, ih]
      · simp [hon, ha, ih]

theorem mem_having {on : Bool} {a : α} {events : List (α × Bool)} :
    a ∈ having on events ↔ on ∈ history a events := by
  rw [← List.count_pos_iff, count_having, List.count_pos_iff]

/-- How often an element is listed in the end. -/
theorem count_listed (a : α) (events : List (α × Bool)) :
    (listed events).count a =
      if false ∈ history a events then 0 else (history a events).count true := by
  by_cases h : false ∈ history a events
  · rw [if_pos h, List.count_eq_zero, listed, List.mem_filter]
    rintro ⟨-, hnot⟩
    exact of_decide_eq_true hnot (mem_having.2 h)
  · have hnot : a ∉ having false events := fun hmem => h (mem_having.1 hmem)
    rw [if_neg h, listed, List.count_filter (by simpa using hnot), count_having]

/-- Over one history: counted once if it ends in `true` and not at all otherwise. -/
theorem count_eq_iff (h : List Bool) :
    (if false ∈ h then 0 else h.count true) = (if h.getLast? = some true then 1 else 0) ↔
      (h.getLast? = some true → h = [true]) := by
  by_cases hfalse : false ∈ h
  · rw [if_pos hfalse]
    by_cases hlast : h.getLast? = some true
    · rw [if_pos hlast]
      refine ⟨fun heq => (Nat.zero_ne_one heq).elim, fun himp => ?_⟩
      rw [himp hlast] at hfalse
      simp at hfalse
    · rw [if_neg hlast]
      exact ⟨fun _ hpos => (hlast hpos).elim, fun _ => rfl⟩
  -- without `false` the history is `true` as often as it is long
  · have hall : h = List.replicate h.length true := by
      apply List.eq_replicate_of_mem
      intro b hb
      cases b with
      | true => rfl
      | false => exact (hfalse hb).elim
    rw [if_neg hfalse]
    generalize h.length = n at hall
    subst hall
    match n with
    | 0 => simp
    | 1 => simp
    | n + 2 =>
      have hlast : (List.replicate (n + 2) true).getLast? = some true := by
        simp [List.getLast?_replicate]
      rw [hlast, if_pos rfl, List.count_replicate_self]
      refine ⟨fun heq => by omega, fun himp => ?_⟩
      have hlength := congrArg List.length (himp rfl)
      rw [List.length_replicate, List.length_singleton] at hlength
      omega

/-- **The list and the set**: every element that is in is listed once and no other, exactly if each of
them was put in once and never taken out. -/
theorem listed_iff (events : List (α × Bool)) :
    ((listed events).Nodup ∧ ∀ a, a ∈ listed events ↔ Present a events) ↔
      ∀ a, Present a events → history a events = [true] := by
  rw [List.nodup_iff_count_le_one]
  -- both sides are a statement about the count of each element
  calc ((∀ a, (listed events).count a ≤ 1) ∧ ∀ a, a ∈ listed events ↔ Present a events)
      ↔ ∀ a, (listed events).count a = if Present a events then 1 else 0 := by
        rw [← forall_and]
        refine forall_congr' fun a => ?_
        rw [← List.count_pos_iff]
        by_cases h : Present a events
        · rw [if_pos h]
          simp only [h, iff_true]
          omega
        · rw [if_neg h]
          simp only [h, iff_false]
          omega
    _ ↔ ∀ a, Present a events → history a events = [true] := by
        refine forall_congr' fun a => ?_
        rw [count_listed]
        exact count_eq_iff (history a events)

end StrategyBuilder.Lib.Toggles
