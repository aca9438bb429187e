import Mathlib.Data.List.Basic
import Mathlib.Data.List.Infix
import Mathlib.Logic.Function.Iterate

/-!
# Undo histories

A history has a present, snapshots to go back to, and snapshots to come back to after that. A change
takes a snapshot of the present first (`snapshot`) or not, and puts another present in its place
(`set`). Of the past no more than a limit of snapshots is kept.

The rules say that what holds of every snapshot goes on to do so (`All`), and that undo and redo only
move along the presents of a history (`timeline`): after changes that take their snapshots, no more than
the limit, one goes back through all of them and comes forward again (`back_edits`, `forth_edits`).
-/

set_option autoImplicit false

namespace StrategyBuilder.Lib

universe u

/-- A value with what came before it, and what has been undone. -/
structure History (α : Type u) where
  /-- The oldest first. -/
  past : List α
  present : α
  /-- The next one to come back to last. -/
  future : List α

namespace History

variable {α : Type u}

/-- A history that starts here. -/
def start (a : α) : History α := ⟨[], a, []⟩

/-- Keep the present; what could be redone is lost. -/
def snapshot (limit : Nat) (h : History α) : History α :=
  let past := h.past ++ [h.present]
  { h with
    past := if limit < past.length then past.tail else past
    future := [] }

/-- Another present, without a snapshot. -/
def set (a : α) (h : History α) : History α := { h with present := a }

/-- Back to the latest snapshot, if there is one. -/
def undo (h : History α) : Option (History α) :=
  match h.past.getLast? with
  | none => none
  | some a => some ⟨h.past.dropLast, a, h.future ++ [h.present]⟩

/-- What was undone last comes back. -/
def redo (h : History α) : Option (History α) :=
  match h.future.getLast? with
  | none => none
  | some a => some ⟨h.past ++ [h.present], a, h.future.dropLast⟩

@[simp] theorem present_start (a : α) : (start a).present = a := rfl

@[simp] theorem present_snapshot (limit : Nat) (h : History α) :
    (h.snapshot limit).present = h.present := rfl

@[simp] theorem present_set (a : α) (h : History α) : (h.set a).present = a := rfl

/-! ## What holds of every snapshot -/

/-- It holds of the present and of whatever one can go to from there. -/
structure All (P : α → Prop) (h : History α) : Prop where
  past : ∀ a ∈ h.past, P a
  present : P h.present
  future : ∀ a ∈ h.future, P a

namespace All

variable {P : α → Prop} {h h' : History α}

theorem start {a : α} (ha : P a) : (History.start a).All P := ⟨nofun, ha, nofun⟩

theorem set (hP : h.All P) {a : α} (ha : P a) : (h.set a).All P := ⟨hP.past, ha, hP.future⟩

theorem mem_concat (hpresent : P h.present) {l : List α} (hl : ∀ a ∈ l, P a) :
    ∀ a ∈ l ++ [h.present], P a := by
  intro a ha
  rcases List.mem_append.1 ha with ha | ha
  · exact hl a ha
  · rw [List.mem_singleton] at ha
    rw [ha]
    exact hpresent

/-- A snapshot keeps what holds of all values. -/
theorem snapshot (hP : h.All P) (limit : Nat) : (h.snapshot limit).All P := by
  refine ⟨?_, hP.present, nofun⟩
  intro a ha
  apply mem_concat hP.present hP.past
  simp only [History.snapshot] at ha
  split at ha
  · exact List.mem_of_mem_tail ha
  · exact ha

/-- To undo keeps what holds of all values. -/
theorem undo (hP : h.All P) (hundo : h.undo = some h') : h'.All P := by
  rw [History.undo] at hundo
  split at hundo
  · cases hundo
  · next a hlast =>
    cases hundo
    refine ⟨?_, hP.past a (List.mem_of_getLast? hlast), mem_concat hP.present hP.future⟩
    intro b hb
    exact hP.past b ((List.dropLast_sublist _).subset hb)

/-- To redo keeps what holds of all values. -/
theorem redo (hP : h.All P) (hredo : h.redo = some h') : h'.All P := by
  rw [History.redo] at hredo
  split at hredo
  · cases hredo
  · next a hlast =>
    cases hredo
    refine ⟨mem_concat hP.present hP.past, hP.future a (List.mem_of_getLast? hlast), ?_⟩
    intro b hb
    exact hP.future b ((List.dropLast_sublist _).subset hb)

end All

/-! ## Undo and redo as moves -/

/-- The presents in the order in which they were made. -/
def timeline (h : History α) : List α := h.past ++ h.present :: h.future.reverse

/-- `undo`, which stays where there is nothing to go back to. -/
def back (h : History α) : History α := h.undo.getD h

/-- `redo`, which stays where there is nothing to come back to. -/
def forth (h : History α) : History α := h.redo.getD h

/-- A change that takes a snapshot first. -/
def edit (limit : Nat) (h : History α) (a : α) : History α := (h.snapshot limit).set a

section Moves

variable {limit : Nat} (h : History α)

theorem timeline_present : h.timeline[h.past.length]? = some h.present := by
  rw [timeline, List.getElem?_append_right (Nat.le_refl _), Nat.sub_self]
  rfl

theorem timeline_length : h.timeline.length = h.past.length + h.future.length + 1 := by
  simp only [timeline, List.length_append, List.length_cons, List.length_reverse]
  omega

/-- To go back moves in the timeline. -/
theorem back_moves :
    h.back.timeline = h.timeline ∧ h.back.past.length = h.past.length - 1 := by
  rw [back, undo]
  cases hlast : h.past.getLast? with
  | none =>
    rw [List.getLast?_eq_none_iff] at hlast
    exact ⟨rfl, by simp [hlast]⟩
  | some a =>
    obtain ⟨past, hpast⟩ := List.getLast?_eq_some_iff.1 hlast
    simp [timeline, hpast]

/-- To go forth moves in the timeline. -/
theorem forth_moves (hlt : h.past.length + 1 < h.timeline.length) :
    h.forth.timeline = h.timeline ∧ h.forth.past.length = h.past.length + 1 := by
  rw [timeline_length] at hlt
  rw [forth, redo]
  cases hlast : h.future.getLast? with
  | none =>
    rw [List.getLast?_eq_none_iff] at hlast
    rw [hlast, List.length_nil] at hlt
    omega
  | some a =>
    obtain ⟨future, hfuture⟩ := List.getLast?_eq_some_iff.1 hlast
    simp [timeline, hfuture]

/-- So do any number of steps back. -/
theorem back_iterate (i : Nat) :
    (back^[i] h).timeline = h.timeline ∧ (back^[i] h).past.length = h.past.length - i := by
  induction i with
  | zero => exact ⟨rfl, rfl⟩
  | succ i ih =>
    rw [Function.iterate_succ_apply']
    obtain ⟨htimeline, hlength⟩ := back_moves (back^[i] h)
    exact ⟨htimeline.trans ih.1, by omega⟩

/-- So do any number of steps forth. -/
theorem forth_iterate {j : Nat} (hlt : h.past.length + j < h.timeline.length) :
    (forth^[j] h).timeline = h.timeline ∧ (forth^[j] h).past.length = h.past.length + j := by
  induction j with
  | zero => exact ⟨rfl, rfl⟩
  | succ j ih =>
    obtain ⟨htimeline, hlength⟩ := ih (by omega)
    rw [Function.iterate_succ_apply']
    obtain ⟨htimeline', hlength'⟩ := forth_moves (forth^[j] h) (by
      rw [htimeline, hlength]
      exact hlt)
    exact ⟨htimeline'.trans htimeline, by omega⟩

end Moves

/-! ## Changes -/

section Edits

variable {limit : Nat} {h : History α}

theorem suffix_tail {l m : List α} (hsuffix : l <:+ m) (hlt : l.length < m.length) : l <:+ m.tail := by
  cases m with
  | nil => exact absurd hlt (Nat.not_lt_zero _)
  | cons a m =>
    rcases List.suffix_cons_iff.1 hsuffix with rfl | htail
    · exact absurd hlt (Nat.lt_irrefl _)
    · exact htail

/-- The limit takes no snapshot of the last changes away, as long as these are no more than it. -/
theorem edits_suffix {as : List α} (hle : as.length ≤ limit) :
    h.present :: as <:+
      (as.foldl (edit limit) h).past ++ [(as.foldl (edit limit) h).present] := by
  induction as using List.reverseRecOn with
  | nil => exact List.suffix_append _ _
  | append_singleton as a ih =>
    rw [List.length_append, List.length_singleton] at hle
    have hkept := ih (by omega)
    rw [List.foldl_append, List.foldl_cons, List.foldl_nil]
    generalize as.foldl (edit limit) h = g at hkept
    change h.present :: as ++ [a] <:+ (g.snapshot limit).past ++ [a]
    refine List.suffix_append_self_iff.2 ?_
    rw [snapshot]
    dsimp only
    split
    · exact suffix_tail hkept (by rw [List.length_cons]; omega)
    · exact hkept

/-- Where the presents of the changes stand in the timeline. -/
theorem edits_timeline {as : List α} (hle : as.length ≤ limit) {i : Nat} (hi : i ≤ as.length) :
    (as.foldl (edit limit) h).timeline[(as.foldl (edit limit) h).past.length - i]? =
      (h.present :: as)[as.length - i]? := by
  obtain ⟨older, hsuffix⟩ := edits_suffix (h := h) hle
  generalize as.foldl (edit limit) h = g at hsuffix
  have hlength := congrArg List.length hsuffix
  rw [List.length_append, List.length_append, List.length_cons, List.length_singleton] at hlength
  have htimeline : g.timeline = older ++ ((h.present :: as) ++ g.future.reverse) := by
    rw [timeline, ← List.append_assoc, hsuffix, List.append_assoc, List.singleton_append]
  have hindex : g.past.length - i = older.length + (as.length - i) := by omega
  rw [htimeline, hindex, List.getElem?_append_right (Nat.le_add_right _ _), Nat.add_sub_cancel_left,
    List.getElem?_append_left (by rw [List.length_cons]; omega)]

/-- Undoing goes back through the presents of the changes, one by one. -/
theorem back_edits {as : List α} (hle : as.length ≤ limit) {i : Nat} (hi : i ≤ as.length) :
    (h.present :: as)[as.length - i]? = some (back^[i] (as.foldl (edit limit) h)).present := by
  obtain ⟨htimeline, hlength⟩ := back_iterate (as.foldl (edit limit) h) i
  rw [← edits_timeline hle hi, ← htimeline, ← hlength]
  exact timeline_present _

/-- Redoing comes forward through them again. -/
theorem forth_edits {as : List α} (hle : as.length ≤ limit) {j : Nat} (hj : j ≤ as.length) :
    (h.present :: as)[j]? =
      some (forth^[j] (back^[as.length] (as.foldl (edit limit) h))).present := by
  have hat := edits_timeline (h := h) hle (Nat.sub_le as.length j)
  have hpast : as.length ≤ (as.foldl (edit limit) h).past.length := by
    have := (edits_suffix (h := h) hle).length_le
    rw [List.length_cons, List.length_append, List.length_singleton] at this
    omega
  obtain ⟨htimeline, hlength⟩ := back_iterate (as.foldl (edit limit) h) as.length
  have hlt := timeline_length (as.foldl (edit limit) h)
  generalize as.foldl (edit limit) h = g at hat hpast htimeline hlength hlt ⊢
  obtain ⟨htimeline', hlength'⟩ := forth_iterate (back^[as.length] g) (j := j) (by
    rw [htimeline, hlength]
    omega)
  have hposition : (forth^[j] (back^[as.length] g)).past.length =
      g.past.length - (as.length - j) := by omega
  rw [Nat.sub_sub_self hj, ← hposition, ← htimeline, ← htimeline'] at hat
  rw [← hat]
  exact timeline_present _

/-- A snapshot with no change after it: there is nothing to see of the undo. -/
theorem back_snapshot (hlimit : 0 < limit) : (h.snapshot limit).back.present = h.present := by
  have hone : [h.present].length ≤ limit := hlimit
  exact (Option.some.inj (back_edits hone (Nat.le_refl 1))).symm

end Edits

end History

end StrategyBuilder.Lib
