import StrategyBuilder.Backend.SlotAllocation
import StrategyBuilder.Lib.Transition

/-!
# Allocations that overlap

`allocateSlots` reads the vault's `contextSlots`, awaits, and writes the whole JSON back. Calls for one
vault may interleave between the read and the write. What a call returns is right for the slots it
read; it stays right as long as every write still has all slots that are recorded by then
(`allocation_permanent`).
-/

set_option autoImplicit false

namespace StrategyBuilder.Backend

open StrategyBuilder.Lib.Js
open StrategyBuilder.Lib.Transition

/-! ## What a call writes -/

/-- The names that a call has to assign: those that are not in the slots it read, each once. -/
def freshNames (read : ContextSlots) (slotNames : List String) : List String :=
  slotNames.foldl
    (fun fresh name =>
      if name ∈ read.map (fun e => e.2.name) ∨ name ∈ fresh then fresh else fresh ++ [name]) []

/-- The index that a call counts on from. -/
def firstFree (read : ContextSlots) : Nat :=
  if 0 < read.length then (read.map Prod.fst).foldl max 0 + 1 else 0

/-- The loop of `allocateSlots` after the names `seen`. -/
structure Allocation.Progress (read : ContextSlots) (seen : List String) (s : Allocation) : Prop where
  named : ∀ name idx, s.slots.Named name idx ↔ read.Named name idx ∨
    ∃ k, (freshNames read seen)[k]? = some name ∧ idx = firstFree read + k
  next : s.nextIndex = firstFree read + (freshNames read seen).length
  known : ∀ name, (∃ idx, s.existingByName name = some idx) ↔
    name ∈ read.map (fun e => e.2.name) ∨ name ∈ freshNames read seen

theorem freshNames_concat (read : ContextSlots) (seen : List String) (name : String) :
    freshNames read (seen ++ [name]) =
      if name ∈ read.map (fun e => e.2.name) ∨ name ∈ freshNames read seen then freshNames read seen
      else freshNames read seen ++ [name] := by
  rw [freshNames, List.foldl_append]
  rfl

/-- No name has been allocated yet. -/
theorem Allocation.start_progress (read : ContextSlots) :
    Allocation.Progress read [] (.start read) := by
  refine ⟨fun name idx => ?_, rfl, fun name => ?_⟩
  · constructor
    · intro h
      exact Or.inl h
    · rintro (h | ⟨k, hk, -⟩)
      · exact h
      · cases hk
  · have hkeys : (read.map fun e => (e.2.name, e.1)).map Prod.fst = read.map fun e => e.2.name := by
      rw [List.map_map]
      rfl
    constructor
    · rintro ⟨idx, h⟩
      refine Or.inl ?_
      rw [← hkeys]
      exact List.mem_map_of_mem (f := Prod.fst) (Map.mem_of_ofEntries h)
    · rintro (h | h)
      · rw [← hkeys] at h
        exact Map.ofEntries_isSome h
      · cases h

/-- The names after another entry. -/
theorem ContextSlots.named_concat {slots : ContextSlots} {i : Nat} {slotMeta : SlotMeta}
    {name : String} {idx : Nat} : ContextSlots.Named (slots ++ [(i, slotMeta)]) name idx ↔
      slots.Named name idx ∨ (slotMeta.name = name ∧ i = idx) := by
  constructor
  · rintro ⟨m, hm, hname⟩
    rcases List.mem_append.1 hm with hm | hm
    · exact Or.inl ⟨m, hm, hname⟩
    · rw [List.mem_singleton, Prod.mk.injEq] at hm
      obtain ⟨rfl, rfl⟩ := hm
      exact Or.inr ⟨hname, rfl⟩
  · rintro (h | ⟨rfl, rfl⟩)
    · exact h.append
    · exact ⟨slotMeta, List.mem_append_right _ (List.mem_singleton_self _), rfl⟩

/-- One name is found, or gets the next free index. -/
theorem Allocation.Progress.allocate {read : ContextSlots} {seen : List String} {s : Allocation}
    (h : Allocation.Progress read seen s) (automationId name : String) :
    Allocation.Progress read (seen ++ [name]) (s.allocate automationId name) := by
  unfold Allocation.allocate
  cases hname : s.existingByName name with
  | some existing =>
    have hknown := (h.known name).1 ⟨existing, hname⟩
    have hfresh : freshNames read (seen ++ [name]) = freshNames read seen := by
      rw [freshNames_concat, if_pos hknown]
    exact ⟨hfresh ▸ h.named, hfresh ▸ h.next, hfresh ▸ h.known⟩
  | none =>
    have hunknown : ¬ (name ∈ read.map (fun e => e.2.name) ∨ name ∈ freshNames read seen) := by
      intro hknown
      obtain ⟨idx, hidx⟩ := (h.known name).2 hknown
      rw [hname] at hidx
      cases hidx
    have hfresh : freshNames read (seen ++ [name]) = freshNames read seen ++ [name] := by
      rw [freshNames_concat, if_neg hunknown]
    refine ⟨fun other idx => ?_, ?_, fun other => ?_⟩
    · rw [ContextSlots.named_concat, h.named, hfresh, or_assoc]
      refine or_congr_right ?_
      constructor
      · rintro (⟨k, hk, rfl⟩ | ⟨rfl, rfl⟩)
        · refine ⟨k, ?_, rfl⟩
          rw [List.getElem?_append_left (List.getElem?_eq_some_iff.1 hk).1, hk]
        · exact ⟨_, List.getElem?_concat_length, h.next⟩
      · rintro ⟨k, hk, rfl⟩
        -- an earlier fresh name, or the one that is added
        rcases Nat.lt_or_ge k (freshNames read seen).length with hlt | hge
        · rw [List.getElem?_append_left hlt] at hk
          exact Or.inl ⟨k, hk, rfl⟩
        · rw [List.getElem?_append_right hge, List.getElem?_singleton] at hk
          split at hk
          · rename_i hzero
            rw [Option.some.injEq] at hk
            exact Or.inr ⟨hk, by rw [h.next]; omega⟩
          · cases hk
    · rw [hfresh, List.length_append, List.length_singleton]
      simp only [h.next]
      omega
    · rw [hfresh, List.mem_append, List.mem_singleton, ← or_assoc, ← h.known]
      by_cases hother : other = name
      · subst hother
        simp
      · simp only [Map.set_of_ne s.existingByName s.nextIndex hother, hother, or_false]

/-- **The slots that a call writes**: those it read, and its fresh names from the first free index
on. -/
theorem allocateSlots_named (read : ContextSlots) (slotNames : List String) (automationId : String)
    (name : String) (idx : Nat) : (allocateSlots read slotNames automationId).1.Named name idx ↔
      read.Named name idx ∨
        ∃ k, (freshNames read slotNames)[k]? = some name ∧ idx = firstFree read + k := by
  have hend : Allocation.Progress read slotNames
      (slotNames.foldl (Allocation.allocate automationId) (.start read)) :=
    Allocation.foldl_seen (fun _ _ name hs => hs.allocate automationId name) slotNames
      (Allocation.start_progress read)
  exact hend.named name idx

/-! ## The system -/

/-- A call between its read and its write. -/
structure Call where
  read : ContextSlots
  slotNames : List String
  automationId : String
deriving DecidableEq, Repr

/-- The vault's row, the calls in progress, and every name with the index that some call returned for
it. -/
structure Race where
  contextSlots : ContextSlots
  calls : List Call
  returned : List (String × Nat)
deriving DecidableEq, Repr

/-- What a call does next, or another writer. -/
inductive RaceEvent where
  /-- A call reads the vault. -/
  | read (slotNames : List String) (automationId : String)
  /-- The `k`-th call in progress writes, and returns its mapping. -/
  | write (k : Nat)
  /-- The `k`-th call in progress fails. -/
  | fail (k : Nat)
deriving DecidableEq, Repr

/-- A vault is created without slots. -/
def Race.start : Race := ⟨[], [], []⟩

/-- One event. -/
def Race.step (w : Race) : RaceEvent → Race
  | .read slotNames automationId =>
      { w with calls := w.calls ++ [⟨w.contextSlots, slotNames, automationId⟩] }
  | .write k =>
      match w.calls[k]? with
      | none => w
      | some c =>
          -- the whole column is written, on the strength of what was read
          let (slots, mapping) := allocateSlots c.read c.slotNames c.automationId
          { contextSlots := slots
            calls := w.calls.eraseIdx k
            returned := w.returned ++ mapping }
  | .fail k => { w with calls := w.calls.eraseIdx k }

theorem Race.step_write {w : Race} {k : Nat} {c : Call} (h : w.calls[k]? = some c) :
    w.step (.write k) =
      { contextSlots := (allocateSlots c.read c.slotNames c.automationId).1
        calls := w.calls.eraseIdx k
        returned := w.returned ++ (allocateSlots c.read c.slotNames c.automationId).2 } := by
  simp only [Race.step, h]

/-- Names and indices determine each other in all that was returned, and once no call is in progress
all of it is recorded. -/
structure Permanent (w : Race) : Prop where
  name_unique : ∀ a b i, (a, i) ∈ w.returned → (b, i) ∈ w.returned → a = b
  index_unique : ∀ a i j, (a, i) ∈ w.returned → (a, j) ∈ w.returned → i = j
  recorded : w.calls = [] → ∀ a i, (a, i) ∈ w.returned → w.contextSlots.Named a i

/-- A call writes only while every recorded slot is one that it read, or is the slot that it counts to
for one of its fresh names. -/
def KeepsRecorded (w : Race) : RaceEvent → Prop
  | .write k => ∀ c, w.calls[k]? = some c → ∀ name idx, w.contextSlots.Named name idx →
      c.read.Named name idx ∨
        ∃ j, (freshNames c.read c.slotNames)[j]? = some name ∧ idx = firstFree c.read + j
  | _ => True

/-- All slots that were read or are recorded are consistent. -/
structure Race.Sound (w : Race) : Prop where
  consistent : w.contextSlots.Consistent
  reads : ∀ c ∈ w.calls, c.read.Consistent

/-- The invariant: what was returned is recorded. -/
structure Race.Inv (w : Race) : Prop extends Race.Sound w where
  recorded : ∀ a i, (a, i) ∈ w.returned → w.contextSlots.Named a i

theorem Race.start_sound : Race.start.Sound := by
  refine ⟨⟨List.nodup_nil, List.nodup_nil⟩, fun c hc => ?_⟩
  cases hc

/-- An event keeps what is true of the calls in progress. -/
theorem Race.step_sound (w : Race) (event : RaceEvent) (h : w.Sound) : (w.step event).Sound := by
  cases event with
  | read slotNames automationId =>
    refine ⟨h.consistent, fun c hc => ?_⟩
    rcases List.mem_append.1 hc with hc | hc
    · exact h.reads c hc
    · rw [List.mem_singleton] at hc
      subst hc
      exact h.consistent
  | fail k => exact ⟨h.consistent, fun c hc => h.reads c (List.mem_of_mem_eraseIdx hc)⟩
  | write k =>
    cases hcall : w.calls[k]? with
    | none =>
      -- there is no such call
      have hsame : w.step (.write k) = w := by simp only [Race.step, hcall]
      rw [hsame]
      exact h
    | some c =>
      rw [Race.step_write hcall]
      exact ⟨(allocateSlots_spec (h.reads c (List.mem_of_getElem? hcall)) c.slotNames
        c.automationId).consistent, fun c' hc' => h.reads c' (List.mem_of_mem_eraseIdx hc')⟩

/-- Whatever the order of the calls, no name and no index is recorded twice. -/
theorem Race.run_consistent (events : List RaceEvent) :
    (run Race.step Race.start events).contextSlots.Consistent := by
  have hsound : (run Race.step Race.start events).Sound :=
    run_invariant (fun w event h _ => Race.step_sound w event h) Race.start_sound
      (admitted_true Race.step Race.start events)
  exact hsound.consistent

theorem Race.start_inv : Race.start.Inv := by
  refine ⟨Race.start_sound, fun a i h => ?_⟩
  cases h

/-- An event that drops no recorded slot keeps the invariant. -/
theorem Race.step_inv (w : Race) (event : RaceEvent) (h : w.Inv) (hok : KeepsRecorded w event) :
    (w.step event).Inv := by
  refine ⟨Race.step_sound w event h.toSound, fun a i hret => ?_⟩
  cases event with
  | read slotNames automationId => exact h.recorded a i hret
  | fail k => exact h.recorded a i hret
  | write k =>
    cases hcall : w.calls[k]? with
    | none =>
      have hsame : w.step (.write k) = w := by simp only [Race.step, hcall]
      rw [hsame] at hret ⊢
      exact h.recorded a i hret
    | some c =>
      have hspec := allocateSlots_spec (h.reads c (List.mem_of_getElem? hcall)) c.slotNames
        c.automationId
      rw [Race.step_write hcall] at hret ⊢
      rcases List.mem_append.1 hret with hold | hnew
      · -- what was returned before is still among the slots that are written
        exact (allocateSlots_named c.read c.slotNames c.automationId a i).2
          (hok c hcall a i (h.recorded a i hold))
      · exact hspec.named a i (Record.own?_of_mem hspec.keys hnew)

theorem Race.Inv.permanent {w : Race} (h : w.Inv) : Permanent w := by
  refine ⟨fun a b i ha hb => ?_, fun a i j hi hj => ?_, fun _ => h.recorded⟩
  · exact h.consistent.name_unique (h.recorded a i ha) (h.recorded b i hb)
  · exact h.consistent.index_unique (h.recorded a i hi) (h.recorded a j hj)

/-- **Allocations are permanent** in every run in which each write still has what is recorded. -/
theorem allocation_permanent {events : List RaceEvent}
    (h : Admitted Race.step KeepsRecorded Race.start events) :
    Permanent (run Race.step Race.start events) :=
  (run_invariant Race.step_inv Race.start_inv h).permanent

/-- Two calls for the same name overlap: both count to the same slot. -/
theorem allocation_permanent_sample : Permanent (run Race.step Race.start
    [.read ["timeSlot_1"] "a1", .read ["timeSlot_1"] "a2", .write 0, .write 0]) := by
  refine allocation_permanent ⟨trivial, trivial, ?_, ?_, trivial⟩
  · rintro c - name idx ⟨slotMeta, hmem, -⟩
    cases hmem
  · intro c hc name idx hnamed
    have hcall : c = ⟨[], ["timeSlot_1"], "a2"⟩ := (Option.some.inj hc).symm
    subst hcall
    obtain ⟨slotMeta, hmem, rfl⟩ := hnamed
    have hentry : (idx, slotMeta) = (0, (⟨"timeSlot_1", "uint256", "", "a1"⟩ : SlotMeta)) :=
      List.mem_singleton.1 hmem
    rw [Prod.mk.injEq] at hentry
    obtain ⟨rfl, rfl⟩ := hentry
    exact Or.inr ⟨0, rfl, rfl⟩

/-- A write that lacks a recorded slot drops it. -/
theorem write_drops {w : Race} {k : Nat} {c : Call} {name : String} {idx : Nat}
    (hcall : w.calls[k]? = some c) (hread : ¬ c.read.Named name idx)
    (hfresh : ¬ ∃ j, (freshNames c.read c.slotNames)[j]? = some name ∧ idx = firstFree c.read + j) :
    ¬ (w.step (.write k)).contextSlots.Named name idx := by
  intro hnamed
  rw [Race.step_write hcall] at hnamed
  rcases (allocateSlots_named c.read c.slotNames c.automationId name idx).1 hnamed with h | h
  · exact hread h
  · exact hfresh h

/-- Two calls for different names overlap: both return index 0. -/
theorem overlapping_calls_collide : ¬ Permanent (run Race.step Race.start
    [.read ["timeSlot_1"] "a1", .read ["threshold"] "a2", .write 0, .write 0]) := by
  intro h
  have hsame := h.name_unique "timeSlot_1" "threshold" 0 (by decide) (by decide)
  exact absurd hsame (by decide)

end StrategyBuilder.Backend
