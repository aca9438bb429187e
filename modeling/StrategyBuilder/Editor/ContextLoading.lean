import StrategyBuilder.Lib.Keyed
import StrategyBuilder.Lib.Transition
import StrategyBuilder.Editor.EditorState

/-!
# Loading the context variables

When the editor opens, the saved variables of the automation and the context slots of the vault are
fetched at the same time, and `editor-page.tsx` merges each into the store when it arrives. The saved
variables win over what is in the store, and the vault's slots fill gaps.

A run takes the deliveries of the two loads and the additions of variables in any order
(`ContextLoads.after`). Each step is described by what it leaves in a slot; `context_loading` collects
what a run keeps, and where the order of the loads does not matter.
-/

set_option autoImplicit false

namespace StrategyBuilder.Editor

open StrategyBuilder.Lib
open StrategyBuilder.Lib.Keyed

/-! ## Merging -/

/-- `[...bySlot.values()].sort((a, b) => a.slotIndex - b.slotIndex)` after both loops. -/
def mergeContextVariables (base overlay : List ContextVariable) : List ContextVariable :=
  let bySlot := base.foldl (setKey ContextVariable.slotIndex) []
  let bySlot := overlay.foldl (setKey ContextVariable.slotIndex) bySlot
  sortByKey ContextVariable.slotIndex bySlot

namespace EditorState

/-- The saved variables win over those of the store. -/
def mergeEditorContextVariables (s : EditorState) (incoming : List ContextVariable) : EditorState :=
  { s with contextVariables := mergeContextVariables s.contextVariables incoming }

/-- The slots of the vault only fill gaps. -/
def mergeVaultContextSlots (s : EditorState) (slots : List ContextVariable) : EditorState :=
  { s with contextVariables := mergeContextVariables slots s.contextVariables }

end EditorState

/-- The variable of a slot; where a slot occurs twice, the last one counts. -/
def variableAt (l : List ContextVariable) (slotIndex : Nat) : Option ContextVariable :=
  lookup ContextVariable.slotIndex l slotIndex

/-- By slot, each slot once. -/
def BySlot (l : List ContextVariable) : Prop := Ascending ContextVariable.slotIndex l

theorem BySlot.ext {l m : List ContextVariable} (hl : BySlot l) (hm : BySlot m)
    (h : ∀ i, variableAt l i = variableAt m i) : l = m := Ascending.ext hl hm h

theorem mem_of_variableAt {l : List ContextVariable} {i : Nat} {v : ContextVariable}
    (h : variableAt l i = some v) : v ∈ l := (mem_of_lookup h).1

theorem bySlot_mergeContextVariables (base overlay : List ContextVariable) :
    BySlot (mergeContextVariables base overlay) := ascending_merged _ base overlay

theorem variableAt_mergeContextVariables (base overlay : List ContextVariable) (i : Nat) :
    variableAt (mergeContextVariables base overlay) i =
      (variableAt overlay i).or (variableAt base i) := lookup_merged _ base overlay i

/-! ## A new variable -/

/-- The slot that `addContextVariable` takes. -/
def nextIndex (l : List ContextVariable) : Nat :=
  if l = [] then 0 else (l.map ContextVariable.slotIndex).foldl max 0 + 1

theorem contextVariables_addContextVariable (s : EditorState) (added : ContextVariable) :
    (s.addContextVariable added).contextVariables =
      s.contextVariables ++ [{ added with slotIndex := nextIndex s.contextVariables }] := rfl

/-- The running maximum is above all. -/
theorem le_foldl_max {l : List Nat} {m i : Nat} (h : i ≤ m ∨ i ∈ l) : i ≤ l.foldl max m := by
  induction l generalizing m with
  | nil => simpa using h
  | cons j l ih =>
    apply ih
    rw [List.mem_cons] at h
    rcases h with h | rfl | h
    · exact Or.inl (h.trans (Nat.le_max_left m j))
    · exact Or.inl (Nat.le_max_right m i)
    · exact Or.inr h

/-- The new slot is behind all others. -/
theorem slotIndex_lt_nextIndex {l : List ContextVariable} {v : ContextVariable} (h : v ∈ l) :
    v.slotIndex < nextIndex l := by
  unfold nextIndex
  rw [if_neg (List.ne_nil_of_mem h), Nat.lt_succ_iff]
  exact le_foldl_max (Or.inr (List.mem_map.2 ⟨v, h, rfl⟩))

theorem variableAt_nextIndex (l : List ContextVariable) : variableAt l (nextIndex l) = none :=
  lookup_eq_none.2 fun _ hv => ne_of_lt (slotIndex_lt_nextIndex hv)

/-! ## Runs -/

/-- What the two loads deliver. -/
structure ContextLoads where
  editor : List ContextVariable
  vault : List ContextVariable

/-- The two loads, and a variable that is added between them. -/
inductive ContextOp where
  | editorLoad
  | vaultLoad
  | add (added : ContextVariable)
deriving DecidableEq

/-- The operation is one of the two loads. -/
def ContextOp.isLoad : ContextOp → Bool
  | .editorLoad | .vaultLoad => true
  | .add _ => false

namespace ContextLoads

variable (loads : ContextLoads)

/-- What an operation does to the variables of the store. -/
def apply (s : EditorState) : ContextOp → EditorState
  | .editorLoad => s.mergeEditorContextVariables loads.editor
  | .vaultLoad => s.mergeVaultContextSlots loads.vault
  | .add added => s.addContextVariable added

/-- The store after a run. -/
def after (s : EditorState) (ops : List ContextOp) : EditorState := Transition.run loads.apply s ops

/-- The variable of a slot after a run. -/
def slotAfter (s : EditorState) (ops : List ContextOp) (i : Nat) : Option ContextVariable :=
  variableAt (loads.after s ops).contextVariables i

variable {loads}

theorem after_append (s : EditorState) (ops ops' : List ContextOp) :
    loads.after s (ops ++ ops') = loads.after (loads.after s ops) ops' :=
  Transition.run_append loads.apply s ops ops'

/-! ## What a step leaves in a slot -/

variable (s : EditorState) (i : Nat)

theorem variableAt_editorLoad :
    variableAt (loads.apply s .editorLoad).contextVariables i =
      (variableAt loads.editor i).or (variableAt s.contextVariables i) :=
  variableAt_mergeContextVariables s.contextVariables loads.editor i

theorem variableAt_vaultLoad :
    variableAt (loads.apply s .vaultLoad).contextVariables i =
      (variableAt s.contextVariables i).or (variableAt loads.vault i) :=
  variableAt_mergeContextVariables loads.vault s.contextVariables i

/-- A variable that is added is in the next slot. -/
theorem variableAt_add (added : ContextVariable) :
    variableAt (loads.apply s (.add added)).contextVariables i =
      if nextIndex s.contextVariables = i then
        some { added with slotIndex := nextIndex s.contextVariables }
      else variableAt s.contextVariables i := by
  rw [apply, contextVariables_addContextVariable]
  exact lookup_concat _ s.contextVariables _ i

/-! ## What a run keeps -/

/-- An addition or a load leaves a variable where it is, unless the saved variables have another one in
its slot. -/
theorem slot_kept {s : EditorState} {i : Nat} {v : ContextVariable}
    (hv : variableAt s.contextVariables i = some v)
    (hsaved : variableAt loads.editor i = none ∨ variableAt loads.editor i = some v)
    (ops : List ContextOp) : loads.slotAfter s ops i = some v := by
  have hstep : ∀ t op, variableAt t.contextVariables i = some v → True →
      variableAt (loads.apply t op).contextVariables i = some v := by
    intro t op ht _
    cases op with
    | editorLoad =>
      rw [variableAt_editorLoad, ht]
      rcases hsaved with hnone | hsome
      · rw [hnone, Option.none_or]
      · rw [hsome, Option.some_or]
    | vaultLoad => rw [variableAt_vaultLoad, ht, Option.some_or]
    | add added =>
      -- the new variable gets a slot that is free, and this one is not
      have hfresh : nextIndex t.contextVariables ≠ i := by
        rintro rfl
        rw [variableAt_nextIndex] at ht
        cases ht
      rw [variableAt_add, if_neg hfresh, ht]
  exact Transition.run_invariant hstep hv (Transition.admitted_true loads.apply s ops)

/-- The saved variables stay once they have arrived. -/
theorem saved_kept {s : EditorState} {ops : List ContextOp} (hload : ContextOp.editorLoad ∈ ops)
    {i : Nat} {v : ContextVariable} (hv : variableAt loads.editor i = some v) :
    loads.slotAfter s ops i = some v := by
  obtain ⟨before, rest, rfl⟩ := List.append_of_mem hload
  have harrived : variableAt (loads.apply (loads.after s before) .editorLoad).contextVariables i =
      some v := by
    rw [variableAt_editorLoad, hv, Option.some_or]
  rw [slotAfter, after_append]
  exact slot_kept harrived (Or.inr hv) rest

variable (loads) in
/-- After the saved variables have arrived, the slot of a new one is none of theirs. -/
theorem nextIndex_free (s : EditorState) {before : List ContextOp}
    (hload : ContextOp.editorLoad ∈ before) :
    variableAt loads.editor (nextIndex (loads.after s before).contextVariables) = none := by
  rw [Option.eq_none_iff_forall_ne_some]
  intro v hv
  -- a saved variable in the new slot would be in the store by now
  have hthere : loads.slotAfter s before _ = some v := saved_kept hload hv
  rw [slotAfter, variableAt_nextIndex] at hthere
  cases hthere

variable (loads) in
/-- So does a variable that is added, where its slot is none of theirs. -/
theorem added_kept (s : EditorState) (before : List ContextOp) (added : ContextVariable)
    (rest : List ContextOp)
    (hsaved : variableAt loads.editor (nextIndex (loads.after s before).contextVariables) = none) :
    let index := nextIndex (loads.after s before).contextVariables
    loads.slotAfter s (before ++ .add added :: rest) index =
      some { added with slotIndex := index } := by
  intro index
  have hnew : variableAt (loads.apply (loads.after s before) (.add added)).contextVariables index =
      some { added with slotIndex := index } := by
    rw [variableAt_add, if_pos rfl]
  rw [slotAfter, after_append]
  exact slot_kept hnew (Or.inl hsaved) rest

/-- And a slot of the vault that was free when the vault's slots arrived. -/
theorem vault_kept {s : EditorState} {before : List ContextOp} {i : Nat} {v : ContextVariable}
    (hv : variableAt loads.vault i = some v) (hfree : loads.slotAfter s before i = none)
    (hsaved : variableAt loads.editor i = none) (rest : List ContextOp) :
    loads.slotAfter s (before ++ .vaultLoad :: rest) i = some v := by
  have harrived : variableAt (loads.apply (loads.after s before) .vaultLoad).contextVariables i =
      some v := by
    rw [variableAt_vaultLoad, ← slotAfter, hfree, Option.none_or, hv]
  rw [slotAfter, after_append]
  exact slot_kept harrived (Or.inl hsaved) rest

/-! ## The order of the slots -/

/-- After a load the variables stand in the order of their slots. -/
theorem bySlot_load (s : EditorState) {op : ContextOp} (h : op.isLoad = true) :
    BySlot (loads.apply s op).contextVariables := by
  cases op with
  | editorLoad => exact bySlot_mergeContextVariables s.contextVariables loads.editor
  | vaultLoad => exact bySlot_mergeContextVariables loads.vault s.contextVariables
  | add added => cases h

/-- No operation disturbs the order. -/
theorem bySlot_apply {s : EditorState} (h : BySlot s.contextVariables) (op : ContextOp) :
    BySlot (loads.apply s op).contextVariables := by
  cases op with
  | editorLoad => exact bySlot_load s rfl
  | vaultLoad => exact bySlot_load s rfl
  | add added => exact Ascending.concat h fun v hv => slotIndex_lt_nextIndex hv

/-- Once a load has arrived, the variables are in the order of their slots. -/
theorem bySlot_after (s : EditorState) {ops : List ContextOp} {op : ContextOp} (hop : op ∈ ops)
    (hload : op.isLoad = true) : BySlot (loads.after s ops).contextVariables := by
  obtain ⟨before, rest, rfl⟩ := List.append_of_mem hop
  rw [after_append]
  have hstep : ∀ t op, BySlot t.contextVariables → True →
      BySlot (loads.apply t op).contextVariables := fun t op ht _ => bySlot_apply ht op
  exact Transition.run_invariant hstep (bySlot_load (loads.after s before) hload)
    (Transition.admitted_true loads.apply _ rest)

/-! ## The order of the loads -/

variable (loads) in
/-- Loads change nothing but the variables. -/
theorem after_loading (s : EditorState) {ops : List ContextOp} (h : ∀ op ∈ ops, op.isLoad = true) :
    loads.after s ops = { s with contextVariables := (loads.after s ops).contextVariables } := by
  induction ops generalizing s with
  | nil => rfl
  | cons op ops ih =>
    have hrest := ih (loads.apply s op) fun o ho => h o (List.mem_cons_of_mem op ho)
    have hop := h op List.mem_cons_self
    cases op with
    | editorLoad => exact hrest
    | vaultLoad => exact hrest
    | add added => cases hop

/-- In each slot the saved variable comes first, then the store's, then the vault's. -/
theorem slotAfter_loading (s : EditorState) {ops : List ContextOp}
    (h : ∀ op ∈ ops, op.isLoad = true) (i : Nat) :
    loads.slotAfter s ops i =
      (if ContextOp.editorLoad ∈ ops then variableAt loads.editor i else none).or
        ((variableAt s.contextVariables i).or
          (if ContextOp.vaultLoad ∈ ops then variableAt loads.vault i else none)) := by
  induction ops generalizing s with
  | nil => simp [slotAfter, after]
  | cons op ops ih =>
    have hrest := ih (loads.apply s op) fun o ho => h o (List.mem_cons_of_mem op ho)
    have hop := h op List.mem_cons_self
    -- the first load goes into the store that the rest begins with
    rw [show loads.slotAfter s (op :: ops) i = loads.slotAfter (loads.apply s op) ops i from rfl, hrest]
    cases op with
    | editorLoad =>
      rw [variableAt_editorLoad]
      cases variableAt loads.editor i with
      | none => simp
      | some v =>
        by_cases hagain : ContextOp.editorLoad ∈ ops
        · simp [hagain]
        · simp [hagain]
    | vaultLoad =>
      rw [variableAt_vaultLoad]
      cases variableAt loads.vault i with
      | none => simp
      | some v => simp
    | add added => cases hop

/-- Both loads, in whatever order and however often. -/
structure Complete (ops : List ContextOp) : Prop where
  loads : ∀ op ∈ ops, op.isLoad = true
  editor : ContextOp.editorLoad ∈ ops
  vault : ContextOp.vaultLoad ∈ ops

theorem slotAfter_complete (s : EditorState) {ops : List ContextOp} (h : Complete ops) (i : Nat) :
    loads.slotAfter s ops i =
      (variableAt loads.editor i).or
        ((variableAt s.contextVariables i).or (variableAt loads.vault i)) := by
  rw [slotAfter_loading s h.loads, if_pos h.editor, if_pos h.vault]

/-- With both loads, and nothing added between, the order does not matter. -/
theorem after_complete (s : EditorState) {ops ops' : List ContextOp} (h : Complete ops)
    (h' : Complete ops') : loads.after s ops = loads.after s ops' := by
  have hslots : (loads.after s ops).contextVariables = (loads.after s ops').contextVariables := by
    apply (bySlot_after s h.editor rfl).ext (bySlot_after s h'.editor rfl)
    intro i
    exact (slotAfter_complete s h i).trans (slotAfter_complete s h' i).symm
  rw [loads.after_loading s h.loads, loads.after_loading s h'.loads, hslots]

/-- Both loads have arrived: delivering them again has nothing to write. -/
structure Settled (loads : ContextLoads) (s : EditorState) : Prop where
  bySlot : BySlot s.contextVariables
  editor : ∀ i, (variableAt loads.editor i).or (variableAt s.contextVariables i) =
    variableAt s.contextVariables i
  vault : ∀ i, (variableAt s.contextVariables i).or (variableAt loads.vault i) =
    variableAt s.contextVariables i

variable (loads) in
/-- After both loads the variables are settled. -/
theorem settled_complete (s : EditorState) {ops : List ContextOp} (h : Complete ops) :
    Settled loads (loads.after s ops) where
  bySlot := bySlot_after s h.editor rfl
  editor i := by
    rw [← slotAfter, slotAfter_complete s h]
    cases variableAt loads.editor i with
    | none => rfl
    | some v => rfl
  vault i := by
    rw [← slotAfter, slotAfter_complete s h, Option.or_assoc, Option.or_assoc, Option.or_self]

/-- A further load changes nothing. -/
theorem Settled.load {s : EditorState} (h : Settled loads s) {op : ContextOp}
    (hop : op.isLoad = true) : loads.apply s op = s := by
  have hslots : (loads.apply s op).contextVariables = s.contextVariables := by
    apply (bySlot_load s hop).ext h.bySlot
    intro i
    cases op with
    | editorLoad => rw [variableAt_editorLoad, h.editor]
    | vaultLoad => rw [variableAt_vaultLoad, h.vault]
    | add added => cases hop
  have hrest := loads.after_loading s (List.forall_mem_singleton.2 hop)
  exact hrest.trans (by rw [show loads.after s [op] = loads.apply s op from rfl, hslots])

/-- A variable that is added leaves the others as they are. -/
theorem Settled.add {s : EditorState} (h : Settled loads s) (added : ContextVariable) :
    Settled loads (loads.apply s (.add added)) where
  bySlot := bySlot_apply h.bySlot (.add added)
  editor i := by
    rw [variableAt_add]
    split
    next hi =>
      -- a saved variable in this slot would have been in the store
      have hfree := h.editor i
      rw [← hi, variableAt_nextIndex, Option.or_none] at hfree
      rw [← hi, hfree, Option.none_or]
    next => exact h.editor i
  vault i := by
    rw [variableAt_add]
    split
    next => exact Option.some_or
    next => exact h.vault i

/-- Only the additions count. -/
theorem Settled.after_rest {s : EditorState} (h : Settled loads s) (rest : List ContextOp) :
    loads.after s rest = loads.after s (rest.filter fun op => !op.isLoad) := by
  induction rest generalizing s with
  | nil => rfl
  | cons op rest ih =>
    cases hop : op.isLoad with
    | true =>
      -- a load that comes again changes nothing
      have hskip : (op :: rest).filter (fun op => !op.isLoad) = rest.filter fun op => !op.isLoad :=
        List.filter_cons_of_neg (by simp [hop])
      rw [hskip, ← ih h]
      exact congrArg (fun t => loads.after t rest) (h.load hop)
    | false =>
      have hkeep : (op :: rest).filter (fun op => !op.isLoad) =
          op :: rest.filter fun op => !op.isLoad :=
        List.filter_cons_of_pos (by simp [hop])
      rw [hkeep]
      cases op with
      | editorLoad => cases hop
      | vaultLoad => cases hop
      | add added => exact ih (h.add added)

end ContextLoads

/-! ## Loading -/

/-- Whatever the order of the two loads and the additions, the variables end up in the order of their
slots; those that were saved are kept, and so is what is added after they have arrived or in a slot that
none of them has, and the vault's slots that are free. Where no variable is added between the two loads,
their order does not matter. -/
theorem context_loading (loads : ContextLoads) (s : EditorState) (ops : List ContextOp)
    (hload : ContextOp.editorLoad ∈ ops) :
    let final := (loads.after s ops).contextVariables
    BySlot final ∧
      (∀ i v, variableAt loads.editor i = some v → v ∈ final) ∧
      (∀ before added rest, ops = before ++ .add added :: rest →
        ContextOp.editorLoad ∈ before ∨
          variableAt loads.editor (nextIndex (loads.after s before).contextVariables) = none →
        { added with slotIndex := nextIndex (loads.after s before).contextVariables } ∈ final) ∧
      (∀ before rest i v, ops = before ++ .vaultLoad :: rest → variableAt loads.vault i = some v →
        loads.slotAfter s before i = none → variableAt loads.editor i = none → v ∈ final) ∧
      ∀ before loading rest, ops = before ++ loading ++ rest → ContextLoads.Complete loading →
        (∀ i, loads.slotAfter s (before ++ loading) i =
          (variableAt loads.editor i).or
            ((loads.slotAfter s before i).or (variableAt loads.vault i))) ∧
        loads.after s ops = loads.after s
          (before ++ [.vaultLoad, .editorLoad] ++ rest.filter fun op => !op.isLoad) := by
  intro final
  refine ⟨ContextLoads.bySlot_after s hload rfl, ?_, ?_, ?_, ?_⟩
  · intro i v hv
    exact mem_of_variableAt (ContextLoads.saved_kept hload hv)
  · rintro before added rest hops hbefore
    -- once the saved variables are in, the next index is none of theirs
    have hfree := hbefore.elim (loads.nextIndex_free s) id
    have hkept := loads.added_kept s before added rest hfree
    rw [← hops] at hkept
    exact mem_of_variableAt hkept
  · rintro before rest i v hops hv hfree hsaved
    have hkept := ContextLoads.vault_kept hv hfree hsaved rest
    rw [← hops] at hkept
    exact mem_of_variableAt hkept
  · rintro before loading rest rfl hloading
    constructor
    · intro i
      rw [ContextLoads.slotAfter, ContextLoads.after_append]
      exact ContextLoads.slotAfter_complete _ hloading i
    · have hboth : ContextLoads.Complete [.vaultLoad, .editorLoad] := ⟨by decide, by decide, by decide⟩
      -- after both loads a further load changes nothing
      have hsettled := loads.settled_complete (loads.after s before) hloading
      rw [ContextLoads.after_append, ContextLoads.after_append, ContextLoads.after_append,
        ContextLoads.after_append, hsettled.after_rest, ContextLoads.after_complete _ hloading hboth]

/-- A variable that holds a number. -/
def uintVariable (slotIndex : Nat) (name : String) : ContextVariable where
  slotIndex := slotIndex
  name := name
  type := "uint256"
  description := ""
  createdByAutomationId := none

/-- With a slot saved, one of the vault behind it, and a variable added at the end. -/
theorem context_loading_filled :
    let loads : ContextLoads := ⟨[uintVariable 0 "draft"], [uintVariable 0 "old", uintVariable 1 "cap"]⟩
    let before := [ContextOp.vaultLoad, .editorLoad]
    let ops := before ++ .add (uintVariable 0 "total") :: [.vaultLoad]
    let final := (loads.after .initial ops).contextVariables
    BySlot final ∧ uintVariable 0 "draft" ∈ final ∧ uintVariable 1 "cap" ∈ final ∧
      uintVariable 2 "total" ∈ final ∧
      loads.after .initial ops = loads.after .initial
        [.vaultLoad, .editorLoad, .add (uintVariable 0 "total")] := by
  intro loads before ops final
  obtain ⟨hslots, hsaved, hadded, hvault, horder⟩ := context_loading loads .initial ops (by decide)
  refine ⟨hslots, hsaved 0 _ rfl, hvault [] _ 1 _ rfl rfl rfl rfl, ?_, ?_⟩
  · exact hadded before (uintVariable 0 "total") [.vaultLoad] rfl (Or.inl (by decide))
  · exact (horder [] before [.add (uintVariable 0 "total"), .vaultLoad] rfl
      ⟨by decide, by decide, by decide⟩).2

/-- A slot of the vault gives way to the saved variable of another name, a variable that is added too
early is overwritten, and with an addition between the loads their order matters. -/
theorem context_loading_overwrites :
    let renamed : ContextLoads := ⟨[uintVariable 0 "editedName"], [uintVariable 0 "oldName"]⟩
    let added : ContextOp := .add (uintVariable 0 "total")
    (renamed.after .initial [.vaultLoad, .editorLoad]).contextVariables =
        [uintVariable 0 "editedName"] ∧
      (renamed.after .initial [added, .editorLoad, .vaultLoad]).contextVariables =
        [uintVariable 0 "editedName"] ∧
      let shared : ContextLoads := ⟨[uintVariable 0 "draft"], [uintVariable 1 "cap"]⟩
      (shared.after .initial [.editorLoad, added, .vaultLoad]).contextVariables =
        [uintVariable 0 "draft", uintVariable 1 "total"] ∧
      (shared.after .initial [.vaultLoad, added, .editorLoad]).contextVariables =
        [uintVariable 0 "draft", uintVariable 1 "cap", uintVariable 2 "total"] := by
  decide

end StrategyBuilder.Editor
