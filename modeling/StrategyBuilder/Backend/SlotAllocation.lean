import StrategyBuilder.Backend.EncodingService

/-!
# Allocated slots

What the backend's `contextSlots` hold: no index twice and no name twice (`ContextSlots.Consistent`),
so a name and its index determine each other. `allocateSlots_spec` says what one allocation does; an
encoding resolves every context variable of its graph to the index that stands there
(`encodeParam_variable`).
-/

set_option autoImplicit false

namespace StrategyBuilder.Backend

open StrategyBuilder.Automation
open StrategyBuilder.Lib.Js
open StrategyBuilder.Shared

/-- The name stands at the index. -/
def ContextSlots.Named (slots : ContextSlots) (name : String) (idx : Nat) : Prop :=
  ∃ slotMeta, (idx, slotMeta) ∈ slots ∧ slotMeta.name = name

/-- No index and no name stands twice. -/
structure ContextSlots.Consistent (slots : ContextSlots) : Prop where
  indices : (slots.map Prod.fst).Nodup
  names : (slots.map fun e => e.2.name).Nodup

section Named

variable {slots : ContextSlots} {a b : String} {i j : Nat}

theorem ContextSlots.Consistent.index_unique (h : slots.Consistent) (ha : slots.Named a i)
    (hb : slots.Named a j) : i = j := by
  obtain ⟨m, hm, hma⟩ := ha
  obtain ⟨m', hm', hma'⟩ := hb
  have hsame := List.inj_on_of_nodup_map h.names hm hm' (hma.trans hma'.symm)
  exact congrArg Prod.fst hsame

theorem ContextSlots.Consistent.name_unique (h : slots.Consistent) (ha : slots.Named a i)
    (hb : slots.Named b i) : a = b := by
  obtain ⟨m, hm, rfl⟩ := ha
  obtain ⟨m', hm', rfl⟩ := hb
  have hsame := List.inj_on_of_nodup_map h.indices hm hm' rfl
  exact congrArg (fun e => e.2.name) hsame

end Named

/-! ## One allocation -/

/-- The invariant of the loop in `allocateSlots`, after the names `seen`. -/
structure Allocation.Inv (slots : ContextSlots) (seen : List String) (s : Allocation) : Prop where
  consistent : s.slots.Consistent
  kept : slots ⊆ s.slots
  byName : ∀ name idx, s.existingByName name = some idx ↔ s.slots.Named name idx
  below : ∀ e ∈ s.slots, e.1 < s.nextIndex
  mapping : ∀ name idx, s.mapping.own? name = some idx → s.slots.Named name idx
  mapped : ∀ name ∈ seen, name ≠ "__proto__" → ∃ idx, s.mapping.own? name = some idx
  keys : (s.mapping.map Prod.fst).Nodup

/-- The running maximum is above all. -/
theorem le_foldl_max (l : List Nat) (m : Nat) : m ≤ l.foldl max m ∧ ∀ x ∈ l, x ≤ l.foldl max m := by
  induction l generalizing m with
  | nil => exact ⟨Nat.le_refl _, fun x hx => by cases hx⟩
  | cons y l ih =>
    obtain ⟨hm, hl⟩ := ih (max m y)
    refine ⟨Nat.le_trans (Nat.le_max_left m y) hm, fun x hx => ?_⟩
    rcases List.mem_cons.1 hx with rfl | hx
    · exact Nat.le_trans (Nat.le_max_right m x) hm
    · exact hl x hx

/-- The invariant holds before the first name. -/
theorem Allocation.start_inv {slots : ContextSlots} (h : slots.Consistent) :
    Allocation.Inv slots [] (.start slots) := by
  have hkeys : ((slots.map fun e => (e.2.name, e.1)).map Prod.fst).Nodup := by
    rw [List.map_map]
    exact h.names
  refine ⟨h, List.Subset.refl _, fun name idx => ?_, fun e he => ?_, fun name idx hget => ?_,
    fun name hname => (List.not_mem_nil hname).elim, List.nodup_nil⟩
  · constructor
    · intro hget
      obtain ⟨e, he, heq⟩ := List.mem_map.1 (Map.mem_of_ofEntries hget)
      rw [Prod.mk.injEq] at heq
      exact ⟨e.2, heq.2 ▸ he, heq.1⟩
    · rintro ⟨slotMeta, hmem, rfl⟩
      exact Map.ofEntries_of_mem hkeys (List.mem_map.2 ⟨_, hmem, rfl⟩)
  · have hpos : 0 < slots.length := List.length_pos_of_mem he
    have hle := (le_foldl_max (slots.map Prod.fst) 0).2 e.1 (List.mem_map_of_mem he)
    simp only [Allocation.start, if_pos hpos]
    omega
  · cases hget

theorem ContextSlots.Named.append {slots more : ContextSlots} {name : String} {idx : Nat}
    (h : slots.Named name idx) : ContextSlots.Named (slots ++ more) name idx := by
  obtain ⟨slotMeta, hmem, hname⟩ := h
  exact ⟨slotMeta, List.mem_append_left more hmem, hname⟩

/-- One name keeps the invariant. -/
theorem Allocation.Inv.allocate {slots : ContextSlots} {seen : List String} {s : Allocation}
    (h : Allocation.Inv slots seen s) (automationId name : String) :
    Allocation.Inv slots (seen ++ [name]) (s.allocate automationId name) := by
  have hseen (v : Nat) : ∀ other ∈ seen ++ [name], other ≠ "__proto__" →
      ∃ w, (s.mapping.set name v).own? other = some w := by
    intro other hother hproto
    refine Record.own?_set_isSome v hproto ?_
    rcases List.mem_append.1 hother with hother | hother
    · exact Or.inr (h.mapped other hother hproto)
    · exact Or.inl (List.mem_singleton.1 hother)
  unfold Allocation.allocate
  cases hname : s.existingByName name with
  | some existing =>
    refine ⟨h.consistent, h.kept, h.byName, h.below, fun other idx hget => ?_, hseen existing,
      Record.nodup_keys_set h.keys name existing⟩
    rcases Record.own?_set hget with ⟨rfl, rfl⟩ | hget
    · exact (h.byName other idx).1 hname
    · exact h.mapping other idx hget
  | none =>
    -- a name that is not found by name stands nowhere
    have hfresh : ∀ e ∈ s.slots, e.2.name ≠ name := by
      intro e he heq
      have hget := (h.byName name e.1).2 ⟨e.2, he, heq⟩
      rw [hname] at hget
      cases hget
    have hnew : ContextSlots.Named
        (s.slots ++ [(s.nextIndex, (⟨name, "uint256", "", automationId⟩ : SlotMeta))]) name
        s.nextIndex :=
      ⟨⟨name, "uint256", "", automationId⟩, List.mem_append_right _ (List.mem_singleton_self _), rfl⟩
    refine ⟨⟨?_, ?_⟩, fun e he => List.mem_append_left _ (h.kept he), fun other idx => ?_,
      fun e he => ?_, fun other idx hget => ?_, hseen s.nextIndex,
      Record.nodup_keys_set h.keys name s.nextIndex⟩
    · rw [List.map_append, List.map_cons, List.map_nil, ← List.concat_eq_append]
      refine List.Nodup.concat (fun hmem => ?_) h.consistent.indices
      obtain ⟨e, he, heq⟩ := List.mem_map.1 hmem
      exact Nat.lt_irrefl _ (heq ▸ h.below e he)
    · rw [List.map_append, List.map_cons, List.map_nil, ← List.concat_eq_append]
      refine List.Nodup.concat (fun hmem => ?_) h.consistent.names
      obtain ⟨e, he, heq⟩ := List.mem_map.1 hmem
      exact hfresh e he heq
    -- the new name stands at the next index, the others stand where they stood
    · by_cases hother : other = name
      · subst hother
        simp only [Map.set_self, Option.some.injEq]
        constructor
        · rintro rfl
          exact hnew
        · rintro ⟨slotMeta, hmem, heq⟩
          rcases List.mem_append.1 hmem with hmem | hmem
          · exact absurd heq (hfresh _ hmem)
          · simp only [List.mem_singleton, Prod.mk.injEq] at hmem
            exact hmem.1.symm
      · simp only [Map.set_of_ne s.existingByName s.nextIndex hother]
        rw [h.byName other idx]
        constructor
        · exact ContextSlots.Named.append
        · rintro ⟨slotMeta, hmem, heq⟩
          rcases List.mem_append.1 hmem with hmem | hmem
          · exact ⟨slotMeta, hmem, heq⟩
          · simp only [List.mem_singleton, Prod.mk.injEq] at hmem
            rw [hmem.2] at heq
            exact absurd heq.symm hother
    · rcases List.mem_append.1 he with he | he
      · exact Nat.lt_succ_of_lt (h.below e he)
      · rw [List.mem_singleton] at he
        subst he
        exact Nat.lt_succ_self _
    · rcases Record.own?_set hget with ⟨rfl, rfl⟩ | hget
      · exact hnew
      · exact (h.mapping other idx hget).append

/-- What the loop keeps, when it depends on the names that the loop has seen. -/
theorem Allocation.foldl_seen {I : List String → Allocation → Prop} {automationId : String}
    (hstep : ∀ seen s name, I seen s → I (seen ++ [name]) (s.allocate automationId name))
    (names : List String) {seen : List String} {s : Allocation} (h : I seen s) :
    I (seen ++ names) (names.foldl (Allocation.allocate automationId) s) := by
  induction names generalizing seen s with
  | nil =>
    rw [List.append_nil]
    exact h
  | cons name names ih =>
    have hnext := ih (hstep seen s name h)
    rwa [List.append_assoc] at hnext

/-- **What an allocation does.** It keeps all slots and stays consistent; what it maps stands in the
slots, and it maps every name that a plain object can hold. -/
structure Allocated (slots : ContextSlots) (names : List String) (slots' : ContextSlots)
    (mapping : Record Nat) : Prop where
  consistent : slots'.Consistent
  kept : slots ⊆ slots'
  named : ∀ name idx, mapping.own? name = some idx → slots'.Named name idx
  mapped : ∀ name ∈ names, name ≠ "__proto__" → ∃ idx, mapping.own? name = some idx
  keys : (mapping.map Prod.fst).Nodup

/-- What an allocation does to the recorded slots, and what it maps the names to. -/
theorem allocateSlots_spec {slots : ContextSlots} (h : slots.Consistent) (names : List String)
    (automationId : String) :
    Allocated slots names (allocateSlots slots names automationId).1
      (allocateSlots slots names automationId).2 := by
  have hinv : Allocation.Inv slots names
      (names.foldl (Allocation.allocate automationId) (.start slots)) :=
    Allocation.foldl_seen (fun _ _ name hs => hs.allocate automationId name) names
      (Allocation.start_inv h)
  exact ⟨hinv.consistent, hinv.kept, hinv.mapping, hinv.mapped, hinv.keys⟩

/-- The call that `encode` skips for a graph without variables would allocate nothing. -/
theorem slotMappingOf_eq (svc : Services) (slots : ContextSlots) (automationId : String)
    (graph : EditorGraph) : slotMappingOf svc slots automationId graph =
      allocateSlots slots (extractSlotNames svc graph) automationId := by
  unfold slotMappingOf
  simp only
  split
  · rfl
  · rename_i hnone
    rw [List.length_eq_zero_iff.1 (Nat.eq_zero_of_not_pos hnone)]
    rfl

/-- The allocation that an encoding makes. -/
theorem slotMappingOf_spec {svc : Services} {slots : ContextSlots} (h : slots.Consistent)
    (automationId : String) (graph : EditorGraph) :
    Allocated slots (extractSlotNames svc graph) (slotMappingOf svc slots automationId graph).1
      (slotMappingOf svc slots automationId graph).2 := by
  rw [slotMappingOf_eq]
  exact allocateSlots_spec h _ automationId

/-! ## The variables of a graph -/

/-- No name is lost with the duplicates. -/
theorem mem_foldl_dedupe {names acc : List String} {name : String} (h : name ∈ acc ∨ name ∈ names) :
    name ∈ names.foldl (fun names name => if name ∈ names then names else names ++ [name]) acc := by
  induction names generalizing acc with
  | nil => simpa using h
  | cons x names ih =>
    rw [List.foldl_cons]
    apply ih
    by_cases hx : x ∈ acc
    · rw [if_pos hx]
      rcases h with h | h
      · exact Or.inl h
      · rcases List.mem_cons.1 h with rfl | h
        · exact Or.inl hx
        · exact Or.inr h
    · rw [if_neg hx]
      rcases h with h | h
      · exact Or.inl (List.mem_append_left _ h)
      · rcases List.mem_cons.1 h with rfl | h
        · exact Or.inl (List.mem_append_right _ (List.mem_singleton_self _))
        · exact Or.inr h

/-- A context variable in a context-slot field is extracted. -/
theorem mem_extractSlotNames {svc : Services} {graph : EditorGraph} {n : EditorNode} {st : StepType}
    {schema : ParamSchema} {fieldSchema : FieldSchema} {field name : String}
    (hn : n ∈ graph.nodes) (hst : svc.stepTypeMap n.stepTypeId = some st)
    (hschema : st.paramSchema = some schema) (hfield : schema.properties.own? field = some fieldSchema)
    (hwidget : fieldSchema.widget = some .contextSlot) (hparam : param n.params field = .str name)
    (hname : isVariableName name = true) : name ∈ extractSlotNames svc graph := by
  refine mem_foldl_dedupe (Or.inr (List.mem_flatMap.2 ⟨n, hn, ?_⟩))
  simp only [nodeSlotNames, hst, Option.bind_some, hschema]
  refine List.mem_filterMap.2 ⟨(field, fieldSchema), Record.mem_of_own? hfield, ?_⟩
  simp [hwidget, hparam, hname]

/-- A variable in a `uint32` field is encoded as the index that the mapping has for it. -/
theorem encodeParam_variable {params : Record JsValue} {slotMapping : Record Nat}
    {paramSchema : Option ParamSchema} {c : AbiComponent} {name : String} {idx : Nat}
    (hc : c.type = .uint32) (hparam : param params c.name = .str name)
    (hidx : slotMapping.own? name = some idx) :
    encodeParam params slotMapping paramSchema c = .ok (.num (.ofInt idx)) := by
  have hresolve : resolveSlot slotMapping c.type (param params c.name) = .num (.ofInt idx) := by
    simp [resolveSlot, hc, hparam, Record.get, hidx]
  unfold encodeParam
  simp only [hresolve, isEmpty]
  simp [convertParam, hc]

end StrategyBuilder.Backend
