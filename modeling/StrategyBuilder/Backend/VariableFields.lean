import StrategyBuilder.Backend.SeedCatalog
import StrategyBuilder.Backend.SlotRace

/-!
# Slots that context-slot fields select

A context-slot field holds the name of a variable, or an index, or nothing. `extractSlotNames` takes a
string for a name unless it starts with `0x` or is a number to `Number`; `encodeParams` resolves the
names that got a slot and reads any other string with `parseInt`, and an unset field gives the default
of its schema, or 0. So a field may select a slot that nobody gave it (`slots_right_iff`).
-/

set_option autoImplicit false

namespace StrategyBuilder.Backend

open StrategyBuilder.Automation
open StrategyBuilder.Lib.Abi
open StrategyBuilder.Lib.Js
open StrategyBuilder.Lib.Transition
open StrategyBuilder.Shared

/-- The ABI coder refuses a `uint32` that is no whole number or does not fit. -/
def ChecksUint32 (svc : Services) : Prop :=
  ∀ types values data, svc.abiEncode types values = some data → ∀ (i : Nat) (value : JsValue),
    types[i]? = some .uint32 → values[i]? = some value →
      ∃ k : Nat, k < 2 ^ 32 ∧ value = .num (.ofInt k)

/-- A string that is no index: not empty, and no decimal literal of a `uint32`. -/
def NamesVariable (s : String) : Prop :=
  s ≠ "" ∧ ∀ k : Nat, allDigits? s.toList = some k → 2 ^ 32 ≤ k

/-- A context-slot field of a node, with its component in the ABI of the node's step type. -/
structure SlotField (svc : Services) (graph : EditorGraph) (n : EditorNode) (st : StepType)
    (c : AbiComponent) (fieldSchema : FieldSchema) : Prop where
  node : n ∈ graph.nodes
  stepType : svc.stepTypeMap n.stepTypeId = some st
  component : c ∈ st.abiFragment
  uint32 : c.type = .uint32
  schema : ∃ schema, st.paramSchema = some schema ∧ schema.properties.own? c.name = some fieldSchema
  widget : fieldSchema.widget = some .contextSlot

/-- `encodeParams` emits the index for the field. -/
def Emits (slotMapping : Record Nat) (n : EditorNode) (st : StepType) (c : AbiComponent)
    (k : Nat) : Prop :=
  k < 2 ^ 32 ∧ encodeParam n.params slotMapping st.paramSchema c = .ok (.num (.ofInt k))

/-- Every context-slot field of the graph selects what it should: a variable selects its own slot, two
variables different ones; a variable without slot is refused, and an unset field selects no slot that
is allocated. -/
structure SlotsRight (svc : Services) (slots : ContextSlots) (automationId : String)
    (graph : EditorGraph) : Prop where
  own : ∀ n st c fieldSchema name k, SlotField svc graph n st c fieldSchema →
    param n.params c.name = .str name → NamesVariable name →
    Emits (slotMappingOf svc slots automationId graph).2 n st c k →
      (slotMappingOf svc slots automationId graph).2.own? name = some k
  distinct : ∀ n st c fieldSchema name k n' st' c' fieldSchema' name' k',
    SlotField svc graph n st c fieldSchema → param n.params c.name = .str name →
    NamesVariable name → Emits (slotMappingOf svc slots automationId graph).2 n st c k →
    SlotField svc graph n' st' c' fieldSchema' → param n'.params c'.name = .str name' →
    NamesVariable name' → Emits (slotMappingOf svc slots automationId graph).2 n' st' c' k' →
      (k = k' ↔ name = name')
  refused : ∀ n st c fieldSchema name, SlotField svc graph n st c fieldSchema →
    param n.params c.name = .str name → NamesVariable name →
    (slotMappingOf svc slots automationId graph).2.own? name = none →
      ∀ data, encodeParams svc n.params st.abiFragment
        (slotMappingOf svc slots automationId graph).2 st.paramSchema ≠ .ok data
  unset : ∀ n st c fieldSchema k, SlotField svc graph n st c fieldSchema →
    isEmpty (param n.params c.name) = true →
    Emits (slotMappingOf svc slots automationId graph).2 n st c k →
      ∀ name, ¬ (slotMappingOf svc slots automationId graph).1.Named name k

/-- The index that an unset field gives: the default of its schema, or 0. -/
def unsetSlot (fieldSchema : FieldSchema) : Option Int :=
  match fieldSchema.default with
  | .undefined => some 0
  | .num x => x.integer?
  | value => parseInt (valueToString value)

/-- The index has no name, and gets none when the names are allocated. -/
def Unallocated (slots : ContextSlots) (slotNames : List String) (k : Nat) : Prop :=
  (∀ name, ¬ slots.Named name k) ∧
    (k < firstFree slots ∨ firstFree slots + (freshNames slots slotNames).length ≤ k)

/-- The strings in context-slot fields that `parseInt` reads as an index are names to
`extractSlotNames`, and unset fields do not default to an allocated slot. -/
structure SlotFieldsClear (svc : Services) (slots : ContextSlots) (graph : EditorGraph) : Prop where
  names : ∀ n st c fieldSchema name (k : Nat), SlotField svc graph n st c fieldSchema →
    param n.params c.name = .str name → NamesVariable name → parseInt name = some (k : Int) →
    k < 2 ^ 32 → isVariableName name = true
  defaults : ∀ n st c fieldSchema (k : Nat), SlotField svc graph n st c fieldSchema →
    isEmpty (param n.params c.name) = true → unsetSlot fieldSchema = some (k : Int) → k < 2 ^ 32 →
      Unallocated slots (extractSlotNames svc graph) k

/-! ## Names -/

/-- Only names are extracted. -/
theorem isVariableName_of_mem {svc : Services} {graph : EditorGraph} {name : String}
    (h : name ∈ extractSlotNames svc graph) : isVariableName name = true := by
  suffices hall : ∀ s ∈ extractSlotNames svc graph, isVariableName s = true from hall name h
  rw [extractSlotNames]
  apply List.foldlRecOn (motive := fun names => ∀ s ∈ names, isVariableName s = true)
  · intro s hs
    cases hs
  intro names hnames x hx s hs
  split at hs
  · exact hnames s hs
  rcases List.mem_append.1 hs with hs | hs
  · exact hnames s hs
  -- a new name comes from a field of a node
  rw [List.mem_singleton.1 hs]
  obtain ⟨n, -, hx⟩ := List.mem_flatMap.1 hx
  rw [nodeSlotNames] at hx
  split at hx
  · cases hx
  · obtain ⟨⟨field, fieldSchema⟩, -, hname⟩ := List.mem_filterMap.1 hx
    simp only at hname
    split at hname
    · split at hname
      · split at hname
        · rename_i hvariable
          cases hname
          exact hvariable
        · cases hname
      · cases hname
    · cases hname

/-- Only extracted names are mapped. -/
theorem mem_of_slotMapping {svc : Services} {slots : ContextSlots} {automationId : String}
    {graph : EditorGraph} {name : String} {idx : Nat}
    (h : (slotMappingOf svc slots automationId graph).2.own? name = some idx) :
    name ∈ extractSlotNames svc graph := by
  suffices hall : ∀ idx, ((extractSlotNames svc graph).foldl (Allocation.allocate automationId)
      (.start slots)).mapping.own? name = some idx → name ∈ extractSlotNames svc graph by
    rw [slotMappingOf_eq] at h
    exact hall idx h
  -- each round maps the name that it is at
  apply List.foldlRecOn (motive := fun s : Allocation =>
    ∀ idx, s.mapping.own? name = some idx → name ∈ extractSlotNames svc graph)
  · intro idx hget
    cases hget
  · intro s hs x hx idx hget
    rw [Allocation.allocate] at hget
    cases hname : s.existingByName x with
    | some existing =>
      simp only [hname] at hget
      rcases Record.own?_set hget with ⟨rfl, -⟩ | hget
      · exact hx
      · exact hs idx hget
    | none =>
      simp only [hname] at hget
      rcases Record.own?_set hget with ⟨rfl, -⟩ | hget
      · exact hx
      · exact hs idx hget

/-- The names that every object answers are taken for variables. -/
theorem isVariableName_prototype {name : String} (h : name ∈ prototypeNames) :
    isVariableName name = true := by
  have hall : ∀ s ∈ prototypeNames, isVariableName s = true := by decide
  exact hall name h

/-! ## What is emitted -/

section

variable {svc : Services} {slotMapping : Record Nat} {graph : EditorGraph} {n : EditorNode}
  {st : StepType} {c : AbiComponent} {fieldSchema : FieldSchema} {name : String}

/-- A string that is nobody's name is read as a number. -/
theorem encodeParam_unresolved {params : Record JsValue} {paramSchema : Option ParamSchema}
    (hc : c.type = .uint32) (hparam : param params c.name = .str name) (hname : name ≠ "")
    (hget : slotMapping.get name = .undefined) :
    encodeParam params slotMapping paramSchema c = convertParam c (.str name) := by
  have hresolve : resolveSlot slotMapping c.type (param params c.name) = .str name := by
    simp only [resolveSlot, hc, hparam, hget]
  have hset : isEmpty (.str name) = false := by simp [isEmpty, hname]
  rw [encodeParam]
  simp only [hresolve, hset]
  rfl

/-- The prototype of the mapping is no number. -/
theorem encodeParam_inherited {params : Record JsValue} {paramSchema : Option ParamSchema}
    (hc : c.type = .uint32) (hparam : param params c.name = .str name)
    (hget : slotMapping.get name = .inherited) (value : JsValue) :
    encodeParam params slotMapping paramSchema c ≠ .ok value := by
  have hresolve : resolveSlot slotMapping c.type (param params c.name) = .object [] := by
    simp only [resolveSlot, hc, hparam, hget]
  -- `[object Object]` starts with no digit
  have hparse : parseInt (valueToString (.object [])) = none := by decide
  have hconvert : convertParam c (.object []) = .error (.badRequest ("Unknown context variable \"" ++
      valueToString (.object []) ++ "\" referenced by field \"" ++ c.name ++
      "\". Define it as a context variable before deploying.")) := by
    simp only [convertParam, hc, hparse]
  rw [encodeParam]
  simp only [hresolve, isEmpty, Bool.false_eq_true, if_false, hconvert]
  intro h
  cases h

/-- A text on a `uint32` goes through `parseInt`. -/
theorem convertParam_uint32 (hc : c.type = .uint32) {value : JsValue} {x : JsValue}
    (hvalue : ∀ y, value ≠ .num y) (h : convertParam c value = .ok x) :
    ∃ z, parseInt (valueToString value) = some z ∧ x = .num (.ofInt z) := by
  unfold convertParam at h
  rw [hc] at h
  cases value with
  | num y => exact absurd rfl (hvalue y)
  | _ =>
    simp only at h
    split at h
    · rename_i z hz
      cases h
      exact ⟨z, hz, rfl⟩
    · cases h

/-- An unset field emits the default. -/
theorem encodeParam_unset (hfield : SlotField svc graph n st c fieldSchema)
    (hempty : isEmpty (param n.params c.name) = true) (hproto : slotMapping.own? "" = none) (k : Int) :
    encodeParam n.params slotMapping st.paramSchema c = .ok (.num (.ofInt k)) ↔
      unsetSlot fieldSchema = some k := by
  obtain ⟨schema, hschema, hown⟩ := hfield.schema
  have hresolve : resolveSlot slotMapping c.type (param n.params c.name) =
      param n.params c.name := by
    rw [hfield.uint32]
    cases hvalue : param n.params c.name with
    | str s =>
      have hs : s = "" := by simpa [isEmpty, hvalue] using hempty
      subst hs
      have hget : slotMapping.get "" = .undefined := by
        rw [Record.get]
        rw [hproto]
        rfl
      simp only [resolveSlot, hget]
    | _ => rfl
  unfold encodeParam unsetSlot
  simp only [hresolve, hempty, if_true, hschema, Option.bind_some, hown, Option.map_some]
  -- without a default of the schema it is the one of the type
  cases hdefault : fieldSchema.default with
  | undefined =>
    simp only [hfield.uint32, typeDefault, Except.ok.injEq, JsValue.num.injEq, Option.some.injEq]
    constructor
    · intro h
      exact JsNumber.ofInt_injective h
    · rintro rfl
      rfl
  | num x =>
    simp only [convertParam, hfield.uint32, Except.ok.injEq, JsValue.num.injEq]
    constructor
    · rintro rfl
      exact JsNumber.integer?_ofInt k
    · intro h
      exact JsNumber.eq_ofInt h
  | _ =>
    simp only [convertParam, hfield.uint32]
    split
    · rename_i z hz
      simp only [Except.ok.injEq, JsValue.num.injEq]
      constructor
      · intro h
        rw [hz, JsNumber.ofInt_injective h]
      · intro h
        rw [hz, Option.some.injEq] at h
        rw [h]
    · rename_i hz
      rw [hz]
      constructor
      · intro h
        cases h
      · intro h
        cases h

/-- Where the parameters of a node are encoded, each of its fields emits an index. -/
theorem emits_of_encodeParams (hcoder : ChecksUint32 svc)
    (hfield : SlotField svc graph n st c fieldSchema) {data : Bytes}
    (h : encodeParams svc n.params st.abiFragment slotMapping st.paramSchema = .ok data) :
    ∃ k, Emits slotMapping n st c k := by
  rw [encodeParams] at h
  cases hvalues : st.abiFragment.mapM (encodeParam n.params slotMapping st.paramSchema) with
  | error e =>
    simp only [hvalues] at h
    cases h
  | ok values =>
    simp only [hvalues, bind, Except.bind] at h
    split at h
    · rename_i data' habi
      obtain ⟨i, hi⟩ := List.mem_iff_getElem?.1 hfield.component
      obtain ⟨value, hget, hvalue⟩ := (mapM_ok hvalues).2 i c hi
      have htype : (st.abiFragment.map AbiComponent.type)[i]? = some .uint32 := by
        rw [List.getElem?_map, hi, Option.map_some, hfield.uint32]
      -- the coder has seen the value, so it is an index
      obtain ⟨k, hk, rfl⟩ := hcoder _ _ _ habi i value htype hget
      exact ⟨k, hk, hvalue⟩
    · cases h

end

/-! ## The slots of a graph -/

section

variable {svc : Services} {slots : ContextSlots} {automationId : String} {graph : EditorGraph}
  {n : EditorNode} {st : StepType} {c : AbiComponent} {fieldSchema : FieldSchema} {name : String}

theorem slotMappingOf_named (idx : Nat) :
    (slotMappingOf svc slots automationId graph).1.Named name idx ↔ slots.Named name idx ∨
      ∃ k, (freshNames slots (extractSlotNames svc graph))[k]? = some name ∧
        idx = firstFree slots + k := by
  rw [slotMappingOf_eq]
  exact allocateSlots_named slots _ automationId name idx

/-- An index is free if no name has it. -/
theorem unallocated_iff (k : Nat) : Unallocated slots (extractSlotNames svc graph) k ↔
    ∀ name, ¬ (slotMappingOf svc slots automationId graph).1.Named name k := by
  constructor
  · rintro ⟨hold, hrange⟩ name hnamed
    rcases (slotMappingOf_named k).1 hnamed with h | ⟨j, hj, rfl⟩
    · exact hold name h
    · have hlt := (List.getElem?_eq_some_iff.1 hj).1
      omega
  · intro h
    refine ⟨fun name hnamed => h name ((slotMappingOf_named k).2 (Or.inl hnamed)), ?_⟩
    -- a slot in that range would be given to one of the fresh names
    by_contra hrange
    rw [not_or, Nat.not_lt, Nat.not_le] at hrange
    have hlt : k - firstFree slots < (freshNames slots (extractSlotNames svc graph)).length := by
      omega
    refine h _ ((slotMappingOf_named k).2 (Or.inr ⟨_, List.getElem?_eq_getElem hlt, ?_⟩))
    omega

theorem own?_empty : (slotMappingOf svc slots automationId graph).2.own? "" = none := by
  cases hget : (slotMappingOf svc slots automationId graph).2.own? "" with
  | none => rfl
  | some idx =>
    have hvariable := isVariableName_of_mem (mem_of_slotMapping hget)
    have hempty : isVariableName "" = false := by decide
    rw [hempty] at hvariable
    cases hvariable

/-- A variable of the graph has a slot, except `__proto__`, which answers the prototype. -/
theorem get_of_variable (hslots : slots.Consistent) (hfield : SlotField svc graph n st c fieldSchema)
    (hparam : param n.params c.name = .str name) (hname : isVariableName name = true) :
    (∃ idx, (slotMappingOf svc slots automationId graph).2.own? name = some idx) ∨
      (slotMappingOf svc slots automationId graph).2.get name = .inherited := by
  obtain ⟨schema, hschema, hown⟩ := hfield.schema
  have hmem := mem_extractSlotNames hfield.node hfield.stepType hschema hown hfield.widget hparam hname
  cases hget : (slotMappingOf svc slots automationId graph).2.own? name with
  | some idx => exact Or.inl ⟨idx, rfl⟩
  | none =>
    refine Or.inr ?_
    -- every other name that was extracted got a slot
    have hproto : name = "__proto__" := by
      by_contra hne
      obtain ⟨idx, hidx⟩ := (slotMappingOf_spec hslots automationId graph).mapped name hmem hne
      rw [hget] at hidx
      cases hidx
    subst hproto
    rw [Record.get]
    rw [hget]
    rfl

/-- A string that `extractSlotNames` does not take for a name is not looked up. -/
theorem get_of_not_variable (hname : isVariableName name = false) :
    (slotMappingOf svc slots automationId graph).2.get name = .undefined := by
  rw [Record.get]
  cases hget : (slotMappingOf svc slots automationId graph).2.own? name with
  | some idx =>
    have hvariable := isVariableName_of_mem (mem_of_slotMapping hget)
    rw [hname] at hvariable
    cases hvariable
  | none =>
    have hproto : name ∉ prototypeNames := by
      intro hmem
      have hvariable := isVariableName_prototype hmem
      rw [hname] at hvariable
      cases hvariable
    exact if_neg hproto

/-- A field that emits an index holds a variable with that slot, or a string that only `parseInt`
reads. -/
theorem Emits.own_or_parsed (hslots : slots.Consistent)
    (hfield : SlotField svc graph n st c fieldSchema) (hparam : param n.params c.name = .str name)
    (hname : name ≠ "") {k : Nat}
    (h : Emits (slotMappingOf svc slots automationId graph).2 n st c k) :
    (slotMappingOf svc slots automationId graph).2.own? name = some k ∨
      (isVariableName name = false ∧ parseInt name = some (k : Int)) := by
  -- a name is looked up, any other string goes to `parseInt`
  cases hvariable : isVariableName name with
  | true =>
    refine Or.inl ?_
    rcases get_of_variable hslots hfield hparam hvariable with ⟨idx, hidx⟩ | hinherited
    · have hvalue := h.2
      rw [encodeParam_variable hfield.uint32 hparam hidx, Except.ok.injEq, JsValue.num.injEq] at hvalue
      rw [hidx, Int.ofNat.inj (JsNumber.ofInt_injective hvalue)]
    · exact absurd h.2 (encodeParam_inherited hfield.uint32 hparam hinherited _)
  | false =>
    refine Or.inr ⟨rfl, ?_⟩
    have hvalue := h.2
    rw [encodeParam_unresolved hfield.uint32 hparam hname (get_of_not_variable hvariable)] at hvalue
    have hstr (y : JsNumber) : JsValue.str name ≠ .num y := by
      intro hy
      cases hy
    obtain ⟨z, hz, heq⟩ := convertParam_uint32 hfield.uint32 hstr hvalue
    rw [JsValue.num.injEq] at heq
    have hz' : parseInt name = some z := hz
    rw [hz', JsNumber.ofInt_injective heq]

/-- A string that only `parseInt` reads selects what it reads. -/
theorem emits_parsed (hfield : SlotField svc graph n st c fieldSchema)
    (hparam : param n.params c.name = .str name) (hname : name ≠ "")
    (hvariable : isVariableName name = false) {k : Nat} (hparse : parseInt name = some (k : Int))
    (hk : k < 2 ^ 32) : Emits (slotMappingOf svc slots automationId graph).2 n st c k := by
  have hparse' : parseInt (valueToString (.str name)) = some (k : Int) := hparse
  refine ⟨hk, ?_⟩
  rw [encodeParam_unresolved hfield.uint32 hparam hname (get_of_not_variable hvariable)]
  simp only [convertParam, hfield.uint32, hparse']

/-- A field that names a variable emits the index of this variable. -/
theorem SlotFieldsClear.own (h : SlotFieldsClear svc slots graph) (hslots : slots.Consistent)
    (hfield : SlotField svc graph n st c fieldSchema) (hparam : param n.params c.name = .str name)
    (hname : NamesVariable name) {k : Nat}
    (hemits : Emits (slotMappingOf svc slots automationId graph).2 n st c k) :
    (slotMappingOf svc slots automationId graph).2.own? name = some k := by
  rcases hemits.own_or_parsed hslots hfield hparam hname.1 with hown | ⟨hnot, hparse⟩
  · exact hown
  · have hvariable := h.names n st c fieldSchema name k hfield hparam hname hparse hemits.1
    rw [hnot] at hvariable
    cases hvariable

/-- Clear fields emit the right slots. -/
theorem SlotFieldsClear.right (hcoder : ChecksUint32 svc) (hslots : slots.Consistent)
    (h : SlotFieldsClear svc slots graph) : SlotsRight svc slots automationId graph := by
  have hspec := @slotMappingOf_spec svc slots hslots automationId graph
  refine ⟨?_, ?_, ?_, ?_⟩
  · intro n st c fieldSchema name k hfield hparam hname hemits
    exact h.own hslots hfield hparam hname hemits
  · intro n st c fieldSchema name k n' st' c' fieldSchema' name' k' hfield hparam hname hemits hfield'
      hparam' hname' hemits'
    have hown := h.own hslots hfield hparam hname hemits
    have hown' := h.own hslots hfield' hparam' hname' hemits'
    constructor
    · rintro rfl
      exact hspec.consistent.name_unique (hspec.named _ _ hown) (hspec.named _ _ hown')
    · rintro rfl
      rw [hown] at hown'
      exact Option.some.inj hown'
  · intro n st c fieldSchema name hfield hparam hname hnone data hdata
    obtain ⟨k, hemits⟩ := emits_of_encodeParams hcoder hfield hdata
    rw [h.own hslots hfield hparam hname hemits] at hnone
    cases hnone
  · intro n st c fieldSchema k hfield hempty hemits
    have hdefault := (encodeParam_unset hfield hempty own?_empty k).1 hemits.2
    exact (unallocated_iff k).1 (h.defaults n st c fieldSchema k hfield hempty hdefault hemits.1)

/-- Fields that emit the right slots are clear. -/
theorem SlotsRight.clear (h : SlotsRight svc slots automationId graph) :
    SlotFieldsClear svc slots graph := by
  refine ⟨?_, ?_⟩
  · intro n st c fieldSchema name k hfield hparam hname hparse hk
    cases hvariable : isVariableName name with
    | true => rfl
    | false =>
      have hown := h.own n st c fieldSchema name k hfield hparam hname
        (emits_parsed hfield hparam hname.1 hvariable hparse hk)
      have hmem := isVariableName_of_mem (mem_of_slotMapping hown)
      rw [hvariable] at hmem
      cases hmem
  · intro n st c fieldSchema k hfield hempty hdefault hk
    refine (@unallocated_iff svc slots automationId graph k).2 ?_
    exact h.unset n st c fieldSchema k hfield hempty
      ⟨hk, (encodeParam_unset hfield hempty own?_empty k).2 hdefault⟩

end

/-- **Context-slot fields select the right slots exactly when they are clear**, with the slots of the
vault as any calls have left them. -/
theorem slots_right_iff (svc : Services) (hcoder : ChecksUint32 svc) (events : List RaceEvent)
    (automationId : String) (graph : EditorGraph) :
    SlotsRight svc (run Race.step Race.start events).contextSlots automationId graph ↔
      SlotFieldsClear svc (run Race.step Race.start events).contextSlots graph := by
  constructor
  · intro h
    exact h.clear
  · intro h
    exact h.right hcoder (Race.run_consistent events)

/-! ## The time slot of an interval -/

/-- The coder of the sample catalog, with the check of `uint32` values. -/
def checkedServices : Services :=
  { seedServices with
    abiEncode := fun types values =>
      if (types.zip values).all (fun e => e.1 ≠ .uint32 || fitsUint32 e.2) then
        seedServices.abiEncode types values
      else none }
where
  /-- A whole number below `2 ^ 32`. -/
  fitsUint32 : JsValue → Bool
    | .num x =>
        match x.integer? with
        | some z => 0 ≤ z && z < 2 ^ 32
        | none => false
    | _ => false

/-- What fits is a number of the type. -/
theorem fitsUint32_spec {value : JsValue} (h : checkedServices.fitsUint32 value = true) :
    ∃ k : Nat, k < 2 ^ 32 ∧ value = .num (.ofInt k) := by
  unfold checkedServices.fitsUint32 at h
  split at h
  · rename_i x
    split at h
    · rename_i z hz
      rw [Bool.and_eq_true, decide_eq_true_eq, decide_eq_true_eq] at h
      have hcast : ((z.toNat : Nat) : Int) = z := Int.toNat_of_nonneg h.1
      refine ⟨z.toNat, ?_, ?_⟩
      · omega
      · rw [hcast, ← JsNumber.eq_ofInt hz]
    · cases h
  · cases h

/-- The coder of the sample checks the range. -/
theorem checkedServices_checks : ChecksUint32 checkedServices := by
  intro types values data hdata i value htype hvalue
  have hall : (types.zip values).all
      (fun e => e.1 ≠ .uint32 || checkedServices.fitsUint32 e.2) = true := by
    by_contra hnot
    have hrefused : checkedServices.abiEncode types values = none := if_neg hnot
    rw [hrefused] at hdata
    cases hdata
  have hmem : (AbiType.uint32, value) ∈ types.zip values := by
    refine List.mem_iff_getElem?.2 ⟨i, ?_⟩
    rw [List.getElem?_zip_eq_some]
    exact ⟨htype, hvalue⟩
  have hfits := List.all_eq_true.1 hall _ hmem
  exact fitsUint32_spec (by simpa using hfits)

/-- An interval whose time slot is what is given. -/
def timeSlotGraph (timeSlot : JsValue) : EditorGraph where
  nodes := [⟨"node-1", .condition, "Interval Condition",
    [("interval", .str "86400"), ("timeSlot", timeSlot)]⟩]
  edges := []

/-- The time slot is the only context-slot field of an interval. -/
theorem slotField_timeSlot {timeSlot : JsValue} {n : EditorNode} {st : StepType} {c : AbiComponent}
    {fieldSchema : FieldSchema}
    (h : SlotField checkedServices (timeSlotGraph timeSlot) n st c fieldSchema) :
    param n.params c.name = timeSlot := by
  have hn := List.mem_singleton.1 h.node
  subst hn
  have hst : st = intervalStepType ⟨7⟩ := (Option.some.inj h.stepType).symm
  subst hst
  rcases List.mem_cons.1 h.component with rfl | hc
  · cases h.uint32
  · rw [List.mem_singleton.1 hc]
    rfl

/-- A variable as time slot has a slot of its own. -/
theorem slots_right_iff_interval :
    SlotsRight checkedServices (run Race.step Race.start []).contextSlots "a1"
      (timeSlotGraph (.str "b")) := by
  refine (slots_right_iff checkedServices checkedServices_checks [] "a1" _).2 ⟨?_, ?_⟩
  · intro n st c fieldSchema name k hfield hparam hname hparse hk
    rw [slotField_timeSlot hfield, JsValue.str.injEq] at hparam
    subst hparam
    decide
  · intro n st c fieldSchema k hfield hempty
    rw [slotField_timeSlot hfield] at hempty
    cases hempty

/-- In a vault where `a` has slot 0, an empty time slot selects it, and so does `0x5`. -/
theorem other_slot_selected :
    ¬ SlotsRight checkedServices
      (run Race.step Race.start [.read ["a"] "a1", .write 0]).contextSlots "a2"
      (timeSlotGraph (.str "")) ∧
    ¬ SlotsRight checkedServices
      (run Race.step Race.start [.read ["a"] "a1", .write 0]).contextSlots "a2"
      (timeSlotGraph (.str "0x5")) := by
  have hfield (timeSlot : JsValue) : SlotField checkedServices (timeSlotGraph timeSlot)
      ⟨"node-1", .condition, "Interval Condition",
        [("interval", .str "86400"), ("timeSlot", timeSlot)]⟩ (intervalStepType ⟨7⟩)
      ⟨"timeSlot", .uint32⟩
      { plainField "Time Slot" .contextSlot with slotAccess := some .readWrite } :=
    ⟨List.mem_singleton_self _, rfl, List.mem_cons_of_mem _ (List.mem_singleton_self _), rfl,
      ⟨_, rfl, rfl⟩, rfl⟩
  constructor
  · intro h
    -- the empty text is encoded as 0, the slot of `a`
    have hnone := h.unset _ _ _ _ 0 (hfield (.str "")) rfl
      ⟨by decide, (encodeParam_unset (hfield (.str "")) rfl own?_empty 0).2 rfl⟩
    exact hnone "a" ((slotMappingOf_named 0).2
      (Or.inl ⟨⟨"a", "uint256", "", "a1"⟩, by decide, rfl⟩))
  · intro h
    -- `0x5` is no decimal index, so it should be the name of a variable
    have hname : NamesVariable "0x5" := by
      refine ⟨by decide, fun k hk => ?_⟩
      have hdigits : allDigits? "0x5".toList = none := by decide
      rw [hdigits] at hk
      cases hk
    have hown := h.own _ _ _ _ "0x5" 0 (hfield (.str "0x5")) rfl hname
      (emits_parsed (hfield (.str "0x5")) rfl (by decide) (by decide) (by decide) (by decide))
    have hvariable := isVariableName_of_mem (mem_of_slotMapping hown)
    exact absurd hvariable (by decide)

end StrategyBuilder.Backend
