import StrategyBuilder.Backend.SlotAllocation

/-!
# What an update writes to the context

`updateContext_ok` says when `encodeUpdate` asks for a `setContext` transaction and with what. Such a
transaction replaces the whole context: a slot gets the override of its variable, or else what the
chain answered for it when the context was read (`expandedSlot_of_override`, `expandedSlot_of_unset`).
-/

set_option autoImplicit false

namespace StrategyBuilder.Backend

open StrategyBuilder.Automation
open StrategyBuilder.Contracts.Vault
open StrategyBuilder.Lib.Abi
open StrategyBuilder.Lib.Js
open StrategyBuilder.Shared

section

variable {overrides : Option (Record HexData)} {slotMapping : Record Nat} {name : String} {idx : Nat}

/-! ## Overrides by index -/

/-- The slot of one variable gets the override of that variable. -/
theorem indexOverrides_apply (hkeys : ((overrides.getD []).map Prod.fst).Nodup)
    (hname : slotMapping.own? name = some idx)
    (hunique : ∀ other, slotMapping.own? other = some idx → other = name) :
    (indexOverrides overrides slotMapping).1 idx = (overrides.getD []).own? name := by
  suffices hloop : ∀ (l : Record HexData) (acc : Map Nat HexData × Bool), (l.map Prod.fst).Nodup →
      (l.foldl (indexOverride slotMapping) acc).1 idx = (l.own? name).or (acc.1 idx) by
    rw [indexOverrides, hloop _ _ hkeys]
    cases (overrides.getD []).own? name with
    | none => rfl
    | some value => rfl
  intro l
  induction l with
  | nil =>
    intro acc _
    rfl
  | cons e l ih =>
    intro acc hnodup
    obtain ⟨key, value⟩ := e
    rw [List.map_cons, List.nodup_cons] at hnodup
    rw [List.foldl_cons, ih _ hnodup.2]
    by_cases hkey : key = name
    · -- no later override is for the same variable
      subst hkey
      have hget : slotMapping.get key = .own idx := Record.get_eq_own.2 hname
      have hrest : Record.own? l key = none := Record.own?_eq_none.2 hnodup.1
      have hself : Record.own? ((key, value) :: l) key = some value := if_pos rfl
      rw [hrest, hself, indexOverride, hget]
      exact Map.set_self acc.1 idx value
    · have hskip : Record.own? ((key, value) :: l) name = Record.own? l name := if_neg hkey
      have hsame : (indexOverride slotMapping acc (key, value)).1 idx = acc.1 idx := by
        rw [indexOverride]
        cases hget : slotMapping.get key with
        | own j =>
          have hne : idx ≠ j := by
            rintro rfl
            exact hkey (hunique key (Record.get_eq_own.1 hget))
          exact Map.set_of_ne acc.1 value hne
        | inherited => rfl
        | undefined => rfl
      rw [hskip, hsame]

/-- The flag is set by a name that is no variable but a property of every object. -/
theorem indexOverrides_inherited : (indexOverrides overrides slotMapping).2 = true ↔
    ∃ key ∈ (overrides.getD []).map Prod.fst, slotMapping.get key = .inherited := by
  suffices hloop : ∀ (l : Record HexData) (acc : Map Nat HexData × Bool),
      (l.foldl (indexOverride slotMapping) acc).2 = true ↔
        acc.2 = true ∨ ∃ key ∈ l.map Prod.fst, slotMapping.get key = .inherited by
    rw [indexOverrides, hloop]
    simp
  intro l
  induction l with
  | nil => simp
  | cons e l ih =>
    intro acc
    rw [List.foldl_cons, ih]
    cases hget : slotMapping.get e.1 with
    | own j => simp [indexOverride, hget]
    | inherited => simp [indexOverride, hget]
    | undefined => simp [indexOverride, hget]

/-! ## The expanded context -/

variable {currentCtx : List Bytes} {added : List NewSlot}

/-- With a key that is no index, the context is emptied. -/
theorem buildExpandedContext_inherited (h : (indexOverrides overrides slotMapping).2 = true) :
    buildExpandedContext currentCtx added overrides slotMapping = [] := by
  rw [buildExpandedContext]
  generalize indexOverrides overrides slotMapping = r at h
  obtain ⟨byIndex, flag⟩ := r
  subst h
  rfl

/-- What the new context has in a slot. -/
theorem buildExpandedContext_getElem? (h : (indexOverrides overrides slotMapping).2 = false)
    (hidx : idx < currentCtx.length ∨ idx ∈ added.map NewSlot.index ∨
      idx ∈ overriddenIndices overrides slotMapping) :
    (buildExpandedContext currentCtx added overrides slotMapping)[idx]? =
      some (expandedSlot currentCtx added (indexOverrides overrides slotMapping).1 idx) := by
  have hlt : idx < ((added.map NewSlot.index ++ overriddenIndices overrides slotMapping).map
      (· + 1)).foldl max currentCtx.length := by
    obtain ⟨hstart, hmem⟩ := le_foldl_max
      ((added.map NewSlot.index ++ overriddenIndices overrides slotMapping).map (· + 1))
      currentCtx.length
    -- the length is at least that of the chain, and beyond every index that is written
    rcases hidx with hlen | hindex
    · exact Nat.lt_of_lt_of_le hlen hstart
    · exact hmem (idx + 1) (List.mem_map.2 ⟨idx, List.mem_append.2 hindex, rfl⟩)
  rw [buildExpandedContext]
  generalize indexOverrides overrides slotMapping = r at h
  obtain ⟨byIndex, flag⟩ := r
  subst h
  rw [List.getElem?_map, List.getElem?_range hlt]
  rfl

theorem expandedSlot_of_override {byIndex : Map Nat HexData} {data : HexData}
    (h : byIndex idx = some data) : expandedSlot currentCtx added byIndex idx = data := by
  rw [expandedSlot, h]

/-- An override that nobody sent is missing, unless every object has a property of that name. -/
theorem overrideOf_of_notMem (hproto : name ∉ prototypeNames) :
    overrideOf overrides name = (overrides.getD []).own? name := by
  unfold overrideOf
  cases overrides with
  | none => rfl
  | some table =>
    rw [Option.getD_some]
    cases hown : table.own? name with
    | some value => simp [Record.get, hown]
    | none => simp [Record.get, hown, hproto]

/-- The context that an update writes, at the slot of a variable without override: what the chain
answered for the slot, or the empty bytes. -/
theorem expandedSlot_of_unset (hkeys : (slotMapping.map Prod.fst).Nodup)
    (hname : slotMapping.own? name = some idx)
    (hunique : ∀ other, slotMapping.own? other = some idx → other = name)
    (hproto : name ∉ prototypeNames) (hunset : (overrides.getD []).own? name = none)
    {byIndex : Map Nat HexData} (hindex : byIndex idx = none) :
    expandedSlot currentCtx (newSlots overrides
        (slotMapping.filter fun (_, idx) => currentCtx.length ≤ idx)) byIndex idx =
      some ((currentCtx[idx]?).getD []) := by
  rw [expandedSlot]
  rw [hindex]
  -- what the chain answered goes before the initial value of a new slot
  cases hread : currentCtx[idx]? with
  | some value => rfl
  | none =>
    simp only [Option.getD_none]
    split
    · rename_i s hfind
      -- the entry that is found is the one of the variable
      have hindex : s.index = idx := by
        have hfound := List.find?_some hfind
        exact of_decide_eq_true hfound
      obtain ⟨⟨key, i⟩, hentry, rfl⟩ := List.mem_map.1 (List.mem_of_find?_eq_some hfind)
      have hi : i = idx := hindex
      subst hi
      have hkey : key = name :=
        hunique key (Record.own?_of_mem hkeys (List.mem_filter.1 hentry).1)
      subst hkey
      simp only [overrideOf_of_notMem hproto, hunset, Option.getD_none]
    · rfl

/-- The slot of a variable is one that the expanded context has. -/
theorem variable_covered (hname : slotMapping.own? name = some idx) : idx < currentCtx.length ∨
    idx ∈ (newSlots overrides
      (slotMapping.filter fun (_, idx) => currentCtx.length ≤ idx)).map NewSlot.index ∨
    idx ∈ overriddenIndices overrides slotMapping := by
  rcases Nat.lt_or_ge idx currentCtx.length with hlt | hge
  · exact Or.inl hlt
  · refine Or.inr (Or.inl ?_)
    have hentry : (name, idx) ∈ slotMapping.filter fun (_, idx) => currentCtx.length ≤ idx :=
      List.mem_filter.2 ⟨Record.mem_of_own? hname, decide_eq_true hge⟩
    exact List.mem_map.2 ⟨_, List.mem_map.2 ⟨_, hentry, rfl⟩, rfl⟩

end

/-! ## The answer of the encoder -/

/-- Only data that is given can be encoded. -/
theorem encodeSetContext_ok {expanded : List HexData} {calldata : Op}
    (h : encodeSetContext expanded = .ok calldata) :
    ∃ ctx, calldata = .setContext ctx ∧ expanded = ctx.map some := by
  have hmap (l : List HexData) (ctx : List Bytes) (hl : l.mapM id = some ctx) : l = ctx.map some := by
    have hid : List.Forall₂ (fun data b => data = some b) l ctx := mapM_eq_some.1 hl
    rw [← List.forall₂_map_right_iff, List.forall₂_eq_eq_eq] at hid
    exact hid
  rw [encodeSetContext] at h
  cases hctx : expanded.mapM id with
  | none =>
    rw [hctx] at h
    cases h
  | some ctx =>
    rw [hctx] at h
    cases h
    exact ⟨ctx, rfl, hmap expanded ctx hctx⟩

/-- The context transaction of an update: there is none where no override is sent and no variable is
new, else it writes the expanded context. -/
theorem updateContext_ok {onChainCtx : Option (List Bytes)}
    {contextOverrides : Option (Record HexData)} {slotMapping : Record Nat} {calldata : Option Op}
    {changes : List ContextChange}
    (h : updateContext onChainCtx contextOverrides slotMapping = .ok (calldata, changes)) :
    (calldata = none ∧ hasOverrides contextOverrides = false ∧
        ∀ e ∈ slotMapping, e.2 < (onChainCtx.getD []).length) ∨
      (hasOverrides contextOverrides = true ∨
          ∃ e ∈ slotMapping, (onChainCtx.getD []).length ≤ e.2) ∧
        ∃ ctx, calldata = some (.setContext ctx) ∧
          buildExpandedContext (onChainCtx.getD []) (newSlots contextOverrides
            (slotMapping.filter fun (_, idx) => (onChainCtx.getD []).length ≤ idx))
            contextOverrides slotMapping = ctx.map some := by
  rw [updateContext] at h
  -- without variables and overrides the chain is not even asked
  by_cases hused : slotMapping ≠ [] ∨ hasOverrides contextOverrides = true
  swap
  · rw [if_neg hused] at h
    cases h
    rw [not_or, not_not] at hused
    refine Or.inl ⟨rfl, by simpa using hused.2, fun e he => ?_⟩
    rw [hused.1] at he
    cases he
  rw [if_pos hused] at h
  by_cases hneeded : (slotMapping.filter fun (_, idx) => (onChainCtx.getD []).length ≤ idx) ≠ [] ∨
      hasOverrides contextOverrides = true
  · refine Or.inr ⟨?_, ?_⟩
    · rcases hneeded with hnew | hsent
      · obtain ⟨e, he⟩ := List.exists_mem_of_ne_nil _ hnew
        obtain ⟨hmem, hle⟩ := List.mem_filter.1 he
        exact Or.inr ⟨e, hmem, of_decide_eq_true hle⟩
      · exact Or.inl hsent
    · simp only [if_pos hneeded] at h
      cases hcall : encodeSetContext (buildExpandedContext (onChainCtx.getD []) (newSlots
          contextOverrides (slotMapping.filter fun (_, idx) => (onChainCtx.getD []).length ≤ idx))
          contextOverrides slotMapping) with
      | error e =>
        rw [hcall] at h
        cases h
      | ok op =>
        rw [hcall] at h
        cases h
        obtain ⟨ctx, rfl, hctx⟩ := encodeSetContext_ok hcall
        exact ⟨ctx, rfl, hctx⟩
  · simp only [if_neg hneeded] at h
    cases h
    rw [not_or, not_not] at hneeded
    refine Or.inl ⟨rfl, by simpa using hneeded.2, ?_⟩
    intro e he
    by_contra hge
    have hmem : e ∈ slotMapping.filter fun (_, idx) => (onChainCtx.getD []).length ≤ idx :=
      List.mem_filter.2 ⟨he, decide_eq_true (Nat.le_of_not_lt hge)⟩
    rw [hneeded.1] at hmem
    cases hmem

end StrategyBuilder.Backend
