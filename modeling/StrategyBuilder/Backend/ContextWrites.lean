import StrategyBuilder.Backend.ContextUpdate
import StrategyBuilder.Backend.SeedCatalog
import StrategyBuilder.Backend.StructuralValidity
import StrategyBuilder.Contracts.VaultSteps

/-!
# Context that a deployment overwrites

A `setContext` transaction replaces the whole context of the vault by what the backend made of the
context it read before (`written_slot`): a slot without an override gets what was read for it, and the
empty bytes where nothing was. A read that fails is taken for an empty context.

So a slot survives exactly when it still holds what was read, which decides over a read that failed
(`failed_read_keeps_iff`) and over what happens between the read and the transaction
(`deploy_keeps_iff`).
-/

set_option autoImplicit false

namespace StrategyBuilder.Backend

open StrategyBuilder.Automation
open StrategyBuilder.Contracts
open StrategyBuilder.Contracts.Vault
open StrategyBuilder.Lib
open StrategyBuilder.Lib.Abi
open StrategyBuilder.Lib.Js
open StrategyBuilder.Lib.Transition
open StrategyBuilder.Shared

/-! ## Slots that the overrides name -/

/-- The slot stands in `contextSlots` under a name that is sent with an override. -/
def NamedBy (slots : ContextSlots) (overrides : Option (Record HexData)) (i : Nat) : Prop :=
  ∃ name ∈ (overrides.getD []).map Prod.fst, slots.Named name i

/-- Some override is for a name that every object answers and that is no variable of the graph. -/
def SendsInherited (overrides : Option (Record HexData)) (slotMapping : Record Nat) : Prop :=
  ∃ name ∈ (overrides.getD []).map Prod.fst, slotMapping.get name = .inherited

/-- What the loop of `allocateSlots` knows of the slots it has. -/
structure Allocation.Recorded (s : Allocation) : Prop where
  byName : ∀ name idx, s.existingByName name = some idx → s.slots.Named name idx
  mapping : ∀ name idx, s.mapping.own? name = some idx → s.slots.Named name idx
  keys : (s.mapping.map Prod.fst).Nodup

/-- At the start what is recorded is what was read. -/
theorem Allocation.start_recorded (slots : ContextSlots) :
    Allocation.Recorded (.start slots) := by
  refine ⟨?_, ?_, List.nodup_nil⟩
  · intro name idx h
    obtain ⟨e, he, heq⟩ := List.mem_map.1 (Map.mem_of_ofEntries h)
    rw [Prod.mk.injEq] at heq
    exact ⟨e.2, heq.2 ▸ he, heq.1⟩
  · intro name idx h
    cases h

/-- A name that is allocated is recorded under its index. -/
theorem Allocation.Recorded.allocate {s : Allocation} (h : s.Recorded)
    (automationId name : String) : (s.allocate automationId name).Recorded := by
  rw [Allocation.allocate]
  cases hname : s.existingByName name with
  | some existing =>
    refine ⟨h.byName, fun other idx hget => ?_, Record.nodup_keys_set h.keys name existing⟩
    rcases Record.own?_set hget with ⟨rfl, rfl⟩ | hget
    · exact h.byName other idx hname
    · exact h.mapping other idx hget
  | none =>
    have hnew : ContextSlots.Named
        (s.slots ++ [(s.nextIndex, (⟨name, "uint256", "", automationId⟩ : SlotMeta))]) name
        s.nextIndex :=
      ⟨_, List.mem_append_right _ (List.mem_singleton_self _), rfl⟩
    refine ⟨fun other idx hget => ?_, fun other idx hget => ?_,
      Record.nodup_keys_set h.keys name s.nextIndex⟩
    -- the new name, or one that was there before
    · by_cases hother : other = name
      · subst hother
        simp only [Map.set_self, Option.some.injEq] at hget
        subst hget
        exact hnew
      · simp only [Map.set_of_ne s.existingByName s.nextIndex hother] at hget
        exact (h.byName other idx hget).append
    · rcases Record.own?_set hget with ⟨rfl, rfl⟩ | hget
      · exact hnew
      · exact (h.mapping other idx hget).append

/-- The variables of a graph stand in `contextSlots` at the indices that the mapping has. -/
theorem slotMappingOf_recorded (svc : Services) (slots : ContextSlots) (automationId : String)
    (graph : EditorGraph) :
    (∀ name idx, (slotMappingOf svc slots automationId graph).2.own? name = some idx →
      (slotMappingOf svc slots automationId graph).1.Named name idx) ∧
    ((slotMappingOf svc slots automationId graph).2.map Prod.fst).Nodup := by
  have hend : ((extractSlotNames svc graph).foldl (Allocation.allocate automationId)
      (.start slots)).Recorded :=
    List.foldlRecOn _ _ (Allocation.start_recorded slots) fun _ hs name _ =>
      hs.allocate automationId name
  rw [slotMappingOf_eq]
  exact ⟨hend.mapping, hend.keys⟩

section

variable {overrides : Option (Record HexData)} {slotMapping : Record Nat} {i : Nat}

/-- The slots of the names that are overridden. -/
theorem mem_overriddenIndices_iff : i ∈ overriddenIndices overrides slotMapping ↔
    ∃ name ∈ (overrides.getD []).map Prod.fst, slotMapping.own? name = some i := by
  rw [overriddenIndices]
  rw [List.mem_filterMap]
  constructor
  · rintro ⟨⟨name, value⟩, hmem, hget⟩
    cases hslot : slotMapping.get name with
    | own idx =>
      simp only [hslot, Option.some.injEq] at hget
      subst hget
      exact ⟨name, List.mem_map_of_mem hmem, Record.get_eq_own.1 hslot⟩
    | inherited => simp [hslot] at hget
    | undefined => simp [hslot] at hget
  · rintro ⟨name, hname, hslot⟩
    obtain ⟨⟨name', value⟩, hmem, rfl⟩ := List.mem_map.1 hname
    refine ⟨_, hmem, ?_⟩
    simp only [Record.get_eq_own.2 hslot]

/-- A slot that an override is for is named by it. -/
theorem namedBy_of_overridden {svc : Services} {slots : ContextSlots} {automationId : String}
    {graph : EditorGraph} :
    ∀ i ∈ overriddenIndices overrides (slotMappingOf svc slots automationId graph).2,
      NamedBy (slotMappingOf svc slots automationId graph).1 overrides i := by
  intro i hi
  obtain ⟨name, hname, hslot⟩ := mem_overriddenIndices_iff.1 hi
  exact ⟨name, hname, (slotMappingOf_recorded svc slots automationId graph).1 name i hslot⟩

theorem sendsInherited_iff :
    SendsInherited overrides slotMapping ↔ (indexOverrides overrides slotMapping).2 = true :=
  indexOverrides_inherited.symm

/-- What no override is for is not set by one. -/
theorem indexOverrides_eq_none (h : i ∉ overriddenIndices overrides slotMapping) :
    (indexOverrides overrides slotMapping).1 i = none := by
  have hnone : ∀ e ∈ overrides.getD [], slotMapping.get e.1 ≠ .own i := by
    intro e he hget
    exact h (mem_overriddenIndices_iff.2
      ⟨e.1, List.mem_map_of_mem he, Record.get_eq_own.1 hget⟩)
  apply List.foldlRecOn (motive := fun acc : Map Nat HexData × Bool => acc.1 i = none)
  · rfl
  · intro acc hacc e he
    rw [indexOverride]
    cases hget : slotMapping.get e.1 with
    | own j =>
      have hne : i ≠ j := by
        rintro rfl
        exact hnone e he hget
      exact (Map.set_of_ne acc.1 e.2 hne).trans hacc
    | inherited => exact hacc
    | undefined => exact hacc

/-- A variable whose slot has no override is sent with nothing, or with no data string. -/
theorem overrideOf_of_notOverridden (h : i ∉ overriddenIndices overrides slotMapping) {name : String}
    (hslot : slotMapping.own? name = some i) :
    overrideOf overrides name = none ∨ overrideOf overrides name = some none := by
  unfold overrideOf
  cases overrides with
  | none => exact Or.inl rfl
  | some table =>
    -- a name that every object answers is sent with a function, which is no data string
    cases hget : table.get name with
    | own value =>
      have hmem : name ∈ ((some table).getD []).map Prod.fst :=
        List.mem_map_of_mem (f := Prod.fst) (Record.mem_of_own? (Record.get_eq_own.1 hget))
      exact absurd (mem_overriddenIndices_iff.2 ⟨name, hmem, hslot⟩) h
    | inherited => exact Or.inr (by simp only [hget])
    | undefined => exact Or.inl (by simp only [hget])

/-! ## What is written -/

theorem lt_foldl_max {l : List Nat} {m : Nat} :
    i < l.foldl max m ↔ i < m ∨ ∃ x ∈ l, i < x := by
  induction l generalizing m with
  | nil => simp
  | cons y l ih =>
    rw [List.foldl_cons, ih, lt_max_iff, or_assoc]
    simp

/-- The slot is within the context that is written: one that was read, or not beyond all variables of
the graph. -/
def Covered (read : List Bytes) (slotMapping : Record Nat) (i : Nat) : Prop :=
  i < read.length ∨ ∃ e ∈ slotMapping, i ≤ e.2

variable {read ctx : List Bytes} {entries : Record Nat}

/-- **The context that is written**, at a slot without an override. -/
theorem written_slot (hkeys : (slotMapping.map Prod.fst).Nodup) (hentries : entries ⊆ slotMapping)
    (hnew : ∀ e ∈ slotMapping, read.length ≤ e.2 → e ∈ entries)
    (hflag : ¬ SendsInherited overrides slotMapping)
    (h : buildExpandedContext read (newSlots overrides entries) overrides slotMapping =
      ctx.map some) :
    (i < ctx.length ↔ Covered read slotMapping i) ∧
      (i < ctx.length → i ∉ overriddenIndices overrides slotMapping →
        ctx[i]? = some ((read[i]?).getD [])) := by
  rw [sendsInherited_iff, Bool.not_eq_true] at hflag
  rw [buildExpandedContext] at h
  generalize hindex : indexOverrides overrides slotMapping = r at h hflag
  obtain ⟨byIndex, flag⟩ := r
  subst hflag
  simp only at h
  have hlen := congrArg List.length h
  rw [List.length_map, List.length_range, List.length_map] at hlen
  constructor
  · rw [← hlen, lt_foldl_max]
    constructor
    -- the context is as long as what was read, or reaches to the highest slot that is written
    · rintro (hread | ⟨x, hx, hlt⟩)
      · exact Or.inl hread
      · right
        obtain ⟨idx, hidx, rfl⟩ := List.mem_map.1 hx
        rcases List.mem_append.1 hidx with hnewSlot | hover
        · obtain ⟨s, hs, rfl⟩ := List.mem_map.1 hnewSlot
          obtain ⟨e, he, rfl⟩ := List.mem_map.1 hs
          exact ⟨e, hentries he, Nat.lt_succ_iff.1 hlt⟩
        · obtain ⟨name, -, hslot⟩ := mem_overriddenIndices_iff.1 hover
          exact ⟨_, Record.mem_of_own? hslot, Nat.lt_succ_iff.1 hlt⟩
    · rintro (hread | ⟨e, he, hle⟩)
      · exact Or.inl hread
      · rcases Nat.lt_or_ge e.2 read.length with hlt | hge
        · exact Or.inl (Nat.lt_of_le_of_lt hle hlt)
        · refine Or.inr ⟨e.2 + 1, List.mem_map.2 ⟨e.2, List.mem_append_left _ ?_, rfl⟩,
            Nat.lt_succ_of_le hle⟩
          exact List.mem_map.2 ⟨_, List.mem_map.2 ⟨e, hnew e he hge, rfl⟩, rfl⟩
  · intro hi hnot
    have hnone : byIndex i = none := by
      have := indexOverrides_eq_none hnot
      rwa [hindex] at this
    have hget := congrArg (fun l : List HexData => l[i]?) h
    simp only [List.getElem?_map] at hget
    rw [List.getElem?_range (hlen ▸ hi), List.getElem?_eq_getElem hi, Option.map_some,
      Option.map_some, Option.some.injEq] at hget
    rw [List.getElem?_eq_getElem hi]
    rw [expandedSlot] at hget
    rw [hnone] at hget
    cases hread : read[i]? with
    | some value =>
      simp only [hread, Option.some.injEq] at hget
      rw [Option.getD_some, hget]
    | none =>
      simp only [hread] at hget
      rw [Option.getD_none]
      split at hget
      · rename_i s hfind
        -- the new slot belongs to a variable without an override
        have hfound := List.find?_some hfind
        have hidx : s.index = i := of_decide_eq_true hfound
        obtain ⟨⟨name, idx⟩, hentry, rfl⟩ := List.mem_map.1 (List.mem_of_find?_eq_some hfind)
        have hslot : slotMapping.own? name = some i := by
          rw [← hidx]
          exact Record.own?_of_mem hkeys (hentries hentry)
        have hvalue := overrideOf_of_notOverridden hnot hslot
        rcases hvalue with hvalue | hvalue
        · simp only [hvalue, Option.getD_none, Option.some.injEq] at hget
          rw [← hget]
        · simp only [hvalue, Option.getD_some] at hget
          cases hget
      · simp only [Option.some.injEq] at hget
        rw [← hget]

/-! ## What survives -/

/-- Every slot that is not named keeps its value. -/
def Kept (named : Nat → Prop) (before after : List Bytes) : Prop :=
  ∀ i < before.length, ¬ named i → after[i]? = before[i]?

/-- Every slot that is not named holds what was read of it: its value, or the empty bytes where
nothing was read but a variable of the graph has a slot as high. -/
def HoldsRead (named : Nat → Prop) (read : List Bytes) (slotMapping : Record Nat)
    (now : List Bytes) : Prop :=
  ∀ i < now.length, ¬ named i →
    Covered read slotMapping i ∧ now[i]? = some ((read[i]?).getD [])

/-- The context that is written keeps the slots that are not named exactly if they were read as they
are now. -/
theorem written_kept_iff {named : Nat → Prop} {now : List Bytes}
    (hnamed : ∀ i ∈ overriddenIndices overrides slotMapping, named i)
    (hkeys : (slotMapping.map Prod.fst).Nodup) (hentries : entries ⊆ slotMapping)
    (hnew : ∀ e ∈ slotMapping, read.length ≤ e.2 → e ∈ entries)
    (hflag : ¬ SendsInherited overrides slotMapping)
    (h : buildExpandedContext read (newSlots overrides entries) overrides slotMapping =
      ctx.map some) :
    Kept named now ctx ↔ HoldsRead named read slotMapping now := by
  have hslot (i : Nat) := @written_slot overrides slotMapping i read ctx entries hkeys hentries hnew
    hflag h
  constructor
  · intro hkept i hi hnot
    have hnotOver : i ∉ overriddenIndices overrides slotMapping := fun hover => hnot (hnamed i hover)
    have heq := hkept i hi hnot
    rw [List.getElem?_eq_getElem hi] at heq
    have hlt : i < ctx.length := (List.getElem?_eq_some_iff.1 heq).1
    refine ⟨(hslot i).1.1 hlt, ?_⟩
    -- the value that was kept is the one that was read
    rw [← (hslot i).2 hlt hnotOver, heq, List.getElem?_eq_getElem hi]
  · intro hread i hi hnot
    have hnotOver : i ∉ overriddenIndices overrides slotMapping := fun hover => hnot (hnamed i hover)
    obtain ⟨hcovered, hvalue⟩ := hread i hi hnot
    rw [(hslot i).2 ((hslot i).1.2 hcovered) hnotOver, hvalue]

end

/-! ## The context part of an answer -/

/-- How an answer of the encoder comes by its context transaction. -/
structure ContextPart (result : Except Thrown EncodeResult) (answers needed : Prop)
    (read : List Bytes) (overrides : Option (Record HexData)) (entries slotMapping : Record Nat) :
    Prop where
  answers : (∃ r, result = .ok r) ↔ answers
  unneeded : ¬ needed → ∀ r, result = .ok r → r.contextCalldata = none
  written : needed → ∀ r, result = .ok r → ∃ ctx, r.contextCalldata = some (.setContext ctx) ∧
    buildExpandedContext read (newSlots overrides entries) overrides slotMapping = ctx.map some

/-- Every node that is reached can be encoded. -/
def AllEncodable (svc : Services) (slotMapping : Record Nat) (graph : EditorGraph) : Prop :=
  ∃ order, bfs graph = .ok order ∧ ∀ id ∈ order, Encodable svc slotMapping graph id

/-- A context transaction is built by `encode`. -/
def CreateWrites (contextOverrides : Option (Record HexData)) (slotMapping : Record Nat) : Prop :=
  slotMapping ≠ [] ∨ hasOverrides contextOverrides = true

/-- The variables whose slots are beyond the context that was read. -/
def newEntries (read : List Bytes) (slotMapping : Record Nat) : Record Nat :=
  slotMapping.filter fun (_, idx) => read.length ≤ idx

/-- A context transaction is built by `encodeUpdate`. -/
def UpdateWrites (read : List Bytes) (contextOverrides : Option (Record HexData))
    (slotMapping : Record Nat) : Prop :=
  newEntries read slotMapping ≠ [] ∨ hasOverrides contextOverrides = true

/-- The request is answered with transactions: it passes the checks, all its nodes can be encoded, and
the context that is written consists of data strings. -/
def Answers (svc : Services) (graph : EditorGraph) (contextOverrides : Option (Record HexData))
    (slotMapping : Record Nat) (read : List Bytes) (entries : Record Nat) (writes : Prop) : Prop :=
  validateRequest svc graph = .ok () ∧ AllEncodable svc slotMapping graph ∧
    (writes → ContextEncodes read entries contextOverrides slotMapping)

section

variable {svc : Services} {slots : ContextSlots} {onChainCtx : Option (List Bytes)}
  {automationId : String} {onChainId : Nat} {graph : EditorGraph}
  {contextOverrides : Option (Record HexData)}

/-- An answer has the steps and the context part that were computed. -/
theorem steps_ok {slotMapping : Record Nat}
    {context : Except Thrown (Option Op × List ContextChange)}
    {result : List Step → Option Op × List ContextChange → EncodeResult} {r : EncodeResult}
    (h : (encodeSteps svc graph slotMapping >>= fun steps =>
      context >>= fun answer => .ok (result steps answer)) = .ok r) :
    ∃ steps answer, encodeSteps svc graph slotMapping = .ok steps ∧ context = .ok answer ∧
      r = result steps answer := by
  cases hsteps : encodeSteps svc graph slotMapping with
  | error e =>
    rw [hsteps] at h
    cases h
  | ok steps =>
    rw [hsteps] at h
    cases hctx : context with
    | error e =>
      rw [hctx] at h
      cases h
    | ok answer =>
      rw [hctx] at h
      cases h
      exact ⟨steps, answer, rfl, rfl, rfl⟩

/-- The context part of an answer, from what is said of it alone. -/
theorem contextPart_of {slotMapping entries : Record Nat} {read : List Bytes} {writes : Prop}
    {full : Except Thrown EncodeResult} {context : Except Thrown (Option Op × List ContextChange)}
    (result : List Step → Option Op × List ContextChange → EncodeResult)
    (hinvalid : ∀ e, validateRequest svc graph = .error e → full = .error e)
    (hvalid : validateRequest svc graph = .ok () → full =
      (encodeSteps svc graph slotMapping >>= fun steps =>
        context >>= fun answer => .ok (result steps answer)))
    (hresult : ∀ steps answer, (result steps answer).contextCalldata = answer.1)
    (hcases : (∃ answer, context = .ok answer) ∧
        (writes → ContextEncodes read entries contextOverrides slotMapping) ∨
      context = .error .internal ∧
        ¬ (writes → ContextEncodes read entries contextOverrides slotMapping))
    (hunneeded : ¬ writes → ∀ answer, context = .ok answer → answer.1 = none)
    (hwritten : writes → ∀ answer, context = .ok answer → ∃ ctx, answer.1 = some (.setContext ctx) ∧
      buildExpandedContext read (newSlots contextOverrides entries) contextOverrides slotMapping =
        ctx.map some) :
    ContextPart full (Answers svc graph contextOverrides slotMapping read entries writes) writes read
      contextOverrides entries slotMapping := by
  have hok : ∀ r, full = .ok r → validateRequest svc graph = .ok () ∧ ∃ steps answer,
      encodeSteps svc graph slotMapping = .ok steps ∧ context = .ok answer ∧
        r = result steps answer := by
    intro r hr
    cases hcheck : validateRequest svc graph with
    | error e =>
      rw [hinvalid e hcheck] at hr
      cases hr
    | ok u =>
      rw [hvalid hcheck] at hr
      exact ⟨rfl, steps_ok hr⟩
  refine ⟨⟨?_, ?_⟩, ?_, ?_⟩
  · rintro ⟨r, hr⟩
    obtain ⟨hcheck, steps, answer, hsteps, hctx, -⟩ := hok r hr
    refine ⟨hcheck, encodeSteps_isOk.1 ⟨steps, hsteps⟩, ?_⟩
    rcases hcases with ⟨-, hdata⟩ | ⟨herror, -⟩
    · exact hdata
    · rw [hctx] at herror
      cases herror
  · rintro ⟨hcheck, hall, hdata⟩
    obtain ⟨steps, hsteps⟩ := encodeSteps_isOk.2 hall
    -- the context part can only fail where the context has no data string somewhere
    rcases hcases with ⟨⟨answer, hctx⟩, -⟩ | ⟨-, hnot⟩
    · refine ⟨result steps answer, ?_⟩
      rw [hvalid hcheck, hsteps, hctx]
      rfl
    · exact absurd hdata hnot
  · intro hno r hr
    obtain ⟨-, steps, answer, -, hctx, rfl⟩ := hok r hr
    rw [hresult]
    exact hunneeded hno answer hctx
  · intro hneeded r hr
    obtain ⟨-, steps, answer, -, hctx, rfl⟩ := hok r hr
    rw [hresult]
    exact hwritten hneeded answer hctx

/-- A creation writes the context where the graph has variables or the request overrides. -/
theorem createContext_ok {slotMapping : Record Nat} {answer : Option Op × List ContextChange}
    (h : createContext onChainCtx contextOverrides slotMapping = .ok answer) :
    (¬ CreateWrites contextOverrides slotMapping → answer.1 = none) ∧
    (CreateWrites contextOverrides slotMapping → ∃ ctx, answer.1 = some (.setContext ctx) ∧
      buildExpandedContext (onChainCtx.getD []) (newSlots contextOverrides slotMapping)
        contextOverrides slotMapping = ctx.map some) := by
  rw [createContext] at h
  rw [CreateWrites]
  constructor
  · intro hno
    rw [if_neg hno] at h
    cases h
    rfl
  · intro hneeded
    rw [if_pos hneeded] at h
    cases hcall : encodeSetContext (buildExpandedContext (onChainCtx.getD [])
        (newSlots contextOverrides slotMapping) contextOverrides slotMapping) with
    | error e =>
      simp only [hcall] at h
      cases h
    | ok op =>
      simp only [hcall] at h
      cases h
      obtain ⟨ctx, rfl, hctx⟩ := encodeSetContext_ok hcall
      exact ⟨ctx, rfl, hctx⟩

/-- An update writes it where a variable has a slot of its own now, or the request overrides. -/
theorem updateContext_written {slotMapping : Record Nat} {answer : Option Op × List ContextChange}
    (h : updateContext onChainCtx contextOverrides slotMapping = .ok answer) :
    (¬ UpdateWrites (onChainCtx.getD []) contextOverrides slotMapping → answer.1 = none) ∧
    (UpdateWrites (onChainCtx.getD []) contextOverrides slotMapping → ∃ ctx,
      answer.1 = some (.setContext ctx) ∧ buildExpandedContext (onChainCtx.getD [])
        (newSlots contextOverrides (newEntries (onChainCtx.getD []) slotMapping)) contextOverrides
        slotMapping = ctx.map some) := by
  rcases updateContext_ok h with ⟨hnone, hquiet, hknown⟩ | ⟨hneeded, ctx, hsome, hctx⟩
  · refine ⟨fun _ => hnone, ?_⟩
    rintro (hnew | hsent)
    · obtain ⟨e, he⟩ := List.exists_mem_of_ne_nil _ hnew
      obtain ⟨hmem, hle⟩ := List.mem_filter.1 he
      exact absurd (of_decide_eq_true hle) (Nat.not_le.2 (hknown e hmem))
    · rw [hquiet] at hsent
      cases hsent
  · refine ⟨fun hno => ?_, fun _ => ⟨ctx, hsome, hctx⟩⟩
    refine absurd ?_ hno
    rcases hneeded with hsent | ⟨e, hmem, hle⟩
    · exact Or.inr hsent
    · have he : e ∈ newEntries (onChainCtx.getD []) slotMapping :=
        List.mem_filter.2 ⟨hmem, decide_eq_true hle⟩
      exact Or.inl (List.ne_nil_of_mem he)

/-- What `encode` does with the context. -/
theorem encode_contextPart (svc : Services) (slots : ContextSlots)
    (onChainCtx : Option (List Bytes)) (automationId : String) (graph : EditorGraph)
    (contextOverrides : Option (Record HexData)) :
    let slotMapping := (slotMappingOf svc slots automationId graph).2
    let writes := CreateWrites contextOverrides slotMapping
    ContextPart (encode svc slots onChainCtx automationId graph contextOverrides).2
      (Answers svc graph contextOverrides slotMapping (onChainCtx.getD []) slotMapping writes) writes
      (onChainCtx.getD []) contextOverrides slotMapping slotMapping := by
  intro slotMapping writes
  let result (steps : List Step) (answer : Option Op × List ContextChange) : EncodeResult := {
      automationCalldata := (createCall (inferOwnerOnly graph) steps).2
      contextCalldata := answer.1
      functionName := (createCall (inferOwnerOnly graph) steps).1
      steps := steps
      ownerOnly := inferOwnerOnly graph
      stepCount := steps.length
      requiresContextTx := answer.1.isSome
      contextChanges := answer.2 }
  refine contextPart_of result ?_ ?_ ?_ createContext_cases
    (fun hno answer h => (createContext_ok h).1 hno)
    (fun hneeded answer h => (createContext_ok h).2 hneeded)
  · intro e he
    simp only [encode, he]
  · intro hok
    simp only [encode, hok]
    rfl
  · intro steps answer
    rfl

/-- What `encodeUpdate` does with the context. -/
theorem encodeUpdate_contextPart (svc : Services) (slots : ContextSlots)
    (onChainCtx : Option (List Bytes)) (automationId : String) (onChainId : Nat)
    (graph : EditorGraph) (contextOverrides : Option (Record HexData)) :
    let slotMapping := (slotMappingOf svc slots automationId graph).2
    let entries := newEntries (onChainCtx.getD []) slotMapping
    let writes := UpdateWrites (onChainCtx.getD []) contextOverrides slotMapping
    ContextPart (encodeUpdate svc slots onChainCtx automationId onChainId graph contextOverrides).2
      (Answers svc graph contextOverrides slotMapping (onChainCtx.getD []) entries writes) writes
      (onChainCtx.getD []) contextOverrides entries slotMapping := by
  intro slotMapping entries writes
  let result (steps : List Step) (answer : Option Op × List ContextChange) : EncodeResult := {
      automationCalldata := .updateAutomationSteps onChainId steps
      contextCalldata := answer.1
      functionName := "updateAutomationSteps"
      steps := steps
      ownerOnly := inferOwnerOnly graph
      stepCount := steps.length
      requiresContextTx := answer.1.isSome
      contextChanges := answer.2 }
  refine contextPart_of result ?_ ?_ ?_ updateContext_cases
    (fun hno answer h => (updateContext_written h).1 hno)
    (fun hneeded answer h => (updateContext_written h).2 hneeded)
  · intro e he
    simp only [encodeUpdate, he]
  · intro hok
    simp only [encodeUpdate, hok]
    rfl
  · intro steps answer
    rfl

end

/-! ## The transaction on the vault -/

/-- Whatever context transaction the answer has, the context that the owner's transaction leaves in the
vault is good. -/
def AfterContextTx (result : Except Thrown EncodeResult) (v : State) (env : Env)
    (good : List Bytes → Prop) : Prop :=
  ∀ r calldata, result = .ok r → r.contextCalldata = some calldata →
    good (step v ⟨v.owner, env, calldata⟩).ctx

/-- After the context transaction the context is what was written, or what it was. -/
theorem ContextPart.afterContextTx {result : Except Thrown EncodeResult} {answers needed : Prop}
    {read : List Bytes} {overrides : Option (Record HexData)} {entries slotMapping : Record Nat}
    (h : ContextPart result answers needed read overrides entries slotMapping) (v : State) (env : Env)
    (good : List Bytes → Prop) {decides : Prop}
    (hgood : ∀ ctx, buildExpandedContext read (newSlots overrides entries) overrides slotMapping =
      ctx.map some → (good ctx ↔ decides)) :
    AfterContextTx result v env good ↔ (answers → needed → decides) := by
  have htx (ctx : List Bytes) : (step v ⟨v.owner, env, .setContext ctx⟩).ctx = ctx :=
    step_setContext_ctx rfl rfl
  constructor
  · intro hafter hanswers hneeded
    obtain ⟨r, hr⟩ := h.answers.2 hanswers
    obtain ⟨ctx, hcall, hctx⟩ := h.written hneeded r hr
    have hctx' := hafter r _ hr hcall
    rw [htx] at hctx'
    exact (hgood ctx hctx).1 hctx'
  · intro hdecides r calldata hr hcall
    -- without a context transaction there is nothing to lose
    by_cases hneeded : needed
    · obtain ⟨ctx, hsome, hctx⟩ := h.written hneeded r hr
      rw [hcall, Option.some.injEq] at hsome
      subst hsome
      rw [htx]
      exact (hgood ctx hctx).2 (hdecides (h.answers.1 ⟨r, hr⟩) hneeded)
    · rw [h.unneeded hneeded r hr] at hcall
      cases hcall

theorem newEntries_subset (read : List Bytes) (slotMapping : Record Nat) :
    newEntries read slotMapping ⊆ slotMapping := List.filter_subset_self _

theorem mem_newEntries {read : List Bytes} {slotMapping : Record Nat} :
    ∀ e ∈ slotMapping, read.length ≤ e.2 → e ∈ newEntries read slotMapping :=
  fun _ he hle => List.mem_filter.2 ⟨he, decide_eq_true hle⟩

/-- With an override for a name that is no variable but every object answers, the context is emptied. -/
theorem written_inherited {read ctx : List Bytes} {overrides : Option (Record HexData)}
    {entries slotMapping : Record Nat} (hflag : SendsInherited overrides slotMapping)
    (h : buildExpandedContext read (newSlots overrides entries) overrides slotMapping =
      ctx.map some) : ctx = [] := by
  rw [buildExpandedContext_inherited (sendsInherited_iff.1 hflag)] at h
  exact List.map_eq_nil_iff.1 h.symm

/-! ## Between the read and the transaction -/

/-- What decides whether the slots of the context `now` survive a transaction that was built on the
context `read`. -/
def Survives (named : Nat → Prop) (read now : List Bytes) (overrides : Option (Record HexData))
    (slotMapping : Record Nat) : Prop :=
  (SendsInherited overrides slotMapping ∧ ∀ i < now.length, named i) ∨
    (¬ SendsInherited overrides slotMapping ∧ HoldsRead named read slotMapping now)

/-- The slots that are not named keep their values exactly if the values survive the request. -/
theorem kept_iff_survives {named : Nat → Prop} {read now ctx : List Bytes}
    {overrides : Option (Record HexData)} {entries slotMapping : Record Nat}
    (hnamed : ∀ i ∈ overriddenIndices overrides slotMapping, named i)
    (hkeys : (slotMapping.map Prod.fst).Nodup) (hentries : entries ⊆ slotMapping)
    (hnew : ∀ e ∈ slotMapping, read.length ≤ e.2 → e ∈ entries)
    (h : buildExpandedContext read (newSlots overrides entries) overrides slotMapping =
      ctx.map some) : Kept named now ctx ↔ Survives named read now overrides slotMapping := by
  rw [Survives]
  -- such an override empties the context, so all its slots must be named
  by_cases hflag : SendsInherited overrides slotMapping
  · simp only [hflag, true_and, not_true_eq_false, false_and, or_false]
    rw [written_inherited hflag h]
    constructor
    · intro hkept i hi
      by_contra hnot
      have heq := hkept i hi hnot
      rw [List.getElem?_eq_getElem hi] at heq
      cases heq
    · intro hall i hi hnot
      exact absurd (hall i hi) hnot
  · simp only [hflag, false_and, not_false_eq_true, true_and, false_or]
    exact written_kept_iff hnamed hkeys hentries hnew hflag h

/-- **When a deployment loses no update of the context.** The backend read the context of `v`; then any
transactions were mined, and last the context transaction of the answer. Every slot that the overrides
do not name keeps its value exactly when it still holds what was read of it, in case a transaction is
built at all. -/
theorem deploy_keeps_iff (svc : Services) (slots : ContextSlots) (automationId : String)
    (onChainId : Nat) (graph : EditorGraph) (overrides : Option (Record HexData)) (v : State)
    (txs : List Tx) (env : Env) :
    let slotMapping := (slotMappingOf svc slots automationId graph).2
    let named := NamedBy (slotMappingOf svc slots automationId graph).1 overrides
    let entries := newEntries v.ctx slotMapping
    let w := run step v txs
    (AfterContextTx (encode svc slots (some v.ctx) automationId graph overrides).2 w env
        (Kept named w.ctx) ↔
      (Answers svc graph overrides slotMapping v.ctx slotMapping
          (CreateWrites overrides slotMapping) →
        CreateWrites overrides slotMapping → Survives named v.ctx w.ctx overrides slotMapping)) ∧
    (AfterContextTx (encodeUpdate svc slots (some v.ctx) automationId onChainId graph overrides).2 w
        env (Kept named w.ctx) ↔
      (Answers svc graph overrides slotMapping v.ctx entries
          (UpdateWrites v.ctx overrides slotMapping) →
        UpdateWrites v.ctx overrides slotMapping →
          Survives named v.ctx w.ctx overrides slotMapping)) := by
  intro slotMapping named entries w
  have hkeys := (slotMappingOf_recorded svc slots automationId graph).2
  have hnamed : ∀ i ∈ overriddenIndices overrides slotMapping, named i := namedBy_of_overridden
  -- both routes write what was read, over what stands there by now
  constructor
  · refine (encode_contextPart svc slots (some v.ctx) automationId graph overrides).afterContextTx w
      env _ fun ctx hctx => ?_
    exact kept_iff_survives hnamed hkeys (List.Subset.refl _) (fun e he _ => he) hctx
  · refine (encodeUpdate_contextPart svc slots (some v.ctx) automationId onChainId graph
      overrides).afterContextTx w env _ fun ctx hctx => ?_
    exact kept_iff_survives hnamed hkeys (newEntries_subset _ _) mem_newEntries hctx

/-! ## A read that fails -/

/-- The context is not shortened, and every slot that is not named keeps its value. -/
structure Preserved (named : Nat → Prop) (before after : List Bytes) : Prop where
  length : before.length ≤ after.length
  kept : Kept named before after

/-- What decides whether the context `now` survives a transaction that was built on a read of it. With
a read that failed there must be nothing to lose: all slots that are not named are empty, and a
variable of the graph has a slot as high as the last. -/
def ReadSurvives (readSucceeds : Bool) (named : Nat → Prop) (now : List Bytes)
    (overrides : Option (Record HexData)) (slotMapping : Record Nat) : Prop :=
  now = [] ∨ ¬ SendsInherited overrides slotMapping ∧ (readSucceeds = true ∨
    (∃ e ∈ slotMapping, now.length ≤ e.2 + 1) ∧ ∀ i < now.length, ¬ named i → now[i]? = some [])

/-- The same where the read of the context may have failed. -/
theorem preserved_iff_survives {readSucceeds : Bool} {named : Nat → Prop} {now ctx : List Bytes}
    {overrides : Option (Record HexData)} {entries slotMapping : Record Nat}
    (hnamed : ∀ i ∈ overriddenIndices overrides slotMapping, named i)
    (hkeys : (slotMapping.map Prod.fst).Nodup) (hentries : entries ⊆ slotMapping)
    (hnew : ∀ e ∈ slotMapping, (if readSucceeds then now else []).length ≤ e.2 → e ∈ entries)
    (h : buildExpandedContext (if readSucceeds then now else []) (newSlots overrides entries) overrides
      slotMapping = ctx.map some) :
    Preserved named now ctx ↔ ReadSurvives readSucceeds named now overrides slotMapping := by
  by_cases hempty : now = []
  · subst hempty
    refine ⟨fun _ => Or.inl rfl, fun _ => ⟨Nat.zero_le _, fun i hi => ?_⟩⟩
    exact absurd hi (Nat.not_lt_zero i)
  have hpos : 0 < now.length := List.length_pos_iff.2 hempty
  by_cases hflag : SendsInherited overrides slotMapping
  · have hctx : ctx = [] := written_inherited hflag h
    constructor
    · intro hpreserved
      have hle := hpreserved.length
      rw [hctx, List.length_nil] at hle
      omega
    · rintro (hnil | ⟨hnot, -⟩)
      · exact absurd hnil hempty
      · exact absurd hflag hnot
  have hkept := @written_kept_iff overrides slotMapping _ ctx entries named now hnamed hkeys hentries
    hnew hflag h
  -- the last slot decides over the length
  have hlength : now.length ≤ ctx.length ↔
      Covered (if readSucceeds then now else []) slotMapping (now.length - 1) := by
    rw [← (@written_slot overrides slotMapping (now.length - 1) _ ctx entries hkeys hentries hnew hflag
      h).1]
    omega
  have hsplit : Preserved named now ctx ↔
      Covered (if readSucceeds then now else []) slotMapping (now.length - 1) ∧
        HoldsRead named (if readSucceeds then now else []) slotMapping now := by
    rw [← hlength, ← hkept]
    exact ⟨fun hp => ⟨hp.length, hp.kept⟩, fun hp => ⟨hp.1, hp.2⟩⟩
  rw [hsplit]
  rw [ReadSurvives]
  simp only [hempty, false_or, hflag, not_false_eq_true, true_and]
  -- after a read that succeeded the slots hold what was read;
  -- after one that failed nothing was read, so there must be nothing in them
  cases readSucceeds with
  | true =>
    simp only [if_true, true_or, iff_true]
    refine ⟨Or.inl (by omega), fun i hi _ => ⟨Or.inl hi, ?_⟩⟩
    rw [List.getElem?_eq_getElem hi, Option.getD_some]
  | false =>
    simp only [Bool.false_eq_true, if_false, false_or]
    constructor
    · rintro ⟨hcovered, hread⟩
      refine ⟨?_, fun i hi hnot => (hread i hi hnot).2⟩
      obtain ⟨e, he, hle⟩ := hcovered.resolve_left (Nat.not_lt_zero _)
      exact ⟨e, he, by omega⟩
    · rintro ⟨⟨e, he, hle⟩, hvalues⟩
      refine ⟨Or.inr ⟨e, he, by omega⟩, fun i hi hnot => ⟨Or.inr ⟨e, he, by omega⟩, ?_⟩⟩
      exact hvalues i hi hnot

/-- **When a failed read loses nothing of the context.** The answer was built on a read of the context
of `v`, which succeeded or not, and its context transaction is executed on that context. -/
theorem failed_read_keeps_iff (svc : Services) (slots : ContextSlots) (automationId : String)
    (onChainId : Nat) (graph : EditorGraph) (overrides : Option (Record HexData)) (v : State)
    (readSucceeds : Bool) (env : Env) :
    let slotMapping := (slotMappingOf svc slots automationId graph).2
    let named := NamedBy (slotMappingOf svc slots automationId graph).1 overrides
    let onChainCtx := if readSucceeds then some v.ctx else none
    let read := onChainCtx.getD []
    (AfterContextTx (encode svc slots onChainCtx automationId graph overrides).2 v env
        (Preserved named v.ctx) ↔
      (Answers svc graph overrides slotMapping read slotMapping (CreateWrites overrides slotMapping) →
        CreateWrites overrides slotMapping →
          ReadSurvives readSucceeds named v.ctx overrides slotMapping)) ∧
    (AfterContextTx (encodeUpdate svc slots onChainCtx automationId onChainId graph overrides).2 v env
        (Preserved named v.ctx) ↔
      (Answers svc graph overrides slotMapping read (newEntries read slotMapping)
          (UpdateWrites read overrides slotMapping) →
        UpdateWrites read overrides slotMapping →
          ReadSurvives readSucceeds named v.ctx overrides slotMapping)) := by
  intro slotMapping named onChainCtx read
  have hread : read = if readSucceeds then v.ctx else [] := by
    cases readSucceeds with
    | true => rfl
    | false => rfl
  have hkeys := (slotMappingOf_recorded svc slots automationId graph).2
  have hnamed : ∀ i ∈ overriddenIndices overrides slotMapping, named i := namedBy_of_overridden
  constructor
  -- a creation sends all entries, an update those that the read does not have
  · refine (encode_contextPart svc slots onChainCtx automationId graph overrides).afterContextTx v env
      _ fun ctx hctx => ?_
    change buildExpandedContext read _ _ _ = _ at hctx
    rw [hread] at hctx
    exact preserved_iff_survives hnamed hkeys (List.Subset.refl _) (fun e he _ => he) hctx
  · refine (encodeUpdate_contextPart svc slots onChainCtx automationId onChainId graph
      overrides).afterContextTx v env _ fun ctx hctx => ?_
    change buildExpandedContext read (newSlots overrides (newEntries read slotMapping)) _ _ = _ at hctx
    rw [hread] at hctx
    exact preserved_iff_survives hnamed hkeys (newEntries_subset _ _) mem_newEntries hctx

/-! ## An interval is deployed to a vault with one slot -/

/-- An interval with the variable `b`. -/
def intervalGraph : EditorGraph where
  nodes := [⟨"node-1", .condition, "Interval Condition",
    [("interval", .str "86400"), ("timeSlot", .str "b")]⟩]
  edges := []

/-- The variable `a` of another automation has slot 0. -/
def oneSlot : ContextSlots := [(0, ⟨"a", "uint256", "", "a1"⟩)]

/-- A vault whose slot 0 holds a byte. -/
def oneSlotVault : State :=
  { initialized ⟨1⟩ Address.zero Address.zero with ctx := [[5]] }

/-- Nothing is called. -/
def quietEnv : Env where
  timestamp := 0
  timestamp_lt := by decide
  gasUsed := 0
  staticcall := fun _ _ _ _ _ => .failure []
  delegatecall := fun _ _ _ _ _ => .failure []
  deductGasComp := fun _ _ _ _ => none

/-- The context transaction of an answer. -/
def contextTx (result : Except Thrown EncodeResult) : Option Op :=
  match result with
  | .ok r => r.contextCalldata
  | .error _ => none

/-- A context transaction that clears slot 0, or writes an older value to it, does not keep the slot. -/
theorem not_kept_of_contextTx {result : Except Thrown EncodeResult} {ctx : List Bytes} {v : State}
    {named : Nat → Prop} {good : List Bytes → Prop}
    (hcall : contextTx result = some (.setContext ctx)) (hgood : ∀ after, good after →
      Kept named v.ctx after) (hnot : ¬ named 0) (hlen : 0 < v.ctx.length) (hne : ctx[0]? ≠ v.ctx[0]?)
    (env : Env) : ¬ AfterContextTx result v env good := by
  intro hafter
  cases result with
  | error e => cases hcall
  | ok r =>
    have hctx := hafter r _ rfl hcall
    rw [step_setContext_ctx rfl rfl] at hctx
    exact hne (hgood ctx hctx 0 hlen hnot)

theorem not_namedBy_none (slots : ContextSlots) (i : Nat) : ¬ NamedBy slots none i := by
  rintro ⟨name, hname, -⟩
  cases hname

/-- A deployment after a failed read clears the slot of the other automation. -/
theorem failed_read_erases : ¬ AfterContextTx
    (encode seedServices oneSlot none "a2" intervalGraph none).2 oneSlotVault quietEnv
    (Preserved (NamedBy (slotMappingOf seedServices oneSlot "a2" intervalGraph).1 none)
      oneSlotVault.ctx) := by
  have hcall : contextTx (encode seedServices oneSlot none "a2" intervalGraph none).2 =
      some (.setContext [[], []]) := by decide
  exact not_kept_of_contextTx hcall (fun _ hp => hp.kept) (not_namedBy_none _ 0) (by decide)
    (by decide) quietEnv

/-- A deployment whose context was read before another context transaction undoes that one. -/
theorem deploy_undoes_update :
    let w := run step oneSlotVault [⟨⟨1⟩, quietEnv, .setContext [[7]]⟩]
    ¬ AfterContextTx (encode seedServices oneSlot (some oneSlotVault.ctx) "a2" intervalGraph none).2 w
      quietEnv (Kept (NamedBy (slotMappingOf seedServices oneSlot "a2" intervalGraph).1 none)
        w.ctx) := by
  intro w
  have hw : w.ctx = [[7]] :=
    @step_setContext_ctx oneSlotVault ⟨⟨1⟩, quietEnv, .setContext [[7]]⟩ [[7]] rfl rfl
  have hcall : contextTx (encode seedServices oneSlot (some oneSlotVault.ctx) "a2" intervalGraph
      none).2 = some (.setContext [[5], []]) := by decide
  refine not_kept_of_contextTx hcall (fun _ hp => hp) (not_namedBy_none _ 0) ?_ ?_ quietEnv
  · rw [hw]
    decide
  · rw [hw]
    decide

end StrategyBuilder.Backend
