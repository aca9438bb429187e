import StrategyBuilder.Backend.SeedCatalog
import StrategyBuilder.Backend.SlotAllocation
import StrategyBuilder.Contracts.TriggerSchedule
import StrategyBuilder.Editor.DeployDialog

/-!
# Which triggers share a slot

The automations of one vault, over every order of page loads, edits and deployments. The editor names
the time slot of a node after the node's id, and the id after a counter of the page; the backend keeps
one slot for each name of the whole vault. So a slot belongs to a number of the counter
(`World.Inv`), and two triggers have slots of their own exactly if their numbers differ
(`trigger_slots_iff`).
-/

set_option autoImplicit false

namespace StrategyBuilder.Automation

open StrategyBuilder.Backend
open StrategyBuilder.Contracts.Vault
open StrategyBuilder.Editor
open StrategyBuilder.Lib
open StrategyBuilder.Lib.Abi
open StrategyBuilder.Lib.Js
open StrategyBuilder.Lib.Transition
open StrategyBuilder.Shared

/-! ## Time slots of an encoding -/

/-- The parameter is a context variable that the step reads and writes. -/
def isTimeSlot (stepType : Backend.StepType) (c : AbiComponent) : Bool :=
  c.type = .uint32 &&
    match stepType.paramSchema.bind fun schema => schema.properties.own? c.name with
    | some fieldSchema =>
        fieldSchema.widget = some .contextSlot && fieldSchema.slotAccess = some .readWrite
    | none => false

/-- The index that the encoder puts in a time slot field, where the field holds the name that
`addNode` gave it. -/
def timeSlotIndex (slotMapping : Record Nat) (stepType : Backend.StepType) (nodeId : String)
    (params : Record JsValue) (c : AbiComponent) : Option Nat :=
  match isTimeSlot stepType c, param params c.name with
  | true, .str name =>
      if name = timeSlotName nodeId then
        match encodeParam params slotMapping stepType.paramSchema c with
        | .ok (.num x) => x.integer?.map Int.toNat
        | _ => none
      else none
  | _, _ => none

/-- A component holds a time if its field reads and writes a slot. -/
theorem isTimeSlot_iff {stepType : Backend.StepType} {c : AbiComponent} :
    isTimeSlot stepType c = true ↔ c.type = .uint32 ∧
      ∃ schema fieldSchema, stepType.paramSchema = some schema ∧
        schema.properties.own? c.name = some fieldSchema ∧ fieldSchema.widget = some .contextSlot ∧
        fieldSchema.slotAccess = some .readWrite := by
  unfold isTimeSlot
  cases hschema : stepType.paramSchema with
  | none => simp
  | some schema =>
    cases hfield : schema.properties.own? c.name with
    | none => simp [hfield]
    | some fieldSchema => simp [hfield]

theorem isVariableName_timeSlotName (nodeId : String) :
    isVariableName (timeSlotName nodeId) = true := by
  have hne : timeSlotName nodeId ≠ "" := by
    intro h
    have hlist := congrArg String.toList h
    rw [toList_timeSlotName] at hlist
    cases hlist
  simp [isVariableName, hne, toList_timeSlotName, stringToNumber_timeSlotName, JsNumber.isNaN]

/-- An encoding maps the name in a time slot field. -/
theorem timeSlot_mapped {svc : Services} {slots : ContextSlots} (hslots : slots.Consistent)
    (automationId : String) {raw : EditorGraph} {n : EditorNode} {stepType : Backend.StepType}
    {c : AbiComponent} {nodeId : String} (hn : n ∈ raw.nodes)
    (hstep : svc.stepTypeMap n.stepTypeId = some stepType) (hc : isTimeSlot stepType c = true)
    (hparam : param n.params c.name = .str (timeSlotName nodeId)) :
    ∃ idx, (slotMappingOf svc slots automationId raw).2.own? (timeSlotName nodeId) = some idx := by
  obtain ⟨-, schema, fieldSchema, hschema, hfield, hwidget, -⟩ := isTimeSlot_iff.1 hc
  have hmem : timeSlotName nodeId ∈ extractSlotNames svc raw :=
    mem_extractSlotNames hn hstep hschema hfield hwidget hparam (isVariableName_timeSlotName nodeId)
  refine (slotMappingOf_spec hslots automationId raw).mapped _ hmem ?_
  intro hproto
  exact timeSlotName_notMem nodeId (hproto ▸ by decide)

/-- A trigger node that was encoded with a time slot of its own making. -/
structure SlotUse where
  automationId : String
  session : Nat
  number : Nat
  index : Nat
deriving DecidableEq, Repr

/-- The time slots of one node. -/
def nodeUses (svc : Services) (slotMapping : Record Nat) (automationId : String) (n : DraftNode)
    (raw : EditorNode) : List SlotUse :=
  match svc.stepTypeMap raw.stepTypeId with
  | none => []
  | some stepType =>
      (stepType.abiFragment.filterMap
        (timeSlotIndex slotMapping stepType n.node.id raw.params)).map fun index =>
          ⟨automationId, n.session, n.number, index⟩

/-- What is recorded of a node stands in the slots. -/
theorem nodeUses_named {svc : Services} {slots : ContextSlots} (hslots : slots.Consistent)
    {automationId : String} {raw : EditorGraph} {n : DraftNode} {r : EditorNode} (hr : r ∈ raw.nodes)
    {u : SlotUse}
    (hu : u ∈ nodeUses svc (slotMappingOf svc slots automationId raw).2 automationId n r) :
    u.number = n.number ∧
      (slotMappingOf svc slots automationId raw).1.Named (timeSlotName n.node.id) u.index := by
  unfold nodeUses at hu
  cases hstep : svc.stepTypeMap r.stepTypeId with
  | none =>
    rw [hstep] at hu
    cases hu
  | some stepType =>
    rw [hstep] at hu
    obtain ⟨index, hindex, rfl⟩ := List.mem_map.1 hu
    obtain ⟨c, -, hc⟩ := List.mem_filterMap.1 hindex
    refine ⟨rfl, ?_⟩
    unfold timeSlotIndex at hc
    split at hc
    · rename_i name hslot hparam
      split at hc
      · rename_i hname
        subst hname
        -- the parameter names the slot of its own node, and the mapping has it
        obtain ⟨idx, hidx⟩ := timeSlot_mapped hslots automationId hr hstep hslot hparam
        have henc : encodeParam r.params (slotMappingOf svc slots automationId raw).2
            stepType.paramSchema c = .ok (.num (.ofInt idx)) :=
          encodeParam_variable (isTimeSlot_iff.1 hslot).1 hparam hidx
        simp only [henc, JsNumber.integer?_ofInt, Option.map_some, Int.toNat_natCast,
          Option.some.injEq] at hc
        subst hc
        exact (slotMappingOf_spec hslots automationId raw).named _ _ hidx
      · cases hc
    · cases hc

/-! ## The automations of a vault -/

/-- Drafts and `contextSlots` are in the database, `nodeCounter` is that of each page load. -/
structure World where
  nodeCounter : Nat → Nat
  drafts : String → Draft
  contextSlots : ContextSlots
  /-- The time slots that were encoded so far. -/
  uses : List SlotUse

/-- What the owner, the chain and the backend do. -/
inductive Event where
  | addNode (session : Nat) (automationId : String) (stepType : StepTypeOption)
      (vaultAddress : String) (now : Int)
  | onConnect (automationId : String) (edge : EditorEdge)
  | removeSelected (automationId : String) (nodeIds : List String) (edges : List EditorEdge)
  | updateNodeParams (automationId nodeId : String) (changes : Record JsValue)
  | handleDeploy (automationId : String) (onChainId : Option Nat) (onChainCtx : Option (List Bytes))
      (tokenDecimals : Option (Record Nat))

namespace World

/-- The store of one automation's editor changes. -/
def edit (w : World) (automationId : String) (f : Draft → Draft) : World :=
  { w with drafts := Function.update w.drafts automationId (f (w.drafts automationId)) }

/-- The time slots of the draft of an automation, as they are encoded now. -/
def draftUses (svc : Services) (w : World) (automationId : String) (raw : EditorGraph) :
    List SlotUse :=
  let slotMapping := (slotMappingOf svc w.contextSlots automationId raw).2
  ((w.drafts automationId).nodes.zip raw.nodes).flatMap fun (n, raw) =>
    nodeUses svc slotMapping automationId n raw

/-- Slots are allocated even where the encoding fails later on. -/
def deploy (svc : Services) (w : World) (automationId : String) (onChainId : Option Nat)
    (onChainCtx : Option (List Bytes)) (tokenDecimals : Option (Record Nat)) : World :=
  let graph := (w.drafts automationId).graph
  let (slots, result) :=
    Editor.handleDeploy svc w.contextSlots onChainCtx automationId onChainId graph tokenDecimals
  match result, deployRequest svc graph tokenDecimals with
  | .ok _, .ok (raw, _) =>
      { w with contextSlots := slots, uses := w.uses ++ w.draftUses svc automationId raw }
  | _, _ => { w with contextSlots := slots }

/-- One event. An edit draws its number from the counter of its page load; a deployment encodes the
draft and runs what was encoded. -/
def step (svc : Services) (w : World) : Event → World
  | .addNode session automationId stepType vaultAddress now =>
      { w.edit automationId
          (Draft.addNode session (w.nodeCounter session) stepType vaultAddress now) with
        nodeCounter := Function.update w.nodeCounter session (w.nodeCounter session + 1) }
  | .onConnect automationId edge => w.edit automationId (Draft.onConnect edge)
  | .removeSelected automationId nodeIds edges =>
      w.edit automationId (Draft.removeSelected nodeIds edges)
  | .updateNodeParams automationId nodeId changes =>
      w.edit automationId (Draft.updateNodeParams nodeId changes)
  | .handleDeploy automationId onChainId onChainCtx tokenDecimals =>
      w.deploy svc automationId onChainId onChainCtx tokenDecimals

/-- A vault without automations, before the first page load. -/
def empty : World := ⟨fun _ => 0, fun _ => ⟨[], []⟩, [], []⟩

/-- Nothing has been drawn or deployed. -/
def Initial (w : World) : Prop := w = empty

/-! ## The invariant -/

/-- A time slot stands in the slots under the name of its node's number; no page load gives a number
twice. -/
structure Inv (w : World) : Prop where
  slots : w.contextSlots.Consistent
  numbered : ∀ automationId, (w.drafts automationId).Numbered
  named : ∀ u ∈ w.uses, w.contextSlots.Named (timeSlotName (nodeIdOf u.number)) u.index
  counted : ∀ automationId, ∀ o ∈ (w.drafts automationId).origins, o.2 ≤ w.nodeCounter o.1
  nodup : ∀ automationId, (w.drafts automationId).origins.Nodup
  disjoint : ∀ automationId other, automationId ≠ other →
    ∀ o ∈ (w.drafts automationId).origins, o ∉ (w.drafts other).origins

/-- An edit that draws no number keeps the invariant. -/
theorem Inv.edit {w : World} (hw : w.Inv) (automationId : String) {f : Draft → Draft}
    (hf : ∀ d : Draft, d.Kept (f d)) : (w.edit automationId f).Inv := by
  have hkept (other : String) : (w.drafts other).Kept ((w.edit automationId f).drafts other) := by
    rcases eq_or_ne other automationId with rfl | hne
    · simp only [World.edit, Function.update_self]
      exact hf _
    · simp only [World.edit, Function.update_of_ne hne]
      exact ⟨fun h => h, List.Sublist.refl _⟩
  refine ⟨hw.slots, ?_, hw.named, ?_, ?_, ?_⟩
  · intro other
    exact (hkept other).numbered (hw.numbered other)
  · intro other o ho
    exact hw.counted other o ((hkept other).origins.subset ho)
  · intro other
    exact (hw.nodup other).sublist (hkept other).origins
  · intro a b hne o ha hb
    exact hw.disjoint a b hne o ((hkept a).origins.subset ha) ((hkept b).origins.subset hb)

/-- The new number is above all that the page load has given. -/
theorem Inv.addNode {w : World} (hw : w.Inv) (svc : Services) (session : Nat) (automationId : String)
    (stepType : StepTypeOption) (vaultAddress : String) (now : Int) :
    (w.step svc (.addNode session automationId stepType vaultAddress now)).Inv := by
  -- `counted` bounds the numbers of the page load in every draft
  have hfresh (other : String) : (session, w.nodeCounter session + 1) ∉ (w.drafts other).origins := by
    intro hmem
    have hle : w.nodeCounter session + 1 ≤ w.nodeCounter session := hw.counted other _ hmem
    omega
  have hself : ((w.step svc (.addNode session automationId stepType vaultAddress now)).drafts
      automationId) = (w.drafts automationId).addNode session (w.nodeCounter session) stepType
        vaultAddress now := by
    simp only [World.step, World.edit, Function.update_self]
  have hother {other : String} (hne : other ≠ automationId) :
      (w.step svc (.addNode session automationId stepType vaultAddress now)).drafts other =
        w.drafts other := by
    simp only [World.step, World.edit, Function.update_of_ne hne]
  have hcounter (s : Nat) : w.nodeCounter s ≤
      (w.step svc (.addNode session automationId stepType vaultAddress now)).nodeCounter s := by
    rcases eq_or_ne s session with rfl | hne
    · simp only [World.step, Function.update_self]
      omega
    · simp only [World.step, Function.update_of_ne hne]
      exact Nat.le_refl _
  refine ⟨hw.slots, ?_, hw.named, ?_, ?_, ?_⟩
  · intro other
    rcases eq_or_ne other automationId with rfl | hne
    · rw [hself]
      exact (hw.numbered other).addNode session (w.nodeCounter session) stepType vaultAddress now
    · rw [hother hne]
      exact hw.numbered other
  · intro other o ho
    rcases eq_or_ne other automationId with rfl | hne
    · rw [hself, Draft.origins_addNode] at ho
      rcases List.mem_append.1 ho with ho | ho
      · exact Nat.le_trans (hw.counted other o ho) (hcounter o.1)
      · rw [List.mem_singleton] at ho
        subst ho
        simp only [World.step, Function.update_self]
        exact Nat.le_refl _
    · rw [hother hne] at ho
      exact Nat.le_trans (hw.counted other o ho) (hcounter o.1)
  · intro other
    rcases eq_or_ne other automationId with rfl | hne
    · rw [hself, Draft.origins_addNode, ← List.concat_eq_append]
      exact (hw.nodup other).concat (hfresh other)
    · rw [hother hne]
      exact hw.nodup other
  · intro a b hne o ha hb
    -- two drafts share no origin: the new one is in neither of them
    rcases eq_or_ne a automationId with rfl | haut
    · rw [hother hne.symm] at hb
      rw [hself, Draft.origins_addNode] at ha
      rcases List.mem_append.1 ha with ha | ha
      · exact hw.disjoint a b hne o ha hb
      · rw [List.mem_singleton] at ha
        exact hfresh b (ha ▸ hb)
    · rw [hother haut] at ha
      rcases eq_or_ne b automationId with rfl | hbut
      · rw [hself, Draft.origins_addNode] at hb
        rcases List.mem_append.1 hb with hb | hb
        · exact hw.disjoint a b hne o ha hb
        · rw [List.mem_singleton] at hb
          exact hfresh a (hb ▸ ha)
      · rw [hother hbut] at hb
        exact hw.disjoint a b hne o ha hb

/-- The slot that a draft uses has the name of its node. -/
theorem Inv.draftUses {w : World} (hw : w.Inv) {svc : Services} {automationId : String}
    {raw : EditorGraph} {u : SlotUse} (hu : u ∈ w.draftUses svc automationId raw) :
    (slotMappingOf svc w.contextSlots automationId raw).1.Named (timeSlotName (nodeIdOf u.number))
      u.index := by
  obtain ⟨⟨n, r⟩, hzip, hu⟩ := List.mem_flatMap.1 hu
  obtain ⟨hn, hr⟩ := List.of_mem_zip hzip
  obtain ⟨hnumber, hnamed⟩ := nodeUses_named hw.slots hr hu
  rw [hw.numbered automationId n hn] at hnamed
  rwa [hnumber]

/-- The slots that stand are kept, and those of the deployment are added. -/
theorem Inv.deploy {w : World} (hw : w.Inv) (svc : Services) (automationId : String)
    (onChainId : Option Nat) (onChainCtx : Option (List Bytes))
    (tokenDecimals : Option (Record Nat)) :
    (w.deploy svc automationId onChainId onChainCtx tokenDecimals).Inv := by
  simp only [World.deploy]
  rcases handleDeploy_slots svc w.contextSlots onChainCtx automationId onChainId
      (w.drafts automationId).graph tokenDecimals with ⟨e, he⟩ | ⟨raw, overrides, hreq, hslots⟩
  · rw [he]
    exact hw
  · have hspec : Allocated w.contextSlots (extractSlotNames svc raw) _ _ :=
      slotMappingOf_spec hw.slots automationId raw
    -- an allocation keeps every entry, so earlier uses are named as before
    have hnamed : ∀ u ∈ w.uses, (slotMappingOf svc w.contextSlots automationId raw).1.Named
        (timeSlotName (nodeIdOf u.number)) u.index := by
      intro u hu
      obtain ⟨slotMeta, hmem, hname⟩ := hw.named u hu
      exact ⟨slotMeta, hspec.kept hmem, hname⟩
    generalize Editor.handleDeploy svc w.contextSlots onChainCtx automationId onChainId
      (w.drafts automationId).graph tokenDecimals = answer at hslots
    obtain ⟨slots, result⟩ := answer
    obtain rfl : slots = _ := hslots
    cases result with
    | error e => exact ⟨hspec.consistent, hw.numbered, hnamed, hw.counted, hw.nodup, hw.disjoint⟩
    | ok data =>
      simp only [hreq]
      refine ⟨hspec.consistent, hw.numbered, ?_, hw.counted, hw.nodup, hw.disjoint⟩
      intro u hu
      rcases List.mem_append.1 hu with hu | hu
      · exact hnamed u hu
      · exact hw.draftUses hu

/-- An event keeps the invariant. -/
theorem step_inv (svc : Services) {w : World} (hw : w.Inv) (event : Event) : (w.step svc event).Inv := by
  cases event with
  | addNode session automationId stepType vaultAddress now =>
    exact hw.addNode svc session automationId stepType vaultAddress now
  | onConnect automationId edge =>
    exact hw.edit automationId fun d => Draft.onConnect_kept edge
  | removeSelected automationId nodeIds edges =>
    exact hw.edit automationId fun d => Draft.removeSelected_kept nodeIds edges
  | updateNodeParams automationId nodeId changes =>
    exact hw.edit automationId fun d => Draft.updateNodeParams_kept nodeId changes
  | handleDeploy automationId onChainId onChainCtx tokenDecimals =>
    exact hw.deploy svc automationId onChainId onChainCtx tokenDecimals

/-- The invariant holds in every state that can be reached. -/
theorem reachable_inv {svc : Services} {w : World}
    (hw : Reachable (World.step svc) World.Initial (fun _ _ => True) w) : w.Inv := by
  refine hw.invariant (I := Inv) (fun w hw => ?_) (fun w event hw _ => step_inv svc hw event)
  obtain rfl : w = World.empty := hw
  refine ⟨⟨List.nodup_nil, List.nodup_nil⟩, ?_, ?_, ?_, fun _ => List.nodup_nil, ?_⟩
  · intro automationId n hn
    cases hn
  · intro u hu
    cases hu
  · intro automationId o ho
    cases ho
  · intro a b _ o ho
    cases ho

/-- Page load and number say which node of which automation it is. -/
theorem origin_unique {svc : Services} {w : World}
    (hw : Reachable (World.step svc) World.Initial (fun _ _ => True) w) {a b : String}
    {n m : DraftNode} (hn : n ∈ (w.drafts a).nodes) (hm : m ∈ (w.drafts b).nodes)
    (hsession : n.session = m.session) (hnumber : n.number = m.number) : a = b ∧ n = m := by
  have hinv := reachable_inv hw
  have horigin : (n.session, n.number) = (m.session, m.number) := by rw [hsession, hnumber]
  have hmem : (n.session, n.number) ∈ (w.drafts a).origins := List.mem_map.2 ⟨n, hn, rfl⟩
  have hmem' : (n.session, n.number) ∈ (w.drafts b).origins :=
    horigin ▸ List.mem_map.2 ⟨m, hm, rfl⟩
  have hsame : a = b := by
    by_contra hne
    exact hinv.disjoint a b hne _ hmem hmem'
  subst hsame
  exact ⟨rfl, List.inj_on_of_nodup_map (hinv.nodup a) hn hm horigin⟩

end World

/-! ## Slots of their own -/

/-- The slots differ, and a trigger that is scheduled in the first does not move a schedule in the
second when it fires. -/
def Separate (i j : Nat) : Prop :=
  i ≠ j ∧ ∀ (id : Nat) (v : State) (tx : Tx), TriggerAt id i v tx → fired id v tx = true →
    ¬ WrittenByOther id j v tx → (Contracts.Vault.step v tx).ctx[j]? = v.ctx[j]?

/-- **Trigger slots.** Two encoded triggers have slots of their own exactly if they are not the
nodes of one number: page loads number their nodes alike. -/
theorem trigger_slots_iff {svc : Services} {w : World}
    (hw : Reachable (World.step svc) World.Initial (fun _ _ => True) w) {first second : SlotUse}
    (hfirst : first ∈ w.uses) (hsecond : second ∈ w.uses) :
    Separate first.index second.index ↔ first.number ≠ second.number := by
  have hinv := World.reachable_inv hw
  have hnamed₁ := hinv.named first hfirst
  have hnamed₂ := hinv.named second hsecond
  constructor
  · rintro ⟨hindex, -⟩ hnumber
    rw [hnumber] at hnamed₁
    exact hindex (hinv.slots.index_unique hnamed₁ hnamed₂)
  · intro hnumber
    have hindex : first.index ≠ second.index := by
      intro heq
      rw [heq] at hnamed₁
      have hname := hinv.slots.name_unique hnamed₁ hnamed₂
      exact hnumber (nodeIdOf_injective (timeSlotName_injective hname))
    refine ⟨hindex, ?_⟩
    intro id v tx htrigger _ hwritten
    exact htrigger.other_slot_kept hindex hwritten

/-! ## Two page loads -/

/-- What the palette offers for a step type. -/
def optionOf (category : StepCategory) (stepType : Backend.StepType) : StepTypeOption :=
  ⟨stepType.id, category, stepType.paramSchema⟩

theorem reachable_run (svc : Services) (events : List Event) :
    Reachable (World.step svc) World.Initial (fun _ _ => True)
      (run (World.step svc) World.empty events) := by
  have hstart : Reachable (World.step svc) World.Initial (fun _ _ => True) World.empty :=
    .start rfl
  exact hstart.run (admitted_true _ _ _)

/-- In one page load, a timer and an action are added to a new automation, which is deployed. -/
def buildTimer (session : Nat) (automationId : String) (onChainCtx : List Bytes) : List Event :=
  [.addNode session automationId (optionOf .condition (timerStepType ⟨8⟩)) "" 1000,
    .addNode session automationId (optionOf .action (sampleAction ⟨9⟩)) "" 1000,
    .onConnect automationId ⟨"node-1", "node-2", .true⟩,
    .handleDeploy automationId none (some onChainCtx) none]

/-- Two automations, each built in a page load of its own. -/
def twoTimers : World :=
  run (World.step seedServices) World.empty
    (buildTimer 0 "a" [] ++ buildTimer 1 "b" [encodeWord 1000])

theorem twoTimers_uses : twoTimers.uses = [⟨"a", 0, 1, 0⟩, ⟨"b", 1, 1, 0⟩] := by decide +kernel

/-- One page load in which two timers are added. -/
def oneSession : World :=
  run (World.step seedServices) World.empty
    [.addNode 0 "a" (optionOf .condition (timerStepType ⟨8⟩)) "" 1000,
      .addNode 0 "b" (optionOf .condition (timerStepType ⟨8⟩)) "" 2000,
      .handleDeploy "a" none (some []) none, .handleDeploy "b" none (some [encodeWord 1000]) none]

theorem trigger_slots_iff_sample : Separate 0 1 := by
  have huses : oneSession.uses = [⟨"a", 0, 1, 0⟩, ⟨"b", 0, 2, 1⟩] := by decide +kernel
  have hfirst : (⟨"a", 0, 1, 0⟩ : SlotUse) ∈ oneSession.uses := by
    rw [huses]
    exact List.mem_cons_self
  have hsecond : (⟨"b", 0, 2, 1⟩ : SlotUse) ∈ oneSession.uses := by
    rw [huses]
    exact List.mem_cons_of_mem _ List.mem_cons_self
  exact (trigger_slots_iff (reachable_run seedServices _) hfirst hsecond).2
    (show (1 : Nat) ≠ 2 by decide)

/-- Both timers are the first node of their page load, and the second takes over the slot of the
first. -/
theorem twoTimers_shared :
    ¬ ∀ (svc : Services) (w : World),
      Reachable (World.step svc) World.Initial (fun _ _ => True) w →
      ∀ first ∈ w.uses, ∀ second ∈ w.uses,
        (first.session, first.number) ≠ (second.session, second.number) →
        Separate first.index second.index := by
  intro h
  have hfirst : (⟨"a", 0, 1, 0⟩ : SlotUse) ∈ twoTimers.uses := by
    rw [twoTimers_uses]
    exact List.mem_cons_self
  have hsecond : (⟨"b", 1, 1, 0⟩ : SlotUse) ∈ twoTimers.uses := by
    rw [twoTimers_uses]
    exact List.mem_cons_of_mem _ List.mem_cons_self
  exact (h seedServices twoTimers (reachable_run seedServices _) _ hfirst _ hsecond (by decide)).1 rfl

end StrategyBuilder.Automation
