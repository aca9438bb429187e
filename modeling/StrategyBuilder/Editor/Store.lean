import StrategyBuilder.Automation.Graph
import StrategyBuilder.Shared.Validation

/-!
# The editor store

Of `editor-store.ts`: the operations on the graph of an automation. `nodeCounter` is a variable of the
page, so it starts at 0 with every page load, while the nodes of earlier page loads come from the
database.

A draft remembers of each node which page load added it, and as which of its nodes. The editor stores
neither; no operation reads them.
-/

set_option autoImplicit false

namespace StrategyBuilder.Editor

open StrategyBuilder.Automation
open StrategyBuilder.Lib.Js
open StrategyBuilder.Shared

/-- What the palette offers. -/
structure StepTypeOption where
  id : String
  category : StepCategory
  paramSchema : Option ParamSchema

/-- The name of the time slot of a node. -/
def timeSlotName (nodeId : String) : String := "__time_" ++ nodeId

/-- One round of the loop in `materializeDefaultParams`: every rule that applies to the field writes a
parameter, in this order. `now` is the time in seconds. -/
def materializeField (nodeId vaultAddress : String) (now : Int) (params : Record JsValue)
    (name : String) (fieldSchema : FieldSchema) : Record JsValue :=
  let params := match fieldSchema.default with
    | .undefined => params
    | value => params.insert name value
  let params :=
    if fieldSchema.widget = some .contextSlot ∧ fieldSchema.slotAccess = some .readWrite then
      params.insert name (.str (timeSlotName nodeId))
    else params
  let params := match fieldSchema.widget, fieldSchema.default with
    | some .startTime, .undefined => params.insert name (.num (.ofInt now))
    | _, _ => params
  let params :=
    if fieldSchema.widget = some .accountSelector ∧ vaultAddress ≠ "" then
      params.insert name (.str vaultAddress)
    else params
  match fieldSchema.widget, fieldSchema.zeroToggle with
  | some .tokenAmount, some toggle =>
      params.insert (zeroToggleField name) (.bool (toggle.getD false))
  | _, _ => params

/-- `materializeDefaultParams`: the defaults of all fields, with the context slots of the node. -/
def materializeDefaultParams (paramSchema : Option ParamSchema) (nodeId vaultAddress : String)
    (now : Int) : Record JsValue :=
  ((paramSchema.map ParamSchema.properties).getD []).foldl
    (fun params (name, fieldSchema) =>
      materializeField nodeId vaultAddress now params name fieldSchema) []

/-- The id that `addNode` gives to the node after `nodeCounter` others of the page load. -/
def nodeIdOf (nodeCounter : Nat) : String := "node-" ++ toString nodeCounter

/-- The node that `addNode` appends, where `nodeCounter` is already increased. -/
def newNode (nodeCounter : Nat) (stepType : StepTypeOption) (vaultAddress : String) (now : Int) :
    EditorNode :=
  let id := nodeIdOf nodeCounter
  { id := id
    type := stepType.category
    stepTypeId := stepType.id
    params := materializeDefaultParams stepType.paramSchema id vaultAddress now }

/-- A node with where it comes from. -/
structure DraftNode where
  node : EditorNode
  /-- The page load that added the node. -/
  session : Nat
  /-- The number of nodes that the page load has added, with this one. -/
  number : Nat

/-- The store of an automation. -/
structure Draft where
  nodes : List DraftNode
  edges : List EditorEdge

namespace Draft

/-- The page load and the number of each node. -/
def origins (d : Draft) : List (Nat × Nat) := d.nodes.map fun n => (n.session, n.number)

/-- What is saved and encoded. -/
def graph (d : Draft) : EditorGraph := ⟨d.nodes.map DraftNode.node, d.edges⟩

/-- `addNode`: the counter of the page load numbers the node. -/
def addNode (session nodeCounter : Nat) (stepType : StepTypeOption) (vaultAddress : String) (now : Int)
    (d : Draft) : Draft :=
  { d with nodes := d.nodes ++
      [⟨newNode (nodeCounter + 1) stepType vaultAddress now, session, nodeCounter + 1⟩] }

/-- An edge that is there already is not added again. -/
def onConnect (edge : EditorEdge) (d : Draft) : Draft :=
  { d with edges := if edge ∈ d.edges then d.edges else d.edges ++ [edge] }

/-- Remove the selected nodes with their edges, and the selected edges. -/
def removeSelected (nodeIds : List String) (edges : List EditorEdge) (d : Draft) : Draft where
  nodes := d.nodes.filter fun n => n.node.id ∉ nodeIds
  edges := d.edges.filter fun e => e ∉ edges ∧ e.source ∉ nodeIds ∧ e.target ∉ nodeIds

/-- `{ ...params, ...changes }` -/
def spread (params changes : Record JsValue) : Record JsValue :=
  changes.foldl (fun params (name, value) => params.insert name value) params

/-- `updateNodeParams`: the given values replace those of the node. -/
def updateNodeParams (nodeId : String) (changes : Record JsValue) (d : Draft) : Draft :=
  { d with nodes := d.nodes.map fun n =>
      if n.node.id = nodeId then
        { n with node := { n.node with params := spread n.node.params changes } }
      else n }

end Draft

/-! ## Names -/

/-- Different numbers give different ids. -/
theorem nodeIdOf_injective {m n : Nat} (h : nodeIdOf m = nodeIdOf n) : m = n := by
  have hlist := congrArg String.toList h
  simp only [nodeIdOf, String.toList_append, List.append_cancel_left_eq] at hlist
  have hdigits : Nat.toDigits 10 m = Nat.toDigits 10 n := by simpa using hlist
  have hvalue := congrArg (Nat.ofDigitChars 10 · 0) hdigits
  simpa using hvalue

theorem timeSlotName_injective {a b : String} (h : timeSlotName a = timeSlotName b) : a = b := by
  have hlist := congrArg String.toList h
  simp only [timeSlotName, String.toList_append, List.append_cancel_left_eq] at hlist
  exact String.toList_inj.1 hlist

theorem toList_timeSlotName (nodeId : String) :
    (timeSlotName nodeId).toList = '_' :: '_' :: 't' :: 'i' :: 'm' :: 'e' :: '_' :: nodeId.toList := by
  simp [timeSlotName, String.toList_append]

/-- No time slot is named like a property that every object has. -/
theorem timeSlotName_notMem (nodeId : String) : timeSlotName nodeId ∉ prototypeNames := by
  intro hmem
  have hlist := List.mem_map_of_mem (f := fun s => s.toList.take 4) hmem
  have htake : (timeSlotName nodeId).toList.take 4 = ['_', '_', 't', 'i'] := by
    rw [toList_timeSlotName]
    rfl
  rw [htake] at hlist
  exact absurd hlist (by decide)

theorem stringToNumber_timeSlotName (nodeId : String) :
    stringToNumber (timeSlotName nodeId) = .nan := by
  have hlist : timeSlotName nodeId = String.ofList (timeSlotName nodeId).toList :=
    String.ofList_toList.symm
  rw [hlist, toList_timeSlotName, stringToNumber_underscore]

/-! ## What the operations keep -/

/-- Every node is named after its number. -/
def Draft.Numbered (d : Draft) : Prop := ∀ n ∈ d.nodes, n.node.id = nodeIdOf n.number

/-- No node comes in, and no node changes its name or its origin. -/
structure Draft.Kept (d d' : Draft) : Prop where
  numbered : d.Numbered → d'.Numbered
  origins : d'.origins.Sublist d.origins

namespace Draft

variable {d : Draft}

/-- A node gets the id of its number. -/
theorem Numbered.addNode (h : d.Numbered) (session nodeCounter : Nat) (stepType : StepTypeOption)
    (vaultAddress : String) (now : Int) :
    (d.addNode session nodeCounter stepType vaultAddress now).Numbered := by
  intro n hn
  rcases List.mem_append.1 hn with hn | hn
  · exact h n hn
  · rw [List.mem_singleton] at hn
    subst hn
    rfl

/-- The new node is the last one. -/
theorem origins_addNode (session nodeCounter : Nat) (stepType : StepTypeOption)
    (vaultAddress : String) (now : Int) :
    (d.addNode session nodeCounter stepType vaultAddress now).origins =
      d.origins ++ [(session, nodeCounter + 1)] := by
  rw [origins, addNode, List.map_append]
  rfl

theorem onConnect_kept (edge : EditorEdge) : d.Kept (d.onConnect edge) :=
  ⟨fun h => h, List.Sublist.refl _⟩

theorem removeSelected_kept (nodeIds : List String) (edges : List EditorEdge) :
    d.Kept (d.removeSelected nodeIds edges) := by
  refine ⟨?_, List.filter_sublist.map _⟩
  intro h n hn
  exact h n (List.mem_filter.1 hn).1

/-- An edit of values keeps the nodes' origins. -/
theorem updateNodeParams_kept (nodeId : String) (changes : Record JsValue) :
    d.Kept (d.updateNodeParams nodeId changes) := by
  constructor
  · intro h n hn
    obtain ⟨n', hn', rfl⟩ := List.mem_map.1 hn
    have hid := h n' hn'
    split
    · exact hid
    · exact hid
  · have hsame : (d.updateNodeParams nodeId changes).origins = d.origins := by
      rw [origins, updateNodeParams, List.map_map]
      apply List.map_congr_left
      intro n _
      simp only [Function.comp_apply]
      split
      · rfl
      · rfl
    rw [hsame]

end Draft

end StrategyBuilder.Editor
