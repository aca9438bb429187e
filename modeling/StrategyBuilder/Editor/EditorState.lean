import Mathlib.Data.Rat.Defs
import StrategyBuilder.Lib.History
import StrategyBuilder.Editor.Store

/-!
# The store of the editor page

`editor-store.ts` with its history, its clipboard and what the auto-save reads. Each operation of the
store is a function on `EditorState`; `EditorOp.apply` puts them together. What React Flow and the layout
library do with nodes and edges is a parameter (`FlowLibrary`).

The record keeps of a node what is saved and encoded, its position, and whether it is selected.
-/

set_option autoImplicit false

namespace StrategyBuilder.Editor

open StrategyBuilder.Automation
open StrategyBuilder.Lib
open StrategyBuilder.Lib.Js
open StrategyBuilder.Shared

/-! ## Nodes and edges on the canvas -/

/-- A place on the canvas. -/
structure Position where
  x : Rat
  y : Rat
deriving DecidableEq

/-- A node on the canvas. -/
structure FlowNode where
  node : EditorNode
  position : Position
  selected : Bool

/-- An edge on the canvas. -/
structure FlowEdge where
  id : String
  edge : EditorEdge
  selected : Bool
deriving DecidableEq

/-- What undo and redo restore. -/
structure Snapshot where
  nodes : List FlowNode
  edges : List FlowEdge

namespace Snapshot

/-- The empty canvas. -/
def empty : Snapshot := ⟨[], []⟩

/-- The ids of the nodes, in order. -/
def ids (s : Snapshot) : List String := s.nodes.map fun n => n.node.id

/-- What is encoded. -/
def graph (s : Snapshot) : EditorGraph := ⟨s.nodes.map FlowNode.node, s.edges.map FlowEdge.edge⟩

end Snapshot

/-- What React Flow reports of the nodes. -/
inductive NodeChange where
  | add (item : FlowNode) (index : Option Nat)
  | remove (id : String)
  | replace (id : String) (item : FlowNode)
  | select (id : String) (selected : Bool)
  | position (id : String) (position : Option Position) (dragging : Bool)
  | dimensions (id : String)

/-- A change that the canvas reports of an edge. -/
inductive EdgeChange where
  | add (item : FlowEdge)
  | remove (id : String)
  | replace (id : String) (item : FlowEdge)
  | select (id : String) (selected : Bool)

/-- `c.type === 'add' || c.type === 'remove'` -/
def NodeChange.structural : NodeChange → Bool
  | .add _ _ | .remove _ => true
  | _ => false

/-- The change adds or removes an edge. -/
def EdgeChange.structural : EdgeChange → Bool
  | .add _ | .remove _ => true
  | _ => false

/-- `c.type === 'position' && !c.dragging` -/
def NodeChange.dropped : NodeChange → Bool
  | .position _ _ dragging => !dragging
  | _ => false

/-- What the store calls. -/
structure FlowLibrary where
  applyNodeChanges : List NodeChange → List FlowNode → List FlowNode
  applyEdgeChanges : List EdgeChange → List FlowEdge → List FlowEdge
  addEdge : FlowEdge → List FlowEdge → List FlowEdge
  /-- The positions of `autoLayout`. -/
  layout : Snapshot → String → Option Position

/-! ## The store -/

/-- `MAX_HISTORY` -/
def MAX_HISTORY : Nat := 50

/-- How far the saving is. -/
inductive SaveStatus where
  | idle
  | saving
  | saved
  | error
deriving DecidableEq

/-- A variable of the context, as the editor shows it. -/
structure ContextVariable where
  slotIndex : Nat
  name : String
  type : String
  description : String
  createdByAutomationId : Option String
deriving DecidableEq

/-- The store of a page, and the page's `nodeCounter`. -/
structure EditorState where
  nodeCounter : Nat
  /-- `past`, `future`, and in the middle `nodes` and `edges`. -/
  history : History Snapshot
  label : String
  description : String
  isDirty : Bool
  saveStatus : SaveStatus
  clipboard : Option Snapshot
  contextVariables : List ContextVariable
  vaultAddress : String

namespace EditorState

/-- The store after a page load. -/
def initial : EditorState where
  nodeCounter := 0
  history := .start .empty
  label := ""
  description := ""
  isDirty := false
  saveStatus := .idle
  clipboard := none
  contextVariables := []
  vaultAddress := ""

variable (s : EditorState)

/-- The nodes on the canvas. -/
def nodes : List FlowNode := s.history.present.nodes

/-- The edges on the canvas. -/
def edges : List FlowEdge := s.history.present.edges

/-- The ids of the nodes on the canvas. -/
def ids : List String := s.history.present.ids

/-- `pushSnapshot`: the canvas goes to the past, and what could be redone is dropped. -/
def pushSnapshot : EditorState := { s with history := s.history.snapshot MAX_HISTORY }

/-- `set({ nodes, edges })` -/
def setGraph (nodes : List FlowNode) (edges : List FlowEdge) : EditorState :=
  { s with history := s.history.set ⟨nodes, edges⟩ }

/-- There is something to save. -/
def markDirty : EditorState := { s with isDirty := true }

/-- `onNodesChange`: a snapshot is taken after a drag has been applied. -/
def onNodesChange (lib : FlowLibrary) (changes : List NodeChange) : EditorState :=
  let s := s.setGraph (lib.applyNodeChanges changes s.nodes) s.edges
  let s := if changes.any NodeChange.structural then s.markDirty else s
  if changes.any NodeChange.dropped then s.markDirty.pushSnapshot else s

/-- `onEdgesChange`: no snapshot is taken. -/
def onEdgesChange (lib : FlowLibrary) (changes : List EdgeChange) : EditorState :=
  let s := s.setGraph s.nodes (lib.applyEdgeChanges changes s.edges)
  if changes.any EdgeChange.structural then s.markDirty else s

/-- The name of a handle in an edge's id. -/
def handleName : SourceHandle → String
  | .true => "true"
  | .false => "false"
  | .out => "out"

/-- The edge that `onConnect` asks for. -/
def connectionEdge (connection : EditorEdge) : FlowEdge where
  id := "e-" ++ connection.source ++ "-" ++ handleName connection.sourceHandle ++ "-" ++
    connection.target
  edge := connection
  selected := false

/-- `onConnect`: a snapshot, then the edge. -/
def onConnect (lib : FlowLibrary) (connection : EditorEdge) : EditorState :=
  let s := s.pushSnapshot
  (s.setGraph s.nodes (lib.addEdge (connectionEdge connection) s.edges)).markDirty

/-- `now` is the time in seconds. -/
def addNode (stepType : StepTypeOption) (position : Position) (now : Int) : EditorState :=
  let s := { s.pushSnapshot with nodeCounter := s.nodeCounter + 1 }
  let newNode := newNode s.nodeCounter stepType s.vaultAddress now
  (s.setGraph (s.nodes ++ [⟨newNode, position, false⟩]) s.edges).markDirty

/-- `removeSelected`: the selected nodes and edges go, and the edges of these nodes. -/
def removeSelected : EditorState :=
  let selectedNodeIds := (s.nodes.filter FlowNode.selected).map fun n => n.node.id
  let selectedEdgeIds := (s.edges.filter FlowEdge.selected).map FlowEdge.id
  if selectedNodeIds = [] ∧ selectedEdgeIds = [] then s
  else
    (s.pushSnapshot.setGraph (s.nodes.filter fun n => n.node.id ∉ selectedNodeIds)
      (s.edges.filter fun e => e.id ∉ selectedEdgeIds ∧ e.edge.source ∉ selectedNodeIds ∧
        e.edge.target ∉ selectedNodeIds)).markDirty

/-- `updateNodeParams`: the given values replace those of the node. -/
def updateNodeParams (nodeId : String) (params : Record JsValue) : EditorState :=
  let s := s.pushSnapshot
  (s.setGraph
    (s.nodes.map fun n =>
      if n.node.id = nodeId then
        { n with node := { n.node with params := Draft.spread n.node.params params } }
      else n) s.edges).markDirty

/-- `setLabel` -/
def setLabel (label : String) : EditorState := { s with label := label }.markDirty

/-- `setDescription` -/
def setDescription (description : String) : EditorState :=
  { s with description := description }.markDirty

/-- `setSaveStatus`: after a save there is nothing to save. -/
def setSaveStatus (status : SaveStatus) : EditorState :=
  { s with saveStatus := status, isDirty := s.isDirty && status ≠ .saved }

/-- `loadEditorState`: the history starts with what is loaded. -/
def loadEditorState (state : Snapshot) (label description : Option String) : EditorState :=
  { s with
    history := .start state
    label := label.getD ""
    description := description.getD ""
    isDirty := false
    saveStatus := .idle }

/-- `undo` -/
def undo : EditorState :=
  match s.history.undo with
  | none => s
  | some history => { s with history := history }.markDirty

/-- `redo` -/
def redo : EditorState :=
  match s.history.redo with
  | none => s
  | some history => { s with history := history }.markDirty

/-- `copySelected`: the selected nodes, with the edges between them. -/
def copySelected : EditorState :=
  let selected := s.nodes.filter FlowNode.selected
  if selected = [] then s
  else
    let selectedIds := selected.map fun n => n.node.id
    { s with clipboard := some ⟨selected, s.edges.filter fun e =>
        e.edge.source ∈ selectedIds ∧ e.edge.target ∈ selectedIds⟩ }

/-- The end of the ids that a paste gives; `now` is the time in milliseconds. -/
def copySuffix (now : Int) : String := "-copy-" ++ toString now

/-- The node, no longer selected. -/
def deselect (n : FlowNode) : FlowNode := { n with selected := false }

/-- A copy, a little to the lower right. -/
def copyNode (suffix : String) (n : FlowNode) : FlowNode where
  node := { n.node with id := n.node.id ++ suffix }
  position := ⟨n.position.x + 50, n.position.y + 50⟩
  selected := true

/-- The copy of an edge joins the copies of its nodes. -/
def copyEdge (suffix : String) (idMap : Map String String) (e : FlowEdge) : FlowEdge :=
  { e with
    id := e.id ++ suffix
    edge := { e.edge with
      source := (idMap e.edge.source).getD e.edge.source
      target := (idMap e.edge.target).getD e.edge.target } }

/-- `paste`: copies of the clipboard, which are selected in place of the rest. -/
def paste (now : Int) : EditorState :=
  match s.clipboard with
  | none => s
  | some clipboard =>
      if clipboard.nodes = [] then s
      else
        let s := s.pushSnapshot
        let suffix := copySuffix now
        let idMap := Map.ofEntries (clipboard.nodes.map fun n => (n.node.id, n.node.id ++ suffix))
        (s.setGraph (s.nodes.map deselect ++ clipboard.nodes.map (copyNode suffix))
          (s.edges ++ clipboard.edges.map (copyEdge suffix idMap))).markDirty

/-- `applyAutoLayout`: the positions of the library, where it has one. -/
def applyAutoLayout (lib : FlowLibrary) : EditorState :=
  let s := s.pushSnapshot
  (s.setGraph
    (s.nodes.map fun n =>
      { n with position := (lib.layout s.history.present n.node.id).getD n.position })
    s.edges).markDirty

/-- A new variable gets the slot after the highest one. -/
def addContextVariable (added : ContextVariable) : EditorState :=
  let nextIndex := if s.contextVariables = [] then 0
    else (s.contextVariables.map ContextVariable.slotIndex).foldl max 0 + 1
  let slots := s.contextVariables ++ [{ added with slotIndex := nextIndex }]
  { s with contextVariables := slots }.markDirty

/-- `updates` is what the fields of an update do to a variable. -/
def updateContextVariable (slotIndex : Nat) (updates : ContextVariable → ContextVariable) :
    EditorState :=
  let slots := s.contextVariables.map fun v => if v.slotIndex = slotIndex then updates v else v
  { s with contextVariables := slots }.markDirty

end EditorState

/-- What the page does with the store, apart from loading a graph. -/
inductive EditorOp where
  | onNodesChange (changes : List NodeChange)
  | onEdgesChange (changes : List EdgeChange)
  | onConnect (connection : EditorEdge)
  | addNode (stepType : StepTypeOption) (position : Position) (now : Int)
  | removeSelected
  | updateNodeParams (nodeId : String) (params : Record JsValue)
  | setLabel (label : String)
  | setDescription (description : String)
  | markDirty
  | pushSnapshot
  | undo
  | redo
  | copySelected
  | paste (now : Int)
  | applyAutoLayout
  | addContextVariable (added : ContextVariable)
  | updateContextVariable (slotIndex : Nat) (updates : ContextVariable → ContextVariable)
  | setContextVariables (slots : List ContextVariable)
  | setVaultAddress (address : String)

/-- What an operation does to the store. -/
def EditorOp.apply (lib : FlowLibrary) (s : EditorState) : EditorOp → EditorState
  | .onNodesChange changes => s.onNodesChange lib changes
  | .onEdgesChange changes => s.onEdgesChange lib changes
  | .onConnect connection => s.onConnect lib connection
  | .addNode stepType position now => s.addNode stepType position now
  | .removeSelected => s.removeSelected
  | .updateNodeParams nodeId params => s.updateNodeParams nodeId params
  | .setLabel label => s.setLabel label
  | .setDescription description => s.setDescription description
  | .markDirty => s.markDirty
  | .pushSnapshot => s.pushSnapshot
  | .undo => s.undo
  | .redo => s.redo
  | .copySelected => s.copySelected
  | .paste now => s.paste now
  | .applyAutoLayout => s.applyAutoLayout lib
  | .addContextVariable added => s.addContextVariable added
  | .updateContextVariable slotIndex updates => s.updateContextVariable slotIndex updates
  | .setContextVariables slots => { s with contextVariables := slots }
  | .setVaultAddress address => { s with vaultAddress := address }

end StrategyBuilder.Editor
