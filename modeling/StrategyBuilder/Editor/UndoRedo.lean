import StrategyBuilder.Lib.Transition
import StrategyBuilder.Editor.EditorState

/-!
# Undo and redo in the editor

An edit is one operation of the store, or for a drag the reports of React Flow until the node is
dropped. Most edits keep a snapshot of what is there before they change it. A drag keeps what is there
after the drop, and a removal that React Flow reports keeps nothing.

`edits_undone`: after edits that keep what was there before, at most `MAX_HISTORY` of them, one undo
takes back one edit, and as many redos bring them all again. A node that has been dragged elsewhere
stays there (`drag_undone_iff`, `edits_not_undone`).
-/

set_option autoImplicit false

namespace StrategyBuilder.Editor

open StrategyBuilder.Automation
open StrategyBuilder.Lib
open StrategyBuilder.Lib.Js
open StrategyBuilder.Shared

/-! ## Edits -/

/-- A completed edit of the graph. -/
inductive Edit where
  | addNode (stepType : StepTypeOption) (position : Position) (now : Int)
  | onConnect (connection : EditorEdge)
  | removeSelected
  | updateNodeParams (nodeId : String) (params : Record JsValue)
  | paste (now : Int)
  | applyAutoLayout
  /-- What is reported while the node is dragged, and when it is dropped. -/
  | drag (moves : List (List NodeChange)) (drop : List NodeChange)
  | removeNodes (changes : List NodeChange)
  | removeEdges (changes : List EdgeChange)

namespace Edit

/-- The calls of the store. -/
def ops : Edit → List EditorOp
  | .addNode stepType position now => [.addNode stepType position now]
  | .onConnect connection => [.onConnect connection]
  | .removeSelected => [.removeSelected]
  | .updateNodeParams nodeId params => [.updateNodeParams nodeId params]
  | .paste now => [.paste now]
  | .applyAutoLayout => [.applyAutoLayout]
  | .drag moves drop => moves.map .onNodesChange ++ [.onNodesChange drop]
  | .removeNodes changes => [.onNodesChange changes]
  | .removeEdges changes => [.onEdgesChange changes]

/-- The store after the operations of an edit. -/
def perform (lib : FlowLibrary) (s : EditorState) (e : Edit) : EditorState :=
  e.ops.foldl (EditorOp.apply lib) s

/-- There is something to remove or to paste, and a drag ends with its drop. -/
def Completed (s : EditorState) : Edit → Prop
  | .removeSelected => (∃ n ∈ s.nodes, n.selected = true) ∨ ∃ e ∈ s.edges, e.selected = true
  | .paste _ => ∃ copied, s.clipboard = some copied ∧ copied.nodes ≠ []
  | .drag moves drop =>
      (∀ changes ∈ moves, changes.any NodeChange.dropped = false) ∧
        drop.any NodeChange.dropped = true
  | .removeNodes changes => changes.any NodeChange.structural = true
  | .removeEdges changes => changes.any EdgeChange.structural = true
  | _ => True

/-- What React Flow makes of the nodes during a drag. -/
def dragged (lib : FlowLibrary) (moves : List (List NodeChange)) (drop : List NodeChange)
    (nodes : List FlowNode) : List FlowNode :=
  (moves ++ [drop]).foldl (fun nodes changes => lib.applyNodeChanges changes nodes) nodes

/-- The snapshot of the edit is what is there before it. -/
def KeepsBefore (lib : FlowLibrary) (s : EditorState) : Edit → Prop
  | .drag moves drop => dragged lib moves drop s.nodes = s.nodes
  | .removeNodes _ | .removeEdges _ => False
  | _ => True

end Edit

/-! ## One edit -/

section OneEdit

variable {lib : FlowLibrary} {s : EditorState}

/-- The change is applied to the present; after a drag a snapshot of it follows. -/
theorem onNodesChange_history (changes : List NodeChange) :
    (s.onNodesChange lib changes).history =
      if changes.any NodeChange.dropped then
        (s.history.set ⟨lib.applyNodeChanges changes s.nodes, s.edges⟩).snapshot MAX_HISTORY
      else s.history.set ⟨lib.applyNodeChanges changes s.nodes, s.edges⟩ := by
  rw [EditorState.onNodesChange]
  cases changes.any NodeChange.structural with
  | true =>
    cases changes.any NodeChange.dropped with
    | true => rfl
    | false => rfl
  | false =>
    cases changes.any NodeChange.dropped with
    | true => rfl
    | false => rfl

/-- React Flow's reports before the drop change the nodes only. -/
theorem moves_history {moves : List (List NodeChange)}
    (hmoves : ∀ changes ∈ moves, changes.any NodeChange.dropped = false) :
    ((moves.map EditorOp.onNodesChange).foldl (EditorOp.apply lib) s).history =
      s.history.set ⟨moves.foldl (fun nodes changes => lib.applyNodeChanges changes nodes) s.nodes,
        s.edges⟩ := by
  induction moves generalizing s with
  | nil => rfl
  | cons changes moves ih =>
    have hnext : (s.onNodesChange lib changes).history =
        s.history.set ⟨lib.applyNodeChanges changes s.nodes, s.edges⟩ := by
      rw [onNodesChange_history, hmoves changes List.mem_cons_self]
      rfl
    rw [List.map_cons, List.foldl_cons, List.foldl_cons]
    refine (ih fun changes hmem => hmoves changes (List.mem_cons_of_mem _ hmem)).trans ?_
    simp only [EditorOp.apply, EditorState.nodes, EditorState.edges, hnext]
    rfl

/-- A drag takes its snapshot when everything has moved. -/
theorem drag_history {moves : List (List NodeChange)} {drop : List NodeChange}
    (h : (Edit.drag moves drop).Completed s) :
    ((Edit.drag moves drop).perform lib s).history =
      (s.history.set ⟨Edit.dragged lib moves drop s.nodes, s.edges⟩).snapshot MAX_HISTORY := by
  rw [Edit.perform, Edit.ops, List.foldl_append, Edit.dragged, List.foldl_append]
  have hmoves := @moves_history lib s moves h.1
  generalize (moves.map EditorOp.onNodesChange).foldl (EditorOp.apply lib) s = t at hmoves
  change (t.onNodesChange lib drop).history = _
  rw [onNodesChange_history, if_pos h.2]
  simp only [EditorState.nodes, EditorState.edges, hmoves]
  rfl

/-- A removal is an edit of the history. -/
theorem removeSelected_history (h : Edit.removeSelected.Completed s) :
    ∃ graph, s.removeSelected.history = s.history.edit MAX_HISTORY graph := by
  have hsome : ¬ ((s.nodes.filter FlowNode.selected).map (fun n => n.node.id) = [] ∧
      (s.edges.filter FlowEdge.selected).map FlowEdge.id = []) := by
    rintro ⟨hnodes, hedges⟩
    rw [List.map_eq_nil_iff, List.filter_eq_nil_iff] at hnodes hedges
    rcases h with ⟨n, hn, hselected⟩ | ⟨e, he, hselected⟩
    · exact hnodes n hn hselected
    · exact hedges e he hselected
  rw [EditorState.removeSelected]
  simp only [if_neg hsome]
  exact ⟨_, rfl⟩

/-- A paste is an edit of the history. -/
theorem paste_history {now : Int} (h : (Edit.paste now).Completed s) :
    ∃ graph, (s.paste now).history = s.history.edit MAX_HISTORY graph := by
  obtain ⟨copied, hcopied, hnodes⟩ := h
  rw [EditorState.paste, hcopied]
  simp only [if_neg hnodes]
  exact ⟨_, rfl⟩

/-- An edit that keeps what is there before it is a change with a snapshot. -/
theorem perform_history {e : Edit} (hcompleted : e.Completed s) (hkeeps : e.KeepsBefore lib s) :
    (e.perform lib s).history =
      s.history.edit MAX_HISTORY (e.perform lib s).history.present := by
  have hgraph : ∃ graph, (e.perform lib s).history = s.history.edit MAX_HISTORY graph := by
    cases e with
    | addNode stepType position now => exact ⟨_, rfl⟩
    | onConnect connection => exact ⟨_, rfl⟩
    | removeSelected => exact removeSelected_history hcompleted
    | updateNodeParams nodeId params => exact ⟨_, rfl⟩
    | paste now => exact paste_history hcompleted
    | applyAutoLayout => exact ⟨_, rfl⟩
    | drag moves drop =>
      refine ⟨s.history.present, ?_⟩
      rw [drag_history hcompleted, show Edit.dragged lib moves drop s.nodes = s.nodes from hkeeps]
      rfl
    | removeNodes changes => exact absurd hkeeps id
    | removeEdges changes => exact absurd hkeeps id
  obtain ⟨graph, hgraph⟩ := hgraph
  rw [hgraph]
  rfl

end OneEdit

theorem undo_history (s : EditorState) : s.undo.history = s.history.back := by
  rw [EditorState.undo, History.back]
  cases s.history.undo with
  | none => rfl
  | some h => rfl

theorem redo_history (s : EditorState) : s.redo.history = s.history.forth := by
  rw [EditorState.redo, History.forth]
  cases s.history.redo with
  | none => rfl
  | some h => rfl

/-- After a drag one undo shows what was there before it, if and only if the nodes have not moved. -/
theorem drag_undone_iff {lib : FlowLibrary} {s : EditorState} {moves : List (List NodeChange)}
    {drop : List NodeChange} (h : (Edit.drag moves drop).Completed s) :
    ((Edit.drag moves drop).perform lib s).undo.history.present = s.history.present ↔
      (Edit.drag moves drop).KeepsBefore lib s := by
  rw [undo_history, drag_history h, History.back_snapshot (by decide), History.present_set,
    Edit.KeepsBefore]
  constructor
  · intro hsame
    exact congrArg Snapshot.nodes hsame
  · intro hsame
    rw [hsame]
    rfl

/-! ## Runs of edits -/

section Runs

variable (lib : FlowLibrary)

/-- The graphs after each edit. -/
def graphsAfter : EditorState → List Edit → List Snapshot
  | _, [] => []
  | s, e :: es => (e.perform lib s).history.present :: graphsAfter (e.perform lib s) es

/-- The graph after the first edits. -/
def graphAfter (s : EditorState) (es : List Edit) (k : Nat) : Snapshot :=
  (Transition.run (Edit.perform lib) s (es.take k)).history.present

variable {lib} {s : EditorState} {es : List Edit}

theorem graphsAfter_length : (graphsAfter lib s es).length = es.length := by
  induction es generalizing s with
  | nil => rfl
  | cons e es ih => rw [graphsAfter, List.length_cons, List.length_cons, ih]

/-- The graphs after each of the edits. -/
theorem graphsAfter_getElem? {k : Nat} (hk : k ≤ es.length) :
    (s.history.present :: graphsAfter lib s es)[k]? = some (graphAfter lib s es k) := by
  induction es generalizing s k with
  | nil =>
    rw [Nat.le_zero.1 hk]
    rfl
  | cons e es ih =>
    cases k with
    | zero => rfl
    | succ k => exact ih (Nat.le_of_succ_le_succ hk)

/-- Edits that keep what was there before are the changes of the history. -/
theorem run_history (hes : Transition.Admitted (Edit.perform lib)
      (fun s e => e.Completed s ∧ e.KeepsBefore lib s) s es) :
    (Transition.run (Edit.perform lib) s es).history =
      (graphsAfter lib s es).foldl (History.edit MAX_HISTORY) s.history := by
  induction es generalizing s with
  | nil => rfl
  | cons e es ih =>
    obtain ⟨⟨hcompleted, hkeeps⟩, hrest⟩ := hes
    rw [Transition.run_cons, ih hrest, graphsAfter, List.foldl_cons,
      ← perform_history hcompleted hkeeps]

theorem undo_iterate (i : Nat) (s : EditorState) :
    (EditorState.undo^[i] s).history = History.back^[i] s.history := by
  induction i with
  | zero => rfl
  | succ i ih => rw [Function.iterate_succ_apply', Function.iterate_succ_apply', undo_history, ih]

theorem redo_iterate (j : Nat) (s : EditorState) :
    (EditorState.redo^[j] s).history = History.forth^[j] s.history := by
  induction j with
  | zero => rfl
  | succ j ih => rw [Function.iterate_succ_apply', Function.iterate_succ_apply', redo_history, ih]

end Runs

/-- **Undo and redo are inverse to edits** that keep what was there before. From any state, after at
most `MAX_HISTORY` of them, `i` undos show the graph from before the last `i` edits, and `j` redos after
all undos the graph after the first `j`. -/
theorem edits_undone {lib : FlowLibrary} {s : EditorState} {es : List Edit}
    (hle : es.length ≤ MAX_HISTORY)
    (hes : Transition.Admitted (Edit.perform lib)
      (fun s e => e.Completed s ∧ e.KeepsBefore lib s) s es) :
    let last := Transition.run (Edit.perform lib) s es
    (∀ i ≤ es.length,
      (EditorState.undo^[i] last).history.present = graphAfter lib s es (es.length - i)) ∧
    ∀ j ≤ es.length,
      (EditorState.redo^[j] (EditorState.undo^[es.length] last)).history.present =
        graphAfter lib s es j := by
  intro last
  -- the store's history is the list machine's
  have hlast : last.history = (graphsAfter lib s es).foldl (History.edit MAX_HISTORY) s.history :=
    run_history hes
  have hlength : (graphsAfter lib s es).length = es.length := graphsAfter_length
  rw [← hlength] at hle
  constructor
  · intro i hi
    have hback := History.back_edits (h := s.history) hle (i := i) (by rw [hlength]; exact hi)
    rw [hlength, graphsAfter_getElem? (Nat.sub_le _ _)] at hback
    rw [undo_iterate, hlast]
    exact (Option.some.inj hback).symm
  · intro j hj
    have hforth := History.forth_edits (h := s.history) hle (j := j) (by rw [hlength]; exact hj)
    rw [graphsAfter_getElem? hj, hlength] at hforth
    rw [redo_iterate, undo_iterate, hlast]
    exact (Option.some.inj hforth).symm

/-- A library that moves and removes nodes. -/
def applyNodeChange (nodes : List FlowNode) : NodeChange → List FlowNode
  | .remove id => nodes.filter fun n => n.node.id ≠ id
  | .position id (some position) _ =>
      nodes.map fun n => if n.node.id = id then { n with position := position } else n
  | _ => nodes

/-- A library that moves nodes as it is told, and lays all of them out at one place. -/
def movingLibrary : FlowLibrary where
  applyNodeChanges changes nodes := changes.foldl applyNodeChange nodes
  applyEdgeChanges _ edges := edges
  addEdge edge edges := edges ++ [edge]
  layout _ _ := some ⟨100, 100⟩

/-- A node without parameters is added. -/
def addBlank : Edit := .addNode ⟨"blank", .condition, none⟩ ⟨0, 0⟩ 0

/-- A node on the canvas that has been selected and copied. -/
def copiedBlank : EditorState :=
  let s := addBlank.perform movingLibrary .initial
  (s.setGraph (s.nodes.map fun n => { n with selected := true }) []).copySelected

/-- A node is added, the copy is pasted and removed again, and what is left is laid out. -/
def pastedAndRemoved : List Edit := [addBlank, .paste 7, .removeSelected, .applyAutoLayout]

theorem edits_undone_sample :
    let last := Transition.run (Edit.perform movingLibrary) copiedBlank pastedAndRemoved
    (EditorState.undo^[1] last).ids = ["node-1", "node-2"] ∧
      (EditorState.undo^[2] last).ids = ["node-1", "node-2", "node-1-copy-7"] ∧
      (EditorState.redo^[3] (EditorState.undo^[4] last)).ids = ["node-1", "node-2"] := by
  intro last
  have hes : Transition.Admitted (Edit.perform movingLibrary)
      (fun s e => e.Completed s ∧ e.KeepsBefore movingLibrary s) copiedBlank pastedAndRemoved := by
    refine ⟨⟨trivial, trivial⟩, ⟨⟨_, rfl, nofun⟩, trivial⟩, ⟨Or.inl ?_, trivial⟩, ⟨trivial, trivial⟩,
      trivial⟩
    -- what is pasted is selected
    exact ⟨_, List.mem_of_getElem? (i := 2) rfl, rfl⟩
  obtain ⟨hundo, hredo⟩ := edits_undone (by decide) hes
  refine ⟨?_, ?_, ?_⟩
  · have h := congrArg Snapshot.ids (hundo 1 (by decide))
    exact h.trans (by decide)
  · have h := congrArg Snapshot.ids (hundo 2 (by decide))
    exact h.trans (by decide)
  · have h := congrArg Snapshot.ids (hredo 3 (by decide))
    exact h.trans (by decide)

/-- A node on the canvas. -/
def oneBlank : EditorState := addBlank.perform movingLibrary .initial

/-- The node is dragged in two steps. -/
def dragAway : Edit :=
  .drag [[.position "node-1" (some ⟨30, 0⟩) true]] [.position "node-1" (some ⟨60, 0⟩) false]

/-- The undo of a drag leaves the node where it was dropped; the undo of a removal that React Flow
reports takes back the node that was added before it. -/
theorem edits_not_undone :
    dragAway.Completed oneBlank ∧
      oneBlank.nodes.map FlowNode.position = [⟨0, 0⟩] ∧
      (dragAway.perform movingLibrary oneBlank).undo.nodes.map FlowNode.position = [⟨60, 0⟩] ∧
      (Edit.removeNodes [.remove "node-1"]).Completed (addBlank.perform movingLibrary oneBlank) ∧
      (addBlank.perform movingLibrary oneBlank).ids = ["node-1", "node-2"] ∧
      ((Edit.removeNodes [.remove "node-1"]).perform movingLibrary
        (addBlank.perform movingLibrary oneBlank)).undo.ids = ["node-1"] := by
  refine ⟨⟨?_, rfl⟩, ?_, ?_, rfl, ?_, ?_⟩
  · decide
  · decide
  · decide
  · decide
  · decide

end StrategyBuilder.Editor
