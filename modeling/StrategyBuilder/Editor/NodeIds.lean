import Mathlib.Data.List.Perm.Subperm
import StrategyBuilder.Lib.Transition
import StrategyBuilder.Editor.EditorState

/-!
# The ids of the nodes in the editor

Any number of pages is opened, each with a store and a `nodeCounter` of its own, and works on graphs that
pages have saved before. A node is named after the counter of its page (`addNode`), or after the node
it is a copy of and the time (`paste`).

`node_ids_distinct`: as long as a name that is given is not in the store already, the ids of the nodes in
each store are pairwise distinct, whatever is loaded, removed, undone or redone. Nothing ensures the
condition: the counter does not know the names in a graph that is loaded (`reloaded_graph_collides`).
-/

set_option autoImplicit false

namespace StrategyBuilder.Editor

open StrategyBuilder.Automation
open StrategyBuilder.Lib
open StrategyBuilder.Shared

/-! ## Pages -/

/-- The graphs that have been saved, and the stores of the pages. -/
structure Editors where
  saved : List Snapshot
  pages : List EditorState

/-- Pages are opened, load and save graphs, and operate on them. -/
inductive EditorEvent where
  | openPage
  /-- `loadEditorState` with a saved graph, or with none when the editor is mounted. -/
  | load (page : Nat) (saved : Option Nat) (label description : Option String)
  | save (page : Nat)
  | operate (page : Nat) (op : EditorOp)

namespace Editors

/-- No page is open, and nothing is saved. -/
def start : Editors := ⟨[], []⟩

/-- Change the store of a page. -/
def update (w : Editors) (page : Nat) (f : EditorState → EditorState) : Editors :=
  { w with pages := w.pages.modify page f }

/-- The graph that is loaded. -/
def graphAt (w : Editors) : Option Nat → Snapshot
  | none => .empty
  | some k => (w.saved[k]?).getD .empty

/-- One event. -/
def step (lib : FlowLibrary) (w : Editors) : EditorEvent → Editors
  | .openPage => { w with pages := w.pages ++ [.initial] }
  | .load page saved label description =>
      w.update page fun s => s.loadEditorState (w.graphAt saved) label description
  | .save page =>
      match w.pages[page]? with
      | none => w
      | some s => { w with saved := w.saved ++ [s.history.present] }
  | .operate page op => w.update page fun s => op.apply lib s

end Editors

/-! ## Fresh names -/

/-- The ids of the nodes that come in. -/
def addedIds (changes : List NodeChange) : List String :=
  changes.filterMap fun
    | .add item _ => some item.node.id
    | _ => none

/-- A node that is replaced keeps its id. -/
def ReplacesInPlace (changes : List NodeChange) : Prop :=
  ∀ id item, .replace id item ∈ changes → item.node.id = id

/-- `applyNodeChanges`: each node is kept, changed or removed, and each node that is added comes in
once. -/
def FlowLibrary.KeepsIds (lib : FlowLibrary) : Prop :=
  ∀ changes nodes, ReplacesInPlace changes →
    ((lib.applyNodeChanges changes nodes).map fun n => n.node.id).Subperm
      ((nodes.map fun n => n.node.id) ++ addedIds changes)

/-- The names that an operation gives are not in the store. -/
def EditorOp.Fresh (s : EditorState) : EditorOp → Prop
  | .addNode _ _ _ => nodeIdOf (s.nodeCounter + 1) ∉ s.ids
  | .paste now => ∀ clipboard, s.clipboard = some clipboard →
      ∀ id ∈ clipboard.ids, id ++ EditorState.copySuffix now ∉ s.ids
  | .onNodesChange changes =>
      ReplacesInPlace changes ∧ (addedIds changes).Nodup ∧ ∀ id ∈ addedIds changes, id ∉ s.ids
  | _ => True

/-- The ids that an operation of the event draws are new to its page. -/
def EditorEvent.Fresh (w : Editors) : EditorEvent → Prop
  | .operate page op => ∀ s, w.pages[page]? = some s → op.Fresh s
  | _ => True

/-! ## One page -/

/-- No two nodes have one id. -/
def Snapshot.Distinct (s : Snapshot) : Prop := s.ids.Nodup

/-- Neither have they in the history nor on the clipboard. -/
structure EditorState.Distinct (s : EditorState) : Prop where
  history : s.history.All Snapshot.Distinct
  clipboard : ∀ clipboard, s.clipboard = some clipboard → clipboard.Distinct

namespace EditorState

variable {s : EditorState}

theorem initial_distinct : initial.Distinct := ⟨.start List.nodup_nil, nofun⟩

namespace Distinct

theorem pushSnapshot (h : s.Distinct) : s.pushSnapshot.Distinct :=
  ⟨h.history.snapshot MAX_HISTORY, h.clipboard⟩

theorem markDirty (h : s.Distinct) : s.markDirty.Distinct := ⟨h.history, h.clipboard⟩

theorem setGraph (h : s.Distinct) {nodes : List FlowNode} (edges : List FlowEdge)
    (hnodes : (nodes.map fun n => n.node.id).Nodup) : (s.setGraph nodes edges).Distinct :=
  ⟨h.history.set hnodes, h.clipboard⟩

/-- A change of the edges, or of the nodes apart from their ids. -/
theorem setGraph_same (h : s.Distinct) {nodes : List FlowNode} (edges : List FlowEdge)
    (hnodes : (nodes.map fun n => n.node.id) = s.ids) : (s.setGraph nodes edges).Distinct := by
  apply h.setGraph edges
  rw [hnodes]
  exact h.history.present

theorem loadEditorState (h : s.Distinct) {graph : Snapshot} (hgraph : graph.Distinct)
    (label description : Option String) : (s.loadEditorState graph label description).Distinct :=
  ⟨.start hgraph, h.clipboard⟩

/-- Changes of nodes keep the ids apart, if new ids are fresh. -/
theorem onNodesChange {lib : FlowLibrary} (hlib : lib.KeepsIds) (h : s.Distinct)
    {changes : List NodeChange} (hfresh : (EditorOp.onNodesChange changes).Fresh s) :
    (s.onNodesChange lib changes).Distinct := by
  obtain ⟨hreplace, hadded, hnew⟩ := hfresh
  have hids : ((lib.applyNodeChanges changes s.nodes).map fun n => n.node.id).Nodup := by
    obtain ⟨l, hperm, hsublist⟩ := hlib changes s.nodes hreplace
    apply hperm.nodup_iff.1
    apply List.Nodup.sublist hsublist
    apply List.Nodup.append h.history.present hadded
    intro id hid hid'
    exact hnew id hid' hid
  have hset := h.setGraph s.edges hids
  have hmark : (if changes.any NodeChange.structural then
      (s.setGraph (lib.applyNodeChanges changes s.nodes) s.edges).markDirty
      else s.setGraph (lib.applyNodeChanges changes s.nodes) s.edges).Distinct := by
    split
    · exact hset.markDirty
    · exact hset
  simp only [EditorState.onNodesChange]
  split
  · exact hmark.markDirty.pushSnapshot
  · exact hmark

/-- Changes of edges keep the ids. -/
theorem onEdgesChange (h : s.Distinct) (lib : FlowLibrary) (changes : List EdgeChange) :
    (s.onEdgesChange lib changes).Distinct := by
  simp only [EditorState.onEdgesChange]
  split
  · exact (h.setGraph_same _ rfl).markDirty
  · exact h.setGraph_same _ rfl

/-- A node with a fresh id keeps the ids apart. -/
theorem addNode (h : s.Distinct) {stepType : StepTypeOption} {position : Position} {now : Int}
    (hfresh : (EditorOp.addNode stepType position now).Fresh s) :
    (s.addNode stepType position now).Distinct := by
  have hcounter : ({ s.pushSnapshot with nodeCounter := s.nodeCounter + 1 } : EditorState).Distinct :=
    ⟨h.pushSnapshot.history, h.clipboard⟩
  apply markDirty
  apply hcounter.setGraph
  rw [List.map_append]
  apply List.Nodup.append h.history.present (List.nodup_singleton _)
  intro id hid hid'
  have hname : id = nodeIdOf (s.nodeCounter + 1) := List.mem_singleton.1 hid'
  rw [hname] at hid
  exact hfresh hid

/-- A removal keeps the ids apart. -/
theorem removeSelected (h : s.Distinct) : s.removeSelected.Distinct := by
  simp only [EditorState.removeSelected]
  split
  · exact h
  · apply markDirty
    apply h.pushSnapshot.setGraph
    exact h.history.present.sublist (List.filter_sublist.map _)

/-- An edit of values keeps the ids. -/
theorem updateNodeParams (h : s.Distinct) (nodeId : String) (params : Lib.Js.Record Lib.Js.JsValue) :
    (s.updateNodeParams nodeId params).Distinct := by
  apply markDirty
  apply h.pushSnapshot.setGraph_same
  rw [List.map_map]
  apply List.map_congr_left
  intro n _
  simp only [Function.comp_apply]
  split
  · rfl
  · rfl

theorem undo (h : s.Distinct) : s.undo.Distinct := by
  rw [EditorState.undo]
  split
  · exact h
  · next history hundo => exact ⟨h.history.undo hundo, h.clipboard⟩

theorem redo (h : s.Distinct) : s.redo.Distinct := by
  rw [EditorState.redo]
  split
  · exact h
  · next history hredo => exact ⟨h.history.redo hredo, h.clipboard⟩

/-- A copy has the ids of what is selected. -/
theorem copySelected (h : s.Distinct) : s.copySelected.Distinct := by
  simp only [EditorState.copySelected]
  split
  · exact h
  · refine ⟨h.history, ?_⟩
    rintro clipboard ⟨⟩
    exact h.history.present.sublist (List.filter_sublist.map _)

/-- Copies with fresh ids keep the ids apart. -/
theorem paste (h : s.Distinct) {now : Int} (hfresh : (EditorOp.paste now).Fresh s) :
    (s.paste now).Distinct := by
  simp only [EditorState.paste]
  split
  · exact h
  next clipboard hclipboard =>
  split
  · exact h
  · apply markDirty
    apply h.pushSnapshot.setGraph
    have hids : ((s.nodes.map deselect ++ clipboard.nodes.map (copyNode (copySuffix now))).map
        fun n => n.node.id) = s.ids ++ clipboard.ids.map (· ++ copySuffix now) := by
      rw [List.map_append, List.map_map, List.map_map, Snapshot.ids, List.map_map]
      rfl
    refine hids ▸ ?_
    apply List.Nodup.append h.history.present
    · apply (h.clipboard clipboard hclipboard).map
      intro a b hab
      exact (String.append_left_inj _).1 hab
    · intro id hid hid'
      obtain ⟨copied, hmem, rfl⟩ := List.mem_map.1 hid'
      exact hfresh clipboard hclipboard copied hmem hid

theorem applyAutoLayout (h : s.Distinct) (lib : FlowLibrary) : (s.applyAutoLayout lib).Distinct := by
  apply markDirty
  apply h.pushSnapshot.setGraph_same
  exact List.map_map ..

end Distinct

end EditorState

/-- One operation on a store. -/
theorem EditorOp.apply_distinct {lib : FlowLibrary} (hlib : lib.KeepsIds) {s : EditorState}
    (h : s.Distinct) {op : EditorOp} (hfresh : op.Fresh s) : (op.apply lib s).Distinct := by
  cases op with
  | onNodesChange changes => exact h.onNodesChange hlib hfresh
  | onEdgesChange changes => exact h.onEdgesChange lib changes
  | onConnect connection => exact (h.pushSnapshot.setGraph_same _ rfl).markDirty
  | addNode stepType position now => exact h.addNode hfresh
  | removeSelected => exact h.removeSelected
  | updateNodeParams nodeId params => exact h.updateNodeParams nodeId params
  | undo => exact h.undo
  | redo => exact h.redo
  | copySelected => exact h.copySelected
  | paste now => exact h.paste hfresh
  | applyAutoLayout => exact h.applyAutoLayout lib
  | pushSnapshot => exact h.pushSnapshot
  | _ => exact ⟨h.history, h.clipboard⟩

/-! ## All pages -/

/-- What is kept: no graph that is saved or in a store has an id twice. -/
structure Editors.Distinct (w : Editors) : Prop where
  saved : ∀ graph ∈ w.saved, graph.Distinct
  pages : ∀ s ∈ w.pages, s.Distinct

namespace Editors

variable {w : Editors}

/-- On no page are two ids the same. -/
theorem start_distinct : start.Distinct := by
  constructor
  · intro graph h
    cases h
  · intro s h
    cases h

/-- What keeps a page's ids apart keeps all of them apart. -/
theorem Distinct.update (h : w.Distinct) (page : Nat) {f : EditorState → EditorState}
    (hf : ∀ s, w.pages[page]? = some s → s.Distinct → (f s).Distinct) :
    (w.update page f).Distinct := by
  refine ⟨h.saved, ?_⟩
  intro s hs
  obtain ⟨i, hi⟩ := List.mem_iff_getElem?.1 hs
  rw [Editors.update, List.getElem?_modify] at hi
  split at hi
  · next heq =>
    subst heq
    cases hpage : w.pages[page]? with
    | none =>
      rw [hpage] at hi
      cases hi
    | some s' =>
      rw [hpage] at hi
      cases hi
      exact hf s' hpage (h.pages s' (List.mem_of_getElem? hpage))
  · apply h.pages
    apply List.mem_of_getElem? (i := i)
    simpa using hi

/-- A saved graph has its ids apart. -/
theorem Distinct.graphAt (h : w.Distinct) (saved : Option Nat) : (w.graphAt saved).Distinct := by
  cases saved with
  | none => exact List.nodup_nil
  | some k =>
    rw [Editors.graphAt]
    cases hk : w.saved[k]? with
    | none => exact List.nodup_nil
    | some graph => exact h.saved graph (List.mem_of_getElem? hk)

/-- A step that gives fresh names keeps the ids apart. -/
theorem Distinct.step {lib : FlowLibrary} (hlib : lib.KeepsIds) (h : w.Distinct) {event : EditorEvent}
    (hfresh : event.Fresh w) : (Editors.step lib w event).Distinct := by
  cases event with
  | openPage =>
    refine ⟨h.saved, ?_⟩
    intro s hs
    rcases List.mem_append.1 hs with hs | hs
    · exact h.pages s hs
    · rw [List.mem_singleton.1 hs]
      exact EditorState.initial_distinct
  | load page saved label description =>
    apply h.update
    intro s _ hs
    -- a saved graph comes with distinct ids
    exact hs.loadEditorState (h.graphAt saved) label description
  | save page =>
    rw [Editors.step]
    split
    · exact h
    · next s hs =>
      refine ⟨?_, h.pages⟩
      intro graph hgraph
      rcases List.mem_append.1 hgraph with hgraph | hgraph
      · exact h.saved graph hgraph
      · rw [List.mem_singleton.1 hgraph]
        exact (h.pages s (List.mem_of_getElem? hs)).history.present
  | operate page op =>
    apply h.update
    intro s hpage hs
    exact EditorOp.apply_distinct hlib hs (hfresh s hpage)

end Editors

/-- The ids in every store are pairwise distinct after every run in which each name that is given is
fresh. -/
theorem node_ids_distinct {lib : FlowLibrary} (hlib : lib.KeepsIds) {events : List EditorEvent}
    (hfresh : Transition.Admitted (Editors.step lib) (fun w event => event.Fresh w) Editors.start
      events) :
    ∀ s ∈ (Transition.run (Editors.step lib) Editors.start events).pages, s.ids.Nodup := by
  have hdistinct : (Transition.run (Editors.step lib) Editors.start events).Distinct :=
    Transition.run_invariant (I := Editors.Distinct) (fun w event h hevent => h.step hlib hevent)
      Editors.start_distinct hfresh
  intro s hs
  exact (hdistinct.pages s hs).history.present

/-! ## Two pages -/

/-- Nodes that are removed go, nodes that are added come last, and the others stay as they are. -/
def plainLibrary : FlowLibrary where
  applyNodeChanges changes nodes :=
    (nodes.filter fun n => changes.all fun
      | .remove id => n.node.id ≠ id
      | _ => true) ++
    changes.filterMap fun
      | .add item _ => some item
      | _ => none
  applyEdgeChanges _ edges := edges
  addEdge edge edges := edges ++ [edge]
  layout _ _ := none

/-- The sample's library invents no ids. -/
theorem plainLibrary_keepsIds : plainLibrary.KeepsIds := by
  intro changes nodes _
  apply List.Sublist.subperm
  simp only [plainLibrary, List.map_append]
  apply List.Sublist.append
  · exact List.filter_sublist.map _
  · have hadded : (changes.filterMap fun
        | .add item _ => some item
        | _ => none).map (fun n => n.node.id) = addedIds changes := by
      rw [List.map_filterMap, addedIds]
      apply List.filterMap_congr
      intro change _
      cases change with
      | _ => rfl
    rw [hadded]

/-- A condition of the catalog. -/
def alwaysOption : StepTypeOption := ⟨"always", .condition, none⟩

/-- The node that a page adds. -/
def addAlways (page : Nat) : EditorEvent := .operate page (.addNode alwaysOption ⟨0, 0⟩ 0)

/-- A page adds two nodes, removes the first, goes back and comes back. -/
def undoRemoval : List EditorEvent :=
  [.openPage, addAlways 0, addAlways 0, .operate 0 (.onNodesChange [.remove "node-1"]), .save 0,
    .operate 0 .undo, .operate 0 .redo]

/-- A page adds a node and saves the graph; the next page load goes on with it. -/
def reloaded : List EditorEvent :=
  [.openPage, addAlways 0, .save 0, .openPage, .load 1 (some 0) none none, addAlways 1]

/-- The undo takes back the second node, not the removal, and the redo comes back to it. -/
theorem node_ids_distinct_sample :
    (Transition.run (Editors.step plainLibrary) Editors.start undoRemoval).pages.map EditorState.ids =
        [["node-2"]] ∧
      ∀ s ∈ (Transition.run (Editors.step plainLibrary) Editors.start undoRemoval).pages,
        s.ids.Nodup := by
  refine ⟨by decide, ?_⟩
  apply node_ids_distinct plainLibrary_keepsIds
  refine ⟨trivial, ?_, ?_, ?_, trivial, fun s _ => trivial, fun s _ => trivial, trivial⟩
  · rintro s ⟨⟩
    exact List.not_mem_nil
  · rintro s ⟨⟩
    change nodeIdOf 2 ∉ [nodeIdOf 1]
    decide
  · rintro s ⟨⟩
    exact ⟨nofun, List.nodup_nil, nofun⟩

/-- The counter of the second page starts anew, and its first node gets the id of the node that was
saved. -/
theorem reloaded_graph_collides : ∃ s ∈
    (Transition.run (Editors.step plainLibrary) Editors.start reloaded).pages,
      s.ids = ["node-1", "node-1"] ∧ ¬ s.ids.Nodup := by
  refine ⟨_, List.mem_of_getElem? (i := 1) rfl, ?_, ?_⟩
  · decide
  · decide

end StrategyBuilder.Editor
