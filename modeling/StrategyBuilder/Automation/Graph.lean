import StrategyBuilder.Lib.Js

/-!
# Automation graphs

The graph that the editor draws and the encoder reads: nodes are steps, an edge leaves its source by
a handle. Frontend and backend compute the same three things from it, each in its own copy of the
code: how many edges enter a node, the nodes that none enters, and the edges that leave a node.

What the editor stores of a node for drawing (position, label, size) decides nothing and is left out.
-/

set_option autoImplicit false

namespace StrategyBuilder.Automation

open StrategyBuilder.Lib.Js

/-- `'CONDITION' | 'ACTION'` -/
inductive StepCategory where
  | condition
  | action
deriving DecidableEq, Repr

/-- `'true' | 'false' | 'out'` -/
inductive SourceHandle where
  | true
  | false
  | out
deriving DecidableEq, Repr

/-- A node of the editor: its role, the step type that it is of, and the raw values of its fields. -/
structure EditorNode where
  id : String
  type : StepCategory
  stepTypeId : String
  params : Record JsValue

/-- An edge leaves a node at one of its handles. -/
structure EditorEdge where
  source : String
  target : String
  sourceHandle : SourceHandle
deriving DecidableEq, Repr

/-- What the editor sends to be encoded. -/
structure EditorGraph where
  nodes : List EditorNode
  edges : List EditorEdge

namespace EditorGraph

variable (graph : EditorGraph)

/-- The node ids, in order. -/
def ids : List String := graph.nodes.map EditorNode.id

/-- The number of edges into each node. -/
def incomingCount : Map String Nat :=
  graph.edges.foldl (fun m e => m.set e.target ((m e.target).getD 0 + 1))
    (Map.fill graph.ids 0)

/-- The nodes that no edge enters. -/
def startNodes : List EditorNode := graph.nodes.filter fun n => graph.incomingCount n.id = some 0

/-- The edges that leave each node. -/
def edgesBySource : Map String (List EditorEdge) :=
  graph.edges.foldl (fun m e => m.set e.source ((m e.source).getD [] ++ [e])) Map.empty

/-- `edgesBySource.get(id) ?? []` -/
def outEdges (id : String) : List EditorEdge := (graph.edgesBySource id).getD []

/-- Where the edges of a node lead. -/
def successors (id : String) : List String := (graph.outEdges id).map EditorEdge.target

/-- Node ids are unique, and edges join nodes. -/
structure WellFormed : Prop where
  nodup : graph.ids.Nodup
  source : ∀ e ∈ graph.edges, e.source ∈ graph.ids
  target : ∀ e ∈ graph.edges, e.target ∈ graph.ids

variable {graph}

/-! ## What the maps hold -/

/-- The loop counts the edges into each node. -/
theorem foldl_incoming (edges : List EditorEdge) (m : Map String Nat) (id : String) :
    edges.foldl (fun m e => m.set e.target ((m e.target).getD 0 + 1)) m id =
      if ∃ e ∈ edges, e.target = id then
        some ((m id).getD 0 + edges.countP fun e => e.target = id)
      else m id := by
  induction edges generalizing m with
  | nil => simp
  | cons e edges ih =>
    rw [List.foldl_cons, ih]
    by_cases he : e.target = id
    · subst he
      by_cases hrest : ∃ e' ∈ edges, e'.target = e.target
      · simp [hrest]
        omega
      · have hcount : edges.countP (fun e' => e'.target = e.target) = 0 := by
          rw [List.countP_eq_zero]
          intro e' he' hdec
          exact hrest ⟨e', he', of_decide_eq_true hdec⟩
        simp [hrest, hcount]
    · have hne : id ≠ e.target := fun h => he h.symm
      simp [he, Map.set_of_ne m _ hne]

/-- The start nodes are those that no edge enters. -/
theorem mem_startNodes {n : EditorNode} :
    n ∈ graph.startNodes ↔ n ∈ graph.nodes ∧ ∀ e ∈ graph.edges, e.target ≠ n.id := by
  rw [startNodes, List.mem_filter, decide_eq_true_eq, incomingCount, foldl_incoming]
  refine and_congr_right fun hn => ?_
  have hid : n.id ∈ graph.ids := List.mem_map_of_mem hn
  rw [Map.fill_apply, if_pos hid]
  by_cases hex : ∃ e ∈ graph.edges, e.target = n.id
  · obtain ⟨e, he, htarget⟩ := hex
    have hcount : 0 < graph.edges.countP fun e => e.target = n.id :=
      List.countP_pos_iff.2 ⟨e, he, by simp [htarget]⟩
    rw [if_pos ⟨e, he, htarget⟩]
    constructor
    · intro h
      simp only [Option.getD_some, Option.some.injEq] at h
      omega
    · intro h
      exact absurd htarget (h e he)
  · rw [if_neg hex]
    exact ⟨fun _ e he htarget => hex ⟨e, he, htarget⟩, fun _ => rfl⟩

/-- The loop collects the edges out of each node, in their order. -/
theorem foldl_edgesBySource (edges : List EditorEdge) (m : Map String (List EditorEdge))
    (id : String) :
    (edges.foldl (fun m e => m.set e.source ((m e.source).getD [] ++ [e])) m id).getD [] =
      (m id).getD [] ++ edges.filter fun e => e.source = id := by
  induction edges generalizing m with
  | nil => simp
  | cons e edges ih =>
    rw [List.foldl_cons, ih]
    by_cases he : e.source = id
    · subst he
      simp
    · have hne : id ≠ e.source := fun h => he h.symm
      simp [he, Map.set_of_ne m _ hne]

/-- The edges of a node, in the order of the graph. -/
theorem outEdges_eq (graph : EditorGraph) (id : String) :
    graph.outEdges id = graph.edges.filter fun e => e.source = id := by
  rw [outEdges, edgesBySource, foldl_edgesBySource]
  simp [Map.empty]

theorem mem_outEdges {e : EditorEdge} {id : String} :
    e ∈ graph.outEdges id ↔ e ∈ graph.edges ∧ e.source = id := by
  simp [outEdges_eq]

theorem mem_successors {id target : String} :
    target ∈ graph.successors id ↔ ∃ e ∈ graph.edges, e.source = id ∧ e.target = target := by
  simp [successors, mem_outEdges, and_assoc]

/-- Edges do not leave the graph. -/
theorem WellFormed.closed (hwf : graph.WellFormed) :
    ∀ id ∈ graph.ids, ∀ target ∈ graph.successors id, target ∈ graph.ids := by
  intro id _ target htarget
  obtain ⟨e, he, -, rfl⟩ := mem_successors.1 htarget
  exact hwf.target e he

/-- With unique ids a node is the only one of its id. -/
theorem WellFormed.node_unique (hwf : graph.WellFormed) {n n' : EditorNode} (hn : n ∈ graph.nodes)
    (hn' : n' ∈ graph.nodes) (h : n.id = n'.id) : n = n' :=
  List.inj_on_of_nodup_map hwf.nodup hn hn' h

end EditorGraph

end StrategyBuilder.Automation
