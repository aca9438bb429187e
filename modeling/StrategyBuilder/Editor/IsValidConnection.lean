import StrategyBuilder.Editor.NodeIds
import StrategyBuilder.Editor.ValidateGraph
import StrategyBuilder.Lib.Acyclic

/-!
# Connections without cycles

`is-valid-connection.ts`, which the editor asks before it adds an edge, beside the cycle check of
`validate-graph.ts`. The check searches recursively with three colours, the connection is searched for
with a stack; both are exact (`hasCycle_exact`, `isValidConnection_exact`), so a graph that is built with
accepted connections passes the check (`build_acyclic`).
-/

set_option autoImplicit false

namespace StrategyBuilder.Editor

open StrategyBuilder.Automation
open StrategyBuilder.Lib
open StrategyBuilder.Lib.Js
open StrategyBuilder.Lib.Transition

/-- The loop puts the successors of a node on the stack at most once, so it has no more rounds than there
are edges, and one. -/
def isValidConnection (connection : EditorEdge) (graph : EditorGraph) : Option Bool :=
  if connection.source = connection.target then some false
  else do
    let adj ← adjacency graph
    let succ (id : String) : List String := (adj id).getD []
    let rounds := (graph.ids.map fun id => (succ id).length).sum + 1
    let met ← stackMeets succ rounds connection.target connection.source
    return !met

/-! ## The graph as a relation -/

/-- An edge leads from one node to the other. -/
def EdgeOf (graph : EditorGraph) (a b : String) : Prop :=
  ∃ e ∈ graph.edges, e.source = a ∧ e.target = b

/-- The graph with one edge more. -/
def withConnection (graph : EditorGraph) (connection : EditorEdge) : EditorGraph :=
  { graph with edges := graph.edges ++ [connection] }

section Exact

variable {graph : EditorGraph}

theorem edge_successors : Edge graph.successors = EdgeOf graph := by
  funext a b
  exact propext EditorGraph.mem_successors

/-- The graph with the connection has one more edge. -/
theorem edgeOf_withConnection (connection : EditorEdge) :
    EdgeOf (withConnection graph connection) =
      withEdge (EdgeOf graph) connection.source connection.target := by
  funext a b
  apply propext
  constructor
  · rintro ⟨e, he, hsource, htarget⟩
    rcases List.mem_append.1 he with he | he
    · exact Or.inl ⟨e, he, hsource, htarget⟩
    · rw [List.mem_singleton.1 he] at hsource htarget
      exact Or.inr ⟨hsource.symm, htarget.symm⟩
  · rintro (⟨e, he, hsource, htarget⟩ | ⟨rfl, rfl⟩)
    · exact ⟨e, List.mem_append_left _ he, hsource, htarget⟩
    · exact ⟨connection, List.mem_append_right _ (List.mem_singleton_self _), rfl, rfl⟩

/-- A cycle of a well-formed graph goes through its nodes. -/
theorem hasCycle_iff (hwf : graph.WellFormed) :
    HasCycle graph.successors graph.ids ↔ ¬ Acyclic (EdgeOf graph) := by
  rw [HasCycle, Acyclic, edge_successors]
  push Not
  constructor
  · rintro ⟨x, -, hcycle⟩
    exact ⟨x, hcycle⟩
  · rintro ⟨x, hcycle⟩
    refine ⟨x, ?_, hcycle⟩
    obtain ⟨y, -, e, he, -, rfl⟩ := Relation.TransGen.tail'_iff.1 hcycle
    exact hwf.target e he

/-- **The cycle check is exact.** -/
theorem hasCycle_exact (hwf : graph.WellFormed) :
    ∃ cyclic, hasCycle graph = some cyclic ∧ (cyclic = true ↔ ¬ Acyclic (EdgeOf graph)) := by
  have hgray (id : String) : Map.fill graph.ids Color.white id ≠ some .gray := by
    rw [Map.fill_apply]
    split
    · nofun
    · nofun
  rw [hasCycle_eq hwf, ← hasCycle_iff hwf]
  refine searchCycle_exact hwf.closed (fill_white graph) hgray ?_
  rw [EditorGraph.ids, List.length_map]

/-- **A connection is accepted** exactly when it closes no cycle. -/
theorem isValidConnection_exact (hwf : graph.WellFormed) (hacyclic : Acyclic (EdgeOf graph))
    {connection : EditorEdge} (htarget : connection.target ∈ graph.ids) :
    ∃ valid, isValidConnection connection graph = some valid ∧
      (valid = true ↔ Acyclic (EdgeOf (withConnection graph connection))) := by
  rw [edgeOf_withConnection, acyclic_withEdge_iff hacyclic, isValidConnection]
  by_cases hloop : connection.source = connection.target
  · rw [if_pos hloop, hloop]
    exact ⟨false, rfl, nofun, fun hpath => absurd Relation.ReflTransGen.refl hpath⟩
  · rw [if_neg hloop]
    obtain ⟨adj, hadj, hsucc⟩ := adjacency_eq hwf
    obtain ⟨met, hmet, hexact⟩ := @stackMeets_exact _ _ _ _ _ connection.source hwf.closed htarget _
      (Nat.le_refl ((graph.ids.map fun id => (graph.successors id).length).sum + 1))
    rw [edge_successors] at hexact
    rw [← hsucc] at hmet
    refine ⟨!met, ?_, ?_⟩
    · simp only [hadj, Option.bind_eq_bind, Option.bind_some]
      rw [hmet]
      rfl
    · rw [← hexact]
      simp

end Exact

/-! ## Graphs that are built -/

/-- `addEdge` of React Flow: an edge that is there already is not added again. -/
def FlowLibrary.AddsOnce (lib : FlowLibrary) : Prop :=
  ∀ edge edges, lib.addEdge edge edges = edges ∨ lib.addEdge edge edges = edges ++ [edge]

/-- What builds a graph on a page. -/
inductive BuildOp where
  | addNode (stepType : StepTypeOption) (position : Position) (now : Int)
  | connect (connection : EditorEdge)
  | remove (nodeIds edgeIds : List String)
  | undo
  | redo

namespace EditorState

/-- The graph that is encoded and checked. -/
def graph (s : EditorState) : EditorGraph := s.history.present.graph

/-- React Flow marks what is selected. -/
def select (s : EditorState) (nodeIds edgeIds : List String) : EditorState :=
  s.setGraph (s.nodes.map fun n => { n with selected := decide (n.node.id ∈ nodeIds) })
    (s.edges.map fun e => { e with selected := decide (e.id ∈ edgeIds) })

/-- React Flow asks before it reports a connection of two nodes. -/
def connect (lib : FlowLibrary) (connection : EditorEdge) (s : EditorState) : EditorState :=
  if connection.source ∈ s.graph.ids ∧ connection.target ∈ s.graph.ids ∧
      isValidConnection connection s.graph = some true then s.onConnect lib connection
  else s

end EditorState

/-- What an operation does to the store; a connection is made only if it is valid. -/
def BuildOp.apply (lib : FlowLibrary) (s : EditorState) : BuildOp → EditorState
  | .addNode stepType position now => s.addNode stepType position now
  | .connect connection => s.connect lib connection
  | .remove nodeIds edgeIds => (s.select nodeIds edgeIds).removeSelected
  | .undo => s.undo
  | .redo => s.redo

/-- A graph without cycles whose nodes were named by a counter up to `counter`. -/
structure Built (counter : Nat) (graph : EditorGraph) : Prop where
  wellFormed : graph.WellFormed
  acyclic : Acyclic (EdgeOf graph)
  named : ∀ id ∈ graph.ids, ∃ k ≤ counter, id = nodeIdOf k

/-- So is every graph that one can go back or forth to. -/
def EditorState.Built (s : EditorState) : Prop :=
  s.history.All fun snapshot => Editor.Built s.nodeCounter snapshot.graph

section Build

variable {counter : Nat} {graph : EditorGraph}

theorem Built.empty : Built counter Snapshot.empty.graph := by
  refine ⟨⟨List.nodup_nil, nofun, nofun⟩, ?_, nofun⟩
  intro id hcycle
  obtain ⟨-, -, e, he, -⟩ := Relation.TransGen.tail'_iff.1 hcycle
  exact List.not_mem_nil he

/-- What was built with fewer numbers is built. -/
theorem Built.mono (h : Built counter graph) {counter' : Nat} (hle : counter ≤ counter') :
    Built counter' graph where
  wellFormed := h.wellFormed
  acyclic := h.acyclic
  named id hid := by
    obtain ⟨k, hk, hname⟩ := h.named id hid
    exact ⟨k, Nat.le_trans hk hle, hname⟩

/-- A node with the next number keeps the graph built. -/
theorem Built.addNode (h : Built counter graph) {node : EditorNode}
    (hid : node.id = nodeIdOf (counter + 1)) :
    Built (counter + 1) ⟨graph.nodes ++ [node], graph.edges⟩ := by
  have hids : (⟨graph.nodes ++ [node], graph.edges⟩ : EditorGraph).ids =
      graph.ids ++ [nodeIdOf (counter + 1)] := by
    rw [EditorGraph.ids, List.map_append, List.map_singleton, hid]
    rfl
  -- the counter has passed every number in use
  have hfresh : nodeIdOf (counter + 1) ∉ graph.ids := by
    intro hmem
    obtain ⟨k, hk, hname⟩ := h.named _ hmem
    have heq := nodeIdOf_injective hname
    omega
  refine ⟨⟨?_, ?_, ?_⟩, h.acyclic, ?_⟩
  · rw [hids]
    refine List.Nodup.append h.wellFormed.nodup (List.nodup_singleton _) ?_
    intro id hmem hnew
    rw [List.mem_singleton.1 hnew] at hmem
    exact hfresh hmem
  · intro e he
    rw [hids]
    exact List.mem_append_left _ (h.wellFormed.source e he)
  · intro e he
    rw [hids]
    exact List.mem_append_left _ (h.wellFormed.target e he)
  · intro id hmem
    rw [hids] at hmem
    rcases List.mem_append.1 hmem with hmem | hmem
    · obtain ⟨k, hk, hname⟩ := h.named id hmem
      exact ⟨k, Nat.le_succ_of_le hk, hname⟩
    · exact ⟨counter + 1, Nat.le_refl _, List.mem_singleton.1 hmem⟩

/-- An accepted connection closes no cycle. -/
theorem Built.connect (h : Built counter graph) {connection : EditorEdge}
    (hsource : connection.source ∈ graph.ids) (htarget : connection.target ∈ graph.ids)
    (hvalid : isValidConnection connection graph = some true) :
    Built counter (withConnection graph connection) := by
  obtain ⟨valid, hanswer, hexact⟩ := isValidConnection_exact h.wellFormed h.acyclic htarget
  rw [hvalid] at hanswer
  refine ⟨⟨h.wellFormed.nodup, ?_, ?_⟩, hexact.1 (Option.some.inj hanswer).symm, h.named⟩
  · intro e he
    rcases List.mem_append.1 he with he | he
    · exact h.wellFormed.source e he
    · rw [List.mem_singleton.1 he]
      exact hsource
  · intro e he
    rcases List.mem_append.1 he with he | he
    · exact h.wellFormed.target e he
    · rw [List.mem_singleton.1 he]
      exact htarget

/-- Fewer nodes and fewer edges. -/
theorem Built.remove (h : Built counter graph) {graph' : EditorGraph}
    (hnodes : graph'.nodes.Sublist graph.nodes) (hedges : graph'.edges ⊆ graph.edges)
    (hends : ∀ e ∈ graph'.edges, e.source ∈ graph'.ids ∧ e.target ∈ graph'.ids) :
    Built counter graph' where
  wellFormed := by
    refine ⟨h.wellFormed.nodup.sublist (hnodes.map _), ?_, ?_⟩
    · exact fun e he => (hends e he).1
    · exact fun e he => (hends e he).2
  acyclic := by
    apply h.acyclic.mono
    rintro a b ⟨e, he, hsource, htarget⟩
    exact ⟨e, hedges he, hsource, htarget⟩
  named id hid := h.named id ((hnodes.map _).subset hid)

end Build

namespace EditorState.Built

variable {s : EditorState}

theorem initial : EditorState.initial.Built := .start Editor.Built.empty

/-- A node that is added keeps the graph built. -/
theorem addNode (h : s.Built) (stepType : StepTypeOption) (position : Position) (now : Int) :
    (s.addNode stepType position now).Built := by
  -- older graphs were named by a smaller counter
  have hpast : (s.history.snapshot MAX_HISTORY).All fun snapshot =>
      Editor.Built (s.nodeCounter + 1) snapshot.graph := by
    have hsnapshot := h.snapshot MAX_HISTORY
    exact ⟨fun a ha => (hsnapshot.past a ha).mono (Nat.le_succ _),
      hsnapshot.present.mono (Nat.le_succ _), fun a ha => (hsnapshot.future a ha).mono (Nat.le_succ _)⟩
  let node := newNode (s.nodeCounter + 1) stepType s.vaultAddress now
  have hgraph : (⟨s.nodes ++ [⟨node, position, false⟩], s.edges⟩ : Snapshot).graph =
      ⟨s.graph.nodes ++ [node], s.graph.edges⟩ := by
    simp only [Snapshot.graph, List.map_append]
    rfl
  refine hpast.set ?_
  change Editor.Built (s.nodeCounter + 1)
    (⟨s.nodes ++ [⟨node, position, false⟩], s.edges⟩ : Snapshot).graph
  rw [hgraph]
  exact h.present.addNode rfl

/-- A valid connection keeps the graph built. -/
theorem connect (h : s.Built) {lib : FlowLibrary} (hlib : lib.AddsOnce) (connection : EditorEdge) :
    (s.connect lib connection).Built := by
  rw [EditorState.connect]
  split
  · next hvalid =>
    obtain ⟨hsource, htarget, hvalid⟩ := hvalid
    refine (h.snapshot MAX_HISTORY).set ?_
    change Editor.Built s.nodeCounter
      (⟨s.nodes, lib.addEdge (connectionEdge connection) s.edges⟩ : Snapshot).graph
    -- the library leaves out an edge that is there already
    rcases hlib (connectionEdge connection) s.edges with hsame | hadded
    · rw [hsame]
      exact h.present
    · have hgraph : (⟨s.nodes, s.edges ++ [connectionEdge connection]⟩ : Snapshot).graph =
          withConnection s.graph connection := by
        simp only [Snapshot.graph, List.map_append]
        rfl
      rw [hadded, hgraph]
      exact h.present.connect hsource htarget hvalid
  · exact h

/-- A selection changes nothing that is encoded. -/
theorem select (h : s.Built) (nodeIds edgeIds : List String) : (s.select nodeIds edgeIds).Built := by
  refine h.set ?_
  have hgraph : (⟨s.nodes.map fun n => { n with selected := decide (n.node.id ∈ nodeIds) },
      s.edges.map fun e => { e with selected := decide (e.id ∈ edgeIds) }⟩ : Snapshot).graph =
        s.graph := by
    simp only [Snapshot.graph, List.map_map]
    rfl
  rw [hgraph]
  exact h.present

/-- A removal keeps the graph built. -/
theorem removeSelected (h : s.Built) : s.removeSelected.Built := by
  simp only [EditorState.removeSelected]
  split
  · exact h
  · refine (h.snapshot MAX_HISTORY).set ?_
    apply h.present.remove
    · exact List.filter_sublist.map _
    · exact List.map_subset _ (List.filter_subset_self _)
    · intro e he
      obtain ⟨flowEdge, hmem, rfl⟩ := List.mem_map.1 he
      obtain ⟨hmem, hkept⟩ := List.mem_filter.1 hmem
      obtain ⟨-, hsource, htarget⟩ := of_decide_eq_true hkept
      have hedge : flowEdge.edge ∈ s.graph.edges := List.mem_map_of_mem hmem
      -- an end that is not removed is still there
      have hstays {id : String} (hid : id ∈ s.graph.ids)
          (hnot : id ∉ (s.nodes.filter FlowNode.selected).map fun n => n.node.id) :
          id ∈ ((s.nodes.filter fun n => n.node.id ∉
            (s.nodes.filter FlowNode.selected).map fun n => n.node.id).map FlowNode.node).map
              EditorNode.id := by
        obtain ⟨node, hnode, rfl⟩ := List.mem_map.1 hid
        obtain ⟨flowNode, hflow, rfl⟩ := List.mem_map.1 hnode
        apply List.mem_map_of_mem
        apply List.mem_map_of_mem
        exact List.mem_filter.2 ⟨hflow, decide_eq_true hnot⟩
      exact ⟨hstays (h.present.wellFormed.source _ hedge) hsource,
        hstays (h.present.wellFormed.target _ hedge) htarget⟩

theorem undo (h : s.Built) : s.undo.Built := by
  rw [EditorState.undo]
  split
  · exact h
  · next history hundo => exact History.All.undo h hundo

theorem redo (h : s.Built) : s.redo.Built := by
  rw [EditorState.redo]
  split
  · exact h
  · next history hredo => exact History.All.redo h hredo

end EditorState.Built

/-- Every operation keeps the graph built. -/
theorem BuildOp.apply_built {lib : FlowLibrary} (hlib : lib.AddsOnce) {s : EditorState} (h : s.Built)
    (op : BuildOp) : (op.apply lib s).Built := by
  cases op with
  | addNode stepType position now => exact h.addNode stepType position now
  | connect connection => exact h.connect hlib connection
  | remove nodeIds edgeIds => exact (h.select nodeIds edgeIds).removeSelected
  | undo => exact h.undo
  | redo => exact h.redo

/-- **Every graph that is built** passes the cycle check. -/
theorem build_acyclic {lib : FlowLibrary} (hlib : lib.AddsOnce) (ops : List BuildOp) :
    hasCycle (run (BuildOp.apply lib) EditorState.initial ops).graph = some false := by
  have hstep (s : EditorState) (op : BuildOp) (h : s.Built) (_ : True) : (op.apply lib s).Built :=
    BuildOp.apply_built hlib h op
  have hbuilt : (run (BuildOp.apply lib) EditorState.initial ops).Built :=
    run_invariant hstep EditorState.Built.initial (admitted_true _ _ ops)
  obtain ⟨cyclic, hanswer, hexact⟩ := hasCycle_exact hbuilt.present.wellFormed
  cases cyclic with
  | false => exact hanswer
  | true => exact absurd hbuilt.present.acyclic (hexact.1 rfl)

/-- **Cycle prevention** is exact and sufficient. -/
theorem cycle_prevention_exact {lib : FlowLibrary} (hlib : lib.AddsOnce) :
    (∀ graph : EditorGraph, graph.WellFormed → ∃ cyclic, hasCycle graph = some cyclic ∧
      (cyclic = true ↔ ∃ id, Relation.TransGen (EdgeOf graph) id id)) ∧
    (∀ (graph : EditorGraph) (connection : EditorEdge), graph.WellFormed → Acyclic (EdgeOf graph) →
      connection.source ∈ graph.ids → connection.target ∈ graph.ids →
      ∃ valid, isValidConnection connection graph = some valid ∧
        (valid = true ↔ Acyclic (EdgeOf (withConnection graph connection)))) ∧
    ∀ ops : List BuildOp,
      hasCycle (run (BuildOp.apply lib) EditorState.initial ops).graph = some false := by
  refine ⟨?_, ?_, build_acyclic hlib⟩
  · intro graph hwf
    obtain ⟨cyclic, hanswer, hexact⟩ := hasCycle_exact hwf
    refine ⟨cyclic, hanswer, hexact.trans ?_⟩
    rw [Acyclic]
    push Not
    rfl
  · intro graph connection hwf hacyclic _ htarget
    exact isValidConnection_exact hwf hacyclic htarget

theorem plainLibrary_addsOnce : plainLibrary.AddsOnce := fun _ _ => Or.inr rfl

/-- Two conditions and an edge between them; the edge back is refused. -/
def backAndForth : List BuildOp :=
  [.addNode alwaysOption ⟨0, 0⟩ 0, .addNode alwaysOption ⟨0, 100⟩ 0,
    .connect ⟨"node-1", "node-2", .true⟩, .connect ⟨"node-2", "node-1", .false⟩]

theorem cycle_prevention_exact_backAndForth :
    (run (BuildOp.apply plainLibrary) EditorState.initial backAndForth).graph.edges =
        [⟨"node-1", "node-2", .true⟩] ∧
      hasCycle (run (BuildOp.apply plainLibrary) EditorState.initial backAndForth).graph =
        some false := by
  refine ⟨by decide, ?_⟩
  exact (cycle_prevention_exact plainLibrary_addsOnce).2.2 backAndForth

end StrategyBuilder.Editor
