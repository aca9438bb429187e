import StrategyBuilder.Automation.Graph
import StrategyBuilder.Lib.Search

/-!
# Graph validation in the editor

`validate-graph.ts`. What `validateGraph` rejects is collected as a list of errors; no error means
that the graph is `Accepted` (`validateGraph_accepts`): it has one start from which every node is
reached, no infinite path leaves a node, conditions have a way out and actions at most one.

The functions answer `none` where the code throws: `hasCycle` reads a property of `undefined` when an
edge leaves something that is no node. On well-formed graphs they answer (`validateGraph_total`).
-/

set_option autoImplicit false

namespace StrategyBuilder.Editor

open StrategyBuilder.Automation
open StrategyBuilder.Lib
open StrategyBuilder.Lib.Js

/-- `MAX_STEPS` -/
def maxSteps : Nat := 256

/-- An error of the graph, and the node that it is about. -/
structure ValidationError where
  message : String
  nodeId : Option String
deriving DecidableEq, Repr

/-! ## Cycles -/

/-- The map `adj` of `hasCycle`. -/
def adjacency (graph : EditorGraph) : Option (Map String (List String)) :=
  graph.edges.foldlM
    (fun adj e => (adj e.source).map fun targets => adj.set e.source (targets ++ [e.target]))
    (Map.fill graph.ids [])

/-- `hasCycle`: a search over all nodes with three colours. An edge from a node that is not there
throws. -/
def hasCycle (graph : EditorGraph) : Option Bool := do
  let adj ← adjacency graph
  searchCycle (fun id => (adj id).getD []) graph.nodes.length graph.ids (Map.fill graph.ids .white)

section Cycles

variable {graph : EditorGraph}

/-- The loop appends each target to the list of its source. -/
theorem foldlM_adjacency (edges : List EditorEdge) (m : Map String (List String))
    (h : ∀ e ∈ edges, m e.source ≠ none) :
    ∃ adj, edges.foldlM (fun adj e =>
        (adj e.source).map fun targets => adj.set e.source (targets ++ [e.target])) m = some adj ∧
      ∀ id, adj id = (m id).map
        (· ++ (edges.filter fun e => e.source = id).map EditorEdge.target) := by
  induction edges generalizing m with
  | nil => exact ⟨m, rfl, fun id => by simp⟩
  | cons e edges ih =>
    obtain ⟨targets, htargets⟩ := Option.ne_none_iff_exists'.1 (h e (List.mem_cons_self ..))
    have hrest : ∀ e' ∈ edges, m.set e.source (targets ++ [e.target]) e'.source ≠ none := by
      intro e' he'
      by_cases hsource : e'.source = e.source
      · simp [hsource]
      · rw [Map.set_of_ne m _ hsource]
        exact h e' (List.mem_cons_of_mem e he')
    obtain ⟨adj, hadj, hvalue⟩ := ih _ hrest
    refine ⟨adj, by simpa [htargets] using hadj, fun id => ?_⟩
    rw [hvalue id]
    by_cases hid : e.source = id
    · subst hid
      simp [htargets]
    · have hne : id ≠ e.source := fun h => hid h.symm
      simp [hid, Map.set_of_ne m _ hne]

/-- On a well-formed graph `adj` holds the successors. -/
theorem adjacency_eq (hwf : graph.WellFormed) :
    ∃ adj, adjacency graph = some adj ∧ (fun id => (adj id).getD []) = graph.successors := by
  have hsource : ∀ e ∈ graph.edges, Map.fill graph.ids ([] : List String) e.source ≠ none := by
    intro e he
    simp [Map.fill_apply, hwf.source e he]
  obtain ⟨adj, hadj, hvalue⟩ := foldlM_adjacency graph.edges _ hsource
  refine ⟨adj, hadj, funext fun id => ?_⟩
  rw [hvalue id, Map.fill_apply, EditorGraph.successors, EditorGraph.outEdges_eq]
  by_cases hid : id ∈ graph.ids
  · simp [hid]
  · have hempty : graph.edges.filter (fun e => e.source = id) = [] := by
      rw [List.filter_eq_nil_iff]
      intro e he hdec
      exact hid (of_decide_eq_true hdec ▸ hwf.source e he)
    simp [hid, hempty]

/-- At the start no node has been found. -/
theorem fill_white (graph : EditorGraph) :
    WellColored graph.successors graph.ids (Map.fill graph.ids .white) := by
  refine ⟨fun id hid => by simp [Map.fill_apply, hid], fun id hblack => ?_⟩
  rw [Map.fill_apply] at hblack
  split at hblack
  · cases hblack
  · cases hblack

/-- On a well-formed graph the search runs on the successors. -/
theorem hasCycle_eq (hwf : graph.WellFormed) :
    hasCycle graph = searchCycle graph.successors graph.nodes.length graph.ids
      (Map.fill graph.ids .white) := by
  obtain ⟨adj, hadj, hsucc⟩ := adjacency_eq hwf
  simp only [hasCycle, hadj, ← hsucc]
  rfl

theorem hasCycle_total (hwf : graph.WellFormed) : ∃ cyclic, hasCycle graph = some cyclic := by
  rw [hasCycle_eq hwf]
  refine searchCycle_ends hwf.closed (List.Subset.refl _) ?_
  exact Nat.le_trans (whites_le _ _) (Nat.le_of_eq (List.length_map ..))

/-- Where no cycle is found no infinite path leaves a node. -/
theorem grounded_of_hasCycle (hwf : graph.WellFormed) (h : hasCycle graph = some false) :
    ∀ id ∈ graph.ids, Grounded graph.successors id := by
  rw [hasCycle_eq hwf] at h
  refine searchCycle_grounded hwf.closed (List.Subset.refl _)
    (fill_white graph) (fun id hgray => ?_) h
  rw [Map.fill_apply] at hgray
  split at hgray
  · cases hgray
  · cases hgray

end Cycles

/-! ## Validation -/

/-- The set `reachable` after the queue loop. -/
def reachable (graph : EditorGraph) (start : String) : Option (List String) :=
  (bfs graph.successors (graph.nodes.length + graph.edges.length) start).map Bfs.visited

/-- The errors about the number and the kind of the start nodes. -/
def startErrors (graph : EditorGraph) (isPublic : Bool) : List ValidationError :=
  match graph.startNodes with
  | [] => [⟨"No start node found (all nodes have incoming edges)", none⟩]
  | [start] =>
      if isPublic = true ∧ start.type = .action then
        [⟨"Public automation must start with a Condition", some start.id⟩]
      else []
  | startNodes => startNodes.map fun n => ⟨"Multiple start nodes detected", some n.id⟩

/-- The errors about the edges that leave a node. -/
def outgoingErrors (graph : EditorGraph) (node : EditorNode) : List ValidationError :=
  match node.type with
  | .condition =>
      if (graph.outEdges node.id).length = 0 then
        [⟨"Condition must have at least one outgoing edge", some node.id⟩]
      else []
  | .action =>
      if 1 < (graph.outEdges node.id).length then
        [⟨"Action must have at most one outgoing edge", some node.id⟩]
      else []

/-- The errors about nodes that the start does not reach. -/
def unreachableErrors (graph : EditorGraph) : Option (List ValidationError) :=
  match graph.startNodes with
  | [start] => do
      let reachable ← reachable graph start.id
      return (graph.nodes.filter fun n => n.id ∉ reachable).map fun n =>
        ⟨"Node is unreachable from start", some n.id⟩
  | _ => some []

/-- `validateGraph`: all rules on the graph, for a public automation or one of the owner. -/
def validateGraph (graph : EditorGraph) (isPublic : Bool) : Option (List ValidationError) :=
  if graph.nodes.length = 0 then some [⟨"Graph must have at least one node", none⟩]
  else if maxSteps < graph.nodes.length then
    some [⟨"Graph exceeds maximum of " ++ toString maxSteps ++ " steps", none⟩]
  else do
    let cyclic ← hasCycle graph
    let unreachable ← unreachableErrors graph
    return startErrors graph isPublic ++
      (if cyclic then [⟨"Graph contains a cycle", none⟩] else []) ++
      graph.nodes.flatMap (outgoingErrors graph) ++ unreachable

/-! ## What is accepted -/

/-- A graph without errors. -/
structure Accepted (graph : EditorGraph) (isPublic : Bool) (start : EditorNode) : Prop where
  nonempty : graph.nodes ≠ []
  le_maxSteps : graph.nodes.length ≤ maxSteps
  startNodes : graph.startNodes = [start]
  public_start : isPublic = true → start.type = .condition
  grounded : ∀ id ∈ graph.ids, Grounded graph.successors id
  condition_out : ∀ n ∈ graph.nodes, n.type = .condition → graph.outEdges n.id ≠ []
  action_out : ∀ n ∈ graph.nodes, n.type = .action → (graph.outEdges n.id).length ≤ 1
  reached : ∀ n ∈ graph.nodes, Relation.ReflTransGen (Edge graph.successors) start.id n.id

section Validation

variable {graph : EditorGraph} {isPublic : Bool}

/-- The nodes that are found are those that can be reached. -/
theorem reachable_spec (hwf : graph.WellFormed) {start : String} (hstart : start ∈ graph.ids) :
    ∃ ids, reachable graph start = some ids ∧
      ∀ id, id ∈ ids ↔ Relation.ReflTransGen (Edge graph.successors) start id := by
  have hfuel : graph.ids.length ≤ graph.nodes.length + graph.edges.length := by
    rw [EditorGraph.ids, List.length_map]
    omega
  obtain ⟨s, hs, hvisited, -, -, hmem⟩ := bfs_spec hstart hwf.closed hfuel
  exact ⟨s.visited, by simp [reachable, hs], fun id => by rw [hvisited]; exact hmem id⟩

theorem start_mem {start : EditorNode} (h : graph.startNodes = [start]) : start ∈ graph.nodes :=
  (EditorGraph.mem_startNodes.1 (h ▸ List.mem_singleton_self start)).1

/-- On a well-formed graph the check does not throw. -/
theorem unreachableErrors_total (hwf : graph.WellFormed) :
    ∃ errors, unreachableErrors graph = some errors := by
  unfold unreachableErrors
  split
  · rename_i start hstart
    obtain ⟨ids, hids, -⟩ := reachable_spec hwf (List.mem_map_of_mem (start_mem hstart))
    rw [hids]
    exact ⟨_, rfl⟩
  · exact ⟨_, rfl⟩

/-- On a well-formed graph the validation neither throws nor runs forever. -/
theorem validateGraph_total (hwf : graph.WellFormed) (isPublic : Bool) :
    ∃ errors, validateGraph graph isPublic = some errors := by
  unfold validateGraph
  split
  · exact ⟨_, rfl⟩
  · split
    · exact ⟨_, rfl⟩
    · obtain ⟨cyclic, hcyclic⟩ := hasCycle_total hwf
      obtain ⟨unreachable, hunreachable⟩ := unreachableErrors_total hwf
      rw [hcyclic, hunreachable]
      exact ⟨_, rfl⟩

/-- Without errors there is one start node, of the right kind. -/
theorem startErrors_eq_nil {isPublic : Bool} (h : startErrors graph isPublic = []) :
    ∃ start, graph.startNodes = [start] ∧ (isPublic = true → start.type = .condition) := by
  cases hs : graph.startNodes with
  | nil => simp [startErrors, hs] at h
  | cons start rest =>
    cases rest with
    | cons n rest => simp [startErrors, hs] at h
    | nil =>
      refine ⟨start, rfl, fun hpublic => ?_⟩
      cases htype : start.type with
      | condition => rfl
      | action => simp [startErrors, hs, hpublic, htype] at h

/-- **What the validation accepts.** -/
theorem validateGraph_accepts (hwf : graph.WellFormed)
    (h : validateGraph graph isPublic = some []) : ∃ start, Accepted graph isPublic start := by
  unfold validateGraph at h
  split at h
  · cases h
  · rename_i hlen
    split at h
    · cases h
    · rename_i hmax
      obtain ⟨cyclic, hcyclic, h⟩ := Option.bind_eq_some_iff.1 h
      obtain ⟨unreachable, hunreachable, h⟩ := Option.bind_eq_some_iff.1 h
      rw [Option.pure_def, Option.some.injEq] at h
      -- no errors at all: every check has passed
      simp only [List.append_eq_nil_iff] at h
      obtain ⟨⟨⟨hstart, hcycle⟩, hout⟩, rfl⟩ := h
      obtain ⟨start, hs, hpublic⟩ := startErrors_eq_nil hstart
      have hno : cyclic = false := by
        cases cyclic with
        | false => rfl
        | true => cases hcycle
      have hnode : ∀ n ∈ graph.nodes, outgoingErrors graph n = [] :=
        List.flatMap_eq_nil_iff.1 hout
      refine ⟨start, fun hnil => hlen (by simp [hnil]), Nat.le_of_not_lt hmax, hs, hpublic,
        grounded_of_hasCycle hwf (hno ▸ hcyclic), fun n hn htype => ?_, fun n hn htype => ?_,
        fun n hn => ?_⟩
      · intro hnil
        have herr := hnode n hn
        simp [outgoingErrors, htype, hnil] at herr
      · by_contra hlt
        have herr := hnode n hn
        simp [outgoingErrors, htype, Nat.lt_of_not_le hlt] at herr
      · obtain ⟨ids, hids, hmem⟩ := reachable_spec hwf (List.mem_map_of_mem (start_mem hs))
        simp only [unreachableErrors, hs, hids] at hunreachable
        have hall : (graph.nodes.filter fun n => n.id ∉ ids) = [] := by
          simpa using hunreachable
        rw [List.filter_eq_nil_iff] at hall
        refine (hmem n.id).1 ?_
        simpa using hall n hn

end Validation

end StrategyBuilder.Editor
