import StrategyBuilder.Backend.EncodingService
import StrategyBuilder.Contracts.AcyclicSteps
import StrategyBuilder.Editor.ValidateGraph

/-!
# What an encoded graph does on chain

The steps that the encoder makes of a graph that the editor accepts. The breadth-first order is a
numbering of the nodes (`Numbering`), and every continuation of a step is an edge of its node. Since
no infinite path leaves a node, the step array is layered: the vault runs no step twice and reaches
`DONE` (`validated_graph_terminates`).

A walk through the graph follows the edge whose handle names the branch taken (`Walk`). The encoder
takes the first such edge and the vault its step, so the vault visits what the walk visits unless the
graph is ambiguous: `faithful_iff` says exactly when.
-/

set_option autoImplicit false

namespace StrategyBuilder.Automation

open StrategyBuilder.Backend
open StrategyBuilder.Contracts
open StrategyBuilder.Contracts.Vault
open StrategyBuilder.Editor
open StrategyBuilder.Lib
open StrategyBuilder.Lib.Abi
open StrategyBuilder.Lib.Js
open StrategyBuilder.Shared

/-! ## Walks through the graph -/

/-- The handle by which a node is left, where `answer` is what it answers if it is a condition. -/
def branch : StepCategory → Bool → SourceHandle
  | .condition, true => .true
  | .condition, false => .false
  | .action, _ => .out

/-- The paths through the graph from a node to where no edge leads on, with `answers k` as the answer
of a condition that is the `k`-th node of the walk. -/
inductive Walk (graph : EditorGraph) (answers : Nat → Bool) : Nat → String → List String → Prop where
  | stop {k : Nat} {n : EditorNode} : n ∈ graph.nodes →
      (∀ e ∈ graph.edges, e.source = n.id → e.sourceHandle ≠ branch n.type (answers k)) →
      Walk graph answers k n.id [n.id]
  | leave {k : Nat} {n : EditorNode} {e : EditorEdge} {path : List String} : n ∈ graph.nodes →
      e ∈ graph.edges → e.source = n.id → e.sourceHandle = branch n.type (answers k) →
      Walk graph answers (k + 1) e.target path → Walk graph answers k n.id (n.id :: path)

/-! ## What the encoder promises -/

/-- The vault's name for the kind of a node. -/
def stepTypeOf : StepCategory → Vault.StepType
  | .condition => .condition
  | .action => .action

/-- The step is the node's, up to where it continues. -/
structure StepOf (svc : Services) (slotMapping : Record Nat) (n : EditorNode) (step : Step) :
    Prop where
  stepType : step.stepType = stepTypeOf n.type
  catalog : ∃ st ∈ svc.stepTypes, st.id = n.stepTypeId ∧ step.target = st.contractAddress ∧
    step.selector = st.selector ∧
    encodeParams svc n.params st.abiFragment slotMapping st.paramSchema = .ok step.data

/-- `order` numbers the nodes, and the step of a number is the node's. -/
structure Numbering (svc : Services) (slotMapping : Record Nat) (graph : EditorGraph)
    (steps : List Step) (order : List String) : Prop where
  nodup : order.Nodup
  mem : ∀ id, id ∈ order ↔ id ∈ graph.ids
  length : steps.length = order.length
  step : ∀ n ∈ graph.nodes, ∀ i : Nat, order[i]? = some n.id →
    ∃ step, steps[i]? = some step ∧ StepOf svc slotMapping n step

/-- The step continues at `j` on the branch that the handle names. -/
def Continues (step : Step) (j : Nat) : SourceHandle → Prop
  | .true => step.stepType = .condition ∧ step.nextOnTrue = j
  | .false => step.stepType = .condition ∧ step.nextOnFalse = j
  | .out => step.stepType = .action ∧ step.nextOnTrue = j

/-- Every edge is a continuation of its source's step. -/
def EdgeFaithful (graph : EditorGraph) (steps : List Step) (order : List String) : Prop :=
  ∀ e ∈ graph.edges, ∀ i j : Nat, order[i]? = some e.source → order[j]? = some e.target →
    ∃ step, steps[i]? = some step ∧ Continues step j e.sourceHandle

/-- For every sequence of answers the vault visits what the walk from the first node visits, in the
same order. -/
def WalkFaithful (graph : EditorGraph) (steps : List Step) (order : List String) : Prop :=
  ∀ (v : State) (id : Nat) (env : Env) (sender : Address) (answers : Nat → Bool),
    (v.automations id).steps = steps → Answering env steps v.ctx.length answers →
    (sender = v.owner ∨ answers 0 = true) → ∀ start, order[0]? = some start →
    ∀ path, Walk graph answers 0 start path ↔
      path.map some =
        (visited env sender v.owner steps (startLoop v (v.automations id))).map (order[·]?)

/-- The steps do what the graph says. -/
def Faithful (svc : Services) (slotMapping : Record Nat) (graph : EditorGraph) (steps : List Step) :
    Prop :=
  ∃ order, Numbering svc slotMapping graph steps order ∧ EdgeFaithful graph steps order ∧
    WalkFaithful graph steps order

/-- Edges of one source and one handle have one target, and every edge leaves by a handle of its
source's kind. -/
structure Unambiguous (graph : EditorGraph) : Prop where
  target : ∀ e ∈ graph.edges, ∀ e' ∈ graph.edges, e.source = e'.source →
    e.sourceHandle = e'.sourceHandle → e.target = e'.target
  handle : ∀ n ∈ graph.nodes, ∀ e ∈ graph.edges, e.source = n.id →
    ∃ answer, e.sourceHandle = branch n.type answer

/-! ## The steps of an encoding -/

/-- The step of a node, where the edges lead as `indices` says. -/
structure EncodedStep (svc : Services) (slotMapping : Record Nat) (graph : EditorGraph)
    (indices : Map String Nat) (n : EditorNode) (step : Step) : Prop where
  stepOf : StepOf svc slotMapping n step
  next : ∀ answer, step.next answer = nextOn indices (graph.outEdges n.id) (branch n.type answer)
  nextOnTrue : step.nextOnTrue = nextOn indices (graph.outEdges n.id) (branch n.type true)
  nextOnFalse : step.nextOnFalse =
    match n.type with
    | .condition => nextOn indices (graph.outEdges n.id) .false
    | .action => DONE

section Encoding

variable {svc : Services} {graph : EditorGraph} {slotMapping : Record Nat} {order : List String}
  {steps : List Step}

theorem nodeMap_of_mem (hwf : graph.WellFormed) {n : EditorNode} (hn : n ∈ graph.nodes) :
    nodeMap graph n.id = some n := by
  refine Map.ofEntries_of_mem ?_ (List.mem_map.2 ⟨n, hn, rfl⟩)
  rw [List.map_map]
  exact hwf.nodup

/-- A node that is encoded has the step of its type, with the indices of its successors. -/
theorem encodeStep_ok {indices : Map String Nat} {n : EditorNode}
    (hn : nodeMap graph n.id = some n) {step : Step}
    (h : encodeStep svc graph slotMapping indices n.id = .ok step) :
    EncodedStep svc slotMapping graph indices n step := by
  simp only [encodeStep, hn] at h
  cases hst : svc.stepTypeMap n.stepTypeId with
  | none =>
    simp only [hst] at h
    cases h
  | some st =>
    simp only [hst] at h
    cases hdata : encodeParams svc n.params st.abiFragment slotMapping st.paramSchema with
    | error e =>
      simp only [hdata] at h
      cases h
    | ok data =>
      -- the step type is a row of the catalog, under the id of the node
      have hmem : st ∈ svc.stepTypes ∧ st.id = n.stepTypeId := by
        obtain ⟨st', hst', heq⟩ := List.mem_map.1 (Map.mem_of_ofEntries hst)
        rw [Prod.mk.injEq] at heq
        obtain ⟨hid, rfl⟩ := heq
        exact ⟨hst', hid⟩
      simp only [hdata] at h
      cases htype : n.type with
      | condition =>
        simp only [htype] at h
        cases h
        refine ⟨⟨by simp [stepTypeOf, htype], st, hmem.1, hmem.2, rfl, rfl, hdata⟩, ?_, ?_, ?_⟩
        · intro answer
          cases answer with
          | true => simp [Step.next, branch, htype]
          | false => simp [Step.next, branch, htype]
        · simp [branch, htype]
        · simp [htype]
      | action =>
        simp only [htype] at h
        cases h
        refine ⟨⟨by simp [stepTypeOf, htype], st, hmem.1, hmem.2, rfl, rfl, hdata⟩, ?_, ?_, ?_⟩
        · intro answer
          simp [Step.next, branch, htype]
        · simp [branch, htype]
        · simp [htype]

/-- A node has its place in the order as its index. -/
theorem indexMap_eq_some (hnodup : order.Nodup) {id : String} {i : Nat} :
    indexMap order id = some i ↔ order[i]? = some id := by
  constructor
  · intro h
    have hmem := Map.mem_of_ofEntries h
    rw [List.mem_zipIdx_iff_getElem?] at hmem
    exact hmem
  · intro h
    refine Map.ofEntries_of_mem ?_ ?_
    · rw [List.zipIdx_map_fst]
      exact hnodup
    · rw [List.mem_zipIdx_iff_getElem?]
      exact h

/-- What `encodeSteps` returns on a graph whose breadth-first order is `order`. -/
structure Encoding (svc : Services) (slotMapping : Record Nat) (graph : EditorGraph)
    (order : List String) (steps : List Step) : Prop where
  nodup : order.Nodup
  mem : ∀ id, id ∈ order ↔ id ∈ graph.ids
  head : order.head? = graph.startNodes.head?.map EditorNode.id
  length : steps.length = order.length
  step : ∀ n ∈ graph.nodes, ∀ i : Nat, order[i]? = some n.id →
    ∃ step, steps[i]? = some step ∧ EncodedStep svc slotMapping graph (indexMap order) n step

/-- On an accepted graph the breadth-first order lists every node once. -/
theorem encodeSteps_ok (hwf : graph.WellFormed) {isPublic : Bool} {start : EditorNode}
    (hacc : Accepted graph isPublic start) (h : encodeSteps svc graph slotMapping = .ok steps) :
    ∃ order, Encoding svc slotMapping graph order steps := by
  have hstart : start.id ∈ graph.ids := List.mem_map_of_mem (start_mem hacc.startNodes)
  have hfuel : graph.ids.length ≤ graph.nodes.length + graph.edges.length := by
    rw [EditorGraph.ids, List.length_map]
    omega
  -- nodes and edges together are fuel enough
  obtain ⟨s, hs, -, hnodup, hhead, hmem⟩ := bfs_spec hstart hwf.closed hfuel
  have hbfs : Backend.bfs graph = .ok s.order := by
    simp only [Backend.bfs, hacc.startNodes, List.head?_cons, hs]
  simp only [encodeSteps, hbfs] at h
  obtain ⟨hlength, hstep⟩ := mapM_ok h
  refine ⟨s.order, hnodup, fun id => ?_, ?_, hlength, fun n hn i hi => ?_⟩
  · rw [hmem id]
    constructor
    · intro hpath
      induction hpath with
      | refl => exact hstart
      | tail _ hedge ih => exact hwf.closed _ ih _ hedge
    · intro hid
      obtain ⟨n, hn, rfl⟩ := List.mem_map.1 hid
      exact hacc.reached n hn
  · rw [hhead, hacc.startNodes]
    rfl
  · obtain ⟨step, hget, henc⟩ := hstep i n.id hi
    exact ⟨step, hget, encodeStep_ok (nodeMap_of_mem hwf hn) henc⟩

theorem Encoding.numbering (h : Encoding svc slotMapping graph order steps) :
    Numbering svc slotMapping graph steps order := by
  refine ⟨h.nodup, h.mem, h.length, fun n hn i hi => ?_⟩
  obtain ⟨step, hget, henc⟩ := h.step n hn i hi
  exact ⟨step, hget, henc.stepOf⟩

/-- There are as many steps as nodes. -/
theorem Numbering.length_nodes (h : Numbering svc slotMapping graph steps order)
    (hwf : graph.WellFormed) : steps.length = graph.nodes.length := by
  have hperm : order.Perm graph.ids := (List.perm_ext_iff_of_nodup h.nodup hwf.nodup).2 h.mem
  rw [h.length, hperm.length_eq, EditorGraph.ids, List.length_map]

/-- Every step is some node's. -/
theorem Encoding.node (h : Encoding svc slotMapping graph order steps) {i : Nat} {step : Step}
    (hget : steps[i]? = some step) :
    ∃ n ∈ graph.nodes, order[i]? = some n.id ∧
      EncodedStep svc slotMapping graph (indexMap order) n step := by
  have hlt : i < order.length := by
    rw [← h.length]
    exact (List.getElem?_eq_some_iff.1 hget).1
  have hid : order[i] ∈ graph.ids := (h.mem _).1 (List.getElem_mem hlt)
  obtain ⟨n, hn, hnid⟩ := List.mem_map.1 hid
  have hi : order[i]? = some n.id := by rw [List.getElem?_eq_getElem hlt, hnid]
  obtain ⟨step', hget', henc⟩ := h.step n hn i hi
  rw [hget, Option.some.injEq] at hget'
  exact ⟨n, hn, hi, hget' ▸ henc⟩

/-- Where a node is left by a handle: at the number of the first such edge's target. -/
theorem Encoding.nextOn (h : Encoding svc slotMapping graph order steps) (hwf : graph.WellFormed)
    (id : String) (handle : SourceHandle) :
    (Backend.nextOn (indexMap order) (graph.outEdges id) handle = DONE ∧
        ∀ e ∈ graph.edges, e.source = id → e.sourceHandle ≠ handle) ∨
      ∃ e ∈ graph.edges, e.source = id ∧ e.sourceHandle = handle ∧
        order[Backend.nextOn (indexMap order) (graph.outEdges id) handle]? = some e.target := by
  cases hfind : (graph.outEdges id).find? fun e => e.sourceHandle = handle with
  | none =>
    refine Or.inl ⟨by simp only [Backend.nextOn, hfind], fun e he hsource hhandle => ?_⟩
    rw [List.find?_eq_none] at hfind
    exact hfind e (EditorGraph.mem_outEdges.2 ⟨he, hsource⟩) (decide_eq_true hhandle)
  | some e =>
    have hmem := EditorGraph.mem_outEdges.1 (List.mem_of_find?_eq_some hfind)
    have hhandle : e.sourceHandle = handle := by simpa using List.find?_some hfind
    have htarget : e.target ∈ order := (h.mem _).2 (hwf.target e hmem.1)
    obtain ⟨j, hj⟩ := List.mem_iff_getElem?.1 htarget
    refine Or.inr ⟨e, hmem.1, hmem.2, hhandle, ?_⟩
    have hindex : indexMap order e.target = some j := (indexMap_eq_some h.nodup).2 hj
    simp only [Backend.nextOn, hfind, hindex, Option.getD_some]
    exact hj

/-! ## Termination -/

/-- The rank of a node carries over to its number. -/
theorem Encoding.layered (h : Encoding svc slotMapping graph order steps) (hwf : graph.WellFormed)
    (hground : ∀ id ∈ graph.ids, Grounded graph.successors id) :
    ∃ rank, Layered steps rank := by
  obtain ⟨rank, hbound, hdown⟩ := exists_rank hwf.closed hground
  have hlen : graph.ids.length = steps.length := by
    rw [h.numbering.length_nodes hwf, EditorGraph.ids, List.length_map]
  refine ⟨fun i => rank (order[i]?.getD ""), fun i hi => ?_, fun i step hget answer => ?_⟩
  · have hlt : i < order.length := h.length ▸ hi
    rw [List.getElem?_eq_getElem hlt, Option.getD_some, ← hlen]
    exact hbound _ ((h.mem _).1 (List.getElem_mem hlt))
  · obtain ⟨n, hn, hi, henc⟩ := h.node hget
    rw [henc.next answer]
    rcases h.nextOn hwf n.id (branch n.type answer) with ⟨hend, -⟩ | ⟨e, he, hsource, -, hnext⟩
    · exact Or.inl hend
    · refine Or.inr ⟨?_, ?_⟩
      · rw [h.length]
        exact (List.getElem?_eq_some_iff.1 hnext).1
      · rw [hnext, hi, Option.getD_some, Option.getD_some]
        exact hdown n.id (List.mem_map_of_mem hn) e.target
          (EditorGraph.mem_successors.2 ⟨e, he, hsource, rfl⟩)

/-- The steps pass the vault's validation, for the kind of automation that the encoder infers. -/
theorem Encoding.executable (h : Encoding svc slotMapping graph order steps)
    (hwf : graph.WellFormed) {isPublic : Bool} {start : EditorNode}
    (hacc : Accepted graph isPublic start)
    (hcatalog : ∀ st ∈ svc.stepTypes, st.contractAddress ≠ Address.zero ∧ st.selector ≠ 0) :
    Executable ⟨true, inferOwnerOnly graph, steps⟩ := by
  have hlen := h.numbering.length_nodes hwf
  have hpos : 0 < graph.nodes.length := List.length_pos_iff.2 hacc.nonempty
  have hnext (n : EditorNode) (handle : SourceHandle) :
      Backend.nextOn (indexMap order) (graph.outEdges n.id) handle = DONE ∨
        Backend.nextOn (indexMap order) (graph.outEdges n.id) handle < steps.length := by
    rcases h.nextOn hwf n.id handle with ⟨hend, -⟩ | ⟨e, -, -, -, hnext⟩
    · exact Or.inl hend
    · refine Or.inr ?_
      rw [h.length]
      exact (List.getElem?_eq_some_iff.1 hnext).1
  refine ⟨fun hnil => ?_, fun step hstep => ?_, fun hpublic => ?_⟩
  · have hzero : steps.length = 0 := List.length_eq_zero_iff.2 hnil
    omega
  · obtain ⟨i, hget⟩ := List.mem_iff_getElem?.1 hstep
    obtain ⟨n, -, -, henc⟩ := h.node hget
    obtain ⟨st, hst, -, htarget, hselector, -⟩ := henc.stepOf.catalog
    refine ⟨htarget ▸ (hcatalog st hst).1, hselector ▸ (hcatalog st hst).2, ?_, ?_, ?_⟩
    · rw [henc.nextOnTrue]
      exact hnext n _
    · intro htype
      rw [henc.nextOnFalse]
      cases hn : n.type with
      | condition => exact hnext n .false
      | action =>
        rw [henc.stepOf.stepType, hn] at htype
        cases htype
    · intro htype
      rw [henc.nextOnFalse]
      cases hn : n.type with
      | condition =>
        rw [henc.stepOf.stepType, hn] at htype
        cases htype
      | action => rfl
  · -- the first step is the start node's, which is no action
    have hfirst : order[0]? = some start.id := by
      rw [← List.head?_eq_getElem?, h.head, hacc.startNodes]
      rfl
    obtain ⟨step, hget, henc⟩ := h.step start (start_mem hacc.startNodes) 0 hfirst
    refine ⟨step, hget, ?_⟩
    rw [henc.stepOf.stepType]
    cases htype : start.type with
    | condition => rfl
    | action =>
      have howner : inferOwnerOnly graph = false := hpublic
      simp [inferOwnerOnly, hacc.startNodes, htype] at howner

end Encoding

/-- **Validated graphs terminate on chain.** The steps of a graph that the editor accepts are as many
as its nodes and pass the vault's validation for the function that the encoder selects. Whatever
conditions and actions answer, an execution runs no step twice and never meets the step limit. Where
they answer, it reaches `DONE` within the number of steps, unless the trigger of a public automation
refuses the sender. -/
theorem validated_graph_terminates {svc : Services} {slots : ContextSlots}
    {onChainCtx : Option (List Bytes)} {automationId : String} {graph : EditorGraph}
    {contextOverrides : Option (Record HexData)} {r : EncodeResult}
    (hcatalog : ∀ st ∈ svc.stepTypes, st.contractAddress ≠ Address.zero ∧ st.selector ≠ 0)
    (hwf : graph.WellFormed) (hvalid : validateGraph graph (!inferOwnerOnly graph) = some [])
    (hencode : (encode svc slots onChainCtx automationId graph contextOverrides).2 = .ok r) :
    r.steps.length = graph.nodes.length ∧
      (r.functionName, r.automationCalldata) = createCall r.ownerOnly r.steps ∧
      validateSteps r.steps r.ownerOnly = .ok () ∧
      ∀ (v : State) (id : Nat), (v.automations id).steps = r.steps →
        ∀ (env : Env) (sender : Address),
          let start := startLoop v (v.automations id)
          (visited env sender v.owner r.steps start).Nodup ∧
          (visited env sender v.owner r.steps start).length ≤ r.steps.length ∧
          executeAutomation env sender id v ≠ .error (.error .maxStepsExceeded) ∧
          ∀ answers, Answering env r.steps v.ctx.length answers →
            ((sender = v.owner ∨ answers 0 = true) →
              ∃ t, traverse env sender v.owner r.steps start = .ok t ∧ t.current = DONE ∧
                t.stepCount ≤ r.steps.length) ∧
            (r.ownerOnly = false → sender ≠ v.owner → answers 0 = false →
              traverse env sender v.owner r.steps start = .error (.error .triggerNotMet)) := by
  obtain ⟨⟨hsteps, hown, -, -⟩, -, hcall⟩ := encode_ok hencode
  obtain ⟨start, hacc⟩ := validateGraph_accepts hwf hvalid
  obtain ⟨order, henc⟩ := encodeSteps_ok hwf hacc hsteps
  -- an acyclic graph gives the steps a rank that every jump lowers
  obtain ⟨rank, hlayered⟩ := henc.layered hwf hacc.grounded
  have hexec := henc.executable hwf hacc hcatalog
  have hlen := henc.numbering.length_nodes hwf
  have hmax : r.steps.length ≤ Vault.maxSteps := hlen ▸ hacc.le_maxSteps
  have hbound : r.steps.length < 2 ^ 32 := Nat.lt_of_le_of_lt hmax (by decide)
  refine ⟨hlen, hcall, hown ▸ (validateSteps_eq_ok hbound).2 hexec, ?_⟩
  intro v id hv env sender start
  have hdesc : Descending r.steps rank start := Descending.start hlayered hexec.nonempty rfl rfl
  refine ⟨visited_nodup env sender v.owner hlayered hdesc,
    visited_length_le env sender v.owner hlayered hdesc, ?_, ?_⟩
  · exact executeAutomation_ne_maxStepsExceeded env sender (hv ▸ hlayered) (hv ▸ hexec.nonempty)
      (hv ▸ hmax)
  · intro answers hanswering
    refine ⟨fun htrigger => (traverse_answering hlayered hmax hanswering htrigger hdesc rfl).2, ?_⟩
    intro hpublic hsender hanswer
    obtain ⟨first, hfirst, hcond⟩ := hexec.first (hown ▸ hpublic)
    have hcheck : checkCondition env 0 first 0 v.ctx = .ok false :=
      hanswer ▸ hanswering.condition 0 first hfirst hcond 0 v.ctx rfl
    exact traverse_refused hfirst hcond hsender rfl rfl hcheck

/-- A catalog of one condition and one action without parameters. -/
def sampleServices : Services where
  stepTypes := [⟨"always", ⟨7⟩, 0xd89f1e36, [], none⟩, ⟨"notify", ⟨8⟩, 0x09c5eabe, [], none⟩]
  abiEncode := fun types _ => if types = [] then some [] else none

/-- A condition that leads to one action on both branches, and from there to another. -/
def sampleGraph : EditorGraph where
  nodes := [⟨"node-1", .condition, "always", []⟩, ⟨"node-2", .action, "notify", []⟩,
    ⟨"node-3", .action, "notify", []⟩]
  edges := [⟨"node-1", "node-2", .true⟩, ⟨"node-1", "node-2", .false⟩, ⟨"node-2", "node-3", .out⟩]

theorem sampleGraph_wellFormed : sampleGraph.WellFormed := ⟨by decide, by decide, by decide⟩

theorem sampleServices_nonzero :
    ∀ st ∈ sampleServices.stepTypes, st.contractAddress ≠ Address.zero ∧ st.selector ≠ 0 := by
  intro st hst
  simp only [sampleServices, List.mem_cons, List.not_mem_nil, or_false] at hst
  rcases hst with rfl | rfl
  · decide
  · decide

theorem sampleGraph_encoded :
    ∃ r, (encode sampleServices [] (some []) "a1" sampleGraph none).2 = .ok r :=
  exists_of_isOk (by decide)

theorem validated_graph_terminates_sample : ∃ r : EncodeResult,
    r.steps.length = sampleGraph.nodes.length ∧ validateSteps r.steps r.ownerOnly = .ok () := by
  obtain ⟨r, hr⟩ := sampleGraph_encoded
  obtain ⟨hlen, -, hvalid, -⟩ := validated_graph_terminates sampleServices_nonzero
    sampleGraph_wellFormed (by decide) hr
  exact ⟨r, hlen, hvalid⟩

/-! ## Faithfulness -/

section Faithfulness

variable {svc : Services} {graph : EditorGraph} {slotMapping : Record Nat} {order : List String}
  {steps : List Step} {answers : Nat → Bool}

/-- A walk ends at a node without an edge for the answer, or goes on along one. -/
theorem walk_iff (hwf : graph.WellFormed) {k : Nat} {n : EditorNode} (hn : n ∈ graph.nodes)
    {path : List String} :
    Walk graph answers k n.id path ↔
      (path = [n.id] ∧ ∀ e ∈ graph.edges, e.source = n.id →
        e.sourceHandle ≠ branch n.type (answers k)) ∨
      ∃ e ∈ graph.edges, e.source = n.id ∧ e.sourceHandle = branch n.type (answers k) ∧
        ∃ rest, path = n.id :: rest ∧ Walk graph answers (k + 1) e.target rest := by
  constructor
  · intro h
    generalize hid : n.id = id at h
    cases h with
    | @stop _ n' hn' hstop =>
      obtain rfl := hwf.node_unique hn hn' hid
      exact Or.inl ⟨rfl, hstop⟩
    | @leave _ n' e rest hn' he hsource hhandle hrest =>
      obtain rfl := hwf.node_unique hn hn' hid
      exact Or.inr ⟨e, he, hsource, hhandle, rest, rfl, hrest⟩
  · rintro (⟨rfl, hstop⟩ | ⟨e, he, hsource, hhandle, rest, rfl, hrest⟩)
    · exact .stop hn hstop
    · exact .leave hn he hsource hhandle hrest

theorem trace_done (steps : List Step) (answers : Nat → Bool) (n k : Nat) :
    trace steps answers n k DONE = [] := by
  cases n with
  | zero => rfl
  | succ n => rw [trace, if_pos rfl]

/-- The numbers of an unambiguous graph's walk are the trace of its steps. By induction on the rounds
that the trace may take, which are more than the rank of the node. -/
theorem Encoding.walk_trace (h : Encoding svc slotMapping graph order steps)
    (hwf : graph.WellFormed) (hu : Unambiguous graph) {rank : Nat → Nat}
    (hlayered : Layered steps rank) (hmax : steps.length ≤ Vault.maxSteps) {n k i : Nat}
    {id : String} (hi : order[i]? = some id) (hrank : rank i < n) (path : List String) :
    Walk graph answers k id path ↔
      path.map some = (trace steps answers n k i).map (order[·]?) := by
  induction n generalizing k i id path with
  | zero => exact absurd hrank (Nat.not_lt_zero _)
  | succ n ih =>
    have hlt : i < order.length := (List.getElem?_eq_some_iff.1 hi).1
    have hne : i ≠ DONE := by
      have hdone : Vault.maxSteps < DONE := by decide
      have hlength := h.length
      omega
    obtain ⟨node, hnode, rfl⟩ := List.mem_map.1 ((h.mem id).1 (List.mem_of_getElem? hi))
    obtain ⟨step, hget, henc⟩ := h.step node hnode i hi
    have hdown := hlayered.next i step hget (answers k)
    rw [walk_iff hwf hnode, trace, if_neg hne, hget, List.map_cons, hi]
    rw [henc.next (answers k)] at hdown ⊢
    rcases h.nextOn hwf node.id (branch node.type (answers k)) with
      ⟨hend, hnone⟩ | ⟨e, he, hsource, hhandle, hnext⟩
    · rw [hend, trace_done]
      constructor
      · rintro (⟨rfl, -⟩ | ⟨e, he, hsource, hhandle, -⟩)
        · rfl
        · exact absurd hhandle (hnone e he hsource)
      · intro hpath
        refine Or.inl ⟨?_, hnone⟩
        cases path with
        | nil => simp at hpath
        | cons x rest => simpa using hpath
    · have hbelow : rank (Backend.nextOn (indexMap order) (graph.outEdges node.id)
          (branch node.type (answers k))) < n := by
        rcases hdown with hend | ⟨-, hlower⟩
        · -- a number of a node is no `DONE`
          have hlt' := (List.getElem?_eq_some_iff.1 hnext).1
          have hdone : Vault.maxSteps < DONE := by decide
          have hlength := h.length
          omega
        · omega
      have hrest := ih (k := k + 1) hnext hbelow
      constructor
      · rintro (⟨-, hstop⟩ | ⟨e', he', hsource', hhandle', rest, rfl, hwalk⟩)
        · exact absurd hhandle (hstop e he hsource)
        · have htarget : e'.target = e.target :=
            hu.target e' he' e he (hsource'.trans hsource.symm) (hhandle'.trans hhandle.symm)
          rw [htarget] at hwalk
          rw [List.map_cons, (hrest rest).1 hwalk]
      · intro hpath
        cases path with
        | nil => simp at hpath
        | cons x rest =>
          rw [List.map_cons, List.cons.injEq, Option.some.injEq] at hpath
          obtain ⟨rfl, hpath⟩ := hpath
          exact Or.inr ⟨e, he, hsource, hhandle, rest, rfl, (hrest rest).2 hpath⟩

/-- Each edge is a jump of the step of its source. -/
theorem Encoding.edgeFaithful (h : Encoding svc slotMapping graph order steps)
    (hwf : graph.WellFormed) (hu : Unambiguous graph) : EdgeFaithful graph steps order := by
  intro e he i j hi hj
  obtain ⟨n, hn, hid⟩ := List.mem_map.1 (hwf.source e he)
  obtain ⟨step, hget, henc⟩ := h.step n hn i (hid ▸ hi)
  obtain ⟨answer, hanswer⟩ := hu.handle n hn e he hid.symm
  -- the first edge with this handle is taken, and by `hu` it has the same target
  have hj' : Backend.nextOn (indexMap order) (graph.outEdges n.id) (branch n.type answer) = j := by
    rcases h.nextOn hwf n.id (branch n.type answer) with
      ⟨-, hnone⟩ | ⟨e', he', hsource, hhandle, hnext⟩
    · exact absurd hanswer (hnone e he hid.symm)
    · have htarget : e'.target = e.target :=
        hu.target e' he' e he (hsource.trans hid) (hhandle.trans hanswer.symm)
      rw [htarget] at hnext
      have hsame := (indexMap_eq_some h.nodup).2 hnext
      rw [(indexMap_eq_some h.nodup).2 hj, Option.some.injEq] at hsame
      exact hsame.symm
  refine ⟨step, hget, ?_⟩
  rw [hanswer]
  cases htype : n.type with
  | condition =>
    have hstep : step.stepType = .condition := by rw [henc.stepOf.stepType, htype]; rfl
    cases answer with
    | true =>
      refine ⟨hstep, ?_⟩
      rw [henc.nextOnTrue, ← hj', htype]
    | false =>
      refine ⟨hstep, ?_⟩
      rw [henc.nextOnFalse, ← hj', htype]
      rfl
  | action =>
    refine ⟨by rw [henc.stepOf.stepType, htype]; rfl, ?_⟩
    rw [henc.nextOnTrue, ← hj', htype]
    rfl

/-- The loop of the vault visits what the walk in the graph visits. -/
theorem Encoding.walkFaithful (h : Encoding svc slotMapping graph order steps)
    (hwf : graph.WellFormed) (hu : Unambiguous graph) {rank : Nat → Nat}
    (hlayered : Layered steps rank) (hmax : steps.length ≤ Vault.maxSteps) :
    WalkFaithful graph steps order := by
  intro v id env sender answers hv hanswering htrigger start hstart path
  have hlt : 0 < steps.length := by
    rw [h.length]
    exact (List.getElem?_eq_some_iff.1 hstart).1
  have hdesc : Descending steps rank (startLoop v (v.automations id)) :=
    Descending.start hlayered (List.length_pos_iff.1 hlt) rfl rfl
  have hrank : rank 0 < Vault.maxSteps + 1 := by
    have hbound := hlayered.rank_lt 0 hlt
    omega
  rw [(traverse_answering hlayered hmax hanswering htrigger hdesc rfl).1]
  exact h.walk_trace hwf hu hlayered hmax hstart hrank path

/-- What keeps to the graph shows that it is unambiguous. -/
theorem Faithful.unambiguous (hwf : graph.WellFormed)
    (h : Faithful svc slotMapping graph steps) : Unambiguous graph := by
  obtain ⟨order, hnum, hedge, -⟩ := h
  have hindex {id : String} (hid : id ∈ graph.ids) : ∃ i : Nat, order[i]? = some id :=
    List.mem_iff_getElem?.1 ((hnum.mem id).2 hid)
  constructor
  · intro e he e' he' hsource hhandle
    obtain ⟨i, hi⟩ := hindex (hwf.source e he)
    obtain ⟨j, hj⟩ := hindex (hwf.target e he)
    obtain ⟨j', hj'⟩ := hindex (hwf.target e' he')
    obtain ⟨step, hget, hcont⟩ := hedge e he i j hi hj
    obtain ⟨step', hget', hcont'⟩ := hedge e' he' i j' (hsource ▸ hi) hj'
    rw [hget, Option.some.injEq] at hget'
    subst hget'
    -- two edges with one handle would be one jump with two targets
    have hsame : j = j' := by
      rw [← hhandle] at hcont'
      cases hh : e.sourceHandle with
      | true =>
        rw [hh] at hcont hcont'
        exact hcont.2.symm.trans hcont'.2
      | false =>
        rw [hh] at hcont hcont'
        exact hcont.2.symm.trans hcont'.2
      | out =>
        rw [hh] at hcont hcont'
        exact hcont.2.symm.trans hcont'.2
    rw [hsame, hj', Option.some.injEq] at hj
    exact hj.symm
  · intro n hn e he hsource
    obtain ⟨i, hi⟩ := hindex (hwf.source e he)
    obtain ⟨j, hj⟩ := hindex (hwf.target e he)
    obtain ⟨step, hget, hcont⟩ := hedge e he i j hi hj
    obtain ⟨step', hget', hstep⟩ := hnum.step n hn i (hsource ▸ hi)
    rw [hget, Option.some.injEq] at hget'
    subst hget'
    -- the step's type tells which handles its node can have
    have htype := hstep.stepType
    cases hh : e.sourceHandle with
    | true =>
      rw [hh] at hcont
      cases hn : n.type with
      | condition => exact ⟨true, rfl⟩
      | action =>
        rw [hn, hcont.1] at htype
        cases htype
    | false =>
      rw [hh] at hcont
      cases hn : n.type with
      | condition => exact ⟨false, rfl⟩
      | action =>
        rw [hn, hcont.1] at htype
        cases htype
    | out =>
      rw [hh] at hcont
      cases hn : n.type with
      | condition =>
        rw [hn, hcont.1] at htype
        cases htype
      | action => exact ⟨true, rfl⟩

end Faithfulness

/-- **Edge-faithful encoding.** The steps that the encoder makes of an accepted graph do what the
graph says exactly if the graph is unambiguous. -/
theorem faithful_iff {svc : Services} {slots : ContextSlots} {onChainCtx : Option (List Bytes)}
    {automationId : String} {graph : EditorGraph} {contextOverrides : Option (Record HexData)}
    {r : EncodeResult} {isPublic : Bool} (hwf : graph.WellFormed)
    (hvalid : validateGraph graph isPublic = some [])
    (hencode : (encode svc slots onChainCtx automationId graph contextOverrides).2 = .ok r) :
    Faithful svc (slotMappingOf svc slots automationId graph).2 graph r.steps ↔
      Unambiguous graph := by
  refine ⟨fun h => h.unambiguous hwf, fun hu => ?_⟩
  have hsteps := (encode_ok hencode).1.steps
  obtain ⟨start, hacc⟩ := validateGraph_accepts hwf hvalid
  obtain ⟨order, henc⟩ := encodeSteps_ok hwf hacc hsteps
  obtain ⟨rank, hlayered⟩ := henc.layered hwf hacc.grounded
  have hmax : r.steps.length ≤ Vault.maxSteps := henc.numbering.length_nodes hwf ▸ hacc.le_maxSteps
  exact ⟨order, henc.numbering, henc.edgeFaithful hwf hu, henc.walkFaithful hwf hu hlayered hmax⟩

theorem sampleGraph_unambiguous : Unambiguous sampleGraph := ⟨by decide, by decide⟩

theorem faithful_iff_sample : ∃ r : EncodeResult, Faithful sampleServices
    (slotMappingOf sampleServices [] "a1" sampleGraph).2 sampleGraph r.steps := by
  obtain ⟨r, hr⟩ := sampleGraph_encoded
  have hvalid : validateGraph sampleGraph true = some [] := by decide
  exact ⟨r, (faithful_iff sampleGraph_wellFormed hvalid hr).2 sampleGraph_unambiguous⟩

/-- A condition whose `true` branch leads to two actions. -/
def forkedGraph : EditorGraph where
  nodes := [⟨"node-1", .condition, "always", []⟩, ⟨"node-2", .action, "notify", []⟩,
    ⟨"node-3", .action, "notify", []⟩]
  edges := [⟨"node-1", "node-2", .true⟩, ⟨"node-1", "node-3", .true⟩]

/-- The editor accepts the forked graph, and the encoder drops one of its edges. -/
theorem forkedGraph_unfaithful :
    ¬ ∀ (svc : Services) (slots : ContextSlots) (onChainCtx : Option (List Bytes))
      (automationId : String) (graph : EditorGraph) (contextOverrides : Option (Record HexData))
      (r : EncodeResult) (isPublic : Bool), graph.WellFormed →
      validateGraph graph isPublic = some [] →
      (encode svc slots onChainCtx automationId graph contextOverrides).2 = .ok r →
      Faithful svc (slotMappingOf svc slots automationId graph).2 graph r.steps := by
  intro h
  have hwf : forkedGraph.WellFormed := ⟨by decide, by decide, by decide⟩
  have hvalid : validateGraph forkedGraph true = some [] := by decide
  obtain ⟨r, hr⟩ : ∃ r, (encode sampleServices [] (some []) "a1" forkedGraph none).2 = .ok r :=
    exists_of_isOk (by decide)
  have hu := (h _ _ _ _ _ _ _ _ hwf hvalid hr).unambiguous hwf
  have htarget := hu.target ⟨"node-1", "node-2", .true⟩ (by decide) ⟨"node-1", "node-3", .true⟩
    (by decide) rfl rfl
  exact absurd htarget (by decide)

end StrategyBuilder.Automation
