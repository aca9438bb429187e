import StrategyBuilder.Automation.EncodedGraph

/-!
# Which requests end in calldata that the vault accepts

The encoder checks the number of nodes and the parameters, infers the kind of the automation from the
number of start nodes, and starts at the first of them; the vault wants a condition as the first step
of a public automation, and a target and a selector in every step. `calldata_valid_iff` says for which
requests the rules agree.

An edge may lead to a node that is not there: then the encoder fails with an error of its own. Of two
nodes with one id it starts at the first and encodes the last.
-/

set_option autoImplicit false

namespace StrategyBuilder.Backend

open StrategyBuilder.Automation
open StrategyBuilder.Contracts
open StrategyBuilder.Contracts.Vault
open StrategyBuilder.Lib
open StrategyBuilder.Lib.Abi
open StrategyBuilder.Lib.Js
open StrategyBuilder.Shared

/-! ## Verdicts -/

/-- The vault's `_validateSteps` accepts the steps of a call. `ownerOnly` is the stored flag of the
automation that an update is for. -/
def PassesValidation (ownerOnly : Bool) : Op → Prop
  | .createAutomation steps => validateSteps steps false = .ok ()
  | .createOwnerAutomation steps => validateSteps steps true = .ok ()
  | .updateAutomationSteps _ steps => validateSteps steps ownerOnly = .ok ()
  | _ => False

/-- The request is rejected as a bad one, or its calldata passes the validation. -/
def RejectedOrValid (ownerOnly : Bool) : Except Thrown EncodeResult → Prop
  | .error (.badRequest _) => True
  | .error .internal => False
  | .ok r => PassesValidation ownerOnly r.automationCalldata

section

variable (svc : Services) (slotMapping : Record Nat) (graph : EditorGraph)

/-- The id is a node's, the catalog has its step type, and its parameters can be encoded. -/
def Encodable (id : String) : Prop :=
  ∃ node stepType data, nodeMap graph id = some node ∧
    svc.stepTypeMap node.stepTypeId = some stepType ∧
    encodeParams svc node.params stepType.abiFragment slotMapping stepType.paramSchema = .ok data

/-- The id is a node's, and its step type or one of its parameters is answered with a bad request. -/
def Refused (id : String) : Prop :=
  ∃ node, nodeMap graph id = some node ∧ (svc.stepTypeMap node.stepTypeId = none ∨
    ∃ stepType message, svc.stepTypeMap node.stepTypeId = some stepType ∧
      encodeParams svc node.params stepType.abiFragment slotMapping stepType.paramSchema =
        .error (.badRequest message))

/-- The catalog has a contract and a selector for the node of the id. -/
def Callable (id : String) : Prop :=
  ∀ node stepType, nodeMap graph id = some node → svc.stepTypeMap node.stepTypeId = some stepType →
    stepType.contractAddress ≠ Address.zero ∧ stepType.selector ≠ 0

/-- There is no start node, or the first node in breadth-first order that cannot be encoded is
refused. -/
def Rejected : Prop :=
  graph.startNodes = [] ∨ ∃ pre id post, bfs graph = .ok (pre ++ id :: post) ∧
    (∀ x ∈ pre, Encodable svc slotMapping graph x) ∧ Refused svc slotMapping graph id

/-- Every node that is reached can be encoded and called. -/
def Deployable : Prop :=
  ∃ order, bfs graph = .ok order ∧
    ∀ id ∈ order, Encodable svc slotMapping graph id ∧ Callable svc graph id

/-- What is encoded for the first start node is a condition. -/
def StartsWithCondition : Prop :=
  ∃ start node, graph.startNodes.head? = some start ∧ nodeMap graph start.id = some node ∧
    node.type = .condition

end

/-- Every slot of the context to write gets a data string. -/
def ContextEncodes (ctx : List Bytes) (entries : Record Nat)
    (contextOverrides : Option (Record HexData)) (slotMapping : Record Nat) : Prop :=
  ∀ data ∈ buildExpandedContext ctx (newSlots contextOverrides entries) contextOverrides slotMapping,
    data.isSome = true

/-- When `encode` does right by a request whose variables have the slots `slotMapping`. -/
def EncodeSound (svc : Services) (onChainCtx : Option (List Bytes)) (graph : EditorGraph)
    (contextOverrides : Option (Record HexData)) (slotMapping : Record Nat) : Prop :=
  validateRequest svc graph ≠ .ok () ∨ Rejected svc slotMapping graph ∨
    Deployable svc slotMapping graph ∧
      (graph.startNodes.length = 1 ∨ StartsWithCondition graph) ∧
      (slotMapping ≠ [] ∨ hasOverrides contextOverrides = true →
        ContextEncodes (onChainCtx.getD []) slotMapping contextOverrides slotMapping)

/-- When `encodeUpdate` does, for an automation that is stored as `ownerOnly`. -/
def UpdateSound (ownerOnly : Bool) (svc : Services) (onChainCtx : Option (List Bytes))
    (graph : EditorGraph) (contextOverrides : Option (Record HexData)) (slotMapping : Record Nat) :
    Prop :=
  let newSlotEntries := slotMapping.filter fun (_, idx) => (onChainCtx.getD []).length ≤ idx
  validateRequest svc graph ≠ .ok () ∨ Rejected svc slotMapping graph ∨
    Deployable svc slotMapping graph ∧
      (ownerOnly = true ∨ StartsWithCondition graph) ∧
      (newSlotEntries ≠ [] ∨ hasOverrides contextOverrides = true →
        ContextEncodes (onChainCtx.getD []) newSlotEntries contextOverrides slotMapping)

section

variable {svc : Services} {slotMapping : Record Nat} {graph : EditorGraph}

/-! ## The nodes of the maps -/

/-- `nodeMap` answers with a node of the id, and with one if there is one. -/
theorem nodeMap_some {id : String} {n : EditorNode} (h : nodeMap graph id = some n) :
    n ∈ graph.nodes ∧ n.id = id := by
  obtain ⟨m, hm, heq⟩ := List.mem_map.1 (Map.mem_of_ofEntries h)
  rw [Prod.mk.injEq] at heq
  obtain ⟨hid, rfl⟩ := heq
  exact ⟨hm, hid⟩

/-- The search succeeds from the start node, which comes first. -/
theorem bfs_ok {start : EditorNode} (h : graph.startNodes.head? = some start) :
    ∃ order, bfs graph = .ok order ∧ order.Nodup ∧ order.head? = some start.id := by
  have hstart : start ∈ graph.nodes := (EditorGraph.mem_startNodes.1 (List.mem_of_head? h)).1
  have hpos : 0 < graph.nodes.length := List.length_pos_of_mem hstart
  -- the search does not leave the start node and the targets of the edges
  have hclosed : ∀ x ∈ start.id :: graph.edges.map EditorEdge.target, ∀ y ∈ graph.successors x,
      y ∈ start.id :: graph.edges.map EditorEdge.target := by
    intro x _ y hy
    obtain ⟨e, he, -, rfl⟩ := EditorGraph.mem_successors.1 hy
    exact List.mem_cons_of_mem _ (List.mem_map_of_mem he)
  -- the targets may be ids of no node, so the edges count for the fuel
  have hfuel : (start.id :: graph.edges.map EditorEdge.target).length ≤
      graph.nodes.length + graph.edges.length := by
    rw [List.length_cons, List.length_map]
    omega
  obtain ⟨s, hs, -, hnodup, hhead, -⟩ := bfs_spec (List.mem_cons_self ..) hclosed hfuel
  refine ⟨s.order, ?_, hnodup, hhead⟩
  simp only [bfs, h, hs]

theorem bfs_none (h : graph.startNodes = []) :
    bfs graph = .error (.badRequest "No start node found") := by
  simp only [bfs, h, List.head?_nil]

/-- The order has no more ids than the graph has nodes, where all of them are nodes'. -/
theorem length_le_nodes {order : List String} (hnodup : order.Nodup)
    (h : ∀ id ∈ order, ∃ n, nodeMap graph id = some n) : order.length ≤ graph.nodes.length := by
  have hsub : order ⊆ graph.ids := by
    intro id hid
    obtain ⟨n, hn⟩ := h id hid
    obtain ⟨hmem, rfl⟩ := nodeMap_some hn
    exact List.mem_map_of_mem hmem
  have hle := (List.subperm_of_subset hnodup hsub).length_le
  rwa [EditorGraph.ids, List.length_map] at hle

/-! ## The steps -/

/-- When a node is encoded. -/
theorem encodeStep_isOk {indices : Map String Nat} {id : String} :
    (∃ step, encodeStep svc graph slotMapping indices id = .ok step) ↔
      Encodable svc slotMapping graph id := by
  unfold encodeStep Encodable
  cases hnode : nodeMap graph id with
  | none => simp
  | some node =>
    cases hst : svc.stepTypeMap node.stepTypeId with
    | none => simp [hst]
    | some st =>
      cases hdata : encodeParams svc node.params st.abiFragment slotMapping st.paramSchema with
      | error e =>
        constructor
        · rintro ⟨step, h⟩
          simp only [hst, hdata] at h
          cases h
        · rintro ⟨_, _, data, hnode', hst', hdata'⟩
          cases hnode'
          rw [hst] at hst'
          cases hst'
          rw [hdata] at hdata'
          cases hdata'
      | ok data =>
        refine ⟨fun _ => ⟨node, st, data, rfl, hst, hdata⟩, fun _ => ?_⟩
        simp only [hst, hdata]
        cases htype : node.type with
        | condition => exact ⟨_, rfl⟩
        | action => exact ⟨_, rfl⟩

/-- When a node is refused. -/
theorem encodeStep_badRequest {indices : Map String Nat} {id : String} :
    (∃ m, encodeStep svc graph slotMapping indices id = .error (.badRequest m)) ↔
      Refused svc slotMapping graph id := by
  unfold encodeStep Refused
  cases hnode : nodeMap graph id with
  | none => simp
  | some node =>
    cases hst : svc.stepTypeMap node.stepTypeId with
    | none => simp [hst]
    | some st =>
      cases hdata : encodeParams svc node.params st.abiFragment slotMapping st.paramSchema with
      | error e =>
        constructor
        · rintro ⟨m, h⟩
          simp only [hst, hdata] at h
          cases h
          exact ⟨node, rfl, Or.inr ⟨st, m, hst, hdata⟩⟩
        · rintro ⟨_, hnode', hrefused⟩
          cases hnode'
          rcases hrefused with hnone | ⟨_, m, hst', hdata'⟩
          · rw [hst] at hnone
            cases hnone
          · rw [hst] at hst'
            cases hst'
            rw [hdata] at hdata'
            cases hdata'
            refine ⟨m, ?_⟩
            simp only [hst, hdata]
            rfl
      -- parameters that encode are never refused, whatever the type
      | ok data =>
        constructor
        · rintro ⟨m, h⟩
          simp only [hst, hdata] at h
          cases htype : node.type with
          | condition =>
            simp only [htype] at h
            cases h
          | action =>
            simp only [htype] at h
            cases h
        · rintro ⟨_, hnode', hrefused⟩
          cases hnode'
          rcases hrefused with hnone | ⟨_, m, hst', hdata'⟩
          · rw [hst] at hnone
            cases hnone
          · rw [hst] at hst'
            cases hst'
            rw [hdata] at hdata'
            cases hdata'

/-- Target and selector of a step are those of the node's catalog row. -/
theorem encodeStep_row {indices : Map String Nat} {id : String} {node : EditorNode}
    {stepType : Backend.StepType} {step : Step} (hnode : nodeMap graph id = some node)
    (hst : svc.stepTypeMap node.stepTypeId = some stepType)
    (h : encodeStep svc graph slotMapping indices id = .ok step) :
    step.target = stepType.contractAddress ∧ step.selector = stepType.selector := by
  simp only [encodeStep, hnode, hst] at h
  cases hdata :
      encodeParams svc node.params stepType.abiFragment slotMapping stepType.paramSchema with
  | error e =>
    simp only [hdata] at h
    cases h
  | ok data =>
    simp only [hdata] at h
    cases htype : node.type with
    | condition =>
      simp only [htype] at h
      cases h
      exact ⟨rfl, rfl⟩
    | action =>
      simp only [htype] at h
      cases h
      exact ⟨rfl, rfl⟩

theorem encodeSteps_of_bfs {order : List String} (h : bfs graph = .ok order) :
    encodeSteps svc graph slotMapping =
      order.mapM (encodeStep svc graph slotMapping (indexMap order)) := by
  simp only [encodeSteps, h]
  rfl

/-- The steps are rejected where there is no start node, and where the first node that cannot be
encoded is refused. -/
theorem encodeSteps_badRequest : (∃ m, encodeSteps svc graph slotMapping = .error (.badRequest m)) ↔
    Rejected svc slotMapping graph := by
  rw [Rejected]
  cases hstart : graph.startNodes with
  | nil =>
    refine ⟨fun _ => Or.inl rfl, fun _ => ⟨"No start node found", ?_⟩⟩
    simp only [encodeSteps, bfs_none hstart]
    rfl
  | cons start rest =>
    have hhead : graph.startNodes.head? = some start := by rw [hstart]; rfl
    obtain ⟨order, hbfs, -, -⟩ := bfs_ok hhead
    rw [encodeSteps_of_bfs hbfs]
    constructor
    · rintro ⟨m, h⟩
      obtain ⟨pre, id, post, rfl, hpre, hid⟩ := mapM_eq_error.1 h
      exact Or.inr ⟨pre, id, post, hbfs, fun x hx => encodeStep_isOk.1 (hpre x hx),
        encodeStep_badRequest.1 ⟨m, hid⟩⟩
    · rintro (hnil | ⟨pre, id, post, horder, hpre, hid⟩)
      · cases hnil
      · rw [hbfs] at horder
        cases horder
        obtain ⟨m, hm⟩ := encodeStep_badRequest.2 hid
        exact ⟨m, mapM_eq_error.2
          ⟨pre, id, post, rfl, fun x hx => encodeStep_isOk.2 (hpre x hx), hm⟩⟩

/-- The graph is encoded if all nodes that are reached are. -/
theorem encodeSteps_isOk : (∃ steps, encodeSteps svc graph slotMapping = .ok steps) ↔
    ∃ order, bfs graph = .ok order ∧ ∀ id ∈ order, Encodable svc slotMapping graph id := by
  constructor
  · rintro ⟨steps, h⟩
    cases hbfs : bfs graph with
    | error e =>
      simp only [encodeSteps, hbfs] at h
      cases h
    | ok order =>
      rw [encodeSteps_of_bfs hbfs] at h
      exact ⟨order, rfl, fun id hid => encodeStep_isOk.1 (mapM_isOk.1 ⟨steps, h⟩ id hid)⟩
  · rintro ⟨order, hbfs, hall⟩
    rw [encodeSteps_of_bfs hbfs]
    exact mapM_isOk.2 fun id hid => encodeStep_isOk.2 (hall id hid)

/-- Where a step continues is `DONE` or the number of a step. -/
theorem nextOn_lt {order : List String} (hnodup : order.Nodup) (outEdges : List EditorEdge)
    (handle : SourceHandle) : nextOn (indexMap order) outEdges handle = DONE ∨
      nextOn (indexMap order) outEdges handle < order.length := by
  rw [nextOn]
  cases outEdges.find? fun e => e.sourceHandle = handle with
  | none => exact Or.inl rfl
  | some e =>
    cases hindex : indexMap order e.target with
    | none => exact Or.inl (by simp [hindex])
    | some j =>
      have hj := (List.getElem?_eq_some_iff.1 ((indexMap_eq_some hnodup).1 hindex)).1
      exact Or.inr (by simpa [hindex] using hj)

/-! ## The vault's validation -/

/-- The vault accepts encoded steps exactly when the nodes can be called, and the automation is one
of the owner or starts with a condition. -/
theorem validateSteps_encoded {steps : List Step} {order : List String} {ownerOnly : Bool}
    (hbfs : bfs graph = .ok order) (hsize : graph.nodes.length ≤ 256)
    (h : encodeSteps svc graph slotMapping = .ok steps) :
    validateSteps steps ownerOnly = .ok () ↔
      (∀ id ∈ order, Callable svc graph id) ∧ (ownerOnly = true ∨ StartsWithCondition graph) := by
  obtain ⟨start, hstart⟩ : ∃ start, graph.startNodes.head? = some start := by
    cases hstart : graph.startNodes with
    | nil =>
      rw [bfs_none hstart] at hbfs
      cases hbfs
    | cons start rest => exact ⟨start, rfl⟩
  obtain ⟨order', hbfs', hnodup, hfirst⟩ := bfs_ok hstart
  rw [hbfs] at hbfs'
  cases hbfs'
  obtain ⟨order', hbfs', hencodable⟩ := encodeSteps_isOk.1 ⟨steps, h⟩
  rw [hbfs] at hbfs'
  cases hbfs'
  rw [encodeSteps_of_bfs hbfs] at h
  obtain ⟨hlength, hmap⟩ := mapM_ok h
  have hle : order.length ≤ graph.nodes.length :=
    length_le_nodes hnodup fun id hid => (hencodable id hid).imp fun n hn => hn.choose_spec.choose_spec.1
  -- the vault counts the steps with 32 bits
  have hsmall : steps.length < 2 ^ 32 := by omega
  -- the step of every id, with its node
  have hstep : ∀ (i : Nat) (id : String), order[i]? = some id → ∃ node stepType step,
      nodeMap graph id = some node ∧ svc.stepTypeMap node.stepTypeId = some stepType ∧
        steps[i]? = some step ∧ step.target = stepType.contractAddress ∧
        step.selector = stepType.selector ∧
        EncodedStep svc slotMapping graph (indexMap order) node step := by
    intro i id hid
    obtain ⟨node, stepType, data, hnode, hst, -⟩ := hencodable id (List.mem_of_getElem? hid)
    obtain ⟨step, hget, henc⟩ := hmap i id hid
    obtain ⟨htarget, hselector⟩ := encodeStep_row hnode hst henc
    obtain ⟨-, rfl⟩ := nodeMap_some hnode
    exact ⟨node, stepType, step, hnode, hst, hget, htarget, hselector, encodeStep_ok hnode henc⟩
  have hfirst' : order[0]? = some start.id := by rw [← List.head?_eq_getElem?, hfirst]
  obtain ⟨node₀, -, step₀, hnode₀, -, hget₀, -, -, henc₀⟩ := hstep 0 start.id hfirst'
  have htype₀ : step₀.stepType = .condition ↔ node₀.type = .condition := by
    rw [henc₀.stepOf.stepType]
    cases node₀.type with
    | condition => simp [stepTypeOf]
    | action => simp [stepTypeOf]
  -- the vault's validation is that of an executable automation; its parts are compared one by one
  rw [@validateSteps_eq_ok steps true ownerOnly hsmall]
  constructor
  · intro hexec
    constructor
    · intro id hid node stepType hnode hst
      obtain ⟨i, hi⟩ := List.mem_iff_getElem?.1 hid
      obtain ⟨node', stepType', step, hnode', hst', hget, htarget, hselector, -⟩ := hstep i id hi
      rw [hnode] at hnode'
      cases hnode'
      rw [hst] at hst'
      cases hst'
      have hvalid := hexec.valid step (List.mem_of_getElem? hget)
      exact ⟨htarget ▸ hvalid.target, hselector ▸ hvalid.selector⟩
    · cases howner : ownerOnly with
      | true => exact Or.inl rfl
      | false =>
        obtain ⟨step, hget, htype⟩ := hexec.first howner
        rw [hget₀] at hget
        cases hget
        exact Or.inr ⟨start, node₀, hstart, hnode₀, htype₀.1 htype⟩
  · rintro ⟨hcallable, hkind⟩
    refine ⟨fun hnil => ?_, fun step hstep' => ?_, fun hpublic => ?_⟩
    · have hnil' : steps = [] := hnil
      rw [hnil'] at hget₀
      cases hget₀
    · obtain ⟨i, hget⟩ := List.mem_iff_getElem?.1 hstep'
      have hi : i < order.length := by
        rw [← hlength]
        exact (List.getElem?_eq_some_iff.1 hget).1
      obtain ⟨node, stepType, step', hnode, hst, hget', htarget, hselector, henc⟩ :=
        hstep i order[i] (List.getElem?_eq_getElem hi)
      have hsame : steps[i]? = some step := hget
      rw [hget'] at hsame
      cases hsame
      obtain ⟨hcontract, hsel⟩ := hcallable order[i] (List.getElem_mem hi) node stepType hnode hst
      -- jumps stay within the steps by construction
      have hnext (handle : SourceHandle) :
          nextOn (indexMap order) (graph.outEdges node.id) handle = DONE ∨
            nextOn (indexMap order) (graph.outEdges node.id) handle < steps.length := by
        rw [hlength]
        exact nextOn_lt hnodup _ handle
      refine ⟨htarget ▸ hcontract, hselector ▸ hsel, ?_, fun htype => ?_, fun htype => ?_⟩
      · rw [henc.nextOnTrue]
        exact hnext _
      · rw [henc.nextOnFalse]
        cases hn : node.type with
        | condition => exact hnext .false
        | action =>
          rw [henc.stepOf.stepType, hn] at htype
          cases htype
      · rw [henc.nextOnFalse]
        cases hn : node.type with
        | condition =>
          rw [henc.stepOf.stepType, hn] at htype
          cases htype
        | action => rfl
    · rcases hkind with howner | ⟨start', node, hstart', hnode, htype⟩
      · have hpublic' : ownerOnly = false := hpublic
        rw [howner] at hpublic'
        cases hpublic'
      · rw [hstart] at hstart'
        cases hstart'
        rw [hnode₀] at hnode
        cases hnode
        exact ⟨step₀, hget₀, htype₀.2 htype⟩

/-- A single start node is encoded as what it is: an action makes the automation the owner's. -/
theorem ownerOnly_or_condition : inferOwnerOnly graph = true ∨ StartsWithCondition graph ↔
    graph.startNodes.length = 1 ∨ StartsWithCondition graph := by
  constructor
  · rintro (howner | hcondition)
    · rw [inferOwnerOnly] at howner
      split at howner
      · rename_i start hstart
        exact Or.inl (by rw [hstart]; rfl)
      · cases howner
    · exact Or.inr hcondition
  · rintro (hone | hcondition)
    · obtain ⟨start, hstart⟩ := List.length_eq_one_iff.1 hone
      have hmem : start ∈ graph.startNodes := hstart ▸ List.mem_singleton_self start
      obtain ⟨hnode, hfree⟩ := EditorGraph.mem_startNodes.1 hmem
      obtain ⟨node, hget⟩ : ∃ node, nodeMap graph start.id = some node := by
        refine Map.ofEntries_isSome ?_
        rw [List.map_map]
        exact List.mem_map.2 ⟨start, hnode, rfl⟩
      -- another node of the same id would be a start node as well
      obtain ⟨hnode', hid⟩ := nodeMap_some hget
      have hmem' : node ∈ graph.startNodes :=
        EditorGraph.mem_startNodes.2 ⟨hnode', fun e he => hid ▸ hfree e he⟩
      rw [hstart, List.mem_singleton] at hmem'
      subst hmem'
      cases htype : node.type with
      | condition => exact Or.inr ⟨node, node, by rw [hstart]; rfl, hget, htype⟩
      | action => exact Or.inl (by simp [inferOwnerOnly, hstart, htype])
    · exact Or.inr hcondition

/-! ## The checks and the context -/

/-- The checks answer by 400 only. -/
theorem validateRequest_error {e : Thrown} (h : validateRequest svc graph = .error e) :
    ∃ message, e = .badRequest message := by
  unfold validateRequest validateServerSide at h
  split at h
  · cases h
    exact ⟨_, rfl⟩
  · split at h
    · cases h
      exact ⟨_, rfl⟩
    · change validateRawParams svc graph = _ at h
      simp only [validateRawParams] at h
      split at h
      · cases h
        exact ⟨_, rfl⟩
      · cases h

/-- A graph that passes the checks fits the vault. -/
theorem validateRequest_size (h : validateRequest svc graph = .ok ()) :
    graph.nodes.length ≤ 256 := by
  by_contra hsize
  have hserver : ∃ e, validateServerSide graph = .error e := by
    rw [validateServerSide]
    split
    · exact ⟨_, rfl⟩
    · rw [if_pos (by omega)]
      exact ⟨_, rfl⟩
  obtain ⟨e, he⟩ := hserver
  simp only [validateRequest, he] at h
  cases h

variable {onChainCtx : Option (List Bytes)} {contextOverrides : Option (Record HexData)}

/-- The coder takes data strings and refuses everything else with an error of its own. -/
theorem encodeSetContext_cases (expanded : List HexData) :
    (∃ call, encodeSetContext expanded = .ok call) ∧ (∀ data ∈ expanded, data.isSome = true) ∨
      encodeSetContext expanded = .error .internal ∧ ¬ ∀ data ∈ expanded, data.isSome = true := by
  have hmap : ∀ l : List HexData,
      (∃ ctx, l.mapM id = some ctx) ↔ ∀ data ∈ l, data.isSome = true := by
    intro l
    rw [mapM_isSome]
    exact forall₂_congr fun data _ => Option.isSome_iff_exists.symm
  rw [encodeSetContext]
  cases hctx : expanded.mapM id with
  | none =>
    refine Or.inr ⟨rfl, fun hall => ?_⟩
    obtain ⟨ctx, hsome⟩ := (hmap expanded).2 hall
    rw [hctx] at hsome
    cases hsome
  | some ctx => exact Or.inl ⟨⟨_, rfl⟩, (hmap expanded).1 ⟨ctx, hctx⟩⟩

/-- The context part of `encode` succeeds, or fails with an error that is no bad request. -/
theorem createContext_cases :
    (∃ answer, createContext onChainCtx contextOverrides slotMapping = .ok answer) ∧
        (slotMapping ≠ [] ∨ hasOverrides contextOverrides = true →
          ContextEncodes (onChainCtx.getD []) slotMapping contextOverrides slotMapping) ∨
      createContext onChainCtx contextOverrides slotMapping = .error .internal ∧
        ¬ (slotMapping ≠ [] ∨ hasOverrides contextOverrides = true →
          ContextEncodes (onChainCtx.getD []) slotMapping contextOverrides slotMapping) := by
  unfold createContext ContextEncodes
  -- the condition under which `encode` builds a context transaction
  by_cases hneeded : slotMapping ≠ [] ∨ hasOverrides contextOverrides = true
  · rw [if_pos hneeded]
    rcases encodeSetContext_cases (buildExpandedContext (onChainCtx.getD [])
        (newSlots contextOverrides slotMapping) contextOverrides slotMapping) with
      ⟨⟨call, hcall⟩, hall⟩ | ⟨herror, hsome⟩
    · refine Or.inl ⟨?_, fun _ => hall⟩
      simp only [hcall]
      exact ⟨_, rfl⟩
    · refine Or.inr ⟨?_, fun hall => hsome (hall hneeded)⟩
      simp only [herror]
      rfl
  · rw [if_neg hneeded]
    exact Or.inl ⟨⟨_, rfl⟩, fun h => absurd h hneeded⟩

/-- So does the context part of `encodeUpdate`. -/
theorem updateContext_cases :
    let newSlotEntries := slotMapping.filter fun (_, idx) => (onChainCtx.getD []).length ≤ idx
    (∃ answer, updateContext onChainCtx contextOverrides slotMapping = .ok answer) ∧
        (newSlotEntries ≠ [] ∨ hasOverrides contextOverrides = true →
          ContextEncodes (onChainCtx.getD []) newSlotEntries contextOverrides slotMapping) ∨
      updateContext onChainCtx contextOverrides slotMapping = .error .internal ∧
        ¬ (newSlotEntries ≠ [] ∨ hasOverrides contextOverrides = true →
          ContextEncodes (onChainCtx.getD []) newSlotEntries contextOverrides slotMapping) := by
  intro newSlotEntries
  unfold updateContext ContextEncodes
  by_cases hused : slotMapping ≠ [] ∨ hasOverrides contextOverrides = true
  · rw [if_pos hused]
    by_cases hneeded : newSlotEntries ≠ [] ∨ hasOverrides contextOverrides = true
    · rcases encodeSetContext_cases (buildExpandedContext (onChainCtx.getD [])
          (newSlots contextOverrides newSlotEntries) contextOverrides slotMapping) with
        ⟨⟨call, hcall⟩, hall⟩ | ⟨herror, hsome⟩
      · refine Or.inl ⟨?_, fun _ => hall⟩
        simp only [if_pos hneeded, newSlotEntries] at hcall ⊢
        simp only [hcall]
        exact ⟨_, rfl⟩
      · refine Or.inr ⟨?_, fun hall => hsome (hall hneeded)⟩
        simp only [if_pos hneeded, newSlotEntries] at herror ⊢
        simp only [herror]
        rfl
    · refine Or.inl ⟨?_, fun h => absurd h hneeded⟩
      simp only [if_neg hneeded, newSlotEntries]
      exact ⟨_, rfl⟩
  -- a request without variables and overrides has no new slots either
  · have hnone : ¬ (newSlotEntries ≠ [] ∨ hasOverrides contextOverrides = true) := by
      rintro (hnew | hsent)
      · exact hused (Or.inl fun hnil => hnew (by simp [newSlotEntries, hnil]))
      · exact hused (Or.inr hsent)
    rw [if_neg hused]
    exact Or.inl ⟨⟨_, rfl⟩, fun h => absurd h hnone⟩

/-! ## The verdict on a request -/

/-- What decides, once a request passed the checks: the steps, and whether the context part succeeds,
which is `hasData`. -/
theorem steps_verdict {stored ownerOnly : Bool} {hasData : Prop}
    {context : Except Thrown (Option Op × List ContextChange)}
    {result : List Step → Option Op × List ContextChange → EncodeResult}
    (hsize : graph.nodes.length ≤ 256)
    (hcontext : (∃ answer, context = .ok answer) ∧ hasData ∨ context = .error .internal ∧ ¬ hasData)
    (hcall : ∀ steps answer, PassesValidation stored (result steps answer).automationCalldata ↔
      validateSteps steps ownerOnly = .ok ()) :
    RejectedOrValid stored (encodeSteps svc graph slotMapping >>= fun steps =>
        context >>= fun answer => .ok (result steps answer)) ↔
      Rejected svc slotMapping graph ∨ Deployable svc slotMapping graph ∧
        (ownerOnly = true ∨ StartsWithCondition graph) ∧ hasData := by
  have hrejected := @encodeSteps_badRequest svc slotMapping graph
  have hencoded := @encodeSteps_isOk svc slotMapping graph
  cases hsteps : encodeSteps svc graph slotMapping with
  | error e =>
    -- nothing is encoded, so it depends on the error
    have hnone : ¬ Deployable svc slotMapping graph := by
      rintro ⟨order, hbfs, hall⟩
      obtain ⟨steps, hok⟩ := hencoded.2 ⟨order, hbfs, fun id hid => (hall id hid).1⟩
      rw [hsteps] at hok
      cases hok
    cases e with
    | badRequest message => exact ⟨fun _ => Or.inl (hrejected.1 ⟨message, hsteps⟩), fun _ => trivial⟩
    -- an error of its own is neither a rejection nor an answer
    | internal =>
      refine ⟨fun h => h.elim, ?_⟩
      rintro (hrej | ⟨hdeployable, -⟩)
      · obtain ⟨message, hm⟩ := hrejected.2 hrej
        rw [hsteps] at hm
        cases hm
      · exact absurd hdeployable hnone
  | ok steps =>
    obtain ⟨order, hbfs, hall⟩ := hencoded.1 ⟨steps, hsteps⟩
    have hnot : ¬ Rejected svc slotMapping graph := by
      intro hrej
      obtain ⟨message, hm⟩ := hrejected.2 hrej
      rw [hsteps] at hm
      cases hm
    have hdeployable : Deployable svc slotMapping graph ↔ ∀ id ∈ order, Callable svc graph id := by
      constructor
      · rintro ⟨order', hbfs', hall'⟩ id hid
        rw [hbfs] at hbfs'
        cases hbfs'
        exact (hall' id hid).2
      · intro hcallable
        exact ⟨order, hbfs, fun id hid => ⟨hall id hid, hcallable id hid⟩⟩
    rcases hcontext with ⟨⟨answer, rfl⟩, hdata⟩ | ⟨rfl, hdata⟩
    · change PassesValidation stored (result steps answer).automationCalldata ↔ _
      rw [hcall, validateSteps_encoded hbfs hsize hsteps, hdeployable]
      constructor
      · rintro ⟨hcallable, hkind⟩
        exact Or.inr ⟨hcallable, hkind, hdata⟩
      · rintro (hrej | ⟨hcallable, hkind, -⟩)
        · exact absurd hrej hnot
        · exact ⟨hcallable, hkind⟩
    · refine ⟨fun h => h.elim, ?_⟩
      rintro (hrej | ⟨-, -, hdata'⟩)
      · exact absurd hrej hnot
      · exact absurd hdata' hdata

/-- **When the encoder's answer is one that the vault accepts.** It is for a rejected request; else
every node that is reached must be one that can be encoded and called, the context must consist of
data strings, and the automation must have a single start node (an update: be stored as the owner's)
or start with a condition. -/
theorem calldata_valid_iff (svc : Services) (slots : ContextSlots)
    (onChainCtx : Option (List Bytes)) (automationId : String) (onChainId : Nat)
    (graph : EditorGraph) (contextOverrides : Option (Record HexData)) (ownerOnly : Bool) :
    (RejectedOrValid ownerOnly
        (encode svc slots onChainCtx automationId graph contextOverrides).2 ↔
      EncodeSound svc onChainCtx graph contextOverrides
        (slotMappingOf svc slots automationId graph).2) ∧
    (RejectedOrValid ownerOnly
        (encodeUpdate svc slots onChainCtx automationId onChainId graph contextOverrides).2 ↔
      UpdateSound ownerOnly svc onChainCtx graph contextOverrides
        (slotMappingOf svc slots automationId graph).2) := by
  unfold encode encodeUpdate EncodeSound UpdateSound
  cases hvalid : validateRequest svc graph with
  | error e =>
    obtain ⟨message, rfl⟩ := validateRequest_error hvalid
    exact ⟨⟨fun _ => Or.inl (by simp), fun _ => trivial⟩, ⟨fun _ => Or.inl (by simp), fun _ => trivial⟩⟩
  | ok u =>
    have hsize : graph.nodes.length ≤ 256 := validateRequest_size hvalid
    simp only [ne_eq, not_true_eq_false, false_or]
    constructor
    -- `encode` validates under the kind that it infers
    · rw [← ownerOnly_or_condition]
      refine steps_verdict hsize createContext_cases fun steps answer => ?_
      cases inferOwnerOnly graph with
      | true => exact Iff.rfl
      | false => exact Iff.rfl
    · exact steps_verdict hsize updateContext_cases fun steps answer => Iff.rfl

end

/-! ## Two start nodes -/

/-- An action and a condition that nothing joins. -/
def twoStarts : EditorGraph where
  nodes := [⟨"node-1", .action, "notify", []⟩, ⟨"node-2", .condition, "always", []⟩]
  edges := []

/-- The step of an action alone. -/
def loneAction : Step := ⟨.action, ⟨8⟩, 0x09c5eabe, DONE, DONE, []⟩

/-- The steps for two start nodes are sent to `createAutomation` with an action first, and an action
alone is sent to an automation that is stored as public. -/
theorem invalid_calldata :
    ¬ RejectedOrValid false (encode sampleServices [] (some []) "a1" twoStarts none).2 ∧
    ¬ RejectedOrValid false (encodeUpdate sampleServices [] (some []) "a1" 0
      ⟨[⟨"node-1", .action, "notify", []⟩], []⟩ none).2 := by
  constructor
  · have hencode : (encode sampleServices [] (some []) "a1" twoStarts none).2 =
        .ok ⟨.createAutomation [loneAction], none, "createAutomation", [loneAction], false, 1, false,
          []⟩ := by decide
    rw [hencode]
    change ¬ validateSteps [loneAction] false = .ok ()
    decide
  · have hencode : (encodeUpdate sampleServices [] (some []) "a1" 0
        ⟨[⟨"node-1", .action, "notify", []⟩], []⟩ none).2 =
        .ok ⟨.updateAutomationSteps 0 [loneAction], none, "updateAutomationSteps", [loneAction], true,
          1, false, []⟩ := by decide
    rw [hencode]
    change ¬ validateSteps [loneAction] false = .ok ()
    decide

end StrategyBuilder.Backend
