import StrategyBuilder.Automation.Graph
import StrategyBuilder.Backend.ContextService
import StrategyBuilder.Contracts.Vault
import StrategyBuilder.Lib.Search
import StrategyBuilder.Shared.Validation

/-!
# The encoder

`encoding.service.ts`: from an automation graph with raw parameters to the transactions that deploy
or update it. The nodes are numbered in breadth-first order from the start node, and the edges of a
node become the indices of the steps that follow it.

Calldata is the vault operation that it calls. The ABI coder for step parameters is a parameter
(`Services.abiEncode`), so is what the chain answers when the context is read: `none` where the read
fails. The result comes with the vault's `contextSlots` afterwards, which are written before the
steps are encoded.
-/

set_option autoImplicit false

namespace StrategyBuilder.Backend

open StrategyBuilder.Automation
open StrategyBuilder.Contracts
open StrategyBuilder.Contracts.Vault
open StrategyBuilder.Lib
open StrategyBuilder.Lib.Abi
open StrategyBuilder.Lib.Js
open StrategyBuilder.Shared

/-- A row of the catalog. -/
structure StepType where
  id : String
  contractAddress : Address
  selector : Selector
  abiFragment : List AbiComponent
  paramSchema : Option ParamSchema

/-- What the encoder calls. -/
structure Services where
  stepTypes : List StepType
  abiEncode : List AbiType → List JsValue → Option Bytes

/-- How a request fails: a `BadRequestException`, or another error. -/
inductive Thrown where
  | badRequest (message : String)
  | internal
deriving DecidableEq, Repr

/-- A slot that the deployment writes, with its value on the chain and the new one. -/
structure ContextChange where
  slotIndex : Nat
  slotName : String
  isNew : Bool
  currentValue : Option Bytes
  newValue : HexData
deriving DecidableEq, Repr

/-- What the backend answers to a request to encode. -/
structure EncodeResult where
  automationCalldata : Op
  contextCalldata : Option Op
  functionName : String
  steps : List Step
  ownerOnly : Bool
  stepCount : Nat
  requiresContextTx : Bool
  contextChanges : List ContextChange
deriving DecidableEq, Repr

namespace Services

variable (svc : Services)

/-- `stepTypeMap` -/
def stepTypeMap : Map String StepType := Map.ofEntries (svc.stepTypes.map fun st => (st.id, st))

/-- The schemas that the editor loads of the catalog. -/
def stepSchemas : Record StepSchema :=
  svc.stepTypes.foldl
    (fun schemas st => schemas.insert st.id ⟨st.paramSchema, some st.abiFragment⟩) []

/-- Editor and encoder look at the same row of the catalog. -/
theorem own?_stepSchemas (id : String) : svc.stepSchemas.own? id =
    (svc.stepTypeMap id).map fun st => ⟨st.paramSchema, some st.abiFragment⟩ := by
  have hfold (l : List StepType) (r : Record StepSchema) (m : Map String StepType)
      (h : r.own? id = (m id).map fun st => ⟨st.paramSchema, some st.abiFragment⟩) :
      (l.foldl (fun schemas st => schemas.insert st.id ⟨st.paramSchema, some st.abiFragment⟩)
        r).own? id = (l.foldl (fun m st => m.set st.id st) m id).map fun st =>
          ⟨st.paramSchema, some st.abiFragment⟩ := by
    induction l generalizing r m with
    | nil => exact h
    | cons st l ih =>
      rw [List.foldl_cons, List.foldl_cons]
      apply ih
      by_cases hid : id = st.id
      · subst hid
        rw [Record.own?_insert_self, Map.set_self]
        rfl
      · rw [Record.own?_insert_of_ne r _ hid, Map.set_of_ne m st hid, h]
  rw [stepSchemas, stepTypeMap, Map.ofEntries, List.foldl_map]
  exact hfold svc.stepTypes [] Map.empty rfl

end Services

/-! ## Checks -/

/-- `validateServerSide`: a graph has at least one node, and at most 256. -/
def validateServerSide (graph : EditorGraph) : Except Thrown Unit :=
  if graph.nodes.length = 0 then .error (.badRequest "Graph must have at least one node")
  else if 256 < graph.nodes.length then .error (.badRequest "Graph exceeds maximum of 256 steps")
  else .ok ()

/-- The violations that `validateRawParams` collects. -/
def rawViolations (svc : Services) (graph : EditorGraph)
    (number : JsValue → JsNumber := toNumber) : List String :=
  graph.nodes.flatMap fun node =>
    match (svc.stepTypeMap node.stepTypeId).bind StepType.paramSchema with
    | none => []
    | some schema =>
        (validateParams schema node.params .raw none number).map fun e =>
          node.id ++ "." ++ e.field ++ ": " ++ e.message

/-- `validateRawParams`: all violations are in the message of the exception. The reading of a number
is a parameter. -/
def validateRawParams (svc : Services) (graph : EditorGraph)
    (number : JsValue → JsNumber := toNumber) : Except Thrown Unit :=
  let violations := rawViolations svc graph number
  if 0 < violations.length then
    .error (.badRequest ("Invalid step parameters: " ++ "; ".intercalate violations))
  else .ok ()

/-- `inferOwnerOnly`: an automation that starts with an action is the owner's. -/
def inferOwnerOnly (graph : EditorGraph) : Bool :=
  match graph.startNodes with
  -- several start nodes are never the owner's
  | [start] => start.type = .action
  | _ => false

/-- The names that `extractSlotNames` takes for context variables. -/
def isVariableName (s : String) : Bool :=
  s ≠ "" && s.toList.take 2 ≠ ['0', 'x'] && (stringToNumber s).isNaN

/-- The context variables of one node. -/
def nodeSlotNames (svc : Services) (node : EditorNode) : List String :=
  match (svc.stepTypeMap node.stepTypeId).bind StepType.paramSchema with
  | none => []
  | some schema =>
      schema.properties.filterMap fun (field, fieldSchema) =>
        if fieldSchema.widget = some .contextSlot then
          match param node.params field with
          | .str s => if isVariableName s then some s else none
          | _ => none
        else none

/-- Every name once, in the order of its first use. -/
def extractSlotNames (svc : Services) (graph : EditorGraph) : List String :=
  (graph.nodes.flatMap (nodeSlotNames svc)).foldl
    (fun names name => if name ∈ names then names else names ++ [name]) []

/-! ## Steps -/

/-- The nodes in breadth-first order from the first node that no edge enters. -/
def bfs (graph : EditorGraph) : Except Thrown (List String) :=
  match graph.startNodes.head? with
  | none => .error (.badRequest "No start node found")
  | some start =>
      match Lib.bfs graph.successors (graph.nodes.length + graph.edges.length) start.id with
      | some s => .ok s.order
      | none => .error .internal

/-- What the encoder takes for an unset parameter of a type, where the schema has no default. -/
def typeDefault : AbiType → Option JsValue
  | .address => some (.str "0x0000000000000000000000000000000000000000")
  | .uint256 => some (.str "0")
  | .uint32 => some (.num (.ofInt 0))
  | .bool => some (.bool false)
  | _ => none

/-- A context variable stands for its index. -/
def resolveSlot (slotMapping : Record Nat) (type : AbiType) (val : JsValue) : JsValue :=
  match type, val with
  | .uint32, .str s =>
      match slotMapping.get s with
      | .own idx => .num (.ofInt idx)
      -- what every object answers is neither a number nor a string
      | .inherited => .object []
      | .undefined => val
  | _, _ => val

/-- The conversions after the defaults. -/
def convertParam (c : AbiComponent) (val : JsValue) : Except Thrown JsValue :=
  match c.type, val with
  | .uint32, .num x => .ok (.num x)
  | .uint32, val =>
      match parseInt (valueToString val) with
      | some n => .ok (.num (.ofInt n))
      | none => .error (.badRequest ("Unknown context variable \"" ++ valueToString val ++
          "\" referenced by field \"" ++ c.name ++
          "\". Define it as a context variable before deploying."))
  | .bool, .str s => .ok (.bool (s = "true"))
  | _, val => .ok val

/-- The value of one component. -/
def encodeParam (params : Record JsValue) (slotMapping : Record Nat)
    (paramSchema : Option ParamSchema) (c : AbiComponent) : Except Thrown JsValue :=
  let val := resolveSlot slotMapping c.type (param params c.name)
  if isEmpty val then
    match (paramSchema.bind fun s => Record.own? s.properties c.name).map FieldSchema.default with
    -- the field is unset, and its schema has no default
    | none | some .undefined =>
        match typeDefault c.type with
        | some value => .ok value
        | none => convertParam c val
    | some schemaDefault => convertParam c schemaDefault
  else convertParam c val

/-- `encodeParams`: the values of the components, given to the ABI coder. -/
def encodeParams (svc : Services) (params : Record JsValue) (abiFragment : List AbiComponent)
    (slotMapping : Record Nat) (paramSchema : Option ParamSchema) : Except Thrown Bytes := do
  let values ← abiFragment.mapM (encodeParam params slotMapping paramSchema)
  match svc.abiEncode (abiFragment.map AbiComponent.type) values with
  | some data => .ok data
  | none => .error .internal

/-- `indexMap` -/
def indexMap (order : List String) : Map String Nat := Map.ofEntries order.zipIdx

/-- `nodeMap` -/
def nodeMap (graph : EditorGraph) : Map String EditorNode :=
  Map.ofEntries (graph.nodes.map fun n => (n.id, n))

/-- The step after the first edge with a handle. -/
def nextOn (indices : Map String Nat) (outEdges : List EditorEdge) (handle : SourceHandle) : Nat :=
  match outEdges.find? fun e => e.sourceHandle = handle with
  | some e => (indices e.target).getD DONE
  | none => DONE

/-- The step of a node. -/
def encodeStep (svc : Services) (graph : EditorGraph) (slotMapping : Record Nat)
    (indices : Map String Nat) (nodeId : String) : Except Thrown Step :=
  match nodeMap graph nodeId with
  -- an edge leads to a node that is not there: a `TypeError`
  | none => .error .internal
  | some node =>
      match svc.stepTypeMap node.stepTypeId with
      | none => .error (.badRequest ("Unknown step type: " ++ node.stepTypeId))
      | some stepType => do
          let outEdges := graph.outEdges nodeId
          let data ←
            encodeParams svc node.params stepType.abiFragment slotMapping stepType.paramSchema
          match node.type with
          | .condition =>
              .ok {
                stepType := .condition
                target := stepType.contractAddress
                selector := stepType.selector
                nextOnTrue := nextOn indices outEdges .true
                nextOnFalse := nextOn indices outEdges .false
                data := data }
          | .action =>
              .ok {
                stepType := .action
                target := stepType.contractAddress
                selector := stepType.selector
                nextOnTrue := nextOn indices outEdges .out
                nextOnFalse := DONE
                data := data }

/-- `encodeSteps`: the nodes in the order of the search, each as a step. -/
def encodeSteps (svc : Services) (graph : EditorGraph) (slotMapping : Record Nat) :
    Except Thrown (List Step) := do
  let order ← bfs graph
  order.mapM (encodeStep svc graph slotMapping (indexMap order))

/-! ## Transactions -/

/-- The slots of the context variables, and the vault's `contextSlots` afterwards. -/
def slotMappingOf (svc : Services) (slots : ContextSlots) (automationId : String)
    (graph : EditorGraph) : ContextSlots × Record Nat :=
  let slotNames := extractSlotNames svc graph
  if 0 < slotNames.length then allocateSlots slots slotNames automationId else (slots, [])

/-- `contextOverrides?.[name]` -/
def overrideOf (contextOverrides : Option (Record HexData)) (name : String) : Option HexData :=
  match contextOverrides with
  | none => none
  | some overrides =>
      match overrides.get name with
      | .own value => some value
      | .inherited => some none
      | .undefined => none

/-- Whether any override was sent. -/
def hasOverrides (contextOverrides : Option (Record HexData)) : Bool :=
  0 < (contextOverrides.getD []).length

/-- The new slots with their initial values. -/
def newSlots (contextOverrides : Option (Record HexData)) (entries : Record Nat) : List NewSlot :=
  entries.map fun (name, index) => ⟨index, (overrideOf contextOverrides name).getD (some [])⟩

/-- The calldata of `setContext`; the ABI encoder takes data strings only. -/
def encodeSetContext (expanded : List HexData) : Except Thrown Op :=
  match expanded.mapM id with
  | some ctx => .ok (.setContext ctx)
  | none => .error .internal

/-- The context changes that are reported. -/
def contextChanges (onChainCtx : List Bytes) (contextOverrides : Option (Record HexData))
    (slotMapping : Record Nat) : List ContextChange :=
  slotMapping.map fun (name, index) =>
    { slotIndex := index
      slotName := name
      isNew := onChainCtx.length ≤ index
      currentValue := onChainCtx[index]?
      newValue := (overrideOf contextOverrides name).getD (some ((onChainCtx[index]?).getD [])) }

/-- The operation of the vault that creates the automation, with its name. -/
def createCall (ownerOnly : Bool) (steps : List Step) : String × Op :=
  if ownerOnly then ("createOwnerAutomation", .createOwnerAutomation steps)
  else ("createAutomation", .createAutomation steps)

/-- The context part of `encode`: every slot of the mapping counts as new. -/
def createContext (onChainCtx : Option (List Bytes)) (contextOverrides : Option (Record HexData))
    (slotMapping : Record Nat) : Except Thrown (Option Op × List ContextChange) :=
  if slotMapping ≠ [] ∨ hasOverrides contextOverrides = true then do
    -- a read that fails is taken for a fresh vault
    let ctx := onChainCtx.getD []
    let calldata ← encodeSetContext (buildExpandedContext ctx (newSlots contextOverrides slotMapping)
      contextOverrides slotMapping)
    return (some calldata, contextChanges ctx contextOverrides slotMapping)
  else return (none, [])

/-- The context part of `encodeUpdate`: new are the slots beyond the context of the chain. -/
def updateContext (onChainCtx : Option (List Bytes)) (contextOverrides : Option (Record HexData))
    (slotMapping : Record Nat) : Except Thrown (Option Op × List ContextChange) :=
  if slotMapping ≠ [] ∨ hasOverrides contextOverrides = true then do
    let ctx := onChainCtx.getD []
    let newSlotEntries := slotMapping.filter fun (_, idx) => ctx.length ≤ idx
    if newSlotEntries ≠ [] ∨ hasOverrides contextOverrides = true then do
      let calldata ← encodeSetContext (buildExpandedContext ctx
        (newSlots contextOverrides newSlotEntries) contextOverrides slotMapping)
      return (some calldata, contextChanges ctx contextOverrides slotMapping)
    else return (none, contextChanges ctx contextOverrides slotMapping)
  else return (none, [])

/-- What `encode` does once the slots are allocated. -/
def encodeWith (svc : Services) (onChainCtx : Option (List Bytes)) (graph : EditorGraph)
    (contextOverrides : Option (Record HexData)) (slotMapping : Record Nat) :
    Except Thrown EncodeResult := do
  let ownerOnly := inferOwnerOnly graph
  let steps ← encodeSteps svc graph slotMapping
  let (functionName, automationCalldata) := createCall ownerOnly steps
  let (contextCalldata, changes) ← createContext onChainCtx contextOverrides slotMapping
  return {
    automationCalldata := automationCalldata
    contextCalldata := contextCalldata
    functionName := functionName
    steps := steps
    ownerOnly := ownerOnly
    stepCount := steps.length
    requiresContextTx := contextCalldata.isSome
    contextChanges := changes }

/-- What `encodeUpdate` does once the slots are allocated. -/
def encodeUpdateWith (svc : Services) (onChainCtx : Option (List Bytes)) (onChainId : Nat)
    (graph : EditorGraph) (contextOverrides : Option (Record HexData)) (slotMapping : Record Nat) :
    Except Thrown EncodeResult := do
  let steps ← encodeSteps svc graph slotMapping
  let (contextCalldata, changes) ← updateContext onChainCtx contextOverrides slotMapping
  return {
    automationCalldata := .updateAutomationSteps onChainId steps
    contextCalldata := contextCalldata
    functionName := "updateAutomationSteps"
    steps := steps
    ownerOnly := inferOwnerOnly graph
    stepCount := steps.length
    requiresContextTx := contextCalldata.isSome
    contextChanges := changes }

/-- The checks before anything is stored. -/
def validateRequest (svc : Services) (graph : EditorGraph) : Except Thrown Unit := do
  validateServerSide graph
  validateRawParams svc graph

/-- `encode`: the slots are allocated and written before the steps are encoded. -/
def encode (svc : Services) (slots : ContextSlots) (onChainCtx : Option (List Bytes))
    (automationId : String) (graph : EditorGraph) (contextOverrides : Option (Record HexData)) :
    ContextSlots × Except Thrown EncodeResult :=
  match validateRequest svc graph with
  | .error e => (slots, .error e)
  | .ok () =>
      let (slots, slotMapping) := slotMappingOf svc slots automationId graph
      (slots, encodeWith svc onChainCtx graph contextOverrides slotMapping)

/-- `encodeUpdate`: the same for an automation that is on the chain. -/
def encodeUpdate (svc : Services) (slots : ContextSlots) (onChainCtx : Option (List Bytes))
    (automationId : String) (onChainId : Nat) (graph : EditorGraph)
    (contextOverrides : Option (Record HexData)) : ContextSlots × Except Thrown EncodeResult :=
  match validateRequest svc graph with
  | .error e => (slots, .error e)
  | .ok () =>
      let (slots, slotMapping) := slotMappingOf svc slots automationId graph
      (slots, encodeUpdateWith svc onChainCtx onChainId graph contextOverrides slotMapping)

/-! ## What an answer consists of -/

/-- What an answer takes from the steps and from its own context transaction. -/
structure EncodeResult.IsOf (svc : Services) (graph : EditorGraph) (slotMapping : Record Nat)
    (r : EncodeResult) : Prop where
  steps : encodeSteps svc graph slotMapping = .ok r.steps
  ownerOnly : r.ownerOnly = inferOwnerOnly graph
  stepCount : r.stepCount = r.steps.length
  requiresContextTx : r.requiresContextTx = r.contextCalldata.isSome

section Answers

variable {svc : Services} {slots : ContextSlots} {onChainCtx : Option (List Bytes)}
  {automationId : String} {graph : EditorGraph} {contextOverrides : Option (Record HexData)}
  {slotMapping : Record Nat} {onChainId : Nat} {r : EncodeResult}

/-- The parts of an answer, for a new automation. -/
theorem encodeWith_ok (h : encodeWith svc onChainCtx graph contextOverrides slotMapping = .ok r) :
    r.IsOf svc graph slotMapping ∧
      createContext onChainCtx contextOverrides slotMapping =
        .ok (r.contextCalldata, r.contextChanges) ∧
      (r.functionName, r.automationCalldata) = createCall r.ownerOnly r.steps := by
  unfold encodeWith at h
  cases hsteps : encodeSteps svc graph slotMapping with
  | error e =>
    rw [hsteps] at h
    cases h
  | ok steps =>
    cases hctx : createContext onChainCtx contextOverrides slotMapping with
    | error e =>
      simp only [hsteps, hctx] at h
      cases h
    | ok answer =>
      simp only [hsteps, hctx] at h
      cases h
      exact ⟨⟨hsteps, rfl, rfl, rfl⟩, rfl, rfl⟩

/-- The parts of an answer, for an update. -/
theorem encodeUpdateWith_ok
    (h : encodeUpdateWith svc onChainCtx onChainId graph contextOverrides slotMapping = .ok r) :
    r.IsOf svc graph slotMapping ∧
      updateContext onChainCtx contextOverrides slotMapping =
        .ok (r.contextCalldata, r.contextChanges) ∧
      r.automationCalldata = .updateAutomationSteps onChainId r.steps := by
  unfold encodeUpdateWith at h
  cases hsteps : encodeSteps svc graph slotMapping with
  | error e =>
    rw [hsteps] at h
    cases h
  | ok steps =>
    cases hctx : updateContext onChainCtx contextOverrides slotMapping with
    | error e =>
      simp only [hsteps, hctx] at h
      cases h
    | ok answer =>
      simp only [hsteps, hctx] at h
      cases h
      exact ⟨⟨hsteps, rfl, rfl, rfl⟩, rfl, rfl⟩

/-- What an answer to `encode` consists of. -/
theorem encode_ok
    (h : (encode svc slots onChainCtx automationId graph contextOverrides).2 = .ok r) :
    r.IsOf svc graph (slotMappingOf svc slots automationId graph).2 ∧
      createContext onChainCtx contextOverrides (slotMappingOf svc slots automationId graph).2 =
        .ok (r.contextCalldata, r.contextChanges) ∧
      (r.functionName, r.automationCalldata) = createCall r.ownerOnly r.steps := by
  unfold encode at h
  cases hvalid : validateRequest svc graph with
  | error e =>
    rw [hvalid] at h
    cases h
  | ok u =>
    rw [hvalid] at h
    exact encodeWith_ok h

/-- What an answer to `encode-update` consists of. -/
theorem encodeUpdate_ok
    (h : (encodeUpdate svc slots onChainCtx automationId onChainId graph contextOverrides).2 =
      .ok r) :
    r.IsOf svc graph (slotMappingOf svc slots automationId graph).2 ∧
      updateContext onChainCtx contextOverrides (slotMappingOf svc slots automationId graph).2 =
        .ok (r.contextCalldata, r.contextChanges) ∧
      r.automationCalldata = .updateAutomationSteps onChainId r.steps := by
  unfold encodeUpdate at h
  cases hvalid : validateRequest svc graph with
  | error e =>
    rw [hvalid] at h
    cases h
  | ok u =>
    rw [hvalid] at h
    exact encodeUpdateWith_ok h

end Answers

end StrategyBuilder.Backend
