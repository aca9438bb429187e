import StrategyBuilder.Lib.Transition
import StrategyBuilder.Backend.EncodingService
import StrategyBuilder.Editor.IsValidConnection
import StrategyBuilder.Shared.EncodeBoundary

/-!
# The gate before the deployment

The validation of `editor-store.ts` with `use-pool-validity.ts` and `pool-validity.ts`: the errors that
the toolbar counts before it lets one deploy. They are collected from the graph, from the parameters and,
by reads of the pool factory, from the swaps; edits only start timers for that, and a check of the pools
is cancelled by the next one. So the errors lag behind the graph.

Whatever is edited, and in whatever order timers expire and reads are answered: once nothing is on the
way any more (`Quiet`), there are no errors exactly if graph, parameters and pools are valid
(`deploy_gate`). A read that fails counts as a missing pool, so failures only keep the gate closed.
-/

set_option autoImplicit false

namespace StrategyBuilder.Editor

open StrategyBuilder.Automation
open StrategyBuilder.Backend
open StrategyBuilder.Lib
open StrategyBuilder.Lib.Js
open StrategyBuilder.Shared

/-! ## The errors -/

/-- An entry of `validationErrors`, with the field it is about. -/
structure PanelError extends ValidationError where
  fieldName : Option String
deriving DecidableEq, Repr

/-- An error of the graph, as the panel shows it. -/
def graphError (e : ValidationError) : PanelError := { e with fieldName := none }

/-- An error of a field, as the panel shows it. -/
def paramError (node : EditorNode) (e : ParamValidationError) : PanelError :=
  ⟨⟨e.message, some node.id⟩, some e.field⟩

/-- `validateNodeParams`: the violations of all nodes, by the shared rules. -/
def validateNodeParams (nodes : List EditorNode) (stepSchemas : Record StepSchema)
    (tokenDecimals : Record Nat) : List PanelError :=
  nodes.flatMap fun node =>
    match (Record.own? stepSchemas node.stepTypeId).bind StepSchema.paramSchema with
    | none => []
    | some schema =>
        (validateParams schema node.params .friendly (some tokenDecimals)).map (paramError node)

/-! ## The pools of swaps -/

/-- A pool that has to exist. -/
structure SwapPoolCheck where
  nodeId : String
  feeField : String
  tokenIn : String
  tokenOut : String
  fee : JsNumber
deriving DecidableEq

/-- `schema?.paramSchema?.properties ?? {}` -/
def schemaProperties (schema : Option StepSchema) : Record FieldSchema :=
  ((schema.bind StepSchema.paramSchema).map ParamSchema.properties).getD []

/-- `findFieldByWidget`: the first field with the widget. -/
def findFieldByWidget (schema : Option StepSchema) (widget : Widget) : Option String :=
  ((schemaProperties schema).find? fun f => f.2.widget = some widget).map Prod.fst

/-- `findTokenFields`: the fields that select a token. -/
def findTokenFields (schema : Option StepSchema) : List String :=
  ((schemaProperties schema).filter fun f => f.2.widget = some .tokenSelector).map Prod.fst

/-- The check of one node, if it is a swap with both tokens and a fee. -/
def swapPoolCheck (stepSchemas : Record StepSchema) (node : EditorNode) : Option SwapPoolCheck := do
  let schema := Record.own? stepSchemas node.stepTypeId
  let feeField ← reference (findFieldByWidget schema .feeTier)
  let tokenInField ← reference (findTokenFields schema)[0]?
  let tokenOutField ← reference (findTokenFields schema)[1]?
  match param node.params tokenInField, param node.params tokenOutField, param node.params feeField with
  | _, _, .undefined | _, _, .null => none
  | .str tokenIn, .str tokenOut, fee =>
      if tokenIn = "" ∨ tokenOut = "" then none
      else some ⟨node.id, feeField, tokenIn, tokenOut, toNumber fee⟩
  | _, _, _ => none

/-- `collectSwapPoolChecks`: the pools of all swaps whose fields are filled in. -/
def collectSwapPoolChecks (nodes : List EditorNode) (stepSchemas : Record StepSchema) :
    List SwapPoolCheck := nodes.filterMap (swapPoolCheck stepSchemas)

/-- The zero address, which the factory answers where there is no pool. -/
def ZERO : String := "0x0000000000000000000000000000000000000000"

/-- The answer of a read, `none` if it throws, names a pool. -/
def namesPool (answer : Option String) : Bool :=
  match answer with
  | none => false
  | some pool => pool ≠ "" && pool.toLower ≠ ZERO

/-- The error of a pool that does not exist. -/
def poolError (c : SwapPoolCheck) : PanelError :=
  ⟨⟨"No PancakeSwap pool exists for this token pair and fee tier", some c.nodeId⟩, some c.feeField⟩

/-- The errors after the answer to the read of `c`. -/
def errorsAfter (errors : List PanelError) (c : SwapPoolCheck) (answer : Option String) :
    List PanelError := if namesPool answer then errors else errors ++ [poolError c]

/-! ## The page -/

/-- `buildSwapPoolErrors` on its way: the checks that are not answered, the errors so far. Before its
timer expires it has not begun. -/
structure PoolRun where
  begun : Bool
  cancelled : Bool
  todo : List SwapPoolCheck
  errors : List PanelError

/-- What the hook depends on. -/
structure PoolDeps where
  nodes : List EditorNode
  stepSchemas : Record StepSchema
  publicClient : Bool

/-- The store, its timers and the hook. -/
structure GatePage where
  editor : EditorState
  stepSchemas : Record StepSchema
  tokenDecimals : Record Nat
  externalErrors : List PanelError
  validationErrors : List PanelError
  ownerOnly : Bool
  /-- `validationTimer` is pending. -/
  validationTimer : Bool
  /-- The timers of `loadEditorState` that are pending. -/
  loadTimers : Nat
  publicClient : Bool
  /-- What the effect has run for last. -/
  seen : Option PoolDeps
  runs : List PoolRun

/-- Edits, what is loaded, timers, and the reads of the pools. -/
inductive GateEvent where
  | edit (op : EditorOp)
  | loadEditorState (state : Snapshot) (label description : Option String)
  | setStepSchemas (schemas : Record StepSchema)
  | setTokenDecimals (decimals : Record Nat)
  | setPublicClient (publicClient : Bool)
  | validationTimer
  | loadTimer
  /-- The effect runs, after the cleanup of its last run. -/
  | effect
  | poolTimer (run : Nat)
  /-- A read is answered, with `none` if it throws. -/
  | poolAnswer (run : Nat) (answer : Option String)

/-- Whether an operation calls `scheduleValidation`. -/
def EditorOp.schedules (s : EditorState) : EditorOp → Bool
  | .onNodesChange changes => changes.any NodeChange.structural
  | .onEdgesChange changes => changes.any EdgeChange.structural
  | .onConnect _ | .addNode _ _ _ | .updateNodeParams _ _ => true
  | .removeSelected => s.nodes.any FlowNode.selected || s.edges.any FlowEdge.selected
  | .undo => s.history.undo.isSome
  | .redo => s.history.redo.isSome
  | .paste _ => (s.clipboard.map fun clipboard => !clipboard.nodes.isEmpty).getD false
  -- the layout only moves nodes
  | .setLabel _ | .setDescription _ | .markDirty | .pushSnapshot | .copySelected | .applyAutoLayout
  | .addContextVariable _ | .updateContextVariable _ _ | .setContextVariables _
  | .setVaultAddress _ => false

namespace GatePage

/-- The page when it is mounted. -/
def start : GatePage where
  editor := .initial
  stepSchemas := []
  tokenDecimals := []
  externalErrors := []
  validationErrors := []
  ownerOnly := false
  validationTimer := false
  loadTimers := 0
  publicClient := false
  seen := none
  runs := []

variable (p : GatePage)

/-- The graph of the store. -/
def graph : EditorGraph := p.editor.graph

/-- Nothing changes where `validateGraph` throws. -/
def runValidation : GatePage :=
  let oo := inferOwnerOnly p.graph
  match validateGraph p.graph (!oo) with
  | none => p
  | some graphErrors =>
      { p with
        validationErrors := graphErrors.map graphError ++
          validateNodeParams p.graph.nodes p.stepSchemas p.tokenDecimals ++ p.externalErrors
        ownerOnly := oo }

/-- `setExternalErrors`: the errors of the pools are set, and the graph is validated. -/
def setExternalErrors (errors : List PanelError) : GatePage :=
  { p with externalErrors := errors }.runValidation

/-- What the hook depends on now. -/
def deps : PoolDeps := ⟨p.graph.nodes, p.stepSchemas, p.publicClient⟩

/-- The cleanup: a run that has not begun never will. -/
def cleanup (run : PoolRun) : Option PoolRun :=
  if run.begun then some { run with cancelled := true } else none

/-- The effect of the hook: the last run is cancelled, and a new one starts if there are pools to
look at. -/
def effect : GatePage :=
  let p := { p with runs := p.runs.filterMap cleanup, seen := some p.deps }
  let checks := collectSwapPoolChecks p.graph.nodes p.stepSchemas
  if checks.length = 0 then p.setExternalErrors []
  else if p.publicClient then { p with runs := p.runs ++ [⟨false, false, checks, []⟩] }
  else p

/-- The answer to the first open read of a run; a run that was cancelled sets no errors. -/
def poolAnswer (i : Nat) (answer : Option String) : GatePage :=
  match p.runs[i]? with
  | some ⟨true, cancelled, c :: rest, errors⟩ =>
      let errors := errorsAfter errors c answer
      -- the last answer ends the run
      if rest.length = 0 then
        let p := { p with runs := p.runs.eraseIdx i }
        if cancelled then p else p.setExternalErrors errors
      else { p with runs := p.runs.set i ⟨true, cancelled, rest, errors⟩ }
  | _ => p

/-- One event. -/
def step (lib : FlowLibrary) (p : GatePage) : GateEvent → GatePage
  | .edit op =>
      { p with
        editor := op.apply lib p.editor
        validationTimer := p.validationTimer || op.schedules p.editor }
  | .loadEditorState state label description =>
      { p with
        editor := p.editor.loadEditorState state label description
        loadTimers := p.loadTimers + 1 }
  | .setStepSchemas schemas => { p with stepSchemas := schemas, validationTimer := true }
  | .setTokenDecimals decimals => { p with tokenDecimals := decimals, validationTimer := true }
  | .setPublicClient publicClient => { p with publicClient := publicClient }
  | .validationTimer =>
      if p.validationTimer then { p with validationTimer := false }.runValidation else p
  | .loadTimer =>
      if 0 < p.loadTimers then { p with loadTimers := p.loadTimers - 1 }.runValidation else p
  | .effect => p.effect
  | .poolTimer i =>
      match p.runs[i]? with
      | some run => { p with runs := p.runs.set i { run with begun := true } }
      | none => p
  | .poolAnswer i answer => p.poolAnswer i answer

end GatePage

/-! ## What is promised -/

/-- Nothing but selections, positions and sizes. -/
def NodeChange.cosmetic : NodeChange → Bool
  | .select _ _ | .position _ _ _ | .dimensions _ => true
  | _ => false

/-- Only the selection changes. -/
def EdgeChange.cosmetic : EdgeChange → Bool
  | .select _ _ => true
  | _ => false

/-- React Flow leaves ids, types and data of nodes alone where it only moves or selects them. -/
structure FlowLibrary.KeepsGraph (lib : FlowLibrary) : Prop where
  nodes : ∀ changes nodes, (∀ c ∈ changes, c.cosmetic = true) →
    (lib.applyNodeChanges changes nodes).map FlowNode.node = nodes.map FlowNode.node
  edges : ∀ changes edges, (∀ c ∈ changes, c.cosmetic = true) →
    (lib.applyEdgeChanges changes edges).map FlowEdge.edge = edges.map FlowEdge.edge

/-- The page has React Flow replace neither nodes nor edges. -/
def EditorOp.Reported : EditorOp → Prop
  | .onNodesChange changes => ∀ c ∈ changes, c.structural = true ∨ c.cosmetic = true
  | .onEdgesChange changes => ∀ c ∈ changes, c.structural = true ∨ c.cosmetic = true
  | _ => True

/-- A read of the factory tells whether there is the pool; it may throw, if reads may fail. -/
def ReadOf (Pool : SwapPoolCheck → Prop) (failures : Prop) (c : SwapPoolCheck) (answer : Option String) :
    Prop := (namesPool answer = true → Pool c) ∧
      (Pool c → namesPool answer = true ∨ (failures ∧ answer = none))

namespace GatePage

/-- What React Flow and the factory keep to. -/
def Reported (Pool : SwapPoolCheck → Prop) (failures : Prop) (p : GatePage) : GateEvent → Prop
  | .edit op => op.Reported
  | .poolAnswer i answer => ∀ run, p.runs[i]? = some run → ∀ c rest, run.todo = c :: rest →
      ReadOf Pool failures c answer
  | _ => True

/-- Nothing is on the way: no timer, no read, and the hook has run for what there is. -/
structure Quiet (p : GatePage) : Prop where
  validationTimer : p.validationTimer = false
  loadTimers : p.loadTimers = 0
  seen : p.seen = some p.deps
  publicClient : p.publicClient = true
  runs : ∀ run ∈ p.runs, run.cancelled = true

/-- What the errors are about. -/
structure Valid (Pool : SwapPoolCheck → Prop) (p : GatePage) : Prop where
  graph : validateGraph p.graph (!inferOwnerOnly p.graph) = some []
  params : validateNodeParams p.graph.nodes p.stepSchemas p.tokenDecimals = []
  pools : ∀ c ∈ collectSwapPoolChecks p.graph.nodes p.stepSchemas, Pool c

end GatePage

/-! ## Operations that start no timer -/

section Graph

variable {lib : FlowLibrary} {s : EditorState}

/-- Changes of which none is of the one kind are all of the other. -/
theorem all_of_not_any {Change : Type} {structural cosmetic : Change → Bool} {changes : List Change}
    (hreported : ∀ c ∈ changes, structural c = true ∨ cosmetic c = true)
    (h : changes.any structural = false) : ∀ c ∈ changes, cosmetic c = true := by
  intro c hc
  refine (hreported c hc).resolve_left fun hstructural => ?_
  rw [List.any_eq_true.2 ⟨c, hc, hstructural⟩] at h
  cases h

/-- A cosmetic change of nodes leaves the graph. -/
theorem graph_onNodesChange (hlib : lib.KeepsGraph) {changes : List NodeChange}
    (hcosmetic : ∀ c ∈ changes, c.cosmetic = true) (h : changes.any NodeChange.structural = false) :
    (s.onNodesChange lib changes).graph = s.graph := by
  have hset : (s.setGraph (lib.applyNodeChanges changes s.nodes) s.edges).graph = s.graph := by
    show EditorGraph.mk ((lib.applyNodeChanges changes s.nodes).map FlowNode.node) _ = _
    rw [hlib.nodes changes s.nodes hcosmetic]
    rfl
  have hno : ¬ changes.any NodeChange.structural = true := by
    rw [h]
    decide
  simp only [EditorState.onNodesChange, if_neg hno]
  -- a snapshot does not change the present
  split
  · exact hset
  · exact hset

/-- A cosmetic change of edges leaves the graph. -/
theorem graph_onEdgesChange (hlib : lib.KeepsGraph) {changes : List EdgeChange}
    (hcosmetic : ∀ c ∈ changes, c.cosmetic = true) (h : changes.any EdgeChange.structural = false) :
    (s.onEdgesChange lib changes).graph = s.graph := by
  have hno : ¬ changes.any EdgeChange.structural = true := by
    rw [h]
    decide
  simp only [EditorState.onEdgesChange, if_neg hno]
  show EditorGraph.mk _ ((lib.applyEdgeChanges changes s.edges).map FlowEdge.edge) = _
  rw [hlib.edges changes s.edges hcosmetic]
  rfl

theorem graph_applyAutoLayout : (s.applyAutoLayout lib).graph = s.graph := by
  show EditorGraph.mk (List.map FlowNode.node (List.map _ s.nodes)) _ = _
  rw [List.map_map]
  rfl

/-- **An operation that starts no timer leaves the graph as it is.** -/
theorem EditorOp.graph_apply (hlib : lib.KeepsGraph) {op : EditorOp} (hop : op.Reported)
    (h : op.schedules s = false) : (op.apply lib s).graph = s.graph := by
  cases op with
  | onNodesChange changes => exact graph_onNodesChange hlib (all_of_not_any hop h) h
  | onEdgesChange changes => exact graph_onEdgesChange hlib (all_of_not_any hop h) h
  | onConnect connection => cases h
  | addNode stepType position now => cases h
  | updateNodeParams nodeId params => cases h
  | removeSelected =>
    simp only [EditorOp.schedules, Bool.or_eq_false_iff] at h
    -- nothing is selected, so nothing is removed
    have hnodes : (s.nodes.filter FlowNode.selected).map (fun n => n.node.id) = [] := by
      simpa using h.1
    have hedges : (s.edges.filter FlowEdge.selected).map FlowEdge.id = [] := by
      simpa using h.2
    show EditorState.graph s.removeSelected = _
    simp only [EditorState.removeSelected]
    rw [if_pos ⟨hnodes, hedges⟩]
  -- no snapshot to go to
  | undo =>
    have hundo : s.history.undo = none := by simpa [EditorOp.schedules] using h
    show EditorState.graph s.undo = _
    rw [EditorState.undo, hundo]
  | redo =>
    have hredo : s.history.redo = none := by simpa [EditorOp.schedules] using h
    show EditorState.graph s.redo = _
    rw [EditorState.redo, hredo]
  | paste now =>
    show EditorState.graph (s.paste now) = _
    rw [EditorState.paste]
    cases hclipboard : s.clipboard with
    | none => rfl
    | some clipboard =>
      have hempty : clipboard.nodes = [] := by
        simpa [EditorOp.schedules, hclipboard] using h
      dsimp only
      rw [if_pos hempty]
  | copySelected =>
    show EditorState.graph s.copySelected = _
    rw [EditorState.copySelected]
    dsimp only
    split
    · rfl
    · rfl
  | applyAutoLayout => exact graph_applyAutoLayout
  -- the rest does not touch nodes or edges
  | setLabel label => rfl
  | setDescription description => rfl
  | markDirty => rfl
  | pushSnapshot => rfl
  | addContextVariable added => rfl
  | updateContextVariable slotIndex updates => rfl
  | setContextVariables slots => rfl
  | setVaultAddress address => rfl

end Graph

/-! ## What the runs of the hook find -/

section Pools

variable {Pool : SwapPoolCheck → Prop} {failures : Prop} {checks : List SwapPoolCheck}
  {errors : List PanelError} {c : SwapPoolCheck} {answer : Option String}

/-- The errors after these checks: one for each pool that is missing, and no more if no read fails. -/
structure Found (Pool : SwapPoolCheck → Prop) (failures : Prop) (checks : List SwapPoolCheck)
    (errors : List PanelError) : Prop where
  missing : ∀ c ∈ checks, ¬ Pool c → poolError c ∈ errors
  none : ¬ failures → (∀ c ∈ checks, Pool c) → errors = []

theorem Found.start : Found Pool failures [] [] := ⟨nofun, fun _ _ => rfl⟩

/-- One more answer. -/
theorem Found.answered (h : Found Pool failures checks errors) (hread : ReadOf Pool failures c answer) :
    Found Pool failures (checks ++ [c]) (errorsAfter errors c answer) := by
  rw [errorsAfter]
  constructor
  case missing =>
    intro d hd hmissing
    rcases List.mem_append.1 hd with hd | hd
    · split
      · exact h.missing d hd hmissing
      · exact List.mem_append_left _ (h.missing d hd hmissing)
    · rw [List.mem_singleton.1 hd] at hmissing ⊢
      -- a read that names a pool is right
      rw [if_neg fun hnames => hmissing (hread.1 hnames)]
      exact List.mem_append_right _ (List.mem_singleton_self _)
  case none =>
    intro hno hall
    have hpool := hall c (List.mem_append_right _ (List.mem_singleton_self _))
    rw [if_pos ((hread.2 hpool).resolve_right fun hfailed => hno hfailed.1)]
    exact h.none hno fun d hd => hall d (List.mem_append_left _ hd)

/-- Where a read fails only if reads may fail, there are no errors exactly if all pools are there. -/
theorem Found.eq_nil (h : Found Pool failures checks errors) :
    (errors = [] → ∀ c ∈ checks, Pool c) ∧ (¬ failures → (∀ c ∈ checks, Pool c) → errors = []) := by
  refine ⟨?_, h.none⟩
  rintro rfl c hc
  by_contra hmissing
  exact List.not_mem_nil (h.missing c hc hmissing)

end Pools

namespace GatePage

/-- The checks that the hook makes of what it depends on. -/
def checksOf (deps : PoolDeps) : List SwapPoolCheck := collectSwapPoolChecks deps.nodes deps.stepSchemas

/-- The errors are those of the graph as it is, unless its validation throws. -/
def Current (p : GatePage) : Prop :=
  ∀ graphErrors, validateGraph p.graph (!inferOwnerOnly p.graph) = some graphErrors →
    p.validationErrors = graphErrors.map graphError ++
      validateNodeParams p.graph.nodes p.stepSchemas p.tokenDecimals ++ p.externalErrors

/-- Errors are old only while a timer is pending that will collect them anew, or on the empty page before
the hook has run; a run that is not cancelled is for what the hook has seen last. -/
structure Inv (Pool : SwapPoolCheck → Prop) (failures : Prop) (p : GatePage) : Prop where
  current : p.validationTimer = false → p.loadTimers = 0 →
    p.Current ∨ (p.seen = none ∧ p.graph.nodes = [])
  runs : ∀ run ∈ p.runs, run.cancelled = false → ∃ deps done, p.seen = some deps ∧
    checksOf deps = done ++ run.todo ∧ Found Pool failures done run.errors
  external : ∀ deps, p.seen = some deps → deps.publicClient = true →
    (∀ run ∈ p.runs, run.cancelled = true) → Found Pool failures (checksOf deps) p.externalErrors

section Inv

variable {Pool : SwapPoolCheck → Prop} {failures : Prop} {p : GatePage}

/-- All that a validation does. -/
theorem runValidation_cases (p : GatePage) : ∃ errors oo,
    p.runValidation = { p with validationErrors := errors, ownerOnly := oo } ∧
      p.runValidation.Current := by
  rw [runValidation]
  split
  · rename_i hthrows
    refine ⟨p.validationErrors, p.ownerOnly, rfl, fun graphErrors h => ?_⟩
    rw [hthrows] at h
    cases h
  · rename_i errors hvalid
    refine ⟨_, _, rfl, fun graphErrors h => ?_⟩
    have heq : graphErrors = errors := Option.some.inj (h.symm.trans hvalid)
    rw [heq]
    rfl

/-- After a validation the errors are current. -/
theorem Inv.runValidation
    (hruns : ∀ run ∈ p.runs, run.cancelled = false → ∃ deps done, p.seen = some deps ∧
      checksOf deps = done ++ run.todo ∧ Found Pool failures done run.errors)
    (hexternal : ∀ deps, p.seen = some deps → deps.publicClient = true →
      (∀ run ∈ p.runs, run.cancelled = true) → Found Pool failures (checksOf deps) p.externalErrors) :
    p.runValidation.Inv Pool failures := by
  obtain ⟨errors, oo, heq, hcurrent⟩ := runValidation_cases p
  rw [heq] at hcurrent ⊢
  exact ⟨fun _ _ => Or.inl hcurrent, hruns, hexternal⟩

theorem Inv.start : GatePage.start.Inv Pool failures := by
  refine ⟨fun _ _ => Or.inr ⟨rfl, rfl⟩, nofun, ?_⟩
  intro deps h
  cases h

/-- The runs after the cleanup are all cancelled. -/
theorem cancelled_of_cleanup {run : PoolRun} (h : run ∈ p.runs.filterMap cleanup) :
    run.cancelled = true := by
  obtain ⟨before, -, hcleanup⟩ := List.mem_filterMap.1 h
  rw [cleanup] at hcleanup
  split at hcleanup
  · cases hcleanup
    rfl
  · cases hcleanup

/-- The effect keeps the invariant. -/
theorem Inv.effect (h : p.Inv Pool failures) : p.effect.Inv Pool failures := by
  have hcleanup {run : PoolRun} (hrun : run ∈ p.runs.filterMap cleanup) {P : Prop}
      (hlive : run.cancelled = false) : P := by
    rw [cancelled_of_cleanup hrun] at hlive
    cases hlive
  rw [GatePage.effect]
  dsimp only
  split
  · rename_i hnone
    refine Inv.runValidation (fun run hrun hlive => hcleanup hrun hlive) ?_
    intro deps hdeps _ _
    have hempty : checksOf deps = [] := by
      rw [← Option.some.inj hdeps]
      exact List.length_eq_zero_iff.1 hnone
    rw [hempty]
    exact Found.start
  · rename_i hsome
    -- the page is not empty any more, so the errors are current or a timer is pending
    have hcurrent : p.validationTimer = false → p.loadTimers = 0 → p.Current := by
      intro htimer hload
      refine (h.current htimer hload).resolve_right ?_
      rintro ⟨-, hnodes⟩
      refine hsome ?_
      show (collectSwapPoolChecks p.graph.nodes p.stepSchemas).length = 0
      rw [hnodes]
      rfl
    split
    · refine ⟨fun htimer hload => Or.inl (hcurrent htimer hload), ?_, ?_⟩
      · intro run hrun hlive
        rcases List.mem_append.1 hrun with hrun | hrun
        · exact hcleanup hrun hlive
        · rw [List.mem_singleton.1 hrun]
          exact ⟨p.deps, [], rfl, rfl, Found.start⟩
      · intro deps _ _ hall
        cases hall _ (List.mem_append_right _ (List.mem_singleton_self _))
    · rename_i hclient
      refine ⟨fun htimer hload => Or.inl (hcurrent htimer hload),
        fun run hrun hlive => hcleanup hrun hlive, ?_⟩
      intro deps hdeps hpublic
      rw [← Option.some.inj hdeps] at hpublic
      exact absurd hpublic hclient

/-- Changing one run, without cancelling it or taking its cancellation back. -/
theorem forall_cancelled_set {runs : List PoolRun} {i : Nat} {run run' : PoolRun}
    (hi : runs[i]? = some run) (hall : ∀ r ∈ runs.set i run', r.cancelled = true)
    (hsame : run'.cancelled = run.cancelled) : ∀ r ∈ runs, r.cancelled = true := by
  obtain ⟨hlt, rfl⟩ := List.getElem?_eq_some_iff.1 hi
  intro r hr
  obtain ⟨j, hj, rfl⟩ := List.getElem_of_mem hr
  by_cases hij : i = j
  · subst hij
    rw [← hsame]
    exact hall _ (List.mem_set hlt run')
  · refine hall _ (List.mem_iff_getElem.2 ⟨j, by rwa [List.length_set], ?_⟩)
    exact List.getElem_set_ne hij _

/-- A run that is left out. -/
theorem forall_cancelled_erase {runs : List PoolRun} {i : Nat} {run : PoolRun}
    (hi : runs[i]? = some run) (hcancelled : run.cancelled = true)
    (hall : ∀ r ∈ runs.eraseIdx i, r.cancelled = true) : ∀ r ∈ runs, r.cancelled = true := by
  intro r hr
  obtain ⟨j, hj⟩ := List.mem_iff_getElem?.1 hr
  by_cases hij : j = i
  · subst hij
    rw [hi] at hj
    rw [← Option.some.inj hj]
    exact hcancelled
  · exact hall r (List.mem_eraseIdx_iff_getElem?.2 ⟨j, hij, hj⟩)

/-- A run that begins keeps the invariant. -/
theorem Inv.poolTimer (h : p.Inv Pool failures) {i : Nat} {run : PoolRun} (hi : p.runs[i]? = some run) :
    Inv Pool failures { p with runs := p.runs.set i { run with begun := true } } := by
  refine ⟨h.current, ?_, ?_⟩
  · intro r hr hlive
    rcases List.mem_or_eq_of_mem_set hr with hr | rfl
    · exact h.runs r hr hlive
    · exact h.runs run (List.mem_of_getElem? hi) hlive
  · intro deps hdeps hpublic hall
    exact h.external deps hdeps hpublic (forall_cancelled_set hi hall rfl)

/-- An answer that tells the truth keeps the invariant. -/
theorem Inv.poolAnswer (h : p.Inv Pool failures) {i : Nat} {answer : Option String}
    (hread : p.Reported Pool failures (.poolAnswer i answer)) :
    (p.poolAnswer i answer).Inv Pool failures := by
  rw [GatePage.poolAnswer]
  split
  · rename_i cancelled c rest errors hi
    have hc := hread _ hi c rest rfl
    have hmem := List.mem_of_getElem? hi
    split
    · rename_i hlast
      have hruns : ∀ r ∈ p.runs.eraseIdx i, r.cancelled = false → ∃ deps done, p.seen = some deps ∧
          checksOf deps = done ++ r.todo ∧ Found Pool failures done r.errors :=
        fun r hr hlive => h.runs r (List.mem_of_mem_eraseIdx hr) hlive
      dsimp only
      split
      · rename_i hcancelled
        refine ⟨h.current, hruns, fun deps hdeps hpublic hall => ?_⟩
        exact h.external deps hdeps hpublic (forall_cancelled_erase hi hcancelled hall)
      · rename_i hlive
        obtain ⟨deps, done, hseen, hchecks, hfound⟩ := h.runs _ hmem (Bool.eq_false_iff.2 hlive)
        refine Inv.runValidation hruns fun deps' hdeps _ _ => ?_
        -- the run has made all checks of what the hook has seen
        rw [← Option.some.inj (hseen.symm.trans hdeps), hchecks, List.length_eq_zero_iff.1 hlast]
        exact hfound.answered hc
    · refine ⟨h.current, ?_, ?_⟩
      · intro r hr hlive
        rcases List.mem_or_eq_of_mem_set hr with hr | rfl
        · exact h.runs r hr hlive
        · obtain ⟨deps, done, hseen, hchecks, hfound⟩ := h.runs _ hmem hlive
          refine ⟨deps, done ++ [c], hseen, ?_, hfound.answered hc⟩
          rw [hchecks, List.append_assoc]
          rfl
      · intro deps hdeps hpublic hall
        exact h.external deps hdeps hpublic (forall_cancelled_set hi hall rfl)
  · exact h

/-- **Every event keeps the invariant.** -/
theorem Inv.step {lib : FlowLibrary} (hlib : lib.KeepsGraph) (h : p.Inv Pool failures) {e : GateEvent}
    (he : p.Reported Pool failures e) : (p.step lib e).Inv Pool failures := by
  cases e with
  | edit op =>
    refine ⟨fun htimer hload => ?_, h.runs, h.external⟩
    obtain ⟨htimer, hschedules⟩ := Bool.or_eq_false_iff.1 htimer
    have hgraph : (op.apply lib p.editor).graph = p.editor.graph :=
      EditorOp.graph_apply hlib he hschedules
    -- no timer was started, so the graph is the same
    rcases h.current htimer hload with hcurrent | ⟨hseen, hnodes⟩
    · left
      intro graphErrors hvalid
      change validateGraph (op.apply lib p.editor).graph
        (!inferOwnerOnly (op.apply lib p.editor).graph) = _ at hvalid
      rw [hgraph] at hvalid
      change p.validationErrors = graphErrors.map graphError ++
        validateNodeParams (op.apply lib p.editor).graph.nodes p.stepSchemas p.tokenDecimals ++ _
      rw [hgraph]
      exact hcurrent graphErrors hvalid
    · right
      refine ⟨hseen, ?_⟩
      show (op.apply lib p.editor).graph.nodes = []
      rw [hgraph]
      exact hnodes
  | loadEditorState state label description =>
    exact ⟨fun _ hload => absurd hload (Nat.succ_ne_zero _), h.runs, h.external⟩
  | setStepSchemas schemas =>
    refine ⟨fun htimer => ?_, h.runs, h.external⟩
    cases htimer
  | setTokenDecimals decimals =>
    refine ⟨fun htimer => ?_, h.runs, h.external⟩
    cases htimer
  | setPublicClient publicClient => exact ⟨h.current, h.runs, h.external⟩
  | validationTimer =>
    rw [GatePage.step]
    split
    · exact Inv.runValidation h.runs h.external
    · exact h
  | loadTimer =>
    rw [GatePage.step]
    split
    · exact Inv.runValidation h.runs h.external
    · exact h
  | effect => exact h.effect
  | poolTimer i =>
    rw [GatePage.step]
    cases hi : p.runs[i]? with
    | none => exact h
    | some run => exact h.poolTimer hi
  | poolAnswer i answer => exact h.poolAnswer he

theorem run_inv {lib : FlowLibrary} (hlib : lib.KeepsGraph) {events : List GateEvent}
    (h : Transition.Admitted (GatePage.step lib) (Reported Pool failures) .start events) :
    (Transition.run (GatePage.step lib) .start events).Inv Pool failures :=
  Transition.run_invariant (fun _ _ hinv he => hinv.step hlib he) Inv.start h

end Inv
end GatePage

/-- **The gate before the deployment.** After any edits, timers and reads in any order, once nothing is
on the way: where there are no errors, the graph, the parameters and the pools of all swaps are valid;
and where they are, there are no errors, unless a read of a pool has failed. The validation of the graph
does not throw if edges join nodes (`validateGraph_total`). -/
theorem deploy_gate {lib : FlowLibrary} (hlib : lib.KeepsGraph) {Pool : SwapPoolCheck → Prop}
    {failures : Prop} {events : List GateEvent}
    (h : Transition.Admitted (GatePage.step lib) (GatePage.Reported Pool failures) .start events)
    (hquiet : (Transition.run (GatePage.step lib) .start events).Quiet)
    {graphErrors : List ValidationError}
    (hanswers : validateGraph (Transition.run (GatePage.step lib) .start events).graph
      (!inferOwnerOnly (Transition.run (GatePage.step lib) .start events).graph) = some graphErrors) :
    ((Transition.run (GatePage.step lib) .start events).validationErrors = [] →
        (Transition.run (GatePage.step lib) .start events).Valid Pool) ∧
      (¬ failures → (Transition.run (GatePage.step lib) .start events).Valid Pool →
        (Transition.run (GatePage.step lib) .start events).validationErrors = []) := by
  have hinv := GatePage.run_inv hlib h
  generalize Transition.run (GatePage.step lib) .start events = p at hquiet hanswers hinv ⊢
  -- no timer is pending: the errors are those of this graph
  have hcurrent : p.Current := by
    refine (hinv.current hquiet.validationTimer hquiet.loadTimers).resolve_right fun hempty => ?_
    rw [hquiet.seen] at hempty
    cases hempty.1
  -- no read is under way: the pools were read for these checks
  have hfound : Found Pool failures (collectSwapPoolChecks p.graph.nodes p.stepSchemas)
      p.externalErrors := hinv.external p.deps hquiet.seen hquiet.publicClient hquiet.runs
  rw [hcurrent graphErrors hanswers]
  constructor
  · intro hnil
    obtain ⟨hrest, hexternal⟩ := List.append_eq_nil_iff.1 hnil
    obtain ⟨hmap, hparams⟩ := List.append_eq_nil_iff.1 hrest
    rw [List.map_eq_nil_iff.1 hmap] at hanswers
    exact ⟨hanswers, hparams, hfound.eq_nil.1 hexternal⟩
  · intro hno hvalid
    rw [hvalid.graph] at hanswers
    rw [← Option.some.inj hanswers, hvalid.params, hfound.eq_nil.2 hno hvalid.pools]
    rfl

/-! ## One swap -/

/-- The sample's library keeps the graph where nothing changes. -/
theorem plainLibrary_keepsGraph : plainLibrary.KeepsGraph where
  nodes changes nodes h := by
    have hkept : plainLibrary.applyNodeChanges changes nodes = nodes := by
      show List.filter _ nodes ++ List.filterMap _ changes = nodes
      rw [List.filterMap_eq_nil_iff.2, List.append_nil, List.filter_eq_self.2]
      · intro n _
        rw [List.all_eq_true]
        intro c hc
        have hcosmetic := h c hc
        cases c with
        | remove id => cases hcosmetic
        | _ => rfl
      · intro c hc
        have hcosmetic := h c hc
        cases c with
        | add item index => cases hcosmetic
        | _ => rfl
    rw [hkept]
  edges _ _ _ := rfl

/-- A field with this widget. -/
def swapField (widget : Widget) : FieldSchema where
  title := none
  default := .undefined
  widget := some widget
  slotAccess := none
  timeSlotField := none
  zeroToggle := none
  amountTokenField := none
  targetHfField := none
  tickLowerField := none
  tickUpperField := none

/-- A swap of one token for another. -/
def swapSchema : StepSchema where
  paramSchema := some {
    properties := [("tokenIn", swapField .tokenSelector), ("tokenOut", swapField .tokenSelector),
      ("fee", swapField .feeTier)]
    required := ["tokenIn", "tokenOut", "fee"] }
  abiFragment := some []

/-- USDT for WBNB. -/
def swapNode : FlowNode where
  node := ⟨"node-1", .action, "swap",
    [("tokenIn", .str "0x55d398326f99059fF775485246999027B3197955"),
      ("tokenOut", .str "0xbb4CdB9CBd36B01bD1cBaEBF2De08d9173bc095c"), ("fee", .num (.finite 500))]⟩
  position := ⟨0, 0⟩
  selected := false

/-- The graph and the schemas are loaded, and the pool is found. -/
def swapLoaded : List GateEvent :=
  [.setPublicClient true, .loadEditorState ⟨[swapNode], []⟩ none none,
    .setStepSchemas [("swap", swapSchema)], .effect, .loadTimer, .validationTimer, .poolTimer 0,
    .poolAnswer 0 (some "0x36696169C63e42cd08ce11f5deeBbCeBae652050")]

/-- A fee tier without a pool is chosen. -/
def swapEdited : List GateEvent :=
  [.edit (.updateNodeParams "node-1" [("fee", .num (.finite 100))]), .effect, .validationTimer,
    .poolTimer 0, .poolAnswer 0 (some "")]

/-- The check of the swap with a fee. -/
def swapCheck (fee : Rat) : SwapPoolCheck :=
  ⟨"node-1", "fee", "0x55d398326f99059fF775485246999027B3197955",
    "0xbb4CdB9CBd36B01bD1cBaEBF2De08d9173bc095c", .finite fee⟩

/-- The checks of a run that are left when its answer comes. -/
def todoAt (events : List GateEvent) (i : Nat) : Option (List SwapPoolCheck) :=
  (Transition.run (GatePage.step plainLibrary) .start events).runs[i]?.map PoolRun.todo

theorem swap_facts :
    (Transition.run (GatePage.step plainLibrary) .start swapLoaded).validationErrors = [] ∧
      (Transition.run (GatePage.step plainLibrary) .start (swapLoaded ++ swapEdited)).validationErrors =
        [poolError (swapCheck 100)] ∧
      todoAt (swapLoaded.take 7) 0 = some [swapCheck 500] ∧
      todoAt (swapLoaded ++ swapEdited.take 4) 0 = some [swapCheck 100] ∧
      namesPool (some "0x36696169C63e42cd08ce11f5deeBbCeBae652050") = true := by
  decide +kernel

/-- The read of the swap's pool tells whether the fee is that of a pool. -/
theorem readOf_swap {events : List GateEvent} {fee : Rat}
    (hnext : todoAt events 0 = some [swapCheck fee])
    {answer : Option String} (hanswer : namesPool answer = true ↔ fee = 500) :
    (Transition.run (GatePage.step plainLibrary) .start events).Reported
      (fun c => c.fee = .finite 500) False (.poolAnswer 0 answer) := by
  intro run hrun c rest htodo
  rw [todoAt, hrun, Option.map_some, Option.some.injEq, htodo, List.cons.injEq] at hnext
  have hpool : c.fee = .finite 500 ↔ fee = 500 := by
    rw [hnext.1, swapCheck, JsNumber.finite.injEq]
  exact ⟨fun h => hpool.2 (hanswer.1 h), fun h => Or.inl (hanswer.2 (hpool.1 h))⟩

/-- There are no errors once the pool is found, and after the edit the graph is not valid. -/
theorem deploy_gate_swap :
    (Transition.run (GatePage.step plainLibrary) .start swapLoaded).Valid
        (fun c => c.fee = .finite 500) ∧
      ¬ (Transition.run (GatePage.step plainLibrary) .start (swapLoaded ++ swapEdited)).Valid
        fun c => c.fee = .finite 500 := by
  obtain ⟨hnone, herror, hloaded, hedited, hfound⟩ := swap_facts
  have hadmitted : Transition.Admitted (GatePage.step plainLibrary)
      (GatePage.Reported (fun c => c.fee = .finite 500) False) .start swapLoaded :=
    ⟨trivial, trivial, trivial, trivial, trivial, trivial, trivial,
      readOf_swap hloaded (iff_of_true hfound rfl), trivial⟩
  constructor
  · exact (@deploy_gate _ plainLibrary_keepsGraph _ False swapLoaded hadmitted
      ⟨rfl, rfl, rfl, rfl, nofun⟩ [] rfl).1 hnone
  · intro hvalid
    have hall := (Transition.admitted_append _ _ swapLoaded swapEdited).2 ⟨hadmitted,
      trivial, trivial, trivial, trivial,
      readOf_swap hedited (iff_of_false (by decide) (by decide)), trivial⟩
    have hempty := (@deploy_gate _ plainLibrary_keepsGraph _ False (swapLoaded ++ swapEdited) hall
      ⟨rfl, rfl, rfl, rfl, nofun⟩ [] rfl).2 id hvalid
    rw [herror] at hempty
    cases hempty

end StrategyBuilder.Editor
