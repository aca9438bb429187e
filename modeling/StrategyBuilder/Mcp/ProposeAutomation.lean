import StrategyBuilder.Backend.EncodingService
import StrategyBuilder.Mcp.IntentCheck
import StrategyBuilder.Mcp.PolicyGate

/-!
# Proposals

`proposeAutomation`: a graph of an agent becomes a draft. It is mapped to raw values, the backend
encodes it, what it decodes to is compared with the agent's intent, and then the store keeps it. Whatever
is thrown on the way, no draft is stored.

A call stands for each request to the backend or to the chain, and for each operation on the store.
-/

set_option autoImplicit false

namespace StrategyBuilder.Mcp

open StrategyBuilder.Automation
open StrategyBuilder.Contracts.Vault (Op)
open StrategyBuilder.Lib
open StrategyBuilder.Lib.Js
open StrategyBuilder.Shared

/-! ## Drafts and calls -/

/-- What is kept of a proposal until it is deployed. -/
structure Draft where
  vaultAddress : String
  automationId : String
  rawGraph : EditorGraph
  contextOverrides : Record HexData
  ownerOnly : Bool
  summary : DecodedSummary
  catalog : DecoderCatalog

/-- What `/encode` answers. -/
structure EncodeResponse where
  requiresContextTx : Bool
  contextCalldata : Option Op
  automationCalldata : Option Op
  ownerOnly : Bool
  stepCount : Nat

/-- What is read of a receipt. -/
structure ContractTxReceipt where
  hash : String
  /-- The topics of each log. -/
  logs : List (List String)

/-- The body of the PATCH that registers an automation. -/
structure Registration where
  onChainId : Int
  txHash : String
  ownerOnly : Bool
  stepCount : Nat

/-- What is known of a deployment after it was mined. -/
structure DeployReceipt where
  onChainId : Int
  txHashes : List String

/-- What the tools await: pools, the backend, the store of drafts, the human, and the chain. -/
inductive McpCall where
  | getPool (tokenA tokenB : String) (fee : JsNumber)
  /-- POST to the automations of a vault. -/
  | postAutomation (vaultAddress label : String)
  /-- POST to `/encode` of an automation. -/
  | encode (vaultAddress automationId : String) (graph : EditorGraph)
      (contextOverrides : Record HexData)
  | deleteAutomation (vaultAddress automationId : String)
  | patchAutomation (vaultAddress automationId : String) (body : Registration)
  /-- `draftStore.create` -/
  | createDraft (draft : Draft)
  /-- `draftStore.consume` -/
  | consumeDraft (draftId : String)
  | record (entry : AuditEntry)
  | requestApproval (req : ConfirmationRequest)
  /-- `signer.sendRawTransaction` -/
  | sendTransaction (target : String) (data : Op) (gasLimit : Nat)
  | deployOnChain (draft : Draft)

/-- The type of each answer. -/
abbrev McpCall.Reply : McpCall → Type
  | .getPool _ _ _ => String
  | .postAutomation _ _ => String
  | .encode _ _ _ _ => EncodeResponse
  | .createDraft _ => String
  | .consumeDraft _ => Option Draft
  | .requestApproval _ => Bool
  | .sendTransaction _ _ _ => ContractTxReceipt
  | .deployOnChain _ => DeployReceipt
  | _ => Unit

/-- A tool, with its calls. -/
abbrev McpProgram := Program McpCall McpCall.Reply Thrown

/-- The calls of a tool with their answers. -/
abbrev McpHistory := List (Answered McpCall McpCall.Reply Thrown)

/-- `err instanceof Error ? err.message : String(err)` -/
def Thrown.text : Thrown → String
  | .error _ message => message
  | .value v => valueToString v

/-- `throw new Error(message)` -/
def throwMessage {α : Type} (message : String) : McpProgram α := throw (.error "Error" message)

/-- A function of the shared package that throws an `Error`. -/
def ofMapped {α : Type} : Mapped α → McpProgram α
  | .ok a => pure a
  | .error message => throwMessage message

/-! ## The tool -/

/-- A node as the model writes it. -/
structure FriendlyNode where
  id : String
  type : Option StepCategory
  stepTypeId : String
  params : Record JsValue

/-- An edge as the model writes it. -/
structure FriendlyEdge where
  source : String
  target : String
  sourceHandle : Option SourceHandle

/-- The arguments of the tool. -/
structure ProposeParams where
  vaultAddress : String
  nodes : List FriendlyNode
  edges : List FriendlyEdge
  intent : FlatIntent

/-- What the tool is given. -/
structure ProposeDeps where
  catalog : DecoderCatalog
  tokenDecimals : Record Nat
  /-- Whether there is a `getPool`. -/
  checksPools : Bool

/-- The answer of the tool. -/
structure ProposeResult where
  draftId : String
  ownerOnly : Bool
  summary : DecodedSummary
  warnings : List String

/-- The graph with the defaults of `mapGraphToRaw`. -/
def ProposeParams.graph (params : ProposeParams) : EditorGraph where
  nodes := params.nodes.map fun n =>
    { id := n.id, type := n.type.getD .action, stepTypeId := n.stepTypeId, params := n.params }
  edges := params.edges.map fun e =>
    { source := e.source, target := e.target, sourceHandle := e.sourceHandle.getD .out }

/-- The catalog as the shared mappers see it. -/
def catalogSchemas (catalog : DecoderCatalog) : Record StepSchema :=
  catalog.map fun e => (e.1, e.2.stepSchema)

/-- The first node whose step type is not in the catalog. -/
def unknownNode (catalog : DecoderCatalog) (nodes : List EditorNode) : Option EditorNode :=
  nodes.find? fun n => !isDecoded catalog n

/-- `mapGraphToRaw` and `buildContextOverrides` -/
def buildRaw (deps : ProposeDeps) (graph : EditorGraph) : Mapped (EditorGraph × Record HexData) := do
  let rawGraph ← mapGraphToRaw graph (catalogSchemas deps.catalog) (some deps.tokenDecimals)
  let contextOverrides ← buildContextOverrides graph.nodes (catalogSchemas deps.catalog)
  return (rawGraph, contextOverrides)

/-- What the factory answers where there is no pool. -/
def zeroAddress : String := "0x0000000000000000000000000000000000000000"

/-- `'tokenIn' in props && 'tokenOut' in props && 'fee' in props` -/
def hasSwapShape (catalog : DecoderCatalog) (node : EditorNode) : Bool :=
  match Record.own? catalog node.stepTypeId with
  | none => false
  | some step => ["tokenIn", "tokenOut", "fee"].all fun name => (Record.own? step.fields name).isSome

/-- The loop over the nodes that look for a pool. -/
def checkPools (catalog : DecoderCatalog) : List EditorNode → McpProgram Unit
  | [] => pure ()
  | node :: nodes => do
      if hasSwapShape catalog node then
        let tokenIn := valueToString (param node.params "tokenIn")
        let tokenOut := valueToString (param node.params "tokenOut")
        let pool ← Program.call (McpCall.getPool tokenIn tokenOut (toNumber (param node.params "fee")))
        if pool.toLower = zeroAddress then
          throwMessage ("Kein PancakeSwap-Pool für " ++ tokenIn ++ "/" ++ tokenOut ++ " (Fee " ++
            valueToString (param node.params "fee") ++ ") — Strategie nicht deploybar.")
      checkPools catalog nodes

/-- `cleanupDraftAuto`: a failure is swallowed. -/
def cleanupDraftAuto (vaultAddress automationId : String) : McpProgram Unit :=
  tryCatch (Program.call (McpCall.deleteAutomation vaultAddress automationId)) fun _ => pure ()

/-- Step 4 after the automation is there: `/encode`. -/
def encodeDraft (vaultAddress automationId : String) (rawGraph : EditorGraph)
    (contextOverrides : Record HexData) : McpProgram Bool :=
  tryCatch
    (do
      let encodeResult ←
        Program.call (McpCall.encode vaultAddress automationId rawGraph contextOverrides)
      return encodeResult.ownerOnly)
    fun err => do
      cleanupDraftAuto vaultAddress automationId
      throwMessage ("Graph von der Encode-Boundary abgelehnt (kein Deploy): " ++ err.text)

/-- The options of the cross-check, as the tool derives them. -/
def checkOf (deps : ProposeDeps) (intent : FlatIntent) (rawGraph : EditorGraph)
    (summary : DecodedSummary) (ownerOnly : Bool) : CrossCheckResult :=
  crossCheckIntent intent summary ownerOnly (extractTriggerSeconds rawGraph deps.catalog)
    (isBranched rawGraph)

/-- Steps 5 and 6: the cross-check, and the store. -/
def checkAndStore (deps : ProposeDeps) (params : ProposeParams) (automationId : String)
    (rawGraph : EditorGraph) (contextOverrides : Record HexData) (ownerOnly : Bool) :
    McpProgram ProposeResult := do
  let summary ← ofMapped (decodeRawGraph rawGraph deps.catalog deps.tokenDecimals
    (some (executionOf ownerOnly)))
  let check := checkOf deps params.intent rawGraph summary ownerOnly
  if !check.ok then
    -- the draft of the backend is deleted again
    cleanupDraftAuto params.vaultAddress automationId
    throwMessage ("Intent ≠ Graph — abgelehnt (kein Deploy):\n- " ++ "\n- ".intercalate check.diffs)
  let draftId ← Program.call (McpCall.createDraft
    { vaultAddress := params.vaultAddress, automationId := automationId, rawGraph := rawGraph,
      contextOverrides := contextOverrides, ownerOnly := ownerOnly, summary := summary,
      catalog := deps.catalog })
  return { draftId := draftId, ownerOnly := ownerOnly, summary := summary,
           warnings := check.warnings }

/-- Steps 4 to 6. -/
def encodeAndStore (deps : ProposeDeps) (params : ProposeParams) (rawGraph : EditorGraph)
    (contextOverrides : Record HexData) : McpProgram ProposeResult := do
  let automationId ← Program.call (McpCall.postAutomation params.vaultAddress "MCP-Entwurf")
  let ownerOnly ← encodeDraft params.vaultAddress automationId rawGraph contextOverrides
  checkAndStore deps params automationId rawGraph contextOverrides ownerOnly

/-- `propose_automation`: the graph is checked, encoded by the backend, and compared with what was
asked for. -/
def proposeAutomation (deps : ProposeDeps) (params : ProposeParams) : McpProgram ProposeResult := do
  match unknownNode deps.catalog params.graph.nodes with
  | some node =>
      throwMessage ("Unbekannter Step-Type „" ++ node.stepTypeId ++
        "\" — es sind nur Katalog-Bausteine erlaubt.")
  | none =>
  match buildRaw deps params.graph with
  | .error detail =>
      throwMessage ("Graph nicht baubar (z. B. nicht-kuratierter Token): " ++ detail)
  | .ok (rawGraph, contextOverrides) =>
  if deps.checksPools then checkPools deps.catalog params.graph.nodes
  encodeAndStore deps params rawGraph contextOverrides

/-! ## What a proposal establishes -/

/-- What is known of a draft when a proposal stores it. -/
structure Accepts (deps : ProposeDeps) (params : ProposeParams) (history : McpHistory)
    (draft : Draft) : Prop where
  known : ∀ node ∈ params.graph.nodes, isDecoded deps.catalog node = true
  raw : buildRaw deps params.graph = .ok (draft.rawGraph, draft.contextOverrides)
  vaultAddress : draft.vaultAddress = params.vaultAddress
  catalog : draft.catalog = deps.catalog
  encoded : ∃ encodeResult, ⟨.encode draft.vaultAddress draft.automationId draft.rawGraph
    draft.contextOverrides, .ok encodeResult⟩ ∈ history ∧ draft.ownerOnly = encodeResult.ownerOnly
  summary : decodeRawGraph draft.rawGraph deps.catalog deps.tokenDecimals
    (some (executionOf draft.ownerOnly)) = .ok draft.summary
  checked : (checkOf deps params.intent draft.rawGraph draft.summary draft.ownerOnly).ok = true

/-- What the calls of a proposal keep to: it stores only what it has accepted. -/
def ProposalKeeps (deps : ProposeDeps) (params : ProposeParams) (h : McpHistory) : McpCall → Prop
  | .createDraft draft => Accepts deps params h draft
  | .getPool _ _ _ | .postAutomation _ _ | .encode _ _ _ _ | .deleteAutomation _ _ => True
  | _ => False

section Keeps

variable {deps : ProposeDeps} {params : ProposeParams}

/-- To look at the pools stores nothing. -/
theorem checkPools_keeps (catalog : DecoderCatalog) (nodes : List EditorNode) (h : McpHistory) :
    (checkPools catalog nodes).Always (ProposalKeeps deps params) (fun _ _ => True) h := by
  induction nodes generalizing h with
  | nil => trivial
  | cons node nodes ih =>
    simp only [checkPools]
    split
    · apply Program.Always.call_bind trivial
      · intro pool
        split
        · trivial
        · exact ih _
      · intro e
        trivial
    · exact ih h

/-- To clean up stores nothing. -/
theorem cleanupDraftAuto_keeps (vaultAddress automationId : String) (h : McpHistory) :
    (cleanupDraftAuto vaultAddress automationId).Always (ProposalKeeps deps params)
      (fun _ _ => True) h := by
  have hcall : (Program.call (McpCall.deleteAutomation vaultAddress automationId)).Always
      (ProposalKeeps deps params) (fun _ (_ : Except Thrown Unit) => True) h :=
    ⟨trivial, fun _ => trivial⟩
  apply Program.Always.tryCatch hcall
  · intro _ _ _
    trivial
  · intro _ _ _
    trivial

/-- What fails, fails for good. -/
theorem cleanup_throws (vaultAddress automationId message : String) {α : Type}
    {Q : McpHistory → Except Thrown α → Prop} (hQ : ∀ h e, Q h (.error e)) (h : McpHistory) :
    (cleanupDraftAuto vaultAddress automationId >>= fun _ => throwMessage message).Always
      (ProposalKeeps deps params) Q h := by
  apply Program.Always.bind (cleanupDraftAuto_keeps vaultAddress automationId h)
  · intro h' _ _
    exact hQ h' _
  · intro h' e _
    exact hQ h' e

/-- Who executes the automation is what the backend has answered. -/
theorem encodeDraft_keeps (vaultAddress automationId : String) (rawGraph : EditorGraph)
    (contextOverrides : Record HexData) (h : McpHistory) :
    (encodeDraft vaultAddress automationId rawGraph contextOverrides).Always
      (ProposalKeeps deps params)
      (fun h' r => ∀ ownerOnly, r = .ok ownerOnly →
        ∃ encodeResult, ⟨.encode vaultAddress automationId rawGraph contextOverrides,
          .ok encodeResult⟩ ∈ h' ∧ ownerOnly = encodeResult.ownerOnly) h := by
  apply Program.Always.tryCatch (S := fun h' r => ∀ ownerOnly, r = .ok ownerOnly →
        ∃ encodeResult, ⟨.encode vaultAddress automationId rawGraph contextOverrides,
          .ok encodeResult⟩ ∈ h' ∧ ownerOnly = encodeResult.ownerOnly)
  · apply Program.Always.call_bind trivial
    · rintro encodeResult _ ⟨⟩
      exact ⟨encodeResult, List.mem_append_right _ (List.mem_singleton_self _), rfl⟩
    · rintro e _ ⟨⟩
  · intro h' ownerOnly hh'
    exact hh'
  · intro h' err _
    apply cleanup_throws
    rintro h'' e _ ⟨⟩

/-- What is stored has been checked. -/
theorem checkAndStore_keeps {automationId : String} {rawGraph : EditorGraph}
    {contextOverrides : Record HexData} {ownerOnly : Bool}
    (hknown : ∀ node ∈ params.graph.nodes, isDecoded deps.catalog node = true)
    (hraw : buildRaw deps params.graph = .ok (rawGraph, contextOverrides)) {h : McpHistory}
    (hencoded : ∃ encodeResult, ⟨.encode params.vaultAddress automationId rawGraph contextOverrides,
      .ok encodeResult⟩ ∈ h ∧ ownerOnly = encodeResult.ownerOnly) :
    (checkAndStore deps params automationId rawGraph contextOverrides ownerOnly).Always
      (ProposalKeeps deps params) (fun _ _ => True) h := by
  rw [checkAndStore]
  cases hsummary : decodeRawGraph rawGraph deps.catalog deps.tokenDecimals
      (some (executionOf ownerOnly)) with
  | error e => trivial
  | ok summary =>
    rw [ofMapped, Program.pure_bind]
    dsimp only
    split
    · apply cleanup_throws
      intro _ _
      trivial
    · next hcheck =>
      apply Program.Always.call_bind
      -- the draft is stored with all that the checks have looked at
      · exact ⟨hknown, hraw, rfl, rfl, hencoded, hsummary, by simpa using hcheck⟩
      · intro draftId
        trivial
      · intro e
        trivial

/-- What is stored has been encoded and checked. -/
theorem encodeAndStore_keeps {rawGraph : EditorGraph} {contextOverrides : Record HexData}
    (hknown : ∀ node ∈ params.graph.nodes, isDecoded deps.catalog node = true)
    (hraw : buildRaw deps params.graph = .ok (rawGraph, contextOverrides)) (h : McpHistory) :
    (encodeAndStore deps params rawGraph contextOverrides).Always (ProposalKeeps deps params)
      (fun _ _ => True) h := by
  apply Program.Always.call_bind trivial
  · intro automationId
    apply Program.Always.bind (encodeDraft_keeps ..)
    · intro h' ownerOnly hencoded
      exact checkAndStore_keeps hknown hraw (hencoded ownerOnly rfl)
    · intro h' e _
      trivial
  · intro e
    trivial

/-- A proposal stores no draft that it has not accepted. -/
theorem proposeAutomation_keeps (deps : ProposeDeps) (params : ProposeParams) :
    (proposeAutomation deps params).Always (ProposalKeeps deps params) (fun _ _ => True) [] := by
  rw [proposeAutomation]
  cases hunknown : unknownNode deps.catalog params.graph.nodes with
  | some node => trivial
  | none =>
    cases hraw : buildRaw deps params.graph with
    | error detail => trivial
    | ok raw =>
      obtain ⟨rawGraph, contextOverrides⟩ := raw
      have hknown : ∀ node ∈ params.graph.nodes, isDecoded deps.catalog node = true := by
        intro node hnode
        simpa using List.find?_eq_none.1 hunknown node hnode
      dsimp only
      split
      · apply Program.Always.bind (checkPools_keeps ..)
        · intro h' _ _
          exact encodeAndStore_keeps hknown hraw h'
        · intro h' e _
          trivial
      · exact encodeAndStore_keeps hknown hraw []

/-- Every draft that a run of a proposal stores has been accepted. -/
theorem proposal_accepts {ω : Nat → (c : McpCall) → Except Thrown c.Reply} {n : Nat} {draft : Draft}
    {reply : Except Thrown String}
    (h : ⟨.createDraft draft, reply⟩ ∈ ((proposeAutomation deps params).run ω n).1) :
    Accepts deps params ((proposeAutomation deps params).run ω n).1 draft := by
  obtain ⟨before, after, hrun⟩ := List.append_of_mem h
  have haccepts : Accepts deps params ([] ++ before) draft :=
    (proposeAutomation_keeps deps params).run_calls ω n hrun
  obtain ⟨encodeResult, hmem, howner⟩ := haccepts.encoded
  refine { haccepts with encoded := ⟨encodeResult, ?_, howner⟩ }
  rw [hrun]
  exact List.mem_append_left _ hmem

end Keeps

end StrategyBuilder.Mcp
