import StrategyBuilder.Automation.EncodedGraph
import StrategyBuilder.Backend.ParamNumbers
import StrategyBuilder.Backend.StructuralValidity
import StrategyBuilder.Mcp.DeployAutomation

/-!
# What was seen and what is deployed

`buildDeployOnChain` of `chain.ts`: a deployment has the stored graph encoded once more and sends what
the backend answers now. The stored graph is that of the proposal, and so is the catalog that the checks
use, but the backend encodes with its own catalog of the day.

`deployed_steps_iff`: the steps that are sent are those of the proposal exactly if the changes of the
catalog leave the calls of the graph's nodes alone. A row that moves to another address or selector does
not, nor does one with more or fewer components. A component may be renamed or get another type, default
or slot as long as what the node gives for it is still read as the same integer.
-/

set_option autoImplicit false

namespace StrategyBuilder.Mcp

open StrategyBuilder.Automation
open StrategyBuilder.Backend (Services StepType ContextSlots EncodeResult bfs nodeMap indexMap
  encodeParams encodeStep encodeSteps slotMappingOf createContext encodeSetContext EthersCoder
  componentNumber ethersServices ethersCoder plainAddress)
open StrategyBuilder.Contracts (Address)
open StrategyBuilder.Contracts.Vault (Op Step DONE)
open StrategyBuilder.Lib
open StrategyBuilder.Lib.Abi
open StrategyBuilder.Lib.Js
open StrategyBuilder.Shared

/-! ## The executor -/

/-- `id('AutomationCreated(uint32,uint256)')` -/
def automationCreatedTopic : String :=
  "0xa7518fedd4a8b6327e76ca3a9ab40718e85696f626d540b0d6829cfb29f36ae0"

/-- The topic with the id, in the first log that has one. -/
def createdTopic? (logs : List (List String)) : Option String :=
  logs.findSome? fun topics =>
    match topics with
    | topic :: onChainId :: _ =>
        if topic = automationCreatedTopic ∧ onChainId ≠ "" then some onChainId else none
    | _ => none

/-- The first transaction, where the context needs one. -/
def sendContext (draft : Draft) (enc : EncodeResponse) : McpProgram (List String) :=
  match enc.requiresContextTx, enc.contextCalldata with
  | true, some calldata => do
      let ctx ← Program.call (McpCall.sendTransaction draft.vaultAddress calldata 500000)
      return [ctx.hash]
  | _, _ => pure []

/-- The second transaction. -/
def sendAutomation (draft : Draft) (calldata : Op) (txHashes : List String) :
    McpProgram ContractTxReceipt :=
  tryCatch (Program.call (McpCall.sendTransaction draft.vaultAddress calldata 2000000)) fun err =>
    let ctxNote := match txHashes with
      | [] => ""
      | hash :: _ => " Kontext-TX " ++ hash ++ " ist bereits bestätigt (Vault-Kontext mutiert) —"
    throwMessage ("Automation-TX fehlgeschlagen:" ++ ctxNote ++ " " ++ err.text)

/-- The PATCH that registers the automation. -/
def registerAutomation (draft : Draft) (enc : EncodeResponse) (onChainId : Int) (hash : String) :
    McpProgram Unit :=
  tryCatch (Program.call (McpCall.patchAutomation draft.vaultAddress draft.automationId
      { onChainId := onChainId, txHash := hash, ownerOnly := enc.ownerOnly,
        stepCount := enc.stepCount })) fun err =>
    throwMessage ("Automation on-chain deployt (onChainId=" ++ toString onChainId ++ ", TX " ++ hash ++
      "), Backend-Registrierung fehlgeschlagen: " ++ err.text ++ ". Bitte PATCH /vaults/" ++
      draft.vaultAddress ++ "/automations/" ++ draft.automationId ++ " manuell wiederholen.")

/-- What follows the answer of `/encode`. -/
def sendEncoded (draft : Draft) (enc : EncodeResponse) : McpProgram DeployReceipt := do
  if enc.requiresContextTx && enc.contextCalldata.isNone then
    throwMessage
      "Encode-Antwort inkonsistent: requiresContextTx=true, aber contextCalldata fehlt."
  match enc.automationCalldata with
  | none =>
      throwMessage "Encode-Antwort unvollständig: automationCalldata fehlt — kein Deploy."
  | some calldata =>
      let txHashes ← sendContext draft enc
      let auto ← sendAutomation draft calldata txHashes
      match createdTopic? auto.logs with
      | none =>
          throwMessage ("Automation on-chain erstellt (TX " ++ auto.hash ++
            "), aber On-Chain-ID nicht lesbar.")
      | some topic =>
          match stringToBigInt topic with
          | none => throw (.error "SyntaxError" ("Cannot convert " ++ topic ++ " to a BigInt"))
          | some onChainId =>
              -- the automation is on chain by now, whatever the backend answers
              registerAutomation draft enc onChainId auto.hash
              return { onChainId := onChainId, txHashes := txHashes ++ [auto.hash] }

/-- `buildDeployOnChain`: the draft is encoded once more before it is sent. -/
def buildDeployOnChain (draft : Draft) : McpProgram DeployReceipt := do
  let enc ← Program.call (McpCall.encode draft.vaultAddress draft.automationId draft.rawGraph
    draft.contextOverrides)
  sendEncoded draft enc

/-! ## The backend -/

/-- What the backend encodes with. -/
structure BackendState where
  svc : Services
  slots : ContextSlots
  onChainCtx : Option (List Bytes)

/-- `encode` in a state of the backend. -/
def BackendState.encode (b : BackendState) (automationId : String) (graph : EditorGraph)
    (contextOverrides : Record HexData) : Except Backend.Thrown EncodeResult :=
  (Backend.encode b.svc b.slots b.onChainCtx automationId graph (some contextOverrides)).2

/-- The response with a result. -/
def responseOf (r : EncodeResult) : EncodeResponse where
  requiresContextTx := r.requiresContextTx
  contextCalldata := r.contextCalldata
  automationCalldata := some r.automationCalldata
  ownerOnly := r.ownerOnly
  stepCount := r.stepCount

/-- `/encode` has been answered by the backend in this state. -/
def AnsweredBy (b : BackendState) (h : McpHistory) : Prop :=
  ∀ vaultAddress automationId graph contextOverrides enc,
    ⟨.encode vaultAddress automationId graph contextOverrides, .ok enc⟩ ∈ h →
    ∃ r, b.encode automationId graph contextOverrides = .ok r ∧ enc = responseOf r

/-- The steps of the automation that a transaction creates. -/
def createdSteps? : Op → Option (List Step)
  | .createAutomation steps | .createOwnerAutomation steps => some steps
  | _ => none

/-- The context slots that the variables of a draft have. -/
def BackendState.slotMapping (b : BackendState) (draft : Draft) : Record Nat :=
  (slotMappingOf b.svc b.slots draft.automationId draft.rawGraph).2

/-- Two steps call the same with the same parameters. -/
structure SameCall (step step' : Step) : Prop where
  target : step.target = step'.target
  selector : step.selector = step'.selector
  data : step.data = step'.data

/-- A change of a row that leaves the call of a node alone. Components are compared by what the node
gives for them: the parameter of this name, the index of the slot that it names, or the default of the
row where it is unset, read as an integer of the type, in two's complement. -/
structure KeepsCall (address : String → Option Nat) (b b' : BackendState) (draft : Draft)
    (node : EditorNode) (row row' : StepType) : Prop where
  contractAddress : row.contractAddress = row'.contractAddress
  selector : row.selector = row'.selector
  components : List.Forall₂ (fun c c' =>
    (componentNumber address node.params (b.slotMapping draft) row.paramSchema c).map (· % 2 ^ 256) =
      (componentNumber address node.params (b'.slotMapping draft) row'.paramSchema c').map
        (· % 2 ^ 256)) row.abiFragment row'.abiFragment

/-- The changes of the catalog leave the call of a node alone. -/
def RowKeeps (address : String → Option Nat) (b b' : BackendState) (draft : Draft)
    (node : EditorNode) : Prop :=
  ∀ row row', b.svc.stepTypeMap node.stepTypeId = some row →
    b'.svc.stepTypeMap node.stepTypeId = some row' → KeepsCall address b b' draft node row row'

/-- The nodes that are encoded: those that the start node leads to. -/
def Encodes (draft : Draft) (node : EditorNode) : Prop :=
  ∃ order, bfs draft.rawGraph = .ok order ∧ ∃ id ∈ order, nodeMap draft.rawGraph id = some node

/-! ## What is sent -/

/-- What the calls of a deployment keep to: it takes one draft, and sends what `/encode` has answered
for it. -/
def SendKeeps (id : String) (h : McpHistory) : McpCall → Prop
  | .consumeDraft _ => h = []
  | .sendTransaction _ op _ => ∃ draft enc, Took h id draft ∧
      ⟨.encode draft.vaultAddress draft.automationId draft.rawGraph draft.contextOverrides,
        .ok enc⟩ ∈ h ∧ (enc.contextCalldata = some op ∨ enc.automationCalldata = some op)
  | _ => True

/-- The draft has been taken, and the backend has answered for it. -/
structure Encoded (id : String) (draft : Draft) (enc : EncodeResponse) (h : McpHistory) : Prop where
  took : Took h id draft
  answer : ⟨.encode draft.vaultAddress draft.automationId draft.rawGraph draft.contextOverrides,
    .ok enc⟩ ∈ h

section Keeps

variable {id : String} {draft : Draft} {enc : EncodeResponse} {h : McpHistory}

theorem Encoded.append (he : Encoded id draft enc h) (h' : McpHistory) :
    Encoded id draft enc (h ++ h') :=
  ⟨List.mem_append_left _ he.took, List.mem_append_left _ he.answer⟩

/-- What is sent for the context has been encoded. -/
theorem sendContext_keeps (he : Encoded id draft enc h) :
    (sendContext draft enc).Always (SendKeeps id) (fun h' _ => Encoded id draft enc h') h := by
  rw [sendContext.eq_def]
  split
  · next calldata _ hcalldata =>
    apply Program.Always.call_bind
    · exact ⟨draft, enc, he.took, he.answer, Or.inl hcalldata⟩
    · intro ctx
      exact he.append _
    · intro e
      exact he.append _
  · exact he

/-- What is sent for the automation has been encoded. -/
theorem sendAutomation_keeps (he : Encoded id draft enc h) {calldata : Op}
    (hcalldata : enc.automationCalldata = some calldata) (txHashes : List String) :
    (sendAutomation draft calldata txHashes).Always (SendKeeps id) (fun _ _ => True) h := by
  apply Program.Always.tryCatch (S := fun _ _ => True)
  · exact ⟨⟨draft, enc, he.took, he.answer, Or.inr hcalldata⟩, fun _ => trivial⟩
  · intro _ _ _
    trivial
  · intro _ _ _
    trivial

/-- To register sends nothing. -/
theorem registerAutomation_keeps (onChainId : Int) (hash : String) :
    (registerAutomation draft enc onChainId hash).Always (SendKeeps id) (fun _ _ => True) h := by
  apply Program.Always.tryCatch (S := fun _ _ => True)
  · exact ⟨trivial, fun _ => trivial⟩
  · intro _ _ _
    trivial
  · intro _ _ _
    trivial

/-- All that is sent has been encoded. -/
theorem sendEncoded_keeps (he : Encoded id draft enc h) :
    (sendEncoded draft enc).Always (SendKeeps id) (fun _ _ => True) h := by
  simp only [sendEncoded]
  split
  · trivial
  cases hcalldata : enc.automationCalldata with
  | none => trivial
  | some calldata =>
    -- context, automation, registration: each sends data of `enc`
    apply Program.Always.bind (sendContext_keeps he)
    · intro h' txHashes he'
      apply Program.Always.bind (sendAutomation_keeps he' hcalldata txHashes)
      · intro h'' auto _
        split
        · trivial
        split
        · trivial
        apply Program.Always.bind (registerAutomation_keeps ..)
        · intro _ _ _
          trivial
        · intro _ _ _
          trivial
      · intro _ _ _
        trivial
    · intro _ _ _
      trivial

/-- A draft that was taken is encoded before anything is sent. -/
theorem buildDeployOnChain_keeps (htook : Took h id draft) :
    (buildDeployOnChain draft).Always (SendKeeps id) (fun _ _ => True) h := by
  apply Program.Always.call_bind trivial
  · intro enc
    apply sendEncoded_keeps
    exact ⟨List.mem_append_left _ htook, List.mem_append_right _ (List.mem_singleton_self _)⟩
  · intro e
    trivial

end Keeps

/-- A deployment sends what it has had encoded, of the draft that it took. -/
theorem deploy_sends (policy : PolicyConfig) (config : DeployConfig) (id : String) :
    (deployAutomation (mcpGate policy) config buildDeployOnChain id).Always (SendKeeps id)
      (fun _ _ => True) [] := by
  rw [deployAutomation]
  apply Program.Always.call_bind rfl
  · intro taken
    cases taken with
    | none => trivial
    | some draft =>
      dsimp only
      split
      · trivial
      -- the approval makes no difference here: what counts is the draft that was taken
      apply Always.guard (fun h => Took h id draft) (fun _ => True)
      · intro entry h _ htook
        exact ⟨trivial, fun _ => ⟨List.mem_append_left _ htook, fun _ => trivial⟩⟩
      · intro h htook
        exact ⟨trivial, fun _ => ⟨List.mem_append_left _ htook, fun _ => trivial⟩⟩
      · intro h htook _ _
        apply Program.Always.bind (buildDeployOnChain_keeps htook)
        · intro _ _ _
          trivial
        · intro _ _ _
          trivial
      · intro entry h
        exact ⟨trivial, fun _ => trivial⟩
      · exact List.mem_append_right _ (List.mem_singleton_self _)
  · intro e
    trivial

/-! ## The steps -/

section Steps

variable {b b' : BackendState} {draft : Draft} {address : String → Option Nat}

/-- A row keeps the call of a node that sets its components, whatever becomes of the schema with its
defaults, where the slots stay. -/
theorem KeepsCall.of_schema {node : EditorNode} {row row' : StepType}
    (haddress : row.contractAddress = row'.contractAddress) (hselector : row.selector = row'.selector)
    (hfragment : row.abiFragment = row'.abiFragment)
    (hslots : b.slotMapping draft = b'.slotMapping draft)
    (hset : ∀ c ∈ row.abiFragment, isEmpty (Backend.resolveSlot (b.slotMapping draft) c.type
      (param node.params c.name)) = false) : KeepsCall address b b' draft node row row' := by
  refine ⟨haddress, hselector, ?_⟩
  rw [← hfragment, ← hslots, List.forall₂_same]
  intro c hc
  rw [Backend.componentNumber_of_set (hset c hc), Backend.componentNumber_of_set (hset c hc)]

/-- A context transaction creates no automation. -/
theorem createContext_created {onChainCtx : Option (List Bytes)}
    {contextOverrides : Option (Record HexData)} {slotMapping : Record Nat} {op : Op}
    {changes : List Backend.ContextChange}
    (h : createContext onChainCtx contextOverrides slotMapping = .ok (some op, changes)) :
    createdSteps? op = none := by
  rw [createContext] at h
  split at h
  · dsimp only at h
    unfold encodeSetContext at h
    split at h
    · cases h
      rfl
    · cases h
  · cases h

/-- What is encoded creates its steps. -/
theorem encode_created {r : EncodeResult}
    (h : b.encode draft.automationId draft.rawGraph draft.contextOverrides = .ok r) :
    encodeSteps b.svc draft.rawGraph (b.slotMapping draft) = .ok r.steps ∧
      createdSteps? r.automationCalldata = some r.steps ∧
      ∀ op, r.contextCalldata = some op → createdSteps? op = none := by
  obtain ⟨hof, hcontext, hcall⟩ := Backend.encode_ok h
  refine ⟨hof.steps, ?_, ?_⟩
  · have hop := congrArg Prod.snd hcall
    dsimp only at hop
    rw [hop, Backend.createCall]
    split
    · rfl
    · rfl
  · intro op hop
    rw [hop] at hcontext
    exact createContext_created hcontext

/-- The step of a node calls what the row of its step type says. -/
theorem encodeStep_call {svc : Services} {graph : EditorGraph} {slotMapping : Record Nat}
    {indices : Map String Nat} {id : String} {node : EditorNode} {step : Step}
    (hnode : nodeMap graph id = some node)
    (h : encodeStep svc graph slotMapping indices id = .ok step) :
    ∃ row, svc.stepTypeMap node.stepTypeId = some row ∧ step.target = row.contractAddress ∧
      step.selector = row.selector ∧
      encodeParams svc node.params row.abiFragment slotMapping row.paramSchema = .ok step.data := by
  cases hrow : svc.stepTypeMap node.stepTypeId with
  | none =>
    simp only [encodeStep, hnode, hrow] at h
    cases h
  | some row =>
    obtain ⟨htarget, hselector⟩ := Backend.encodeStep_row hnode hrow h
    refine ⟨row, rfl, htarget, hselector, ?_⟩
    simp only [encodeStep, hnode, hrow] at h
    cases hdata : encodeParams svc node.params row.abiFragment slotMapping row.paramSchema with
    | error e =>
      simp only [hdata] at h
      cases h
    | ok data =>
      simp only [hdata] at h
      cases htype : node.type with
      | condition =>
        simp only [htype] at h
        cases h
        rfl
      | action =>
        simp only [htype] at h
        cases h
        rfl

/-- The steps of a node in two states of the backend call the same exactly if the changes between them
leave its call alone. -/
theorem sameCall_iff (coder : EthersCoder b.svc address) (coder' : EthersCoder b'.svc address)
    {node : EditorNode} {id : String} {indices : Map String Nat} {step step' : Step}
    (hnode : nodeMap draft.rawGraph id = some node)
    (h : encodeStep b.svc draft.rawGraph (b.slotMapping draft) indices id = .ok step)
    (h' : encodeStep b'.svc draft.rawGraph (b'.slotMapping draft) indices id = .ok step') :
    SameCall step step' ↔ RowKeeps address b b' draft node := by
  obtain ⟨row, hrow, htarget, hselector, hdata⟩ := encodeStep_call hnode h
  obtain ⟨row', hrow', htarget', hselector', hdata'⟩ := encodeStep_call hnode h'
  have hwords := Backend.encodeParams_same_iff coder coder' hdata hdata'
  constructor
  · rintro ⟨hsame, hsame', hsame''⟩ st st' hst hst'
    rw [hrow] at hst
    rw [hrow'] at hst'
    cases hst
    cases hst'
    rw [htarget, htarget'] at hsame
    rw [hselector, hselector'] at hsame'
    exact ⟨hsame, hsame', hwords.1 hsame''⟩
  · intro hkeeps
    obtain ⟨haddress, hsel, hcomponents⟩ := hkeeps row row' hrow hrow'
    exact ⟨by rw [htarget, htarget', haddress], by rw [hselector, hselector', hsel],
      hwords.2 hcomponents⟩

/-- The calls are the same exactly if they are for each node. -/
theorem steps_same_iff (coder : EthersCoder b.svc address) (coder' : EthersCoder b'.svc address)
    {steps steps' : List Step}
    (h : encodeSteps b.svc draft.rawGraph (b.slotMapping draft) = .ok steps)
    (h' : encodeSteps b'.svc draft.rawGraph (b'.slotMapping draft) = .ok steps') :
    List.Forall₂ SameCall steps steps' ↔
      ∀ node, Encodes draft node → RowKeeps address b b' draft node := by
  cases horder : bfs draft.rawGraph with
  | error e =>
    rw [encodeSteps, horder] at h
    cases h
  | ok order =>
    rw [Backend.encodeSteps_of_bfs horder] at h h'
    have hsteps := mapM_forall₂ h
    have hsteps' := mapM_forall₂ h'
    -- both lists of steps are over the same order of nodes
    have hover := forall₂_over (P := SameCall) (Q := fun id => ∀ node,
      nodeMap draft.rawGraph id = some node → RowKeeps address b b' draft node) hsteps hsteps' ?_
    · rw [hover]
      constructor
      · rintro hall node ⟨order', horder', id, hid, hnode⟩
        rw [horder] at horder'
        cases horder'
        exact hall id hid node hnode
      · intro hall id hid node hnode
        exact hall node ⟨order, horder, id, hid, hnode⟩
    · intro id step step' hstep hstep'
      obtain ⟨node, -, -, hnode, -⟩ := Backend.encodeStep_isOk.1 ⟨step, hstep⟩
      rw [sameCall_iff coder coder' hnode hstep hstep']
      constructor
      · intro hsame node' hnode'
        rw [hnode] at hnode'
        cases hnode'
        exact hsame
      · intro hall
        exact hall node hnode

end Steps

/-- What a deployment sends for a draft are the steps that the backend now makes of it. -/
theorem sent_steps {policy : PolicyConfig} {config : DeployConfig} {id : String} {draft : Draft}
    {ω : Nat → (c : McpCall) → Except Thrown c.Reply} {n : Nat} {b : BackendState}
    (htaken : ω n (.consumeDraft id) = .ok (some draft))
    (hbackend : AnsweredBy b
      ((deployAutomation (mcpGate policy) config buildDeployOnChain id).run ω n).1)
    {target : String} {op : Op} {gasLimit : Nat} {reply : Except Thrown ContractTxReceipt}
    (hsent : ⟨.sendTransaction target op gasLimit, reply⟩ ∈
      ((deployAutomation (mcpGate policy) config buildDeployOnChain id).run ω n).1)
    {steps : List Step} (hsteps : createdSteps? op = some steps) :
    ∃ r, b.encode draft.automationId draft.rawGraph draft.contextOverrides = .ok r ∧
      r.steps = steps := by
  have hkeeps := deploy_sends policy config id
  obtain ⟨before, after, hrun⟩ := List.append_of_mem hsent
  obtain ⟨draft', enc, htook, hanswer, hop⟩ := hkeeps.run_calls ω n hrun
  rw [List.nil_append] at htook hanswer
  -- Only the first call takes a draft out.
  have hdraft : draft' = draft := by
    obtain ⟨before', after', hbefore⟩ := List.append_of_mem htook
    rw [hbefore, List.append_assoc] at hrun
    have hnil : before' = [] := hkeeps.run_calls ω n hrun
    subst hnil
    have hhead : ((deployAutomation (mcpGate policy) config buildDeployOnChain id).run ω n).1.head? =
        some ⟨.consumeDraft id, ω n (.consumeDraft id)⟩ := rfl
    rw [hrun, htaken] at hhead
    cases hhead
    rfl
  subst hdraft
  have hmem : ⟨.encode draft'.vaultAddress draft'.automationId draft'.rawGraph
      draft'.contextOverrides, .ok enc⟩ ∈
      ((deployAutomation (mcpGate policy) config buildDeployOnChain id).run ω n).1 := by
    rw [hrun]
    exact List.mem_append_left _ hanswer
  obtain ⟨r, hr, rfl⟩ := hbackend _ _ _ _ _ hmem
  obtain ⟨-, hcreated, hcontext⟩ := encode_created hr
  refine ⟨r, hr, ?_⟩
  rcases hop with hop | hop
  · rw [hcontext op hop] at hsteps
    cases hsteps
  · rw [responseOf, Option.some.injEq] at hop
    rw [hop, hsteps] at hcreated
    exact (Option.some.inj hcreated).symm

/-- **A deployment sends the steps of the proposal** exactly if the changes of the catalog since then
leave the calls of all nodes alone that are encoded. -/
theorem deployed_steps_iff {address : String → Option Nat} {deps : ProposeDeps}
    {params : ProposeParams} {draft : Draft}
    {before after : BackendState} {ω' : Nat → (c : McpCall) → Except Thrown c.Reply} {n' : Nat}
    {stored : Except Thrown String}
    (hproposed : ⟨.createDraft draft, stored⟩ ∈ ((proposeAutomation deps params).run ω' n').1)
    (coder : EthersCoder before.svc address) (coder' : EthersCoder after.svc address)
    (hbefore : AnsweredBy before ((proposeAutomation deps params).run ω' n').1)
    {policy : PolicyConfig} {config : DeployConfig} {id : String}
    {ω : Nat → (c : McpCall) → Except Thrown c.Reply} {n : Nat}
    (htaken : ω n (.consumeDraft id) = .ok (some draft))
    (hafter : AnsweredBy after
      ((deployAutomation (mcpGate policy) config buildDeployOnChain id).run ω n).1)
    {target : String} {op : Op} {gasLimit : Nat} {reply : Except Thrown ContractTxReceipt}
    (hsent : ⟨.sendTransaction target op gasLimit, reply⟩ ∈
      ((deployAutomation (mcpGate policy) config buildDeployOnChain id).run ω n).1)
    {steps : List Step} (hsteps : createdSteps? op = some steps) :
    (∃ r, before.encode draft.automationId draft.rawGraph draft.contextOverrides = .ok r ∧
      List.Forall₂ SameCall r.steps steps) ↔
    ∀ node, Encodes draft node → RowKeeps address before after draft node := by
  -- what is sent was encoded after the change, what was accepted before it
  obtain ⟨r', hr', rfl⟩ := sent_steps htaken hafter hsent hsteps
  obtain ⟨encodeResult, hmem, -⟩ := (proposal_accepts hproposed).encoded
  obtain ⟨r, hr, -⟩ := hbefore _ _ _ _ _ hmem
  have hiff := steps_same_iff coder coder' (encode_created hr).1 (encode_created hr').1
  constructor
  · rintro ⟨r'', hr'', hsame⟩
    rw [hr] at hr''
    cases hr''
    exact hiff.1 hsame
  · intro hrows
    exact ⟨r, hr, hiff.2 hrows⟩

/-! ## A row that moves -/

/-- A catalog with one condition, at this address. -/
def movedBackend (address : Address) : BackendState where
  svc := ethersServices [⟨"always", address, 0xd89f1e36, [], none⟩] plainAddress
  slots := []
  onChainCtx := some []

theorem movedBackend_coder (address : Address) : EthersCoder (movedBackend address).svc plainAddress :=
  ethersCoder (by decide)

/-- The condition has been given a schema, and another step type has come. -/
def grownBackend : BackendState where
  svc := ethersServices [⟨"always", ⟨7⟩, 0xd89f1e36, [], some ⟨[], []⟩⟩, ⟨"never", ⟨8⟩, 0, [], none⟩]
    plainAddress
  slots := []
  onChainCtx := some []

/-- A catalog with one condition. -/
def alwaysCatalog : DecoderCatalog :=
  [("always", { name := "Always", properties := none, required := [], abiFragment := none })]

/-- A graph of one condition, without actions. -/
def alwaysParams : ProposeParams where
  vaultAddress := "0xaa"
  nodes := [⟨"n1", some .condition, "always", []⟩]
  edges := []
  intent := ⟨.publicMode, none, []⟩

/-- The draft of a graph of one condition. -/
def movedDraft : Draft where
  vaultAddress := "0xaa"
  automationId := "a1"
  rawGraph := ⟨[⟨"n1", .condition, "always", []⟩], []⟩
  contextOverrides := []
  ownerOnly := false
  summary := ⟨[⟨"Always", .condition, none, none, none, none, none⟩], some .publicMode, []⟩
  catalog := alwaysCatalog

/-- Everything succeeds, with this backend. -/
def movedReply (b : BackendState) (_ : Nat) : (c : McpCall) → Except Thrown c.Reply
  | .encode _ automationId graph contextOverrides =>
      match b.encode automationId graph contextOverrides with
      | .ok r => .ok (responseOf r)
      | .error _ => .error (.error "Error" "Bad Request")
  | .createDraft _ => .ok "d1"
  | .consumeDraft _ => .ok (some movedDraft)
  | .sendTransaction _ _ _ => .ok ⟨"0xf1", [[automationCreatedTopic, "0x07"]]⟩
  | c => deployMoment.reply c

/-- The step that the catalog makes of the condition. -/
def movedStep (address : Address) : Step where
  stepType := .condition
  target := address
  selector := 0xd89f1e36
  nextOnTrue := DONE
  nextOnFalse := DONE
  data := []

/-- A proposal to a backend in this state. -/
def movedProposal (b : BackendState) : McpHistory × Except Thrown ProposeResult :=
  (proposeAutomation ⟨alwaysCatalog, [], false⟩ alwaysParams).run (movedReply b) 0

/-- Its deployment, with the backend in this state. -/
def movedDeployment (b : BackendState) : McpHistory × Except Thrown DeployResult :=
  (deployAutomation (mcpGate ⟨false⟩) ⟨[], []⟩ buildDeployOnChain "d1").run (movedReply b) 0

/-- All calls are answered by the backend in this state. -/
theorem movedReply_answered {α : Type} (b : BackendState) (p : McpProgram α) :
    AnsweredBy b (p.run (movedReply b) 0).1 := by
  intro vaultAddress automationId graph contextOverrides enc h
  obtain ⟨k, hk⟩ := Program.run_answered h
  simp only [movedReply] at hk
  split at hk
  · next r hr =>
    cases hk
    exact ⟨r, hr, rfl⟩
  · cases hk

/-- What the backend makes of the graph. -/
def movedResult (address : Address) : EncodeResult where
  automationCalldata := .createAutomation [movedStep address]
  contextCalldata := none
  functionName := "createAutomation"
  steps := [movedStep address]
  ownerOnly := false
  stepCount := 1
  requiresContextTx := false
  contextChanges := []

theorem movedBackend_encode (address : Address) : (movedBackend address).encode
    movedDraft.automationId movedDraft.rawGraph movedDraft.contextOverrides =
      .ok (movedResult address) := by
  rfl

theorem movedProposal_stores (address : Address) :
    ⟨.createDraft movedDraft, .ok "d1"⟩ ∈ (movedProposal (movedBackend address)).1 :=
  .tail _ (.tail _ (.head _))

/-- The transaction of a deployment. -/
theorem movedDeployment_sends (address : Address) :
    ⟨.sendTransaction "0xaa" (.createAutomation [movedStep address]) 2000000,
      .ok ⟨"0xf1", [[automationCreatedTopic, "0x07"]]⟩⟩ ∈ (movedDeployment (movedBackend address)).1 :=
  .tail _ (.tail _ (.head _))

theorem grownDeployment_sends :
    ⟨.sendTransaction "0xaa" (.createAutomation [movedStep ⟨7⟩]) 2000000,
      .ok ⟨"0xf1", [[automationCreatedTopic, "0x07"]]⟩⟩ ∈ (movedDeployment grownBackend).1 :=
  .tail _ (.tail _ (.head _))

/-- Where the catalog grows and a schema changes, the steps stay as they were. -/
theorem deployed_steps_iff_sample : ∃ r, (movedBackend ⟨7⟩).encode movedDraft.automationId
    movedDraft.rawGraph movedDraft.contextOverrides = .ok r ∧
      List.Forall₂ SameCall r.steps [movedStep ⟨7⟩] := by
  apply (deployed_steps_iff (movedProposal_stores ⟨7⟩) (movedBackend_coder ⟨7⟩)
    (ethersCoder (by decide)) (movedReply_answered _ _) rfl (movedReply_answered grownBackend _)
    grownDeployment_sends rfl).2
  rintro node ⟨order, horder, id, hid, hnode⟩ row row' hrow hrow'
  obtain ⟨hmem, -⟩ := Backend.nodeMap_some hnode
  cases List.mem_singleton.1 hmem
  cases hrow
  cases hrow'
  exact KeepsCall.of_schema rfl rfl rfl rfl nofun

/-- The row of a step type moves to another address between the proposal and the deployment: the
deployment of the draft sends a step that calls the new address. -/
theorem moved_row_deployed :
    ⟨.createDraft movedDraft, .ok "d1"⟩ ∈ (movedProposal (movedBackend ⟨7⟩)).1 ∧
    AnsweredBy (movedBackend ⟨7⟩) (movedProposal (movedBackend ⟨7⟩)).1 ∧
    AnsweredBy (movedBackend ⟨9⟩) (movedDeployment (movedBackend ⟨9⟩)).1 ∧
    ⟨.sendTransaction "0xaa" (.createAutomation [movedStep ⟨9⟩]) 2000000,
      .ok ⟨"0xf1", [[automationCreatedTopic, "0x07"]]⟩⟩ ∈ (movedDeployment (movedBackend ⟨9⟩)).1 ∧
    ¬ ∃ r, (movedBackend ⟨7⟩).encode movedDraft.automationId movedDraft.rawGraph
      movedDraft.contextOverrides = .ok r ∧ List.Forall₂ SameCall r.steps [movedStep ⟨9⟩] := by
  refine ⟨movedProposal_stores ⟨7⟩, movedReply_answered _ _, movedReply_answered _ _,
    movedDeployment_sends ⟨9⟩, ?_⟩
  rintro ⟨r, hr, hsame⟩
  rw [movedBackend_encode ⟨7⟩] at hr
  cases hr
  cases hsame with
  | cons hstep _ => exact absurd hstep.target (by decide)

end StrategyBuilder.Mcp
