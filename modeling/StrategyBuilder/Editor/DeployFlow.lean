import StrategyBuilder.Backend.Reconciliation
import StrategyBuilder.Contracts.VaultSteps
import StrategyBuilder.Editor.DeployDialog
import StrategyBuilder.Lib.Program

/-!
# The run of the deploy dialog

`handleDeploy` of `deploy-dialog.tsx` as a program: it awaits the answer of the backend, two transactions
of the wallet with their receipts, and the `PATCH` that registers the automation. What each stage comes
to is an input (`Outcomes`); the transactions run on the vault, the `PATCH` on the tables of the backend.

`deploy_honest_iff`: the automation transaction follows a context transaction that has succeeded, and the
dialog says that it is done exactly when the automation is on chain and registered, if and only if the
receipts and answers that the dialog does not look at happen to be good ones (`Faithful`).

A hash stands for the transaction it is the hash of. Each request is one answer, as `apiFetch` returns
it.
-/

set_option autoImplicit false

namespace StrategyBuilder.Editor.DeployDialog

open StrategyBuilder.Automation
open StrategyBuilder.Backend
open StrategyBuilder.Contracts
open StrategyBuilder.Contracts.Vault
open StrategyBuilder.Lib
open StrategyBuilder.Lib.Abi
open StrategyBuilder.Lib.Js
open StrategyBuilder.Shared

/-! ## The dialog -/

/-- What the dialog shows. -/
inductive DeployPhase where
  | preview
  | encoding
  | contextTx
  | contextWait
  | autoTx
  | autoWait
  | backendConfirm
  | done
  | error
deriving DecidableEq, Repr

/-- What the dialog reads of an exception. -/
structure DialogError where
  shortMessage : Option String
  message : Option String
deriving DecidableEq, Repr

/-- The text that is shown. -/
def DialogError.text (err : DialogError) : String :=
  (err.shortMessage.or err.message).getD "Deployment failed"

/-- A transaction of the wallet, with the phase in which it is sent. -/
structure SentTx where
  phase : DeployPhase
  op : Op
  gas : Nat
deriving DecidableEq, Repr

/-- A receipt of a transaction. -/
structure Receipt where
  success : Bool
  logs : List Log
deriving DecidableEq, Repr

/-- The awaits of the dialog. -/
inductive DeployCall where
  | encode (path : String) (graph : EditorGraph) (contextOverrides : Option (Record HexData))
  | sendTransaction (tx : SentTx)
  | waitForReceipt (hash : SentTx)
  | patch (path : String) (body : UpdateBody) (txHash : SentTx)

/-- An answer that is not ok to the encoding may have a message; of the answer to the `PATCH` there is
only whether it is ok. -/
def DeployReply : DeployCall → Type
  | .encode .. => Except (Option String) EncodeResult
  | .sendTransaction _ => SentTx
  | .waitForReceipt _ => Option Receipt
  | .patch .. => Bool

/-- The dialog, with what it awaits. -/
abbrev DeployProgram (α : Type) := Program DeployCall DeployReply DialogError α

/-- `throw new Error(message)` -/
def throwMessage {α : Type} (message : String) : DeployProgram α := throw ⟨none, some message⟩

/-- The dialog with what the page gives it. -/
structure Dialog where
  vaultAddress : String
  automationId : String
  isEdit : Bool
  services : Services
  graph : EditorGraph
  tokenDecimals : Option (Record Nat)

/-- The id in the first `AutomationCreated` of a receipt. -/
def createdId (logs : List Log) : Option Nat :=
  logs.findSome? fun
    | .automationCreated automationId _ => some automationId
    | _ => none

/-- The first transaction, where the context needs one. Its receipt is not looked at. -/
def sendContext (data : EncodeResult) : DeployProgram Unit :=
  match data.requiresContextTx, data.contextCalldata with
  | true, some contextCalldata => do
      let ctxHash ← Program.call (DeployCall.sendTransaction ⟨.contextTx, contextCalldata, 500000⟩)
      let _ ← Program.call (DeployCall.waitForReceipt ctxHash)
      return ()
  | _, _ => pure ()

namespace Dialog

variable (d : Dialog)

/-- The path of the automation at the backend. -/
def path : String := "/vaults/" ++ d.vaultAddress ++ "/automations/" ++ d.automationId

/-- The body of the `PATCH`. -/
def confirmation (onChainId : Nat) (data : EncodeResult) : UpdateBody where
  editorState := none
  label := none
  description := none
  onChainId := some (.ofInt onChainId)
  ownerOnly := some data.ownerOnly
  stepCount := some (.ofInt data.stepCount)

/-- What follows the receipt of the automation transaction: the `PATCH`, whose answer is not looked
at. -/
def register (data : EncodeResult) (autoHash : SentTx) : Option Receipt → DeployProgram Unit
  | none => throwMessage "Timed out waiting for the deployment transaction"
  | some receipt =>
      match createdId receipt.logs with
      | none => throwMessage "Could not read the on-chain automation ID from the transaction"
      | some onChainId => do
          let _ ← Program.call (DeployCall.patch d.path (confirmation onChainId data) autoHash)
          return ()

/-- The second transaction and the registration. -/
def sendAutomation (data : EncodeResult) : DeployProgram Unit := do
  let autoHash ← Program.call
    (DeployCall.sendTransaction ⟨.autoTx, data.automationCalldata, 2000000⟩)
  let receipt ← Program.call (DeployCall.waitForReceipt autoHash)
  d.register data autoHash receipt

/-- What follows the answer of the backend. -/
def sendEncoded : Except (Option String) EncodeResult → DeployProgram Unit
  | .error message => throwMessage (message.getD "Encoding failed")
  | .ok data => do
      sendContext data
      d.sendAutomation data

/-- What the dialog tries. -/
def deploy : DeployProgram Unit :=
  match deployRequest d.services d.graph d.tokenDecimals with
  | .error message => throwMessage message
  | .ok (graph, overrides) => do
      let encodePath := if d.isEdit then "/encode-update" else "/encode"
      let res ← Program.call (DeployCall.encode (d.path ++ encodePath) graph overrides)
      d.sendEncoded res

/-- The phase in which the dialog ends, and the error that it shows. -/
def handleDeploy : DeployProgram (DeployPhase × Option String) :=
  if d.vaultAddress = "" then return (.preview, none)
  else tryCatch (do d.deploy; return (.done, none)) fun err => return (.error, some err.text)

end Dialog

/-! ## What the stages come to -/

/-- What becomes of a transaction. -/
inductive TxOutcome where
  | rejected (err : DialogError)
  /-- It is not mined. -/
  | dropped
  /-- It is mined and runs out of gas. -/
  | outOfGas
  /-- It is mined on this state of the vault; the receipt may come too late to be seen. -/
  | mined (seen : Bool) (vault : State) (env : Env)

/-- What becomes of the `PATCH`. -/
inductive PatchOutcome where
  | unreachable (err : DialogError)
  /-- An answer that is not ok, before the controller. -/
  | refused
  /-- The controller runs; the answer may get lost. -/
  | delivered (lost : Option DialogError)

/-- An answer comes, whatever its status. -/
def PatchOutcome.answered : PatchOutcome → Bool
  | .refused | .delivered none => true
  | _ => false

/-- All answers that a deployment can get. -/
structure Outcomes where
  wallet : Address
  encode : Except DialogError (Except (Option String) EncodeResult)
  context : TxOutcome
  automation : TxOutcome
  patch : PatchOutcome
  /-- The tables when the `PATCH` comes, or at the end where none comes. -/
  database : Database

/-- The vault after a transaction that succeeds, and the logs of the transaction. -/
def TxOutcome.effect (wallet : Address) (op : Op) : TxOutcome → Option (State × List Log)
  | .mined _ vault env =>
      match call vault ⟨wallet, env, op⟩ with
      | .ok vault' => some (vault', vault'.logs.drop vault.logs.length)
      | .error _ => none
  | _ => none

/-- `waitForReceipt`: nothing comes where the transaction is not mined in time. -/
def TxOutcome.receipt (wallet : Address) (op : Op) (t : TxOutcome) : Option Receipt :=
  match t with
  | .rejected _ | .dropped | .mined false _ _ => none
  | .outOfGas => some ⟨false, []⟩
  | .mined true _ _ =>
      match t.effect wallet op with
      | some (_, logs) => some ⟨true, logs⟩
      | none => some ⟨false, []⟩

/-- It is mined, and the receipt is seen. -/
def TxOutcome.seen : TxOutcome → Bool
  | .outOfGas | .mined true _ _ => true
  | _ => false

/-- The answer of the wallet: a transaction that is sent has a hash. -/
def TxOutcome.hash (tx : SentTx) : TxOutcome → Except DialogError SentTx
  | .rejected err => .error err
  | _ => .ok tx

namespace Outcomes

variable (o : Outcomes)

/-- The outcome of the transaction that a phase sends. -/
def txOf : DeployPhase → TxOutcome
  | .contextTx => o.context
  | _ => o.automation

/-- The tables after a `PATCH`, if the controller stores it. -/
def stored (automationId : String) (body : UpdateBody) : Option Database :=
  match o.patch with
  | .delivered _ =>
      match Reconciliation.patch o.database automationId body with
      | .ok (db, _) => some db
      | .error _ => none
  | _ => none

/-- What the dialog gets of the `PATCH`. -/
def patchReply (automationId : String) (body : UpdateBody) : Except DialogError Bool :=
  match o.patch with
  | .unreachable err => .error err
  | .refused => .ok false
  | .delivered none => .ok (o.stored automationId body).isSome
  | .delivered (some err) => .error err

/-- The answers to the awaits of a dialog. -/
def answer (automationId : String) : (c : DeployCall) → Except DialogError (DeployReply c)
  | .encode .. => o.encode
  | .sendTransaction tx => (o.txOf tx.phase).hash tx
  | .waitForReceipt tx => .ok ((o.txOf tx.phase).receipt o.wallet tx.op)
  | .patch _ body _ => o.patchReply automationId body

end Outcomes

/-- What has been asked and answered. -/
abbrev Answers := List (Answered DeployCall DeployReply DialogError)

/-- The transactions that the wallet has sent, in order. -/
def sentTxs (h : Answers) : List SentTx :=
  h.filterMap fun
    | ⟨.sendTransaction tx, .ok _⟩ => some tx
    | _ => none

/-- The body of the `PATCH`, if it was sent. -/
def patchBody (h : Answers) : Option UpdateBody :=
  h.findSome? fun a =>
    match a.call with
    | .patch _ body _ => some body
    | _ => none

/-- The run of a dialog: its awaits, and the phase and error at the end. -/
def Dialog.runWith (d : Dialog) (o : Outcomes) :
    Answers × Except DialogError (DeployPhase × Option String) :=
  d.handleDeploy.run (fun _ => o.answer d.automationId) 0

/-! ## What the run does -/

/-- The operation of the context transaction, where there is one. -/
def contextOp (data : EncodeResult) : Option Op :=
  if data.requiresContextTx then data.contextCalldata else none

/-- The transaction that writes the context, where the answer has one. -/
def contextTxs (data : EncodeResult) : List SentTx :=
  (contextOp data).toList.map fun op => ⟨.contextTx, op, 500000⟩

/-- The transaction that creates or updates the automation. -/
def autoTx (data : EncodeResult) : SentTx := ⟨.autoTx, data.automationCalldata, 2000000⟩

/-- The user rejects the context transaction. -/
def ContextRejected (o : Outcomes) (data : EncodeResult) : Prop :=
  (contextOp data).isSome ∧ ∃ err, o.context = .rejected err

/-- The id that the dialog reads of the receipt. -/
def seenId (o : Outcomes) (data : EncodeResult) : Option Nat :=
  (o.automation.receipt o.wallet data.automationCalldata).bind fun receipt => createdId receipt.logs

section Run

variable (d : Dialog) (o : Outcomes) (data : EncodeResult) (k : Nat)

theorem sentTxs_append (h h' : Answers) : sentTxs (h ++ h') = sentTxs h ++ sentTxs h' := by
  rw [sentTxs, List.filterMap_append]
  rfl

theorem patchBody_append (h h' : Answers) :
    patchBody (h ++ h') = (patchBody h).or (patchBody h') := by
  rw [patchBody, List.findSome?_append]
  rfl

theorem hash_rejected {t : TxOutcome} {err : DialogError} (h : t = .rejected err) (tx : SentTx) :
    t.hash tx = .error err := by
  rw [h]
  rfl

/-- A transaction that is not rejected has its hash. -/
theorem hash_ok {t : TxOutcome} (h : ¬ ∃ err, t = .rejected err) (tx : SentTx) : t.hash tx = .ok tx := by
  cases t with
  | rejected err => exact absurd ⟨err, rfl⟩ h
  | dropped => rfl
  | outOfGas => rfl
  | mined seen vault env => rfl

/-- A context transaction that is rejected ends the deployment. -/
theorem sendContext_rejected (h : ContextRejected o data) :
    ∃ err, ((sendContext data).run (fun _ => o.answer d.automationId) k).2 = .error err ∧
      sentTxs ((sendContext data).run (fun _ => o.answer d.automationId) k).1 = [] ∧
      patchBody ((sendContext data).run (fun _ => o.answer d.automationId) k).1 = none := by
  obtain ⟨hsome, err, herr⟩ := h
  rw [contextOp] at hsome
  rw [sendContext]
  cases hrequires : data.requiresContextTx with
  | false =>
    rw [hrequires] at hsome
    cases hsome
  | true =>
    cases hcalldata : data.contextCalldata with
    | none =>
      rw [hrequires, hcalldata] at hsome
      cases hsome
    | some op =>
      have hanswer : o.answer d.automationId (.sendTransaction ⟨.contextTx, op, 500000⟩) =
          .error err := hash_rejected herr _
      dsimp only
      rw [Program.run_call_bind_error hanswer]
      exact ⟨err, rfl, rfl, rfl⟩

/-- Otherwise it has been sent, if there is one. -/
theorem sendContext_sent (h : ¬ ContextRejected o data) :
    ((sendContext data).run (fun _ => o.answer d.automationId) k).2 = .ok () ∧
      sentTxs ((sendContext data).run (fun _ => o.answer d.automationId) k).1 = contextTxs data ∧
      patchBody ((sendContext data).run (fun _ => o.answer d.automationId) k).1 = none := by
  rw [ContextRejected, contextOp] at h
  rw [sendContext, contextTxs, contextOp]
  cases hrequires : data.requiresContextTx with
  | false => exact ⟨rfl, rfl, rfl⟩
  | true =>
    cases hcalldata : data.contextCalldata with
    | none => exact ⟨rfl, rfl, rfl⟩
    | some op =>
      rw [hrequires, hcalldata] at h
      have hanswer : o.answer d.automationId (.sendTransaction ⟨.contextTx, op, 500000⟩) =
          .ok ⟨.contextTx, op, 500000⟩ := hash_ok (fun hrejected => h ⟨rfl, hrejected⟩) _
      dsimp only
      rw [Program.run_call_bind_ok hanswer]
      exact ⟨rfl, rfl, rfl⟩

/-- A transaction that is rejected is not sent. -/
theorem sendAutomation_rejected {err : DialogError} (h : o.automation = .rejected err) :
    (d.sendAutomation data).run (fun _ => o.answer d.automationId) k =
      ([⟨.sendTransaction (autoTx data), .error err⟩], .error err) := by
  have hanswer : o.answer d.automationId (.sendTransaction (autoTx data)) = .error err :=
    hash_rejected h _
  rw [Dialog.sendAutomation]
  exact Program.run_call_bind_error hanswer _

/-- The `PATCH` succeeds for the dialog if its answer arrives. -/
theorem patchReply_ok_iff (automationId : String) (body : UpdateBody) :
    (∃ ok, o.patchReply automationId body = .ok ok) ↔ o.patch.answered = true := by
  rw [Outcomes.patchReply]
  cases o.patch with
  | unreachable err => exact ⟨nofun, nofun⟩
  | refused => exact ⟨fun _ => rfl, fun _ => ⟨false, rfl⟩⟩
  | delivered lost =>
    cases lost with
    | none => exact ⟨fun _ => rfl, fun _ => ⟨_, rfl⟩⟩
    | some err => exact ⟨nofun, nofun⟩

/-- What the dialog does of the receipt. -/
theorem register_run (autoHash : SentTx) (receipt : Option Receipt) :
    let r := (d.register data autoHash receipt).run (fun _ => o.answer d.automationId) k
    let seen := receipt.bind fun receipt => createdId receipt.logs
    sentTxs r.1 = [] ∧ patchBody r.1 = seen.map (fun id => Dialog.confirmation id data) ∧
      (r.2 = .ok () ↔ seen.isSome ∧ o.patch.answered = true) := by
  cases receipt with
  | none => exact ⟨rfl, rfl, nofun, nofun⟩
  | some receipt =>
    rw [Dialog.register, Option.bind_some]
    cases createdId receipt.logs with
    | none => exact ⟨rfl, rfl, nofun, nofun⟩
    | some id =>
      have hiff := patchReply_ok_iff o d.automationId (Dialog.confirmation id data)
      have hanswer : o.answer d.automationId (.patch d.path (Dialog.confirmation id data) autoHash) =
          o.patchReply d.automationId (Dialog.confirmation id data) := rfl
      dsimp only
      cases hreply : o.patchReply d.automationId (Dialog.confirmation id data) with
      | ok ok =>
        rw [Program.run_call_bind_ok (hanswer.trans hreply)]
        exact ⟨rfl, rfl, fun _ => ⟨rfl, hiff.1 ⟨ok, hreply⟩⟩, fun _ => rfl⟩
      | error err =>
        rw [Program.run_call_bind_error (hanswer.trans hreply)]
        refine ⟨rfl, rfl, nofun, fun h => ?_⟩
        -- a `PATCH` that failed was not answered
        obtain ⟨ok, hok⟩ := hiff.2 h.2
        rw [hreply] at hok
        cases hok

/-- What the dialog does once the automation transaction is sent. -/
theorem sendAutomation_sent (h : ¬ ∃ err, o.automation = .rejected err) :
    let r := (d.sendAutomation data).run (fun _ => o.answer d.automationId) k
    sentTxs r.1 = [autoTx data] ∧
      patchBody r.1 = (seenId o data).map (fun id => Dialog.confirmation id data) ∧
      (r.2 = .ok () ↔ (seenId o data).isSome ∧ o.patch.answered = true) := by
  have hanswer : o.answer d.automationId (.sendTransaction (autoTx data)) = .ok (autoTx data) :=
    hash_ok h _
  have hreceipt : o.answer d.automationId (.waitForReceipt (autoTx data)) =
      .ok (o.automation.receipt o.wallet data.automationCalldata) := rfl
  intro r
  have hr : r = (⟨.sendTransaction (autoTx data), .ok (autoTx data)⟩ ::
      ⟨.waitForReceipt (autoTx data), .ok (o.automation.receipt o.wallet data.automationCalldata)⟩ ::
        ((d.register data (autoTx data) (o.automation.receipt o.wallet data.automationCalldata)).run
          (fun _ => o.answer d.automationId) (k + 1 + 1)).1,
      ((d.register data (autoTx data) (o.automation.receipt o.wallet data.automationCalldata)).run
        (fun _ => o.answer d.automationId) (k + 1 + 1)).2) := by
    refine (Program.run_call_bind_ok hanswer _).trans ?_
    rw [Program.run_call_bind_ok hreceipt]
    rfl
  obtain ⟨hsent, hbody, hresult⟩ := register_run d o data (k + 1 + 1) (autoTx data)
    (o.automation.receipt o.wallet data.automationCalldata)
  rw [hr]
  exact ⟨congrArg (autoTx data :: ·) hsent, hbody, hresult⟩

/-- The dialog ends as what it tries does. -/
theorem runWith_eq (h : d.vaultAddress ≠ "") :
    let r := d.deploy.run (fun _ => o.answer d.automationId) 0
    (d.runWith o).1 = r.1 ∧ ((∃ text, (d.runWith o).2 = .ok (.done, text)) ↔ r.2 = .ok ()) := by
  intro r
  rw [Dialog.runWith, Dialog.handleDeploy, if_neg h]
  cases hr : r.2 with
  | ok u =>
    have htried := Program.run_bind_ok (fun _ => o.answer d.automationId) 0 d.deploy
      (fun _ => (pure (DeployPhase.done, none) : DeployProgram (DeployPhase × Option String))) hr
    rw [Program.run_tryCatch_ok _ _ _ _ (congrArg Prod.snd htried), htried]
    exact ⟨List.append_nil _, fun _ => rfl, fun _ => ⟨none, rfl⟩⟩
  | error err =>
    have htried := Program.run_bind_error (fun _ => o.answer d.automationId) 0 d.deploy
      (fun _ => (pure (DeployPhase.done, none) : DeployProgram (DeployPhase × Option String))) hr
    rw [Program.run_tryCatch_error _ _ _ _ (congrArg Prod.snd htried), htried]
    refine ⟨List.append_nil _, ?_, nofun⟩
    rintro ⟨text, htext⟩
    cases htext

end Run

/-- The automation transaction is sent: the mapping and the backend have an answer, and the user rejects
nothing. -/
structure Dialog.Sends (d : Dialog) (o : Outcomes) (data : EncodeResult) : Prop where
  vault : d.vaultAddress ≠ ""
  request : ∃ request, deployRequest d.services d.graph d.tokenDecimals = .ok request
  encode : o.encode = .ok (.ok data)
  context : ¬ ContextRejected o data
  automation : ¬ ∃ err, o.automation = .rejected err

section Run

variable {d : Dialog} {o : Outcomes} {data : EncodeResult}

/-- The first await, and what follows it. -/
theorem deploy_run {request : EditorGraph × Option (Record HexData)}
    (hrequest : deployRequest d.services d.graph d.tokenDecimals = .ok request) :
    let r := d.deploy.run (fun _ => o.answer d.automationId) 0
    (∀ err, o.encode = .error err → sentTxs r.1 = [] ∧ r.2 = .error err) ∧
    ∀ res, o.encode = .ok res →
      let rest := (d.sendEncoded res).run (fun _ => o.answer d.automationId) 1
      sentTxs r.1 = sentTxs rest.1 ∧ patchBody r.1 = patchBody rest.1 ∧ r.2 = rest.2 := by
  obtain ⟨graph, overrides⟩ := request
  have hanswer : o.answer d.automationId (.encode
      (d.path ++ if d.isEdit then "/encode-update" else "/encode") graph overrides) = o.encode := rfl
  simp only [Dialog.deploy, hrequest]
  constructor
  · intro err herr
    rw [Program.run_call_bind_error (hanswer.trans herr)]
    exact ⟨rfl, rfl⟩
  · intro res hres
    rw [Program.run_call_bind_ok (hanswer.trans hres)]
    exact ⟨rfl, rfl, rfl⟩

/-- The run of a dialog that sends the automation transaction. -/
theorem runWith_sends (h : d.Sends o data) :
    sentTxs (d.runWith o).1 = contextTxs data ++ [autoTx data] ∧
      patchBody (d.runWith o).1 = (seenId o data).map (fun id => Dialog.confirmation id data) ∧
      ((∃ text, (d.runWith o).2 = .ok (.done, text)) ↔
        (seenId o data).isSome ∧ o.patch.answered = true) := by
  obtain ⟨request, hrequest⟩ := h.request
  obtain ⟨hcalls, hdone⟩ := runWith_eq d o h.vault
  obtain ⟨hsent, hbody, hresult⟩ := (deploy_run hrequest).2 _ h.encode
  obtain ⟨hcontext, hcontextSent, hcontextBody⟩ := sendContext_sent d o data 1 h.context
  have hrun := Program.run_bind_ok (fun _ => o.answer d.automationId) 1 (sendContext data)
    (fun _ => d.sendAutomation data) hcontext
  obtain ⟨hautoSent, hautoBody, hauto⟩ := sendAutomation_sent d o data
    (1 + ((sendContext data).run (fun _ => o.answer d.automationId) 1).1.length) h.automation
  simp only [Dialog.sendEncoded] at hsent hbody hresult
  rw [hrun] at hsent hbody hresult
  rw [hcalls, hdone, hsent, hbody, hresult, sentTxs_append, patchBody_append, hcontextSent,
    hcontextBody, hautoSent, hautoBody]
  exact ⟨rfl, rfl, hauto⟩

/-- Otherwise the dialog sends the context transaction at most, and does not end well. -/
theorem runWith_stops (h : ∀ data, ¬ d.Sends o data) :
    (∀ tx ∈ sentTxs (d.runWith o).1, tx.phase ≠ .autoTx) ∧
      ¬ ∃ text, (d.runWith o).2 = .ok (.done, text) := by
  by_cases hvault : d.vaultAddress = ""
  · rw [Dialog.runWith, Dialog.handleDeploy, if_pos hvault]
    refine ⟨List.forall_mem_nil _, ?_⟩
    rintro ⟨text, htext⟩
    cases htext
  obtain ⟨hcalls, hdone⟩ := runWith_eq d o hvault
  rw [hcalls, hdone]
  cases hrequest : deployRequest d.services d.graph d.tokenDecimals with
  | error message =>
    simp only [Dialog.deploy, hrequest]
    exact ⟨List.forall_mem_nil _, nofun⟩
  | ok request =>
    cases hencode : o.encode with
    | error err =>
      obtain ⟨hsent, hresult⟩ := (deploy_run hrequest).1 err hencode
      rw [hsent, hresult]
      exact ⟨List.forall_mem_nil _, nofun⟩
    | ok res =>
      obtain ⟨hsent, -, hresult⟩ := (deploy_run hrequest).2 res hencode
      rw [hsent, hresult]
      cases res with
      | error message => exact ⟨List.forall_mem_nil _, nofun⟩
      | ok data =>
        rw [Dialog.sendEncoded]
        by_cases hcontext : ContextRejected o data
        · obtain ⟨err, herr, hcontextSent, -⟩ := sendContext_rejected d o data 1 hcontext
          rw [Program.run_bind_error _ _ _ _ herr, hcontextSent]
          exact ⟨List.forall_mem_nil _, nofun⟩
        · obtain ⟨hok, hcontextSent, -⟩ := sendContext_sent d o data 1 hcontext
          rw [Program.run_bind_ok _ _ _ _ hok, sentTxs_append, hcontextSent]
          -- all stages before it went well, so the automation transaction was refused
          have hrejected : ∃ err, o.automation = .rejected err := by
            by_contra hauto
            exact h data ⟨hvault, ⟨request, hrequest⟩, hencode, hcontext, hauto⟩
          obtain ⟨err, herr⟩ := hrejected
          rw [sendAutomation_rejected d o data _ herr]
          refine ⟨?_, nofun⟩
          intro tx htx
          rw [contextTxs] at htx
          rcases List.mem_append.1 htx with htx | htx
          · obtain ⟨op, -, rfl⟩ := List.mem_map.1 htx
            exact DeployPhase.noConfusion
          · cases htx

end Run

/-! ## What is on chain and in the tables -/

/-- What the endpoint of the dialog's mode encodes. -/
structure Dialog.Encodes (d : Dialog) (data : EncodeResult) : Prop where
  create : d.isEdit = false →
    data.automationCalldata = (createCall data.ownerOnly data.steps).2
  edit : d.isEdit = true → ∃ id, data.automationCalldata = .updateAutomationSteps id data.steps
  stepCount : data.stepCount = data.steps.length

/-- The log of a success: a new automation, or new steps. -/
def Dialog.log (d : Dialog) (id stepCount : Nat) : Log :=
  if d.isEdit then .automationStepsUpdated id stepCount else .automationCreated id stepCount

/-- The automation transaction has succeeded, for this automation and with this number of steps. -/
def Dialog.OnChain (d : Dialog) (o : Outcomes) (data : EncodeResult) (vault : State)
    (id stepCount : Nat) : Prop :=
  ∃ logs, o.automation.effect o.wallet data.automationCalldata = some (vault, logs) ∧
    d.log id stepCount ∈ logs

/-- The row of the automation says what is on chain. -/
def Registered (db : Database) (automationId : String) (vault : State) (id stepCount : Nat) : Prop :=
  ∃ row ∈ db.automations, row.id = automationId ∧ row.onChainId = some (id : Int) ∧
    row.ownerOnly = (vault.automations id).ownerOnly ∧ row.stepCount = stepCount

/-- The tables at the end. -/
def Outcomes.finalDatabase (o : Outcomes) (automationId : String) (h : Answers) : Database :=
  match patchBody h with
  | some body => (o.stored automationId body).getD o.database
  | none => o.database

/-- The automation transaction comes after a context transaction that was seen to succeed, if one is
required. -/
def Ordered (o : Outcomes) (data : EncodeResult) (h : Answers) : Prop :=
  ∀ tx ∈ sentTxs h, tx.phase = .autoTx → data.requiresContextTx = true →
    ∃ ctx receipt, sentTxs h = [ctx, tx] ∧ ctx.phase = .contextTx ∧
      o.context.receipt o.wallet ctx.op = some receipt ∧ receipt.success = true

/-- The dialog says that it is done exactly when the automation is on chain and registered. -/
def Dialog.Honest (d : Dialog) (o : Outcomes) : Prop :=
  (∃ text, (d.runWith o).2 = .ok (.done, text)) ↔
    ∃ data, o.encode = .ok (.ok data) ∧ (∃ tx ∈ sentTxs (d.runWith o).1, tx.phase = .autoTx) ∧
      ∃ vault id stepCount, d.OnChain o data vault id stepCount ∧
        Registered (o.finalDatabase d.automationId (d.runWith o).1) d.automationId vault id stepCount

/-- What the dialog does not look at is good: the receipt of the context transaction; of a new automation
that was seen, the answer to the `PATCH` comes exactly if the row says what is on chain then; and nothing
that ends in an error was registered already. -/
def Dialog.Faithful (d : Dialog) (o : Outcomes) : Prop :=
  ∀ data, d.Sends o data →
    (data.requiresContextTx = true → ∃ op receipt, data.contextCalldata = some op ∧
      o.context.receipt o.wallet op = some receipt ∧ receipt.success = true) ∧
    ∀ vault id stepCount, d.OnChain o data vault id stepCount →
      if d.isEdit = false ∧ o.automation.seen = true then
        (o.patch.answered = true ↔
          (o.stored d.automationId (Dialog.confirmation id data)).isSome ∨
            Registered o.database d.automationId vault id stepCount)
      else ¬ Registered o.database d.automationId vault id stepCount

section Facts

variable {d : Dialog} {o : Outcomes} {data : EncodeResult}

/-- The effect of a mined transaction is that of the vault's call. -/
theorem effect_eq_some {t : TxOutcome} {wallet : Address} {op : Op} {vault : State} {logs : List Log}
    (h : t.effect wallet op = some (vault, logs)) :
    ∃ seen before env, t = .mined seen before env ∧ call before ⟨wallet, env, op⟩ = .ok vault ∧
      logs = vault.logs.drop before.logs.length := by
  cases t with
  | rejected err => cases h
  | dropped => cases h
  | outOfGas => cases h
  | mined seen before env =>
    rw [TxOutcome.effect] at h
    cases hcall : call before ⟨wallet, env, op⟩ with
    | error e =>
      rw [hcall] at h
      cases h
    | ok vault' =>
      rw [hcall] at h
      cases h
      exact ⟨seen, before, env, rfl, hcall, rfl⟩

/-- A creation logs its id and its number of steps. -/
theorem storeAutomation_logs {steps : List Step} {ownerOnly : Bool} {before : State}
    {r : State × Nat} (h : storeAutomation steps ownerOnly before = .ok r) :
    r.1.logs.drop before.logs.length = [.automationCreated before.automationCount steps.length] ∧
      (r.1.automations before.automationCount).ownerOnly = ownerOnly := by
  rw [storeAutomation_ok h]
  refine ⟨List.drop_left, ?_⟩
  simp [State.setAutomation]

/-- A transaction that creates an automation logs its id, and nothing else. -/
theorem created_effect {t : TxOutcome} {wallet : Address} {ownerOnly : Bool} {steps : List Step}
    {vault : State} {logs : List Log}
    (h : t.effect wallet (createCall ownerOnly steps).2 = some (vault, logs)) :
    ∃ id, logs = [.automationCreated id steps.length] ∧
      (vault.automations id).ownerOnly = ownerOnly := by
  obtain ⟨seen, before, env, -, hcall, rfl⟩ := effect_eq_some h
  refine ⟨before.automationCount, ?_⟩
  cases ownerOnly with
  | true =>
    obtain ⟨r, hcreate, hr⟩ := bind_eq_ok.1 hcall
    cases hr
    obtain ⟨-, -, hvalidate⟩ := bind_eq_ok.1 hcreate
    obtain ⟨-, -, hstore⟩ := bind_eq_ok.1 hvalidate
    exact storeAutomation_logs hstore
  | false =>
    obtain ⟨r, hcreate, hr⟩ := bind_eq_ok.1 hcall
    cases hr
    obtain ⟨-, -, hvalidate⟩ := bind_eq_ok.1 hcreate
    obtain ⟨-, -, hstore⟩ := bind_eq_ok.1 hvalidate
    exact storeAutomation_logs hstore

/-- An update logs its id and its number of steps. -/
theorem updated_effect {t : TxOutcome} {wallet : Address} {id : Nat} {steps : List Step}
    {vault : State} {logs : List Log}
    (h : t.effect wallet (.updateAutomationSteps id steps) = some (vault, logs)) :
    logs = [.automationStepsUpdated id steps.length] := by
  obtain ⟨seen, before, env, -, hcall, rfl⟩ := effect_eq_some h
  cases call_effect hcall with
  | created hop _ => split at hop <;> cases hop
  | stepsUpdated hop _ _ =>
    cases hop
    exact List.drop_left
  | activeChanged hop _ => cases hop
  | contextSet hop => cases hop
  | contextSlotSet hop => cases hop
  | minFeeDeposit hop => cases hop
  | executed hop => cases hop

/-- What the controller stores is what the body says. -/
theorem stored_registered {automationId : String} {id : Nat} {db : Database} {vault : State}
    (h : o.stored automationId (Dialog.confirmation id data) = some db)
    (howner : data.ownerOnly = (vault.automations id).ownerOnly) :
    Registered db automationId vault id data.stepCount := by
  -- only a `PATCH` that was delivered stores anything
  have hpatch : ∃ row, Reconciliation.patch o.database automationId (Dialog.confirmation id data) =
      .ok (db, row) := by
    rw [Outcomes.stored] at h
    cases hp : o.patch with
    | unreachable err =>
      rw [hp] at h
      cases h
    | refused =>
      rw [hp] at h
      cases h
    | delivered lost =>
      rw [hp] at h
      dsimp only at h
      split at h
      · next row hok =>
        cases h
        exact ⟨row, hok⟩
      · cases h
  obtain ⟨row, hpatch⟩ := hpatch
  simp only [Reconciliation.patch, Dialog.confirmation, confirmDeployment, Option.getD_some,
    JsNumber.integer?_ofInt] at hpatch
  obtain ⟨a, ha, hid, hrow, hrows⟩ := updateAutomation_eq_ok hpatch
  have hmem : row ∈ db.automations := by
    rw [hrows]
    exact Table.mem_update.2 (Or.inr ⟨a, ha, hid, hrow.symm⟩)
  rw [hrow] at hmem
  exact ⟨_, hmem, hid, rfl, howner, rfl⟩

theorem contextTxs_of_required (hrequires : data.requiresContextTx = true) :
    contextTxs data = data.contextCalldata.toList.map fun op => ⟨.contextTx, op, 500000⟩ := by
  rw [contextTxs, contextOp, hrequires]
  rfl

/-- The order, for a dialog that sends the automation transaction. -/
theorem ordered_iff (h : d.Sends o data) : Ordered o data (d.runWith o).1 ↔
    (data.requiresContextTx = true → ∃ op receipt, data.contextCalldata = some op ∧
      o.context.receipt o.wallet op = some receipt ∧ receipt.success = true) := by
  rw [Ordered, (runWith_sends h).1]
  constructor
  · intro hordered hrequires
    obtain ⟨ctx, receipt, hctx, -, hreceipt, hsuccess⟩ :=
      hordered (autoTx data) (List.mem_append_right _ List.mem_cons_self) rfl hrequires
    rw [contextTxs_of_required hrequires] at hctx
    cases hcalldata : data.contextCalldata with
    | none =>
      rw [hcalldata] at hctx
      cases hctx
    | some op =>
      rw [hcalldata] at hctx
      cases hctx
      exact ⟨op, receipt, rfl, hreceipt, hsuccess⟩
  · intro hgood tx htx hphase hrequires
    obtain ⟨op, receipt, hcalldata, hreceipt, hsuccess⟩ := hgood hrequires
    rw [contextTxs_of_required hrequires, hcalldata] at htx ⊢
    -- exactly two transactions are sent, the context's first
    have htx' : tx = ⟨.contextTx, op, 500000⟩ ∨ tx = autoTx data := by
      simpa using htx
    rcases htx' with rfl | rfl
    · cases hphase
    · exact ⟨_, receipt, rfl, rfl, hreceipt, hsuccess⟩

end Facts

/-- The backend answers what the mode asks for. -/
theorem encodeRequest_encodes {d : Dialog} {slots : ContextSlots} {onChainCtx : Option (List Bytes)}
    {onChainId : Option Nat} {graph : EditorGraph} {overrides : Option (Record HexData)}
    {data : EncodeResult} (hmode : d.isEdit = onChainId.isSome)
    (h : (encodeRequest d.services slots onChainCtx d.automationId onChainId graph overrides).2 =
      .ok data) : d.Encodes data := by
  cases onChainId with
  | none =>
    obtain ⟨hof, -, hcall⟩ := encode_ok h
    refine ⟨fun _ => congrArg Prod.snd hcall, fun hedit => ?_, hof.stepCount⟩
    rw [hmode] at hedit
    cases hedit
  | some id =>
    obtain ⟨hof, -, hcall⟩ := encodeUpdate_ok h
    refine ⟨fun hcreate => ?_, fun _ => ⟨id, hcall⟩, hof.stepCount⟩
    rw [hmode] at hcreate
    cases hcreate

/-! ## When the dialog is honest -/

section Honest

variable {d : Dialog} {o : Outcomes} {data : EncodeResult}

/-- Without an effect no id is seen. -/
theorem seenId_eq_none
    (heffect : o.automation.effect o.wallet data.automationCalldata = none) :
    seenId o data = none := by
  rw [seenId]
  cases hauto : o.automation with
  | rejected err => rfl
  | dropped => rfl
  | outOfGas => rfl
  | mined seen before env =>
    cases seen with
    | false => rfl
    | true =>
      rw [hauto] at heffect
      rw [TxOutcome.receipt, heffect]
      rfl

/-- The id that is seen is the one of the log. -/
theorem seenId_eq {vault : State} {logs : List Log}
    (heffect : o.automation.effect o.wallet data.automationCalldata = some (vault, logs)) :
    seenId o data = if o.automation.seen then createdId logs else none := by
  obtain ⟨seen, before, env, hauto, -, -⟩ := effect_eq_some heffect
  rw [seenId]
  rw [hauto] at heffect ⊢
  cases seen with
  | false => rfl
  | true =>
    rw [TxOutcome.receipt, heffect]
    rfl

/-- The row is written where the dialog has seen an id. -/
theorem finalDatabase_eq (h : d.Sends o data) :
    o.finalDatabase d.automationId (d.runWith o).1 =
      ((seenId o data).bind fun id =>
        o.stored d.automationId (Dialog.confirmation id data)).getD o.database := by
  rw [Outcomes.finalDatabase, (runWith_sends h).2.1]
  cases seenId o data with
  | none => rfl
  | some id => rfl

/-- Honesty, for a dialog that sends the automation transaction. -/
theorem honest_iff (h : d.Sends o data) : d.Honest o ↔
    ((seenId o data).isSome ∧ o.patch.answered = true ↔
      ∃ vault id stepCount, d.OnChain o data vault id stepCount ∧
        Registered (((seenId o data).bind fun id =>
          o.stored d.automationId (Dialog.confirmation id data)).getD o.database)
          d.automationId vault id stepCount) := by
  obtain ⟨hsent, -, hdone⟩ := runWith_sends h
  rw [Dialog.Honest, hdone, finalDatabase_eq h]
  have hauto : ∃ tx ∈ sentTxs (d.runWith o).1, tx.phase = .autoTx := by
    rw [hsent]
    exact ⟨autoTx data, List.mem_append_right _ List.mem_cons_self, rfl⟩
  apply iff_congr Iff.rfl
  constructor
  · rintro ⟨data', hdata', -, hrest⟩
    rw [h.encode] at hdata'
    cases hdata'
    exact hrest
  · intro hrest
    exact ⟨data, h.encode, hauto, hrest⟩

/-- A success of the mode is one log, with the id and the number of steps. -/
theorem effect_logs (hencodes : d.Encodes data) {vault : State} {logs : List Log}
    (heffect : o.automation.effect o.wallet data.automationCalldata = some (vault, logs)) :
    ∃ id, logs = [d.log id data.stepCount] ∧
      (d.isEdit = false → (vault.automations id).ownerOnly = data.ownerOnly) := by
  cases hedit : d.isEdit with
  | false =>
    rw [hencodes.create hedit] at heffect
    obtain ⟨id, hlogs, howner⟩ := created_effect heffect
    refine ⟨id, ?_, fun _ => howner⟩
    rw [Dialog.log, hedit, hencodes.stepCount]
    exact hlogs
  | true =>
    obtain ⟨id, hop⟩ := hencodes.edit hedit
    rw [hop] at heffect
    refine ⟨id, ?_, nofun⟩
    rw [Dialog.log, hedit, hencodes.stepCount]
    exact updated_effect heffect

/-- A log tells its id and its number. -/
theorem log_injective {id id' n n' : Nat} (h : d.log id n = d.log id' n') : id = id' ∧ n = n' := by
  rw [Dialog.log, Dialog.log] at h
  split_ifs at h
  · cases h
    exact ⟨rfl, rfl⟩
  · cases h
    exact ⟨rfl, rfl⟩

/-- What the transaction has put on the chain is what its log says. -/
theorem onChain_iff {vault vault' : State} {id id' n n' : Nat}
    (heffect : o.automation.effect o.wallet data.automationCalldata = some (vault, [d.log id n])) :
    d.OnChain o data vault' id' n' ↔ vault' = vault ∧ id' = id ∧ n' = n := by
  constructor
  · rintro ⟨logs, hlogs, hmem⟩
    rw [heffect] at hlogs
    cases hlogs
    exact ⟨rfl, log_injective (List.mem_singleton.1 hmem)⟩
  · rintro ⟨rfl, rfl, rfl⟩
    exact ⟨_, heffect, List.mem_cons_self⟩

/-- The id of a new automation is read of a receipt that is seen, and of nothing else. -/
theorem seenId_of_log {vault : State} {id n : Nat}
    (heffect : o.automation.effect o.wallet data.automationCalldata = some (vault, [d.log id n])) :
    seenId o data = if d.isEdit = false ∧ o.automation.seen = true then some id else none := by
  rw [seenId_eq heffect, Dialog.log]
  cases d.isEdit with
  | true =>
    cases o.automation.seen with
    | true => rfl
    | false => rfl
  | false =>
    cases o.automation.seen with
    | true => rfl
    | false => rfl

/-- After a `PATCH` the row says what is on chain if it was stored, or said so before. -/
theorem registered_stored_iff {vault : State} {id : Nat}
    (howner : data.ownerOnly = (vault.automations id).ownerOnly) :
    Registered ((o.stored d.automationId (Dialog.confirmation id data)).getD o.database)
        d.automationId vault id data.stepCount ↔
      (o.stored d.automationId (Dialog.confirmation id data)).isSome ∨
        Registered o.database d.automationId vault id data.stepCount := by
  cases hstored : o.stored d.automationId (Dialog.confirmation id data) with
  | none =>
    constructor
    · exact Or.inr
    · rintro (hsome | hregistered)
      · cases hsome
      · exact hregistered
  | some db => exact iff_of_true (stored_registered hstored howner) (Or.inl rfl)

/-- The dialog is honest exactly if its `PATCH` was answered as it was stored. -/
theorem honest_iff_faithful (h : d.Sends o data) (hencodes : d.Encodes data) : d.Honest o ↔
    ∀ vault id stepCount, d.OnChain o data vault id stepCount →
      if d.isEdit = false ∧ o.automation.seen = true then
        (o.patch.answered = true ↔
          (o.stored d.automationId (Dialog.confirmation id data)).isSome ∨
            Registered o.database d.automationId vault id stepCount)
      else ¬ Registered o.database d.automationId vault id stepCount := by
  rw [honest_iff h]
  cases heffect : o.automation.effect o.wallet data.automationCalldata with
  | none =>
    -- a transaction without effect leaves nothing on chain to be honest about
    have hno {vault : State} {id n : Nat} : ¬ d.OnChain o data vault id n := by
      rintro ⟨logs, hlogs, -⟩
      rw [heffect] at hlogs
      cases hlogs
    rw [seenId_eq_none heffect]
    refine iff_of_true (iff_of_false (fun hseen => Bool.false_ne_true hseen.1) ?_) ?_
    · rintro ⟨vault, id, n, honchain, -⟩
      exact hno honchain
    · intro vault id n honchain
      exact absurd honchain hno
  | some effect =>
    obtain ⟨vault, logs⟩ := effect
    obtain ⟨id, rfl, howner⟩ := effect_logs hencodes heffect
    -- what is on chain is one vault, one id and one number of steps
    have hex (P : State → Nat → Nat → Prop) : (∃ vault id n, d.OnChain o data vault id n ∧
        P vault id n) ↔ P vault id data.stepCount := by
      constructor
      · rintro ⟨vault', id', n', honchain, hP⟩
        obtain ⟨rfl, rfl, rfl⟩ := (onChain_iff heffect).1 honchain
        exact hP
      · intro hP
        exact ⟨vault, id, data.stepCount, (onChain_iff heffect).2 ⟨rfl, rfl, rfl⟩, hP⟩
    have hall (P : State → Nat → Nat → Prop) : (∀ vault id n, d.OnChain o data vault id n →
        P vault id n) ↔ P vault id data.stepCount := by
      constructor
      · intro hP
        exact hP vault id data.stepCount ((onChain_iff heffect).2 ⟨rfl, rfl, rfl⟩)
      · intro hP vault' id' n' honchain
        obtain ⟨rfl, rfl, rfl⟩ := (onChain_iff heffect).1 honchain
        exact hP
    rw [hex, hall, seenId_of_log heffect]
    by_cases hnew : d.isEdit = false ∧ o.automation.seen = true
    · rw [if_pos hnew, if_pos hnew, Option.bind_some, registered_stored_iff (howner hnew.1).symm]
      simp only [Option.isSome_some, true_and]
    · rw [if_neg hnew, if_neg hnew]
      simp only [Option.isSome_none, Option.bind_none, Option.getD_none, Bool.false_eq_true,
        false_and, false_iff]

end Honest

/-- **Order and honesty of a deployment.** For a response of the mode's endpoint: the automation
transaction is sent only after a required context transaction was seen to succeed, and the dialog ends
in `done` exactly when the automation is on chain and the row says so, if and only if what the dialog
does not look at is good. -/
theorem deploy_honest_iff (d : Dialog) (o : Outcomes)
    (hencodes : ∀ data, o.encode = .ok (.ok data) → d.Encodes data) :
    (∀ data, o.encode = .ok (.ok data) → Ordered o data (d.runWith o).1) ∧ d.Honest o ↔
      d.Faithful o := by
  by_cases hsends : ∃ data, d.Sends o data
  · obtain ⟨data, h⟩ := hsends
    -- there is one answer of the endpoint
    have hdata {data' : EncodeResult} (h' : o.encode = .ok (.ok data')) : data' = data := by
      rw [h.encode] at h'
      cases h'
      rfl
    rw [honest_iff_faithful h (hencodes data h.encode)]
    constructor
    · rintro ⟨hordered, hhonest⟩ data' h'
      obtain rfl := hdata h'.encode
      exact ⟨(ordered_iff h').1 (hordered data' h'.encode), hhonest⟩
    · intro hfaithful
      obtain ⟨hgood, hhonest⟩ := hfaithful data h
      refine ⟨fun data' h' => ?_, hhonest⟩
      obtain rfl := hdata h'
      exact (ordered_iff h).2 hgood
  · have hno (data : EncodeResult) : ¬ d.Sends o data := fun h => hsends ⟨data, h⟩
    obtain ⟨hphase, hdone⟩ := runWith_stops hno
    refine iff_of_true ⟨?_, iff_of_false hdone ?_⟩ fun data h => absurd h (hno data)
    · intro data _ tx htx hauto
      exact absurd hauto (hphase tx htx)
    · rintro ⟨data, -, ⟨tx, htx, hauto⟩, -⟩
      exact hphase tx htx hauto

/-! ## Deployments of one draft -/

/-- A dialog for an empty graph. -/
def sampleDialog (isEdit : Bool) : Dialog where
  vaultAddress := "0x3333333333333333333333333333333333333333"
  automationId := "a1"
  isEdit := isEdit
  services := Reconciliation.sampleConfig.services
  graph := ⟨[], []⟩
  tokenDecimals := none

/-- An answer with a context transaction. -/
def sampleData (automationCalldata : Op) : EncodeResult where
  automationCalldata := automationCalldata
  contextCalldata := some (.setContext [[]])
  functionName := ""
  steps := Reconciliation.sampleSteps ⟨8⟩ 0x09c5eabe
  ownerOnly := false
  stepCount := 2
  requiresContextTx := true
  contextChanges := []

/-- The answer for a new automation. -/
def createData : EncodeResult :=
  sampleData (.createAutomation (Reconciliation.sampleSteps ⟨8⟩ 0x09c5eabe))

/-- The answer for an update. -/
def editData : EncodeResult :=
  sampleData (.updateAutomationSteps 0 (Reconciliation.sampleSteps ⟨8⟩ 0x09c5eabe))

/-- A vault without automations. -/
def emptyVault : State := initialized ⟨1⟩ Address.zero Address.zero

/-- Both transactions succeed, and the `PATCH` arrives. -/
def goodOutcomes : Outcomes where
  wallet := ⟨1⟩
  encode := .ok (.ok createData)
  context := .mined true emptyVault (sampleEnv [])
  automation := .mined true emptyVault (sampleEnv [])
  patch := .delivered none
  database := Reconciliation.twoDrafts

theorem sampleDialog_sends {isEdit : Bool} {o : Outcomes} {data : EncodeResult}
    (hencode : o.encode = .ok (.ok data)) (hcontext : ¬ ∃ err, o.context = .rejected err)
    (hauto : ¬ ∃ err, o.automation = .rejected err) : (sampleDialog isEdit).Sends o data :=
  ⟨by simp [sampleDialog], ⟨_, rfl⟩, hencode, fun h => hcontext h.2, hauto⟩

theorem createData_encodes : (sampleDialog false).Encodes createData := ⟨fun _ => rfl, nofun, rfl⟩

theorem editData_encodes : (sampleDialog true).Encodes editData := ⟨nofun, fun _ => ⟨0, rfl⟩, rfl⟩

theorem goodOutcomes_effect : goodOutcomes.automation.effect goodOutcomes.wallet
    createData.automationCalldata = some (step emptyVault ⟨⟨1⟩, sampleEnv [],
      createData.automationCalldata⟩, [(sampleDialog false).log 0 2]) := by
  rfl

theorem goodOutcomes_stored :
    (goodOutcomes.stored "a1" (Dialog.confirmation 0 createData)).isSome = true := by
  rfl

theorem deploy_honest_iff_sample :
    Ordered goodOutcomes createData ((sampleDialog false).runWith goodOutcomes).1 ∧
      (sampleDialog false).Honest goodOutcomes := by
  have hencodes : ∀ data, goodOutcomes.encode = .ok (.ok data) → (sampleDialog false).Encodes data := by
    intro data h
    cases h
    exact createData_encodes
  have hfaithful : (sampleDialog false).Faithful goodOutcomes := by
    intro data h
    cases h.encode
    refine ⟨fun _ => ⟨_, _, rfl, rfl, rfl⟩, fun vault id n honchain => ?_⟩
    rw [if_pos ⟨rfl, rfl⟩]
    obtain ⟨-, rfl, rfl⟩ := (onChain_iff goodOutcomes_effect).1 honchain
    exact iff_of_true rfl (Or.inl goodOutcomes_stored)
  obtain ⟨hordered, hhonest⟩ := (deploy_honest_iff _ _ hencodes).2 hfaithful
  exact ⟨hordered createData rfl, hhonest⟩

/-- The context transaction runs out of gas. -/
def contextReverted : Outcomes := { goodOutcomes with context := .outOfGas }

/-- The backend refuses the `PATCH`. -/
def patchRefused : Outcomes := { goodOutcomes with patch := .refused }

/-- The tables after the deployment. -/
def registeredDrafts : Database :=
  (goodOutcomes.stored "a1" (Dialog.confirmation 0 createData)).getD Reconciliation.twoDrafts

/-- The automation is edited, and everything succeeds. -/
def edited : Outcomes where
  wallet := ⟨1⟩
  encode := .ok (.ok editData)
  context := .mined true emptyVault (sampleEnv [])
  automation := .mined true (step emptyVault ⟨⟨1⟩, sampleEnv [], createData.automationCalldata⟩)
    (sampleEnv [])
  patch := .delivered none
  database := registeredDrafts

/-- After a context transaction that reverts the automation transaction is sent; the dialog is done
although the backend refuses the automation; and an edit that has succeeded ends in an error. -/
theorem deploy_dishonest :
    ¬ Ordered contextReverted createData ((sampleDialog false).runWith contextReverted).1 ∧
      ¬ (sampleDialog false).Honest patchRefused ∧ ¬ (sampleDialog true).Honest edited := by
  have hmined (seen : Bool) (before : State) (env : Env) :
      ¬ ∃ err, TxOutcome.mined seen before env = .rejected err := by
    rintro ⟨err, h⟩
    cases h
  have houtOfGas : ¬ ∃ err, TxOutcome.outOfGas = .rejected err := by
    rintro ⟨err, h⟩
    cases h
  refine ⟨fun h => ?_, fun h => ?_, fun h => ?_⟩
  · have hsends : (sampleDialog false).Sends contextReverted createData :=
      sampleDialog_sends rfl houtOfGas (hmined _ _ _)
    obtain ⟨op, receipt, -, hreceipt, hsuccess⟩ := (ordered_iff hsends).1 h rfl
    cases hreceipt
    cases hsuccess
  -- the `PATCH` was refused, so no row is linked
  · have hsends : (sampleDialog false).Sends patchRefused createData :=
      sampleDialog_sends rfl (hmined _ _ _) (hmined _ _ _)
    have hrow := (honest_iff_faithful hsends createData_encodes).1 h _ _ _
      ((onChain_iff goodOutcomes_effect).2 ⟨rfl, rfl, rfl⟩)
    rw [if_pos ⟨rfl, rfl⟩] at hrow
    rcases hrow.1 rfl with hstored | ⟨row, hrow, -, hlinked, -⟩
    · cases hstored
    · rcases List.mem_cons.1 hrow with rfl | hrow
      · cases hlinked
      · rw [List.mem_singleton] at hrow
        subst hrow
        cases hlinked
  -- the row was registered before the edit
  · have hsends : (sampleDialog true).Sends edited editData :=
      sampleDialog_sends rfl (hmined _ _ _) (hmined _ _ _)
    have hunregistered := (honest_iff_faithful hsends editData_encodes).1 h _ 0 2
      ⟨_, rfl, List.mem_cons_self⟩
    rw [if_neg fun hnew => Bool.false_ne_true hnew.1.symm] at hunregistered
    have hstored : goodOutcomes.stored "a1" (Dialog.confirmation 0 createData) =
        some registeredDrafts := by
      rfl
    exact hunregistered (stored_registered hstored rfl)

end StrategyBuilder.Editor.DeployDialog
