import StrategyBuilder.Backend.EncodingService
import StrategyBuilder.Lib.Table

/-!
# Automations behind the API

The `Automation` and `Vault` tables with their unique columns, `automation.service.ts` on them,
`VaultAccessService.assertOwnership` with the guard, and the handlers of `automation.controller.ts`
that take an automation's `:id`.

The RPC endpoint and `getAddress` are parameters (`Providers`), so is what `getStatuses` finds on the
chain. Creation and update times of the rows are left out.
-/

set_option autoImplicit false

namespace StrategyBuilder.Backend

open StrategyBuilder.Automation
open StrategyBuilder.Contracts.Vault
open StrategyBuilder.Lib
open StrategyBuilder.Lib.Abi
open StrategyBuilder.Lib.Js
open StrategyBuilder.Shared

/-! ## The tables -/

/-- A node as the editor stores it, with the contract of its step type. -/
structure StoredNode extends EditorNode where
  contractAddress : Option String

/-- The JSON in `editorState`. -/
structure EditorState where
  nodes : Option (List StoredNode)
  edges : Option (List EditorEdge)

/-- A row of the vaults. -/
structure VaultRow where
  id : String
  address : String
  chainId : Int
  ownerAddress : String
  depositToken : String
  label : String
  createdAtBlock : Int
  txHash : String
  contextSlots : ContextSlots

/-- A row of the automations; a draft is not linked to the chain yet. -/
structure AutomationRow where
  id : String
  vaultId : String
  onChainId : Option Int
  label : Option String
  description : Option String
  ownerOnly : Bool
  editorState : Option EditorState
  stepCount : Int
  isDraft : Bool

/-- The two tables: addresses, labels of an owner and linked ids of a vault are unique, and every
automation belongs to a vault. -/
structure Database where
  vaults : Table VaultRow VaultRow.id
  automations : Table AutomationRow AutomationRow.id
  addresses : (vaults.rows.map VaultRow.address).Nodup
  labels : (vaults.rows.map fun v => (v.ownerAddress, v.label)).Nodup
  onChainIds : ∀ a ∈ automations, ∀ b ∈ automations, a.vaultId = b.vaultId →
    a.onChainId = b.onChainId → a.onChainId ≠ none → a = b
  references : ∀ a ∈ automations, vaults.Has a.vaultId

/-- The exceptions that answer a request; a `500` for any other error. -/
inductive HttpError where
  | notFound (message : String)
  | forbidden (message : String)
  | conflict (message : String)
  | badRequest (message : String)
  | internal
deriving DecidableEq, Repr

/-- What the controller makes of an exception of the encoder. -/
def Thrown.toHttp : Thrown → HttpError
  | .badRequest message => .badRequest message
  | .internal => .internal

/-- The `data` of an update; an unset field stays as it is. -/
structure AutomationData where
  onChainId : Option Int := none
  label : Option String := none
  description : Option String := none
  ownerOnly : Option Bool := none
  editorState : Option EditorState := none
  stepCount : Option Int := none
  isDraft : Option Bool := none

namespace AutomationData

/-- The row after the update: what is not given stays. -/
def apply (data : AutomationData) (a : AutomationRow) : AutomationRow where
  id := a.id
  vaultId := a.vaultId
  onChainId := data.onChainId.or a.onChainId
  label := data.label.or a.label
  description := data.description.or a.description
  ownerOnly := data.ownerOnly.getD a.ownerOnly
  editorState := data.editorState.or a.editorState
  stepCount := data.stepCount.getD a.stepCount
  isDraft := data.isDraft.getD a.isDraft

@[simp] theorem apply_id (data : AutomationData) (a : AutomationRow) : (data.apply a).id = a.id := rfl

end AutomationData

/-- An `Int` column holds 32 bits. -/
def fitsInt4 (n : Int) : Bool := -2 ^ 31 ≤ n && n < 2 ^ 31

/-- The integers of the data fit their columns. -/
def AutomationData.fits (data : AutomationData) : Bool :=
  data.onChainId.all fitsInt4 && data.stepCount.all fitsInt4

namespace Database

variable (db : Database)

/-- Another automation of the vault has the on-chain id. -/
def linkedElsewhere (a : AutomationRow) : Bool :=
  a.onChainId.isSome && db.automations.rows.any fun b =>
    b.id ≠ a.id && b.vaultId = a.vaultId && b.onChainId = a.onChainId

theorem linkedElsewhere_iff {a : AutomationRow} : db.linkedElsewhere a = true ↔
    a.onChainId ≠ none ∧ ∃ b ∈ db.automations, b.id ≠ a.id ∧ b.vaultId = a.vaultId ∧
      b.onChainId = a.onChainId := by
  unfold linkedElsewhere
  simp only [Bool.and_eq_true, List.any_eq_true, decide_eq_true_eq, Option.isSome_iff_ne_none,
    Table.mem_rows, and_assoc]

/-- An update that links no id twice leaves the linked ids unique. -/
theorem onChainIds_update {a : AutomationRow} (data : AutomationData) (ha : a ∈ db.automations)
    (hfree : db.linkedElsewhere (data.apply a) ≠ true) :
    ∀ b ∈ db.automations.update a.id data.apply data.apply_id,
      ∀ c ∈ db.automations.update a.id data.apply data.apply_id, b.vaultId = c.vaultId →
        b.onChainId = c.onChainId → b.onChainId ≠ none → b = c := by
  have hrow {r : AutomationRow} (hr : r ∈ db.automations) (hid : r.id = a.id) : r = a :=
    Table.eq_of_key hr ha hid
  have hother {b : AutomationRow} (hb : b ∈ db.automations) (hid : b.id ≠ a.id)
      (hvault : b.vaultId = a.vaultId) (hlinked : b.onChainId = (data.apply a).onChainId)
      (hne : (data.apply a).onChainId ≠ none) : False :=
    hfree (db.linkedElsewhere_iff.2 ⟨hne, b, hb, hid, hvault, hlinked⟩)
  intro b hb c hc hvault hlinked hne
  -- each of the two rows is the one that was updated, or another
  rcases Table.mem_update.1 hb with ⟨hb, hbid⟩ | ⟨b', hb', hbid, rfl⟩
  · rcases Table.mem_update.1 hc with ⟨hc, -⟩ | ⟨c', hc', hcid, rfl⟩
    · exact db.onChainIds b hb c hc hvault hlinked hne
    · rw [hrow hc' hcid] at hvault hlinked
      exact (hother hb hbid hvault hlinked (hlinked ▸ hne)).elim
  · rw [hrow hb' hbid] at hvault hlinked hne ⊢
    rcases Table.mem_update.1 hc with ⟨hc, hcid⟩ | ⟨c', hc', hcid, rfl⟩
    · exact (hother hc hcid hvault.symm hlinked.symm hne).elim
    · rw [hrow hc' hcid]

/-- `prisma.automation.update`; it fails where there is no such row, a number does not fit or the
on-chain id is taken. -/
def updateAutomation (id : String) (data : AutomationData) :
    Except HttpError (Database × AutomationRow) :=
  match h : db.automations.find? id with
  | none => .error .internal
  | some a =>
      if data.fits = false then .error .internal
      -- the unique key of vault and on-chain id
      else if hfree : db.linkedElsewhere (data.apply a) = true then .error .internal
      else .ok ({ db with
        automations := db.automations.update a.id data.apply data.apply_id
        onChainIds := db.onChainIds_update data (Table.find?_eq_some.1 h).1 hfree
        references := by
          intro b hb
          rcases Table.mem_update.1 hb with ⟨hb, -⟩ | ⟨b', hb', -, rfl⟩
          · exact db.references b hb
          · exact db.references b' hb' }, data.apply a)

/-- The tables without an automation. -/
def eraseAutomation (id : String) : Database :=
  { db with
    automations := db.automations.erase id
    onChainIds := by
      intro a ha b hb
      exact db.onChainIds a (Table.mem_erase.1 ha).1 b (Table.mem_erase.1 hb).1
    references := by
      intro a ha
      exact db.references a (Table.mem_erase.1 ha).1 }

/-- `prisma.automation.delete`; it fails where there is no such row. -/
def deleteAutomation (id : String) : Except HttpError Database :=
  match db.automations.find? id with
  | none => .error .internal
  | some _ => .ok (db.eraseAutomation id)

/-- The vaults by their addresses. -/
def byAddress : Table VaultRow VaultRow.address := ⟨db.vaults.rows, db.addresses⟩

/-- Write the `contextSlots` of a vault. -/
def setContextSlots (vaultId : String) (slots : ContextSlots) : Database :=
  let vaults := db.vaults.update vaultId (fun v => { v with contextSlots := slots }) fun _ => rfl
  { db with
    vaults := vaults
    addresses := Table.nodup_map_update db.addresses fun _ => rfl
    labels := Table.nodup_map_update db.labels fun _ => rfl
    references := by
      intro a ha
      obtain ⟨v, hv, hid⟩ := db.references a ha
      -- the vault that is written keeps its id
      by_cases hvault : v.id = vaultId
      · exact ⟨_, Table.mem_update.2 (Or.inr ⟨v, hv, hvault, rfl⟩), hid⟩
      · exact ⟨v, Table.mem_update.2 (Or.inl ⟨hv, hvault⟩), hid⟩ }

end Database

/-! ## What the backend calls -/

/-- What the RPC endpoint answers about a vault; `none` is a failure. -/
structure Chain where
  automationCount : String → Option Nat
  /-- The targets of the automation's steps. -/
  getAutomation : String → Nat → Option (List String)
  getContext : String → Option (List Bytes)

/-- What the service is given: the encoder's services, the library for addresses, the chain, and the
status of automations. -/
structure Providers where
  services : Services
  /-- The checksummed address; `none` where the string is no address. -/
  getAddress : String → Option String
  /-- Without `RPC_URL` there is no chain. -/
  rpc : Option Chain
  /-- The on-chain ids of a vault with their `active` flags. -/
  getStatuses : String → Option (List (Int × Bool))

/-- `assertOwnership`, for the guard -/
def assertOwnership (env : Providers) (db : Database) (vaultAddress userAddress : String) :
    Except HttpError VaultRow :=
  match env.getAddress vaultAddress, env.getAddress userAddress with
  | some normalizedVault, some normalizedUser =>
      match db.byAddress.find? normalizedVault with
      | none => .error (.notFound "VAULT_NOT_FOUND")
      | some vault =>
          match env.getAddress vault.ownerAddress with
          -- the stored owner is no address: `getAddress` throws outside the `try`
          | none => .error .internal
          | some owner =>
              if owner = normalizedUser then .ok vault else .error (.forbidden "NOT_VAULT_OWNER")
  | _, _ => .error (.notFound "VAULT_NOT_FOUND")

/-! ## The service -/

/-- The first node that no edge enters. -/
def step0 (nodes : List StoredNode) (edges : List EditorEdge) : Option StoredNode :=
  nodes.find? fun n => (edges.filter fun e => e.target = n.id).length = 0

/-- An automation on the chain looks like the draft: as many steps, and the first one calls the
contract of the draft's first step. -/
def looksLike (nodes : List StoredNode) (edges : List EditorEdge) (targets : List String) : Bool :=
  targets.length = nodes.length &&
    match step0 nodes edges, targets with
    | some node, target :: _ =>
        match node.contractAddress.map String.toLower with
        -- a node without a contract fits any target
        | none => true
        | some expectedTarget => expectedTarget = "" || target.toLower = expectedTarget
    | _, _ => true

/-- The loop in `tryReconcile`, with the id and the number of steps that it links. -/
def findOnChain (linked : Nat → Bool) (getAutomation : Nat → Option (List String))
    (nodes : List StoredNode) (edges : List EditorEdge) : List Nat → Option (Nat × Nat)
  | [] => none
  | i :: is =>
      if linked i = true then findOnChain linked getAutomation nodes edges is
      else match getAutomation i with
        -- an automation that cannot be read ends the search
        | none => none
        | some targets =>
            if looksLike nodes edges targets = true then some (i, targets.length)
            else findOnChain linked getAutomation nodes edges is

/-- Some automation of the vault has the on-chain id. -/
def Database.linked (db : Database) (vaultId : String) (i : Nat) : Bool :=
  db.automations.rows.any fun a => a.vaultId = vaultId && a.onChainId = some (i : Int)

/-- What `tryReconcile` writes, if anything. -/
def reconciledData (env : Providers) (linked : Nat → Bool) (automation : AutomationRow)
    (vault : VaultRow) : Option AutomationData :=
  if vault.address = "" then none
  else match automation.editorState with
    | none => none
    | some editorState =>
        match editorState.nodes with
        | none | some [] => none
        | some nodes =>
            match env.rpc with
            | none => none
            | some chain =>
                match chain.automationCount vault.address with
                | none => none
                | some count =>
                    (findOnChain linked (chain.getAutomation vault.address) nodes
                      (editorState.edges.getD []) (List.range count)).map fun (i, stepCount) =>
                        { onChainId := some i
                          isDraft := some false
                          stepCount := some stepCount }

/-- An error while it writes is caught. -/
def tryReconcile (env : Providers) (db : Database) (automation : AutomationRow) (vault : VaultRow) :
    Database × Option AutomationRow :=
  match reconciledData env (db.linked vault.id) automation vault with
  | none => (db, none)
  | some data =>
      match db.updateAutomation automation.id data with
      | .error _ => (db, none)
      | .ok (db, reconciled) => (db, some reconciled)

/-- `findUnique` with `include: { vault: true }` -/
def Database.findAutomation (db : Database) (id : String) : Option (AutomationRow × VaultRow) :=
  match db.automations.find? id with
  | none => none
  | some automation => (db.vaults.find? automation.vaultId).map fun vault => (automation, vault)

/-- `findById`: a draft is looked for on the chain first, where there is one. -/
def findById (env : Providers) (db : Database) (id : String) :
    Database × Except HttpError (AutomationRow × VaultRow) :=
  match db.findAutomation id with
  | none => (db, .error (.notFound "AUTOMATION_NOT_FOUND"))
  | some (automation, vault) =>
      -- only a draft without an id is looked for on the chain
      if automation.isDraft = true ∧ automation.onChainId = none then
        match tryReconcile env db automation vault with
        | (db, some reconciled) => (db, .ok (reconciled, vault))
        | (db, none) => (db, .ok (automation, vault))
      else (db, .ok (automation, vault))

/-- `confirmDeployment`: both numbers have to be integers of the column. -/
def confirmDeployment (db : Database) (id : String) (onChainId : JsNumber) (ownerOnly : Bool)
    (stepCount : JsNumber) : Except HttpError (Database × AutomationRow) :=
  match onChainId.integer?, stepCount.integer? with
  | some onChainId, some stepCount =>
      db.updateAutomation id
        { onChainId := some onChainId
          isDraft := some false
          ownerOnly := some ownerOnly
          stepCount := some stepCount }
  | _, _ => .error .internal

/-! ## The handlers -/

/-- The body of a `PATCH`. -/
structure UpdateBody where
  editorState : Option EditorState
  label : Option String
  description : Option String
  onChainId : Option JsNumber
  ownerOnly : Option Bool
  stepCount : Option JsNumber

/-- The body of a request to encode. -/
structure EncodeBody where
  contextOverrides : Option (Record HexData)
  graph : Option EditorState

/-- The routes under `vaults/:address/automations/:id`. -/
inductive Route where
  | get
  | update (body : UpdateBody)
  | encode (body : EncodeBody)
  | encodeUpdate (body : EncodeBody)
  | encodeToggle (active : Bool)
  | encodeExecute
  | delete

/-- A request under an address and an id, by a user who is signed in. -/
structure Request where
  user : String
  address : String
  id : String
  route : Route

/-- What a handler returns; the calldata of `encode-toggle` and `encode-execute` is the operation that
it calls. -/
inductive Response where
  | automation (row : AutomationRow) (vault : Option VaultRow)
  | encoded (result : EncodeResult)
  | calldata (op : Op) (functionName : String)
  | deleted

/-- What is stored, as the encoder takes it. -/
def toGraph (nodes : List StoredNode) (edges : List EditorEdge) : EditorGraph :=
  ⟨nodes.map StoredNode.toEditorNode, edges⟩

/-- The graph that `encode` takes: of the body, or the stored one where it is complete. -/
def encodeGraph (body : EncodeBody) (editorState : Option EditorState) : EditorGraph :=
  match body.graph.bind EditorState.nodes with
  | some nodes => toGraph nodes ((body.graph.bind EditorState.edges).getD [])
  | none =>
      match editorState.bind EditorState.nodes, editorState.bind EditorState.edges with
      | some nodes, some edges => toGraph nodes edges
      | _, _ => ⟨[], []⟩

/-- The graph that `encode-update` takes. -/
def encodeUpdateGraph (body : EncodeBody) (editorState : Option EditorState) : EditorGraph :=
  match body.graph.bind EditorState.nodes with
  | some nodes => toGraph nodes ((body.graph.bind EditorState.edges).getD [])
  | none =>
      match editorState.bind EditorState.nodes with
      | some nodes => toGraph nodes ((editorState.bind EditorState.edges).getD [])
      | none => ⟨[], []⟩

/-- The ABI encoder takes an id that is a `uint32`. -/
def uint32? (n : Int) : Option Nat := if 0 ≤ n ∧ n < 2 ^ 32 then some n.toNat else none

/-- The answer of an encoding of `functionName(onChainId, …)`. -/
def calldataOf (op : Nat → Op) (functionName : String) (onChainId : Int) :
    Except HttpError Response :=
  match uint32? onChainId with
  | some id => .ok (.calldata (op id) functionName)
  | none => .error .internal

/-- What the chain answers about the context of the address in the path. -/
def Providers.onChainContext (env : Providers) (address : String) : Option (List Bytes) :=
  env.rpc.bind fun chain => chain.getContext address

/-- Store the allocated slots, and answer what the encoder returns. -/
def answerEncoding (db : Database) (vaultId : String)
    (result : ContextSlots × Except Thrown EncodeResult) : Database × Except HttpError Response :=
  (db.setContextSlots vaultId result.1,
    match result.2 with
    | .ok r => .ok (.encoded r)
    | .error e => .error e.toHttp)

/-- The answer of a handler that returns the written row. -/
def answerUpdate (db : Database) (result : Except HttpError (Database × AutomationRow)) :
    Database × Except HttpError Response :=
  match result with
  | .ok (db, row) => (db, .ok (.automation row none))
  | .error e => (db, .error e)

/-- The handlers, for the vault that the guard attached. -/
def respond (env : Providers) (db : Database) (vault : VaultRow) (r : Request) :
    Database × Except HttpError Response :=
  match r.route with
  | .get =>
      match findById env db r.id with
      | (db, .error e) => (db, .error e)
      | (db, .ok (automation, owner)) => (db, .ok (.automation automation (some owner)))
  | .update body =>
      match body.onChainId with
      | some onChainId =>
          -- a body with an on-chain id confirms a deployment; its other fields are not read
          answerUpdate db (confirmDeployment db r.id onChainId (body.ownerOnly.getD false)
            (body.stepCount.getD (.ofInt 0)))
      | none =>
          answerUpdate db (db.updateAutomation r.id
            { editorState := body.editorState
              label := body.label
              description := body.description })
  | .encode body =>
      match findById env db r.id with
      | (db, .error e) => (db, .error e)
      | (db, .ok (automation, _)) =>
          -- the vault is that of the address, the automation that of the id
          answerEncoding db vault.id (encode env.services vault.contextSlots
            (env.onChainContext r.address) r.id (encodeGraph body automation.editorState)
            body.contextOverrides)
  | .encodeUpdate body =>
      match findById env db r.id with
      | (db, .error e) => (db, .error e)
      | (db, .ok (automation, _)) =>
          match automation.onChainId with
          | none => (db, .error (.conflict "Cannot update a draft automation"))
          | some onChainId =>
              let result := encodeUpdate env.services vault.contextSlots
                (env.onChainContext r.address) r.id onChainId.toNat
                (encodeUpdateGraph body automation.editorState) body.contextOverrides
              answerEncoding db vault.id
                -- the id is encoded last, so everything else may fail before it
                (match uint32? onChainId, result.2 with
                | none, .ok _ => (result.1, .error .internal)
                | _, _ => result)
  | .encodeToggle active =>
      match findById env db r.id with
      | (db, .error e) => (db, .error e)
      | (db, .ok (automation, _)) =>
          match automation.onChainId with
          | none => (db, .error (.conflict "Cannot toggle a draft automation"))
          | some onChainId =>
              (db, calldataOf (fun id => .setAutomationActive id active) "setAutomationActive"
                onChainId)
  | .encodeExecute =>
      match findById env db r.id with
      | (db, .error e) => (db, .error e)
      | (db, .ok (automation, _)) =>
          match automation.onChainId with
          | none => (db, .error (.conflict "Cannot execute a draft automation"))
          | some onChainId => (db, calldataOf .executeAutomation "executeAutomation" onChainId)
  | .delete =>
      match findById env db r.id with
      | (db, .error e) => (db, .error e)
      | (db, .ok (automation, _)) =>
          match activeOnChain env r.address automation with
          | .error e => (db, .error e)
          | .ok () =>
              match db.deleteAutomation r.id with
              | .error e => (db, .error e)
              | .ok db => (db, .ok .deleted)
where
  /-- The check before a deletion: a linked automation that its owner does not run alone must not be
  active. -/
  activeOnChain (env : Providers) (address : String) (automation : AutomationRow) :
      Except HttpError Unit :=
    match automation.onChainId, automation.ownerOnly with
    | some onChainId, false =>
        match env.getStatuses address with
        | none => .error .internal
        | some statuses =>
            match statuses.find? fun s => s.1 = onChainId with
            | some (_, true) =>
                .error (.conflict "Automation must be deactivated on-chain before deletion")
            | _ => .ok ()
    | _, _ => .ok ()

/-- A request: the guard, then the handler. -/
def handle (env : Providers) (db : Database) (r : Request) : Database × Except HttpError Response :=
  match assertOwnership env db r.address r.user with
  | .error e => (db, .error e)
  | .ok vault => respond env db vault r

end StrategyBuilder.Backend
