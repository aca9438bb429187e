import StrategyBuilder.Backend.VaultService
import StrategyBuilder.Mcp.ProposeAutomation

/-!
# Creating a vault

The tool `create_vault`, from the check of the deposit token over the policy gate and the transaction to
the `POST` that registers the vault, with the client of the backend underneath. The client takes every
`409` for a registration that is there already; the service also answers it where the label is taken.

`vault_reported_iff`: once the vault is on chain, the tool returns with the row of the vault in the
tables or throws an error that names it, if and only if no such `409` is misread and the audit log
throws nothing else (`Faithful`).

What every stage comes to is an input (`Outcomes`). The service runs at most once, since only an answer
of the guard, a `401`, is tried again.
-/

set_option autoImplicit false

namespace StrategyBuilder.Mcp.CreateVault

open StrategyBuilder.Backend
open StrategyBuilder.Lib
open StrategyBuilder.Lib.Js
open StrategyBuilder.Shared

/-! ## The client -/

/-- The method of a request. -/
inductive Method where
  | get
  | post
  | patch
  | delete
deriving DecidableEq, Repr

/-- `text` is the body read as JSON, `none` where it is none. -/
structure Response (α : Type) where
  status : Nat
  text : Except Thrown (Option α)

/-- The status is one of success. -/
def Response.ok {α : Type} (res : Response α) : Bool := 200 ≤ res.status && res.status ≤ 299

/-- What `sendCreateVault` returns. -/
structure CreatedVault where
  vaultAddress : String
  txHash : String
  blockNumber : Int
deriving DecidableEq, Repr

/-- The awaits of the tool. A request is made `again` after the session was renewed. -/
inductive VaultCall where
  /-- `GET /tokens/accepted` -/
  | getTokens (again : Bool)
  /-- `POST /vaults` -/
  | postVault (dto : CreateVaultDto) (again : Bool)
  /-- `auth.refresh()`, for a request to the path -/
  | refresh (path : String)
  | record (entry : AuditEntry)
  | requestApproval (req : ConfirmationRequest)
  | sendCreateVault (owner depositToken : String)

/-- Of the accepted tokens there are the addresses; `none` where the answer has no body. -/
abbrev VaultCall.Reply : VaultCall → Type
  | .getTokens _ => Response (Option (List String))
  | .postVault _ _ => Response Unit
  | .requestApproval _ => Bool
  | .sendCreateVault _ _ => CreatedVault
  | _ => Unit

/-- The creation of a vault, with its calls. -/
abbrev VaultProgram := Program VaultCall VaultCall.Reply Thrown

/-- The calls of a creation with their answers. -/
abbrev VaultHistory := List (Answered VaultCall VaultCall.Reply Thrown)

/-- The first address in a path, or the path. -/
def extractAddress (path : String) : String :=
  match path.toList.tails.find? fun cs => isAddress (cs.take 42) with
  | some cs => String.ofList (cs.take 42)
  | none => path

/-- `new ForbiddenVaultError(address)` -/
def forbiddenVaultError (address : String) : Thrown :=
  .error "ForbiddenVaultError"
    ("Zugriff verweigert: Vault " ++ address ++ " gehört nicht zur verbundenen Adresse.")

/-- The exception of a query that fails. -/
def queryError (path detail : String) : Thrown :=
  .error "Error" ("Backend-Abfrage fehlgeschlagen (" ++ path ++ ": " ++ detail ++ ").")

/-- What `#send` makes of the last response. -/
def receive {α : Type} (method : Method) (path : String) (res : Response α) :
    Except Thrown (Option α) :=
  if res.status = 403 then .error (forbiddenVaultError (extractAddress path))
  else if res.status = 409 ∧ method = .post then .ok none
  else if res.ok = false then .error (queryError path ("HTTP " ++ toString res.status))
  else
    match res.text with
    | .error err => .error err
    | .ok none => .error (queryError path "ungültige JSON-Antwort")
    | .ok (some a) => .ok (some a)

/-- `#send` -/
def send {α : Type} (method : Method) (path : String) (request : Bool → VaultProgram (Response α)) :
    VaultProgram (Option α) := do
  let res ← request false
  if res.status = 401 then
    Program.call (VaultCall.refresh path)
    let res ← request true
    Program.done (receive method path res)
  else Program.done (receive method path res)

/-! ## The tool -/

/-- The arguments of the tool. -/
structure CreateVaultParams where
  depositToken : String
  label : Option String

/-- The answer of the tool. -/
structure CreateVaultResult where
  vaultAddress : String
  txHash : String
deriving DecidableEq, Repr

/-- `label.replace(/[\r\n\t]+/g, ' ')`; `inRun` behind such a character. -/
def joinLines (inRun : Bool) : List Char → List Char
  | [] => []
  | c :: cs =>
      if c = '\r' || c = '\n' || c = '\t' then
        if inRun then joinLines true cs else ' ' :: joinLines true cs
      else c :: joinLines false cs

/-- `slice(0, units)`, which counts UTF-16 units. For half a character it leaves what the text shows, the
replacement character. -/
def sliceUnits : Nat → List Char → List Char
  | 0, _ | _, [] => []
  | units + 1, c :: cs =>
      if c.toNat < 0x10000 then c :: sliceUnits units cs
      else if units = 0 then ['\uFFFD']
      else c :: sliceUnits (units - 1) cs

/-- The label of the summary; an empty one counts as none. -/
def CreateVaultParams.safeLabel (params : CreateVaultParams) : Option String :=
  (params.label.filter (· ≠ "")).map fun label =>
    String.ofList (sliceUnits 64 (joinLines false label.toList))

/-- What the human is shown. -/
def CreateVaultParams.summary (params : CreateVaultParams) : String :=
  "Vault erstellen — Deposit-Token " ++ params.depositToken ++
    ((params.safeLabel.map fun label => ", Label \"" ++ label ++ "\"").getD "") ++ "."

/-- The action that has to be approved. -/
def CreateVaultParams.action (params : CreateVaultParams) : GuardedAction where
  tool := "create_vault"
  sensitive := true
  summary := params.summary
  details := [("depositToken", .str params.depositToken),
    ("label", (params.label.map JsValue.str).getD .null)]

/-- The tool with what the server gives it. -/
structure Tool where
  policy : PolicyConfig
  ownerAddress : String
  chainId : Int
  params : CreateVaultParams

/-- The gate in front of the creation. -/
def gate (policy : PolicyConfig) : PolicyGate VaultCall VaultCall.Reply where
  config := policy
  requestApproval req := Program.call (VaultCall.requestApproval req)
  record entry := Program.call (VaultCall.record entry)

/-- The error of a vault that is on chain and could not be registered. -/
def registrationError (v : CreatedVault) (regErr : Thrown) : Thrown :=
  .error "Error" ("Vault " ++ v.vaultAddress ++ " wurde on-chain erstellt (TX " ++ v.txHash ++
    "), konnte aber nicht im Backend registriert werden: " ++ regErr.text ++
    ". Bitte POST /vaults manuell mit address=" ++ v.vaultAddress ++ " wiederholen.")

namespace Tool

variable (t : Tool)

/-- The deposit token is an accepted one. -/
def checkToken : VaultProgram Unit := do
  match ← send .get "/tokens/accepted" fun again => Program.call (VaultCall.getTokens again) with
  | some (some tokens) =>
      if !tokens.any (fun token => token.toLower = t.params.depositToken.toLower) then
        throw (.error "Error" ("Deposit-Token " ++ t.params.depositToken ++
          " wird nicht von der FeeRegistry akzeptiert. Bitte einen akzeptierten Token wählen."))
  | _ => throw (.error "TypeError"
      "Cannot destructure property 'tokens' of '(intermediate value)' as it is undefined.")

/-- The body of the `POST`. -/
def registration (v : CreatedVault) : CreateVaultDto where
  address := v.vaultAddress
  chainId := t.chainId
  depositToken := t.params.depositToken
  txHash := v.txHash
  createdAtBlock := v.blockNumber
  label := t.params.label

/-- The vault is registered with the backend. -/
def post (dto : CreateVaultDto) : VaultProgram (Option Unit) :=
  send .post "/vaults" fun again => Program.call (VaultCall.postVault dto again)

/-- The `try` block of the registration. -/
def register (v : CreatedVault) : VaultProgram Unit :=
  tryCatch (do let _ ← post (t.registration v); return ()) fun regErr =>
    throw (registrationError v regErr)

/-- What the gate runs. -/
def execute : VaultProgram (GuardExecuteResult CreateVaultResult) := do
  let v ← Program.call (VaultCall.sendCreateVault t.ownerAddress t.params.depositToken)
  t.register v
  return { result := ⟨v.vaultAddress, v.txHash⟩, txHash := some v.txHash }

/-- `create_vault`: the token is checked, and the rest goes through the gate. -/
def createVault : VaultProgram CreateVaultResult := do
  t.checkToken
  (gate t.policy).guard t.params.action t.execute

end Tool

/-! ## What the stages come to -/

/-- What becomes of the answer of the service. -/
inductive Delivery where
  | arrives
  /-- The status arrives, the body does not. -/
  | cut (err : Thrown)
  | lost (err : Thrown)

/-- What becomes of the `POST`. -/
inductive PostOutcome where
  | unreachable (err : Thrown)
  /-- An answer that does not come from the service. -/
  | refused (res : Response Unit)
  /-- The service runs. -/
  | delivered (delivery : Delivery)

/-- All answers that a creation can get. -/
structure Outcomes where
  tokens : Bool → Except Thrown (Response (Option (List String)))
  refresh : String → Except Thrown Unit
  audit : AuditEntry → Except Thrown Unit
  approval : Except Thrown Bool
  creation : Except Thrown CreatedVault
  post : Bool → PostOutcome
  env : VaultProviders
  /-- The tables when the `POST` comes, or at the end where none comes. -/
  database : Database
  /-- The `uuid()` of a new row. -/
  id : String

/-- The status with which the service answers. -/
def statusOf {α : Type} : Except HttpError α → Nat
  | .ok _ => 201
  | .error e => e.status

/-- The answer that the client gets. -/
def PostOutcome.answer {α : Type} (service : Except HttpError α) :
    PostOutcome → Except Thrown (Response Unit)
  | .unreachable err => .error err
  | .refused res => .ok res
  | .delivered .arrives => .ok ⟨statusOf service, .ok (some ())⟩
  | .delivered (.cut err) => .ok ⟨statusOf service, .error err⟩
  | .delivered (.lost err) => .error err

/-- The tables that the service has written. -/
def PostOutcome.stored {α : Type} (service : Except HttpError (Database × α)) :
    PostOutcome → Option Database
  | .delivered _ =>
      match service with
      | .ok (db, _) => some db
      | .error _ => none
  | _ => none

namespace Outcomes

variable (o : Outcomes)

/-- The service with the body of a `POST`. -/
def service (ownerAddress : String) (dto : CreateVaultDto) : Except HttpError (Database × VaultRow) :=
  Backend.createVault o.env o.database o.id ownerAddress dto

/-- The answers to the awaits of a tool. -/
def answer (ownerAddress : String) : (c : VaultCall) → Except Thrown c.Reply
  | .getTokens again => o.tokens again
  | .postVault dto again => (o.post again).answer (o.service ownerAddress dto)
  | .refresh path => o.refresh path
  | .record entry => o.audit entry
  | .requestApproval _ => o.approval
  | .sendCreateVault _ _ => o.creation

/-- The tables that a call has written. -/
def storedBy (ownerAddress : String) : VaultCall → Option Database
  | .postVault dto again => (o.post again).stored (o.service ownerAddress dto)
  | _ => none

/-- The tables at the end. -/
def finalDatabase (ownerAddress : String) (h : VaultHistory) : Database :=
  (h.findSome? fun a => o.storedBy ownerAddress a.call).getD o.database

end Outcomes

/-- The vault that the transaction has created. -/
def createdVault (h : VaultHistory) : Option CreatedVault :=
  h.findSome? fun
    | ⟨.sendCreateVault _ _, .ok v⟩ => some v
    | _ => none

/-- The run of the tool: its awaits, and what it returns or throws. -/
def Tool.runWith (t : Tool) (o : Outcomes) : VaultHistory × Except Thrown CreateVaultResult :=
  t.createVault.run (fun _ => o.answer t.ownerAddress) 0

/-! ## What is promised -/

/-- The text of the error has the address in it. -/
def Names (err : Thrown) (address : String) : Prop := address.toList <:+: err.text.toList

/-- Once there is a vault on chain, the tool returns it with its row in the tables or throws an error
that names it. Otherwise it throws. -/
def Tool.Honest (t : Tool) (o : Outcomes) : Prop :=
  let r := t.runWith o
  match createdVault r.1 with
  | none => ∃ err, r.2 = .error err
  | some v =>
      (∃ result, r.2 = .ok result ∧ result.vaultAddress = v.vaultAddress ∧
        RegisteredTo o.env (o.finalDatabase t.ownerAddress r.1) t.ownerAddress v.vaultAddress) ∨
      ∃ err, r.2 = .error err ∧ Names err v.vaultAddress

/-! ### Where the promise is kept -/

/-- What a request comes to, the session renewed if it must be. -/
def retried {α : Type} (first : Except Thrown (Response α)) (refresh : Except Thrown Unit)
    (second : Except Thrown (Response α)) : Except Thrown (Response α) :=
  match first with
  | .error err => .error err
  | .ok res =>
      if res.status = 401 then
        match refresh with
        | .error err => .error err
        | .ok _ => second
      else .ok res

/-- What the `POST` comes to. -/
def Outcomes.posted (o : Outcomes) : PostOutcome :=
  match o.post false with
  | .refused res =>
      if res.status = 401 then
        match o.refresh "/vaults" with
        | .error err => .unreachable err
        | .ok _ => o.post true
      else .refused res
  | outcome => outcome

/-- A deposit token among those that the backend accepts. -/
def Tool.TokenAccepted (t : Tool) (o : Outcomes) : Prop :=
  ∃ tokens, (retried (o.tokens false) (o.refresh "/tokens/accepted") (o.tokens true)).bind
      (receive .get "/tokens/accepted") = .ok (some (some tokens)) ∧
    ∃ token ∈ tokens, token.toLower = t.params.depositToken.toLower

/-- The gate lets the action through. -/
structure Tool.Permitted (t : Tool) (o : Outcomes) : Prop where
  writable : t.policy.readOnly = false
  requested : o.audit (t.params.action.entry .requested) = .ok ()
  approved : o.approval = .ok true
  approvedEntry : o.audit (t.params.action.entry .approved) = .ok ()

/-- The transaction creates the vault. -/
structure Tool.Creates (t : Tool) (o : Outcomes) (v : CreatedVault) : Prop where
  token : t.TokenAccepted o
  permitted : t.Permitted o
  creation : o.creation = .ok v

/-- The status of the answer is seen. -/
def Delivery.seen : Delivery → Bool
  | .lost _ => false
  | _ => true

/-- The client takes an answer for a success although the service has stored nothing. -/
def Tool.Misread (t : Tool) (o : Outcomes) (v : CreatedVault) : Prop :=
  match o.posted with
  | .unreachable _ => False
  | .refused res => res.status = 409 ∨ res.ok = true ∧ res.text = .ok (some ())
  | .delivered delivery =>
      delivery.seen = true ∧ Conflicts o.env o.database t.ownerAddress (t.registration v)

/-- The entry of the success. -/
def Tool.successEntry (t : Tool) (v : CreatedVault) : AuditEntry :=
  { t.params.action.entry .success with txHash := some v.txHash }

/-- The entry of an error. -/
def Tool.errorEntry (t : Tool) (err : Thrown) : AuditEntry :=
  { t.params.action.entry .error with detail := some err.detail }

/-- What the registration comes to. -/
def Tool.registered (t : Tool) (o : Outcomes) (v : CreatedVault) : Except Thrown (Option Unit) :=
  (o.posted.answer (o.service t.ownerAddress (t.registration v))).bind (receive .post "/vaults")

/-- The error that the audit log throws in the end, if any. -/
def Tool.auditError (t : Tool) (o : Outcomes) (v : CreatedVault) : Option Thrown :=
  match t.registered o v with
  | .ok _ =>
      match o.audit (t.successEntry v) with
      | .ok _ => none
      | .error err =>
          match o.audit (t.errorEntry err) with
          | .ok _ => some err
          | .error err' => some err'
  | .error regErr =>
      match o.audit (t.errorEntry (registrationError v regErr)) with
      | .ok _ => none
      | .error err => some err

/-- An answer that is misread, and not followed by an error of the audit log, is about a vault that is
registered already; and an error of the audit log happens to name the vault. -/
def Tool.Faithful (t : Tool) (o : Outcomes) : Prop :=
  ∀ v, t.Creates o v →
    (t.Misread o v → o.audit (t.successEntry v) = .ok () →
      RegisteredTo o.env o.database t.ownerAddress v.vaultAddress) ∧
    ∀ err, t.auditError o v = some err → Names err v.vaultAddress

/-! ## What the run does -/

/-- Neither the transaction nor the `POST`. -/
def VaultCall.IsQuiet : VaultCall → Prop
  | .postVault _ _ | .sendCreateVault _ _ => False
  | _ => True

section Run

variable {t : Tool} {o : Outcomes} {v : CreatedVault}

/-- The answers to the awaits, at any moment. -/
abbrev Outcomes.answers (o : Outcomes) (ownerAddress : String) :
    Nat → (c : VaultCall) → Except Thrown c.Reply := fun _ => o.answer ownerAddress

/-- The first vault that is created counts. -/
theorem createdVault_append (h h' : VaultHistory) :
    createdVault (h ++ h') = (createdVault h).or (createdVault h') := by
  rw [createdVault, List.findSome?_append]
  rfl

/-- A run of quiet calls creates nothing and stores nothing. -/
theorem quiet_facts {h : VaultHistory} (hquiet : ∀ a ∈ h, a.call.IsQuiet) (owner : String) :
    createdVault h = none ∧ (h.findSome? fun a => o.storedBy owner a.call) = none := by
  constructor
  · apply List.findSome?_eq_none_iff.2
    rintro ⟨c, reply⟩ ha
    have hcall : c.IsQuiet := hquiet _ ha
    cases c with
    | postVault dto again => exact hcall.elim
    | sendCreateVault owner token => exact hcall.elim
    | getTokens again => rfl
    | refresh path => rfl
    | record entry => rfl
    | requestApproval req => rfl
  · apply List.findSome?_eq_none_iff.2
    rintro ⟨c, reply⟩ ha
    have hcall : c.IsQuiet := hquiet _ ha
    cases c with
    | postVault dto again => exact hcall.elim
    | sendCreateVault owner token => rfl
    | getTokens again => rfl
    | refresh path => rfl
    | record entry => rfl
    | requestApproval req => rfl

/-- A quiet program makes quiet calls only. -/
theorem quiet_of_always {α : Type} {p : VaultProgram α}
    (h : p.Always (fun _ c => c.IsQuiet) (fun _ _ => True) [])
    (ω : Nat → (c : VaultCall) → Except Thrown c.Reply) (k : Nat) :
    ∀ a ∈ (p.run ω k).1, a.call.IsQuiet := by
  intro a ha
  obtain ⟨before, after, hrun⟩ := List.append_of_mem ha
  exact h.run_calls ω k hrun

/-! ### A request -/

section Send

variable {α : Type} (method : Method) (path : String) {owner : String} (k : Nat)
variable {request : Bool → VaultProgram (Response α)}
variable {call : Bool → Answered VaultCall VaultCall.Reply Thrown}
variable {reply : Bool → Except Thrown (Response α)}

/-- What a request does: it is made once, or the session is renewed and it is made again. -/
theorem send_run (hrequest : ∀ again k,
      (request again).run (o.answers owner) k = ([call again], reply again)) :
    let r := (send method path request).run (o.answers owner) k
    (∀ err, reply false = .error err → r = ([call false], .error err)) ∧
    ∀ res, reply false = .ok res →
      (res.status ≠ 401 → r = ([call false], receive method path res)) ∧
      (res.status = 401 →
        (∀ err, o.refresh path = .error err →
          r = ([call false, ⟨.refresh path, .error err⟩], .error err)) ∧
        (o.refresh path = .ok () →
          r = ([call false, ⟨.refresh path, .ok ()⟩, call true],
            (reply true).bind (receive method path)))) := by
  intro r
  refine ⟨fun err hreply => ?_,
    fun res hreply => ⟨fun hstatus => ?_, fun hstatus =>
      ⟨fun err hrefresh => ?_, fun hrefresh => ?_⟩⟩⟩
  · have hfirst := hrequest false k
    rw [hreply] at hfirst
    exact (Program.run_bind_error _ _ _ _ (congrArg Prod.snd hfirst)).trans (by rw [hfirst])
  -- from here on the first request has an answer
  all_goals
    have hfirst := hrequest false k
    rw [hreply] at hfirst
    refine (Program.run_bind_ok _ _ _ _ (congrArg Prod.snd hfirst)).trans ?_
    rw [hfirst]
  · rw [if_neg hstatus]
    rfl
  · have hanswer : o.answers owner (k + 1) (.refresh path) = .error err := hrefresh
    rw [if_pos hstatus, List.length_singleton, Program.run_call_bind_error hanswer]
    rfl
  · have hanswer : o.answers owner (k + 1) (.refresh path) = .ok () := hrefresh
    rw [if_pos hstatus, List.length_singleton, Program.run_call_bind_ok hanswer]
    -- whatever the second request answers is the result, also a second 401
    have hsecond := hrequest true (k + 1 + 1)
    cases htrue : reply true with
    | error err =>
      rw [htrue] at hsecond
      rw [Program.run_bind_error _ _ _ _ (congrArg Prod.snd hsecond), hsecond]
      rfl
    | ok res' =>
      rw [htrue] at hsecond
      rw [Program.run_bind_ok _ _ _ _ (congrArg Prod.snd hsecond), hsecond]
      rfl

/-- A request that is refused is sent once more, after a refresh. -/
theorem send_result (hrequest : ∀ again k,
      (request again).run (o.answers owner) k = ([call again], reply again)) :
    ((send method path request).run (o.answers owner) k).2 =
      (retried (reply false) (o.refresh path) (reply true)).bind (receive method path) := by
  obtain ⟨herror, hok⟩ := send_run method path k hrequest
  cases hfirst : reply false with
  | error err =>
    rw [herror err hfirst]
    rfl
  | ok res =>
    obtain ⟨honce, hagain⟩ := hok res hfirst
    by_cases hstatus : res.status = 401
    · cases hrefresh : o.refresh path with
      | error err =>
        rw [(hagain hstatus).1 err hrefresh]
        simp only [retried, if_pos hstatus]
        rfl
      | ok u =>
        rw [(hagain hstatus).2 hrefresh]
        simp only [retried, if_pos hstatus]
    · rw [honce hstatus]
      simp only [retried, if_neg hstatus]
      rfl

end Send

theorem tokens_request (owner : String) (again : Bool) (k : Nat) :
    (Program.call (VaultCall.getTokens again) : VaultProgram _).run (o.answers owner) k =
      ([⟨.getTokens again, o.tokens again⟩], o.tokens again) := rfl

theorem post_request (owner : String) (dto : CreateVaultDto) (again : Bool) (k : Nat) :
    (Program.call (VaultCall.postVault dto again) : VaultProgram _).run (o.answers owner) k =
      ([⟨.postVault dto again, (o.post again).answer (o.service owner dto)⟩],
        (o.post again).answer (o.service owner dto)) := rfl

theorem status_ne_401 {β : Type} (service : Except HttpError β) : statusOf service ≠ 401 := by
  cases service with
  | ok b => simp [statusOf]
  | error e =>
    cases e with
    | notFound message => simp [statusOf, HttpError.status]
    | forbidden message => simp [statusOf, HttpError.status]
    | conflict message => simp [statusOf, HttpError.status]
    | badRequest message => simp [statusOf, HttpError.status]
    | internal => simp [statusOf, HttpError.status]

/-- Only an answer that is not of the service is tried again. -/
theorem answer_ne_401 {β : Type} {service : Except HttpError β} {delivery : Delivery}
    {res : Response Unit} (h : (PostOutcome.delivered delivery).answer service = .ok res) :
    res.status ≠ 401 := by
  cases delivery with
  | arrives =>
    cases h
    exact status_ne_401 service
  | cut err =>
    cases h
    exact status_ne_401 service
  | lost err => cases h

/-- The tables that a list of `POST`s has written. -/
theorem findSome?_post (owner : String) (dto : CreateVaultDto) (again : Bool)
    (reply : Except Thrown (Response Unit)) (h : VaultHistory) :
    ((⟨.postVault dto again, reply⟩ :: h : VaultHistory).findSome? fun a => o.storedBy owner a.call) =
      ((o.post again).stored (o.service owner dto)).or
        (h.findSome? fun a => o.storedBy owner a.call) := by
  rw [List.findSome?_cons, Outcomes.storedBy]
  cases (o.post again).stored (o.service owner dto) with
  | none => rfl
  | some db => rfl

/-- The `POST`: the service runs at most once. -/
theorem post_run (owner : String) (dto : CreateVaultDto) (k : Nat) :
    let r := (Tool.post dto).run (o.answers owner) k
    createdVault r.1 = none ∧
      (r.1.findSome? fun a => o.storedBy owner a.call) = o.posted.stored (o.service owner dto) ∧
      r.2 = (o.posted.answer (o.service owner dto)).bind (receive .post "/vaults") := by
  obtain ⟨herror, hok⟩ := send_run .post "/vaults" k
    (post_request (o := o) owner dto)
  have hstored := findSome?_post (o := o) owner dto
  intro r
  -- where no second request is made, the first one says all
  have honce (hposted : o.posted = o.post false)
      (hresult : r = ([⟨.postVault dto false, (o.post false).answer (o.service owner dto)⟩],
        ((o.post false).answer (o.service owner dto)).bind (receive .post "/vaults"))) :
      createdVault r.1 = none ∧
        (r.1.findSome? fun a => o.storedBy owner a.call) = o.posted.stored (o.service owner dto) ∧
        r.2 = (o.posted.answer (o.service owner dto)).bind (receive .post "/vaults") := by
    rw [hresult, hposted, hstored]
    exact ⟨rfl, Option.or_none, rfl⟩
  -- only a request that is refused by 401 is made again, and that one has stored nothing
  cases hfirst : o.post false with
  | unreachable err =>
    have hreply : (o.post false).answer (o.service owner dto) = .error err := by rw [hfirst]; rfl
    apply honce
    · rw [Outcomes.posted, hfirst]
    · exact (herror err hreply).trans (by rw [hreply]; rfl)
  | delivered delivery =>
    apply honce
    · rw [Outcomes.posted, hfirst]
    · cases hreply : (o.post false).answer (o.service owner dto) with
      | error err => exact (herror err hreply).trans (by rw [hreply]; rfl)
      | ok res =>
        have hstatus : res.status ≠ 401 := by
          rw [hfirst] at hreply
          exact answer_ne_401 hreply
        exact ((hok res hreply).1 hstatus).trans (by rw [hreply]; rfl)
  | refused res =>
    have hreply : (o.post false).answer (o.service owner dto) = .ok res := by rw [hfirst]; rfl
    have hnothing : (o.post false).stored (o.service owner dto) = none := by rw [hfirst]; rfl
    by_cases hstatus : res.status = 401
    · cases hrefresh : o.refresh "/vaults" with
      | error err =>
        have hposted : o.posted = .unreachable err := by
          simp only [Outcomes.posted, hfirst, if_pos hstatus, hrefresh]
        rw [show r = _ from ((hok res hreply).2 hstatus).1 err hrefresh, hposted, hstored, hnothing]
        exact ⟨rfl, rfl, rfl⟩
      | ok u =>
        have hposted : o.posted = o.post true := by
          simp only [Outcomes.posted, hfirst, if_pos hstatus, hrefresh]
        rw [show r = _ from ((hok res hreply).2 hstatus).2 hrefresh, hposted, hstored, hnothing]
        refine ⟨rfl, ?_, rfl⟩
        exact (hstored true _ []).trans Option.or_none
    · apply honce
      · simp only [Outcomes.posted, hfirst, if_neg hstatus]
      · exact ((hok res hreply).1 hstatus).trans (by rw [hreply]; rfl)

/-! ### Before the transaction -/

/-- The check of the token creates nothing. -/
theorem checkToken_quiet (t : Tool) :
    t.checkToken.Always (fun _ c => c.IsQuiet) (fun _ _ => True) [] := by
  have hget (again : Bool) (h : VaultHistory) :
      (Program.call (VaultCall.getTokens again) : VaultProgram _).Always (fun _ c => c.IsQuiet)
        (fun _ _ => True) h := Program.Always.call trivial fun _ => trivial
  apply Program.Always.bind (Q := fun _ _ => True)
  · apply Program.Always.bind (hget false [])
    · intro h res _
      split
      · apply Program.Always.call_bind trivial
        · intro _
          apply Program.Always.bind (hget true _)
          · exact fun _ _ _ => trivial
          · exact fun _ _ _ => trivial
        · exact fun _ => trivial
      · trivial
    · exact fun _ _ _ => trivial
  · intro h tokens _
    rcases tokens with _ | _ | tokens
    · trivial
    · trivial
    · dsimp only
      split
      · trivial
      · trivial
  · exact fun _ _ _ => trivial

/-- The check passes for an accepted token. -/
theorem checkToken_ok_iff (t : Tool) (o : Outcomes) (owner : String) (k : Nat) :
    (t.checkToken.run (o.answers owner) k).2 = .ok () ↔ t.TokenAccepted o := by
  have hsend := send_result .get "/tokens/accepted" k
    (tokens_request (o := o) owner)
  rw [Tool.TokenAccepted, Tool.checkToken]
  cases hreply : (retried (o.tokens false) (o.refresh "/tokens/accepted") (o.tokens true)).bind
      (receive .get "/tokens/accepted") with
  | error err =>
    rw [hreply] at hsend
    rw [Program.run_bind_error _ _ _ _ hsend]
    refine ⟨nofun, ?_⟩
    rintro ⟨tokens, htokens, -⟩
    cases htokens
  | ok answer =>
    rw [hreply] at hsend
    rw [Program.run_bind_ok _ _ _ _ hsend]
    -- no body, and a body that is no list of tokens
    rcases answer with _ | _ | tokens
    · refine ⟨nofun, ?_⟩
      rintro ⟨tokens, htokens, -⟩
      cases htokens
    · refine ⟨nofun, ?_⟩
      rintro ⟨tokens, htokens, -⟩
      cases htokens
    · dsimp only
      cases hany : tokens.any fun token => token.toLower = t.params.depositToken.toLower with
      | true =>
        obtain ⟨token, hmem, htoken⟩ := List.any_eq_true.1 hany
        exact ⟨fun _ => ⟨tokens, rfl, token, hmem, of_decide_eq_true htoken⟩, fun _ => rfl⟩
      | false =>
        refine ⟨nofun, ?_⟩
        rintro ⟨_, htokens, token, hmem, htoken⟩
        cases htokens
        exact absurd (decide_eq_true htoken) (List.any_eq_false.1 hany token hmem)

/-- The gate creates nothing. -/
theorem permit_quiet (t : Tool) :
    ((gate t.policy).permit t.params.action).Always (fun _ c => c.IsQuiet) (fun _ _ => True) [] := by
  have hcalls : ((gate t.policy).permit t.params.action).Always (fun _ c => c.IsQuiet)
      (fun _ r => True ∧ (∀ u, r = .ok u → (gate t.policy).config.readOnly = false ∧
        (t.params.action.sensitive = true → True))) [] := by
    refine Always.permit (gate t.policy) (fun _ => True) (fun _ => True) ?_ ?_ trivial
    · intro entry h _ _
      exact ⟨trivial, fun _ => ⟨trivial, fun _ => trivial⟩⟩
    · intro h _
      exact ⟨trivial, fun _ => ⟨trivial, fun _ => trivial⟩⟩
  exact hcalls.imp fun _ _ _ => trivial

theorem record_run (o : Outcomes) (policy : PolicyConfig) (owner : String) (entry : AuditEntry)
    (k : Nat) : ((gate policy).record entry).run (o.answers owner) k =
      ([⟨.record entry, o.audit entry⟩], o.audit entry) := rfl

theorem record_return_run {β : Type} (o : Outcomes) (policy : PolicyConfig) (owner : String)
    (entry : AuditEntry) (b : β) (k : Nat) :
    ((gate policy).record entry >>= fun _ => (pure b : VaultProgram β)).run (o.answers owner) k =
      ([⟨.record entry, o.audit entry⟩], (o.audit entry).map fun _ => b) := by
  have hrecord := record_run o policy owner entry k
  cases haudit : o.audit entry with
  | ok u =>
    rw [haudit] at hrecord
    rw [Program.run_bind_ok _ _ _ _ (congrArg Prod.snd hrecord), hrecord]
    rfl
  | error err =>
    rw [haudit] at hrecord
    rw [Program.run_bind_error _ _ _ _ (congrArg Prod.snd hrecord), hrecord]
    rfl

/-- The question to the user. -/
theorem ask_run (t : Tool) (o : Outcomes) (owner : String) (k : Nat) :
    (∀ approved, o.approval = .ok approved →
      ((gate t.policy).ask t.params.action).run (o.answers owner) k =
        ([⟨.requestApproval t.params.action.request, .ok approved⟩], .ok approved)) ∧
    ∀ err, o.approval = .error err →
      ∃ err', (((gate t.policy).ask t.params.action).run (o.answers owner) k).2 = .error err' := by
  have hcall : ((gate t.policy).requestApproval t.params.action.request).run (o.answers owner) k =
      ([⟨.requestApproval t.params.action.request, o.approval⟩], o.approval) := rfl
  constructor
  · intro approved happroval
    rw [happroval] at hcall
    rw [PolicyGate.ask, Program.run_tryCatch_ok _ _ _ _ (congrArg Prod.snd hcall), hcall]
  · intro err happroval
    rw [happroval] at hcall
    rw [PolicyGate.ask, Program.run_tryCatch_error _ _ _ _ (congrArg Prod.snd hcall)]
    exact Program.run_bind_throws fun _ _ => ⟨_, rfl⟩

/-- The gate opens exactly if the action is permitted. -/
theorem permit_ok_iff (t : Tool) (o : Outcomes) (owner : String) (k : Nat) :
    (((gate t.policy).permit t.params.action).run (o.answers owner) k).2 = .ok () ↔
      t.Permitted o := by
  have hrefused {r : Except Thrown Unit} (hr : ∃ err, r = .error err) (h : ¬ t.Permitted o) :
      r = .ok () ↔ t.Permitted o := by
    obtain ⟨err, rfl⟩ := hr
    exact ⟨nofun, fun hpermitted => absurd hpermitted h⟩
  rw [PolicyGate.permit]
  -- the checks in their order; where one of them refuses, a later one is not reached
  cases hro : t.policy.readOnly with
  | true =>
    apply hrefused
    · have hconfig : (gate t.policy).config.readOnly = true := hro
      rw [if_pos hconfig]
      exact Program.run_bind_throws fun _ _ => ⟨_, rfl⟩
    · rintro ⟨hwritable, -, -, -⟩
      rw [hro] at hwritable
      cases hwritable
  | false =>
    have hconfig : ¬ (gate t.policy).config.readOnly = true := by
      rw [show (gate t.policy).config.readOnly = _ from hro]
      exact Bool.false_ne_true
    have hsensitive : t.params.action.sensitive = true := rfl
    simp only [if_neg hconfig, if_pos hsensitive]
    have hrecord (outcome : AuditOutcome) (k : Nat) :=
      congrArg Prod.snd (record_run o t.policy owner (t.params.action.entry outcome) k)
    cases hrequested : o.audit (t.params.action.entry .requested) with
    | error err =>
      apply hrefused
      · rw [Program.run_bind_error _ _ _ _ ((hrecord _ k).trans hrequested)]
        exact ⟨err, rfl⟩
      · rintro ⟨-, hok, -, -⟩
        rw [hrequested] at hok
        cases hok
    | ok u =>
      rw [Program.run_bind_ok _ _ _ _ ((hrecord _ k).trans hrequested)]
      obtain ⟨hask, hfailed⟩ := ask_run t o owner
        (k + (((gate t.policy).record (t.params.action.entry .requested)).run
          (o.answers owner) k).1.length)
      cases happroval : o.approval with
      | error err =>
        obtain ⟨err', herr'⟩ := hfailed err happroval
        apply hrefused
        · rw [Program.run_bind_error _ _ _ _ herr']
          exact ⟨err', rfl⟩
        · rintro ⟨-, -, hok, -⟩
          rw [happroval] at hok
          cases hok
      | ok approved =>
        rw [Program.run_bind_ok _ _ _ _ (congrArg Prod.snd (hask approved happroval))]
        cases approved with
        | false =>
          apply hrefused
          · exact Program.run_bind_throws fun _ _ => ⟨_, rfl⟩
          · rintro ⟨-, -, hok, -⟩
            rw [happroval] at hok
            cases hok
        | true =>
          simp only [Bool.not_true, Bool.false_eq_true, if_false, hrecord]
          exact ⟨fun h => ⟨hro, hrequested, happroval, h⟩, fun h => h.approvedEntry⟩

/-! ### The transaction and the registration -/

/-- A transaction that fails ends the creation. -/
theorem execute_failed {err : Thrown} (h : o.creation = .error err) (k : Nat) :
    t.execute.run (o.answers t.ownerAddress) k =
      ([⟨.sendCreateVault t.ownerAddress t.params.depositToken, .error err⟩], .error err) := by
  have hanswer : o.answers t.ownerAddress k
      (.sendCreateVault t.ownerAddress t.params.depositToken) = .error err := h
  rw [Tool.execute, Program.run_call_bind_error hanswer]

/-- What becomes of the registration, on the chain and in the table. -/
theorem register_run (t : Tool) (o : Outcomes) (v : CreatedVault) (k : Nat) :
    let r := (t.register v).run (o.answers t.ownerAddress) k
    createdVault r.1 = none ∧
      (r.1.findSome? fun a => o.storedBy t.ownerAddress a.call) =
        o.posted.stored (o.service t.ownerAddress (t.registration v)) ∧
      (∀ a, t.registered o v = .ok a → r.2 = .ok ()) ∧
      ∀ err, t.registered o v = .error err → r.2 = .error (registrationError v err) := by
  obtain ⟨hcreated, hstored, hresult⟩ := post_run (o := o) t.ownerAddress (t.registration v) k
  intro r
  cases hregistered : t.registered o v with
  | ok a =>
    have htry := Program.run_bind_ok (o.answers t.ownerAddress) k (Tool.post (t.registration v))
      (fun _ => (pure () : VaultProgram Unit)) (hresult.trans hregistered)
    have hr : r = (((Tool.post (t.registration v)).run (o.answers t.ownerAddress) k).1, .ok ()) := by
      refine (Program.run_tryCatch_ok _ _ _ _ (congrArg Prod.snd htry)).trans ?_
      rw [htry]
      exact congrArg (·, _) (List.append_nil _)
    rw [hr]
    exact ⟨hcreated, hstored, fun _ _ => rfl, nofun⟩
  | error err =>
    -- the `catch`: the vault is on chain, and the error says so
    have htry := Program.run_bind_error (o.answers t.ownerAddress) k (Tool.post (t.registration v))
      (fun _ => (pure () : VaultProgram Unit)) (hresult.trans hregistered)
    have hr : r = (((Tool.post (t.registration v)).run (o.answers t.ownerAddress) k).1,
        .error (registrationError v err)) := by
      refine (Program.run_tryCatch_error _ _ _ _ (congrArg Prod.snd htry)).trans ?_
      rw [htry]
      exact congrArg (·, _) (List.append_nil _)
    rw [hr]
    refine ⟨hcreated, hstored, nofun, fun err' herr' => ?_⟩
    cases herr'
    rfl

/-- The transaction is followed by the `POST`. -/
theorem execute_created (h : o.creation = .ok v) (k : Nat) :
    let r := t.execute.run (o.answers t.ownerAddress) k
    createdVault r.1 = some v ∧
      (r.1.findSome? fun a => o.storedBy t.ownerAddress a.call) =
        o.posted.stored (o.service t.ownerAddress (t.registration v)) ∧
      (∀ a, t.registered o v = .ok a →
        r.2 = .ok { result := ⟨v.vaultAddress, v.txHash⟩, txHash := some v.txHash }) ∧
      ∀ err, t.registered o v = .error err → r.2 = .error (registrationError v err) := by
  have hanswer : o.answers t.ownerAddress k
      (.sendCreateVault t.ownerAddress t.params.depositToken) = .ok v := h
  obtain ⟨-, hstored, hok, herror⟩ := register_run t o v (k + 1)
  intro r
  -- the vault is created first, whatever becomes of its registration
  have hr : r = _ := Program.run_call_bind_ok hanswer _
  cases hregistered : t.registered o v with
  | ok a =>
    rw [Program.run_bind_ok _ _ _ _ (hok a hregistered)] at hr
    rw [hr]
    refine ⟨rfl, ?_, fun _ _ => rfl, nofun⟩
    exact (congrArg _ (List.append_nil _)).trans hstored
  | error err =>
    rw [Program.run_bind_error _ _ _ _ (herror err hregistered)] at hr
    rw [hr]
    refine ⟨rfl, hstored, nofun, fun err' herr' => ?_⟩
    cases herr'
    rfl

/-- What the gate makes of the action, apart from the audit log. -/
theorem attempt_run (h : o.creation = .ok v) (k : Nat) :
    let r := ((gate t.policy).attempt t.params.action t.execute).run (o.answers t.ownerAddress) k
    createdVault r.1 = some v ∧
      (r.1.findSome? fun a => o.storedBy t.ownerAddress a.call) =
        o.posted.stored (o.service t.ownerAddress (t.registration v)) ∧
      (∀ a, t.registered o v = .ok a →
        r.2 = (o.audit (t.successEntry v)).map fun _ => ⟨v.vaultAddress, v.txHash⟩) ∧
      ∀ err, t.registered o v = .error err → r.2 = .error (registrationError v err) := by
  obtain ⟨hcreated, hstored, hok, herror⟩ := execute_created (t := t) h k
  intro r
  -- an action that fails writes no entry here: `fail_run` does
  cases hregistered : t.registered o v with
  | ok a =>
    have hr : r = ((t.execute.run (o.answers t.ownerAddress) k).1 ++
        [⟨.record (t.successEntry v), o.audit (t.successEntry v)⟩],
        (o.audit (t.successEntry v)).map fun _ => ⟨v.vaultAddress, v.txHash⟩) := by
      have htail := record_return_run o t.policy t.ownerAddress (t.successEntry v)
        (⟨v.vaultAddress, v.txHash⟩ : CreateVaultResult)
        (k + (t.execute.run (o.answers t.ownerAddress) k).1.length)
      refine (Program.run_bind_ok _ _ _ _ (hok a hregistered)).trans ?_
      exact congrArg (fun tail : VaultHistory × Except Thrown CreateVaultResult =>
        ((t.execute.run (o.answers t.ownerAddress) k).1 ++ tail.1, tail.2)) htail
    rw [hr]
    refine ⟨?_, ?_, fun _ _ => rfl, nofun⟩
    · rw [createdVault_append, hcreated]
      rfl
    · rw [List.findSome?_append, hstored]
      exact Option.or_none
  | error err =>
    have hr : r = _ := Program.run_bind_error _ _ _ _ (herror err hregistered)
    rw [hr]
    refine ⟨hcreated, hstored, nofun, fun err' herr' => ?_⟩
    cases herr'
    rfl

/-- The `catch` block of the gate. -/
theorem fail_run (t : Tool) (o : Outcomes) (err : Thrown) (k : Nat) :
    let r := ((gate t.policy).fail t.params.action err :
      VaultProgram CreateVaultResult).run (o.answers t.ownerAddress) k
    (∀ a ∈ r.1, a.call.IsQuiet) ∧
      (∀ u, o.audit (t.errorEntry err) = .ok u → r.2 = .error err) ∧
      ∀ err', o.audit (t.errorEntry err) = .error err' → r.2 = .error err' := by
  intro r
  cases haudit : o.audit (t.errorEntry err) with
  | ok u =>
    have hanswer : o.answers t.ownerAddress k (.record (t.errorEntry err)) = .ok u := haudit
    have hr : r = ([⟨.record (t.errorEntry err), .ok u⟩], .error err) :=
      Program.run_call_bind_ok hanswer _
    rw [hr]
    refine ⟨?_, fun _ _ => rfl, nofun⟩
    intro a ha
    rw [List.mem_singleton.1 ha]
    trivial
  | error err' =>
    have hanswer : o.answers t.ownerAddress k (.record (t.errorEntry err)) = .error err' := haudit
    have hr : r = ([⟨.record (t.errorEntry err), .error err'⟩], .error err') :=
      Program.run_call_bind_error hanswer _
    rw [hr]
    refine ⟨?_, nofun, fun err'' herr'' => ?_⟩
    · intro a ha
      rw [List.mem_singleton.1 ha]
      trivial
    · cases herr''
      rfl

/-- The run of the action in the gate, once it is let through. -/
abbrev Tool.act (t : Tool) (o : Outcomes) (k : Nat) : VaultHistory × Except Thrown CreateVaultResult :=
  (tryCatch ((gate t.policy).attempt t.params.action t.execute)
    ((gate t.policy).fail t.params.action)).run
    (o.answers t.ownerAddress) k

/-- Where no vault is created, the gate throws. -/
theorem act_failed {err : Thrown} (h : o.creation = .error err) (k : Nat) :
    createdVault (t.act o k).1 = none ∧ ∃ err', (t.act o k).2 = .error err' := by
  have hattempt : ((gate t.policy).attempt t.params.action t.execute).run (o.answers t.ownerAddress) k =
      ([⟨.sendCreateVault t.ownerAddress t.params.depositToken, .error err⟩], .error err) := by
    have hexecute := execute_failed (t := t) h k
    refine (Program.run_bind_error _ _ _ _ (congrArg Prod.snd hexecute)).trans ?_
    rw [hexecute]
  have hact : t.act o k = _ := Program.run_tryCatch_error _ _ _ _ (congrArg Prod.snd hattempt)
  rw [hattempt] at hact
  obtain ⟨hquiet, hok, herror⟩ := fail_run t o err (k + 1)
  rw [hact]
  constructor
  · exact (createdVault_append _ _).trans (quiet_facts (o := o) hquiet t.ownerAddress).1
  · cases haudit : o.audit (t.errorEntry err) with
    | ok u => exact ⟨err, hok u haudit⟩
    | error err' => exact ⟨err', herror err' haudit⟩

/-- What the tool comes to, once there is a vault. -/
theorem act_created (h : o.creation = .ok v) (k : Nat) :
    createdVault (t.act o k).1 = some v ∧
      ((t.act o k).1.findSome? fun a => o.storedBy t.ownerAddress a.call) =
        o.posted.stored (o.service t.ownerAddress (t.registration v)) ∧
      (∀ err, t.auditError o v = some err → (t.act o k).2 = .error err) ∧
      (t.auditError o v = none →
        (∀ a, t.registered o v = .ok a → (t.act o k).2 = .ok ⟨v.vaultAddress, v.txHash⟩) ∧
        ∀ err, t.registered o v = .error err → (t.act o k).2 = .error (registrationError v err)) := by
  obtain ⟨hcreated, hstored, hok, herror⟩ := attempt_run (t := t) h k
  -- what is thrown is logged, and if that fails the log's own error is thrown
  have hthrown (err : Thrown)
      (hattempt : (((gate t.policy).attempt t.params.action t.execute).run
        (o.answers t.ownerAddress) k).2 = .error err) :
      createdVault (t.act o k).1 = some v ∧
        ((t.act o k).1.findSome? fun a => o.storedBy t.ownerAddress a.call) =
          o.posted.stored (o.service t.ownerAddress (t.registration v)) ∧
        (∀ u, o.audit (t.errorEntry err) = .ok u → (t.act o k).2 = .error err) ∧
        ∀ err', o.audit (t.errorEntry err) = .error err' → (t.act o k).2 = .error err' := by
    have hact : t.act o k = _ := Program.run_tryCatch_error _ _ _ _ hattempt
    obtain ⟨hquiet, hfail⟩ := fail_run t o err
      (k + (((gate t.policy).attempt t.params.action t.execute).run
        (o.answers t.ownerAddress) k).1.length)
    obtain ⟨hnone, hnothing⟩ := quiet_facts (o := o) hquiet t.ownerAddress
    rw [hact]
    refine ⟨?_, ?_, hfail⟩
    · rw [createdVault_append, hcreated]
      rfl
    · rw [List.findSome?_append, hstored, hnothing, Option.or_none]
  rw [Tool.auditError]
  cases hregistered : t.registered o v with
  | ok a =>
    have hattempt := hok a hregistered
    -- the vault is registered, yet the entry of the success may fail
    cases hsuccess : o.audit (t.successEntry v) with
    | ok u =>
      rw [hsuccess] at hattempt
      have hact : t.act o k = _ := Program.run_tryCatch_ok _ _ _ _ hattempt
      rw [hact]
      exact ⟨hcreated, hstored, nofun, fun _ => ⟨fun _ _ => rfl, nofun⟩⟩
    | error err =>
      rw [hsuccess] at hattempt
      obtain ⟨hcreated', hstored', hlogged, hunlogged⟩ := hthrown err hattempt
      refine ⟨hcreated', hstored', ?_⟩
      dsimp only
      cases haudit : o.audit (t.errorEntry err) with
      | ok u =>
        refine ⟨fun err' herr' => ?_, nofun⟩
        cases herr'
        exact hlogged u haudit
      | error err' =>
        refine ⟨fun err'' herr'' => ?_, nofun⟩
        cases herr''
        exact hunlogged err' haudit
  | error regErr =>
    obtain ⟨hcreated', hstored', hlogged, hunlogged⟩ := hthrown _ (herror regErr hregistered)
    refine ⟨hcreated', hstored', ?_⟩
    dsimp only
    cases haudit : o.audit (t.errorEntry (registrationError v regErr)) with
    | ok u =>
      refine ⟨nofun, fun _ => ⟨nofun, fun err herr => ?_⟩⟩
      cases herr
      exact hlogged u haudit
    | error err =>
      refine ⟨fun err' herr' => ?_, nofun⟩
      cases herr'
      exact hunlogged err haudit

/-! ### The whole run -/

/-- What is quiet and throws ends the run; what is quiet and returns leaves the rest to say what is
created and stored. -/
theorem quiet_bind {α β : Type} {p : VaultProgram α} {f : α → VaultProgram β}
    (hquiet : p.Always (fun _ c => c.IsQuiet) (fun _ _ => True) []) (owner : String) (k : Nat) :
    let r := (p >>= f).run (o.answers owner) k
    (∀ err, (p.run (o.answers owner) k).2 = .error err →
      createdVault r.1 = none ∧ r.2 = .error err) ∧
    ∀ a, (p.run (o.answers owner) k).2 = .ok a →
      ∃ k', createdVault r.1 = createdVault ((f a).run (o.answers owner) k').1 ∧
        (r.1.findSome? fun a => o.storedBy owner a.call) =
          (((f a).run (o.answers owner) k').1.findSome? fun a => o.storedBy owner a.call) ∧
        r.2 = ((f a).run (o.answers owner) k').2 := by
  obtain ⟨hnone, hnothing⟩ := quiet_facts (o := o) (quiet_of_always hquiet (o.answers owner) k) owner
  constructor
  · intro err herr
    rw [Program.run_bind_error _ _ _ _ herr]
    exact ⟨hnone, rfl⟩
  · intro a ha
    refine ⟨k + (p.run (o.answers owner) k).1.length, ?_⟩
    rw [Program.run_bind_ok _ _ _ _ ha]
    refine ⟨?_, ?_, rfl⟩
    · rw [createdVault_append, hnone, Option.none_or]
    · rw [List.findSome?_append, hnothing, Option.none_or]

/-- A run that does not come to the transaction, or whose transaction fails, throws. -/
theorem runWith_failed (h : ∀ v, ¬ t.Creates o v) :
    createdVault (t.runWith o).1 = none ∧ ∃ err, (t.runWith o).2 = .error err := by
  have htoken := checkToken_ok_iff t o t.ownerAddress 0
  obtain ⟨hrefused, haccepted⟩ := quiet_bind (o := o)
    (f := fun _ => (gate t.policy).guard t.params.action t.execute) (checkToken_quiet t) t.ownerAddress 0
  -- token, gate, transaction: one of the three has to fail
  cases hcheck : (t.checkToken.run (o.answers t.ownerAddress) 0).2 with
  | error err =>
    obtain ⟨hnone, herr⟩ := hrefused err hcheck
    exact ⟨hnone, err, herr⟩
  | ok u =>
    obtain ⟨k, hcreated, -, hresult⟩ := haccepted u hcheck
    obtain ⟨hdenied, hallowed⟩ := quiet_bind (o := o)
      (f := fun _ => tryCatch ((gate t.policy).attempt t.params.action t.execute)
        ((gate t.policy).fail t.params.action)) (permit_quiet t) t.ownerAddress k
    have hpermit := permit_ok_iff t o t.ownerAddress k
    rw [Tool.runWith, Tool.createVault, hcreated, hresult]
    cases hgate : (((gate t.policy).permit t.params.action).run (o.answers t.ownerAddress) k).2 with
    | error err =>
      obtain ⟨hnone, herr⟩ := hdenied err hgate
      exact ⟨hnone, err, herr⟩
    | ok u' =>
      obtain ⟨k', hcreated', -, hresult'⟩ := hallowed u' hgate
      rw [PolicyGate.guard, hcreated', hresult']
      cases hcreation : o.creation with
      | error err => exact act_failed (t := t) hcreation k'
      | ok v => exact absurd ⟨htoken.1 hcheck, hpermit.1 hgate, hcreation⟩ (h v)

/-- A run that creates a vault ends as the gate does. -/
theorem runWith_created (h : t.Creates o v) :
    ∃ k, createdVault (t.runWith o).1 = createdVault (t.act o k).1 ∧
      ((t.runWith o).1.findSome? fun a => o.storedBy t.ownerAddress a.call) =
        ((t.act o k).1.findSome? fun a => o.storedBy t.ownerAddress a.call) ∧
      (t.runWith o).2 = (t.act o k).2 := by
  obtain ⟨-, haccepted⟩ := quiet_bind (o := o)
    (f := fun _ => (gate t.policy).guard t.params.action t.execute) (checkToken_quiet t) t.ownerAddress 0
  obtain ⟨k, hcreated, hstored, hresult⟩ :=
    haccepted () ((checkToken_ok_iff t o t.ownerAddress 0).2 h.token)
  obtain ⟨-, hallowed⟩ := quiet_bind (o := o)
    (f := fun _ => tryCatch ((gate t.policy).attempt t.params.action t.execute)
      ((gate t.policy).fail t.params.action)) (permit_quiet t) t.ownerAddress k
  obtain ⟨k', hcreated', hstored', hresult'⟩ :=
    hallowed () ((permit_ok_iff t o t.ownerAddress k).2 h.permitted)
  exact ⟨k', hcreated.trans hcreated', hstored.trans hstored', hresult.trans hresult'⟩

end Run

/-! ## The answers -/

section Answers

variable {t : Tool} {o : Outcomes} {v : CreatedVault}

/-- A conflict counts as success, and so does an answer without a body. -/
theorem receive_post_ok_iff {path : String} {res : Response Unit} :
    (∃ a, receive .post path res = .ok a) ↔
      res.status = 409 ∨ res.ok = true ∧ res.text = .ok (some ()) := by
  rw [receive]
  -- 403 and 409 are read before `ok` is
  by_cases hforbidden : res.status = 403
  · rw [if_pos hforbidden]
    refine ⟨nofun, ?_⟩
    rintro (h | ⟨h, -⟩)
    · rw [hforbidden] at h
      cases h
    · rw [Response.ok, hforbidden] at h
      cases h
  rw [if_neg hforbidden]
  by_cases hconflict : res.status = 409
  · rw [if_pos ⟨hconflict, rfl⟩]
    exact ⟨fun _ => Or.inl hconflict, fun _ => ⟨none, rfl⟩⟩
  rw [if_neg fun h => hconflict h.1]
  cases hok : res.ok with
  | false =>
    refine ⟨nofun, ?_⟩
    rintro (h | ⟨h, -⟩)
    · exact absurd h hconflict
    · cases h
  | true =>
    simp only [Bool.true_eq_false, if_false, true_and]
    cases htext : res.text with
    | error err =>
      refine ⟨nofun, ?_⟩
      rintro (h | h)
      · exact absurd h hconflict
      · cases h
    | ok body =>
      cases body with
      | none =>
        refine ⟨nofun, ?_⟩
        rintro (h | h)
        · exact absurd h hconflict
        · cases h
      | some u => exact ⟨fun _ => Or.inr rfl, fun _ => ⟨_, rfl⟩⟩

/-- A conflict is the only exception that the client takes for a success. -/
theorem statusOf_error {β : Type} (e : HttpError) :
    (statusOf (.error e : Except HttpError β) = 409 ↔ ∃ message, e = .conflict message) ∧
      ¬ (200 ≤ e.status && e.status ≤ 299) = true := by
  cases e with
  | notFound message => simp [statusOf, HttpError.status]
  | forbidden message => simp [statusOf, HttpError.status]
  | conflict message => simp [statusOf, HttpError.status]
  | badRequest message => simp [statusOf, HttpError.status]
  | internal => simp [statusOf, HttpError.status]

/-- An answer that the client takes for a success: the service has stored the vault, or it is
misread. -/
theorem registered_ok_iff :
    (∃ a, t.registered o v = .ok a) ↔
      (o.posted = .delivered .arrives ∧
        ∃ stored, o.service t.ownerAddress (t.registration v) = .ok stored) ∨ t.Misread o v := by
  rw [Tool.registered, Tool.Misread]
  cases o.posted with
  -- `unreachable` and `refused` never get to the service
  | unreachable err =>
    refine ⟨nofun, ?_⟩
    rintro (⟨h, -⟩ | h)
    · cases h
    · exact h.elim
  | refused res =>
    refine Iff.trans receive_post_ok_iff ⟨Or.inr, ?_⟩
    rintro (⟨h, -⟩ | h)
    · cases h
    · exact h
  | delivered delivery =>
    have hconflicts : Conflicts o.env o.database t.ownerAddress (t.registration v) ↔
        ∃ message, o.service t.ownerAddress (t.registration v) = .error (.conflict message) :=
      createVault_conflict_iff.symm
    simp only [hconflicts]
    cases o.service t.ownerAddress (t.registration v) with
    | ok stored =>
      cases delivery with
      | arrives => exact ⟨fun _ => Or.inl ⟨rfl, stored, rfl⟩, fun _ => ⟨some (), rfl⟩⟩
      | cut err =>
        refine ⟨nofun, ?_⟩
        rintro (⟨h, -⟩ | ⟨-, message, h⟩)
        · cases h
        · cases h
      | lost err =>
        refine ⟨nofun, ?_⟩
        rintro (⟨h, -⟩ | ⟨h, -⟩)
        · cases h
        · cases h
    | error e =>
      -- an error of the service is taken for a success exactly if it is the conflict
      obtain ⟨hstatus, hfailed⟩ := statusOf_error (β := Database × VaultRow) e
      have hseen (text : Except Thrown (Option Unit)) :
          (∃ a, receive .post "/vaults" ⟨statusOf (.error e : Except HttpError (Database × VaultRow)),
            text⟩ = .ok a) ↔ ∃ message, e = .conflict message := by
        rw [receive_post_ok_iff, hstatus]
        exact or_iff_left fun h => hfailed h.1
      cases delivery with
      | arrives =>
        refine (hseen _).trans ⟨?_, ?_⟩
        · rintro ⟨message, rfl⟩
          exact Or.inr ⟨rfl, message, rfl⟩
        · rintro (⟨-, stored, h⟩ | ⟨-, message, h⟩)
          · cases h
          · exact ⟨message, Except.error.inj h⟩
      | cut err =>
        refine (hseen _).trans ⟨?_, ?_⟩
        · rintro ⟨message, rfl⟩
          exact Or.inr ⟨rfl, message, rfl⟩
        · rintro (⟨h, -⟩ | ⟨-, message, h⟩)
          · cases h
          · exact ⟨message, Except.error.inj h⟩
      | lost err =>
        refine ⟨nofun, ?_⟩
        rintro (⟨h, -⟩ | ⟨h, -⟩)
        · cases h
        · cases h

/-- Where an answer is misread, the tables stay as they are. -/
theorem Tool.Misread.stored (h : t.Misread o v) :
    o.posted.stored (o.service t.ownerAddress (t.registration v)) = none := by
  rw [Tool.Misread] at h
  cases hposted : o.posted with
  | unreachable err => rfl
  | refused res => rfl
  | delivered delivery =>
    rw [hposted] at h
    obtain ⟨message, hservice⟩ := createVault_conflict_iff.2 h.2
    have hconflict : o.service t.ownerAddress (t.registration v) = .error (.conflict message) :=
      hservice
    simp only [PostOutcome.stored, hconflict]

/-- After a success that the client sees, the audit log is silent exactly if it takes the entry. -/
theorem auditError_eq_none_iff {a : Option Unit} (h : t.registered o v = .ok a) :
    t.auditError o v = none ↔ o.audit (t.successEntry v) = .ok () := by
  rw [Tool.auditError, h]
  dsimp only
  cases o.audit (t.successEntry v) with
  | ok u => exact ⟨fun _ => rfl, fun _ => rfl⟩
  | error err =>
    dsimp only
    cases o.audit (t.errorEntry err) with
    | ok u => exact ⟨nofun, nofun⟩
    | error err' => exact ⟨nofun, nofun⟩

/-- The message names the vault. -/
theorem names_registrationError (v : CreatedVault) (err : Thrown) :
    Names (registrationError v err) v.vaultAddress := by
  simp only [Names, registrationError, Thrown.text, String.toList_append, List.append_assoc]
  exact ⟨_, _, (List.append_assoc ..)⟩

/-- The end of a run that creates a vault. -/
theorem runWith_ends (h : t.Creates o v) :
    createdVault (t.runWith o).1 = some v ∧
      o.finalDatabase t.ownerAddress (t.runWith o).1 =
        (o.posted.stored (o.service t.ownerAddress (t.registration v))).getD o.database ∧
      (∀ err, t.auditError o v = some err → (t.runWith o).2 = .error err) ∧
      (t.auditError o v = none →
        (∀ a, t.registered o v = .ok a → (t.runWith o).2 = .ok ⟨v.vaultAddress, v.txHash⟩) ∧
        ∀ err, t.registered o v = .error err →
          (t.runWith o).2 = .error (registrationError v err)) := by
  obtain ⟨k, hcreated, hstored, hresult⟩ := runWith_created h
  obtain ⟨hcreated', hstored', hends⟩ := act_created (t := t) h.creation k
  rw [Outcomes.finalDatabase, hstored, hstored', hresult]
  exact ⟨hcreated.trans hcreated', rfl, hends⟩

/-- An error of the audit log has to name the vault. -/
theorem honest_of_auditError (h : t.Creates o v) {err : Thrown}
    (haudit : t.auditError o v = some err) : t.Honest o ↔ Names err v.vaultAddress := by
  obtain ⟨hcreated, -, herror, -⟩ := runWith_ends h
  simp only [Tool.Honest, hcreated, herror err haudit]
  constructor
  · rintro (⟨result, hresult, -⟩ | ⟨err', herr', hnames⟩)
    · cases hresult
    · cases herr'
      exact hnames
  · exact fun hnames => Or.inr ⟨err, rfl, hnames⟩

/-- A registration that is seen to fail is reported. -/
theorem honest_of_failed (h : t.Creates o v) (haudit : t.auditError o v = none) {err : Thrown}
    (hregistered : t.registered o v = .error err) : t.Honest o := by
  obtain ⟨hcreated, -, -, hends⟩ := runWith_ends h
  simp only [Tool.Honest, hcreated, (hends haudit).2 err hregistered]
  exact Or.inr ⟨_, rfl, names_registrationError v err⟩

/-- A registration that looks done has to be in the tables. -/
theorem honest_of_registered (h : t.Creates o v) {a : Option Unit}
    (hregistered : t.registered o v = .ok a) (hsuccess : o.audit (t.successEntry v) = .ok ()) :
    t.Honest o ↔ RegisteredTo o.env
      ((o.posted.stored (o.service t.ownerAddress (t.registration v))).getD o.database)
      t.ownerAddress v.vaultAddress := by
  obtain ⟨hcreated, hfinal, -, hends⟩ := runWith_ends h
  have hok := (hends ((auditError_eq_none_iff hregistered).2 hsuccess)).1 a hregistered
  simp only [Tool.Honest, hcreated, hfinal, hok]
  constructor
  · rintro (⟨result, -, -, hrow⟩ | ⟨err, herr, -⟩)
    · exact hrow
    · cases herr
  · exact fun hrow => Or.inl ⟨_, rfl, rfl, hrow⟩

/-- After a misread answer the row has to be there from before. -/
theorem honest_of_misread (h : t.Creates o v) (hmis : t.Misread o v)
    (hsuccess : o.audit (t.successEntry v) = .ok ()) :
    t.Honest o ↔ RegisteredTo o.env o.database t.ownerAddress v.vaultAddress := by
  obtain ⟨a, ha⟩ := registered_ok_iff.2 (Or.inr hmis)
  have hrow := honest_of_registered h ha hsuccess
  rw [hmis.stored, Option.getD_none] at hrow
  exact hrow

end Answers

/-- **The promise is kept exactly in these runs.** -/
theorem vault_reported_iff (t : Tool) (o : Outcomes) : t.Honest o ↔ t.Faithful o := by
  constructor
  · intro h v hv
    exact ⟨fun hmis hsuccess => (honest_of_misread hv hmis hsuccess).1 h,
      fun err herr => (honest_of_auditError hv herr).1 h⟩
  · intro h
    by_cases hcreates : ∃ v, t.Creates o v
    · obtain ⟨v, hv⟩ := hcreates
      cases haudit : t.auditError o v with
      | some err => exact (honest_of_auditError hv haudit).2 ((h v hv).2 err haudit)
      | none =>
        cases hregistered : t.registered o v with
        | error err => exact honest_of_failed hv haudit hregistered
        | ok a =>
          have hsuccess := (auditError_eq_none_iff hregistered).1 haudit
          -- the registration is taken for a success: it was one, or it was misread
          rcases registered_ok_iff.1 ⟨a, hregistered⟩ with ⟨hposted, ⟨db, row⟩, hservice⟩ | hmis
          · have hstored :
                o.posted.stored (o.service t.ownerAddress (t.registration v)) = some db := by
              rw [hposted, hservice]
              rfl
            rw [honest_of_registered hv hregistered hsuccess, hstored]
            exact createVault_registers hservice
          · exact (honest_of_misread hv hmis hsuccess).2 ((h v hv).1 hmis hsuccess)
    · obtain ⟨hcreated, hthrows⟩ := runWith_failed fun v hv => hcreates ⟨v, hv⟩
      simp only [Tool.Honest, hcreated]
      exact hthrows

/-! ## A label that is taken -/

/-- The owner's only vault, renamed to the label that the next one gets. -/
def renamed : VaultRow where
  id := "v1"
  address := "0x3333333333333333333333333333333333333333"
  chainId := 56
  ownerAddress := "0x1111111111111111111111111111111111111111"
  depositToken := "0x55d398326f99059fF775485246999027B3197955"
  label := "Vault #2"
  createdAtBlock := 100
  txHash := "0xaa"
  contextSlots := []

/-- The owner asks for a vault without a label. -/
def unlabelled : Tool where
  policy := ⟨false⟩
  ownerAddress := "0x1111111111111111111111111111111111111111"
  chainId := 56
  params := ⟨"0x55d398326f99059fF775485246999027B3197955", none⟩

/-- Everything succeeds, and the new vault is on chain. -/
def allSucceeds : Outcomes where
  tokens _ := .ok ⟨200, .ok (some (some ["0x55d398326f99059fF775485246999027B3197955"]))⟩
  refresh _ := .ok ()
  audit _ := .ok ()
  approval := .ok true
  creation := .ok ⟨"0x4444444444444444444444444444444444444444", "0xbb", 200⟩
  post _ := .delivered .arrives
  env :=
    { getAddress := some
      factory := some ⟨fun _ => some true, fun _ => some "0x1111111111111111111111111111111111111111"⟩ }
  database :=
    { vaults := ⟨[renamed], by decide⟩
      automations := Table.empty
      addresses := by decide
      labels := by decide
      onChainIds := fun a ha => absurd ha (Table.notMem_empty a)
      references := fun a ha => absurd ha (Table.notMem_empty a) }
  id := "v2"

/-- The vault that the transaction creates. -/
def unregistered : CreatedVault := ⟨"0x4444444444444444444444444444444444444444", "0xbb", 200⟩

theorem unlabelled_creates : unlabelled.Creates allSucceeds unregistered where
  token := ⟨["0x55d398326f99059fF775485246999027B3197955"], rfl, _, List.mem_singleton_self _, rfl⟩
  permitted := ⟨rfl, rfl, rfl, rfl⟩
  creation := rfl

theorem default_label_taken : unlabelled.Misread allSucceeds unregistered := by
  refine ⟨rfl, _, rfl, Or.inr ⟨by decide, renamed, List.mem_singleton_self _, ?_⟩⟩
  decide

/-- The tool returns the new vault, and no row has it. -/
theorem taken_label_unreported : ¬ unlabelled.Honest allSucceeds := by
  rw [honest_of_misread unlabelled_creates default_label_taken rfl]
  rintro ⟨v, hv, haddress, -⟩
  rw [← Table.mem_rows, show allSucceeds.database.vaults.rows = [renamed] from rfl,
    List.mem_singleton] at hv
  subst hv
  have hother : some "0x4444444444444444444444444444444444444444" ≠
      some "0x3333333333333333333333333333333333333333" := by decide
  exact hother haddress

end StrategyBuilder.Mcp.CreateVault
