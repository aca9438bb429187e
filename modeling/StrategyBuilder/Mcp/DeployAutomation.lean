import Mathlib.Algebra.BigOperators.Group.List.Basic
import Mathlib.Algebra.Order.BigOperators.Group.List
import StrategyBuilder.Mcp.ProposeAutomation

/-!
# Deployments

`deployAutomation` with the store of drafts: proposals and deployments run side by side, and each of them
is interrupted at every request. A deployment takes its draft out of the store at once, checks the graph
that is stored there against the allowlist and the enabled steps, and passes the policy gate before it
goes to the chain.

`deployments_safe`: in every run in which no draft id is issued twice, a draft id reaches the chain at
most once, unexpired, as it was stored, and only if every check has passed.
-/

set_option autoImplicit false

namespace StrategyBuilder.Mcp

open StrategyBuilder.Automation
open StrategyBuilder.Lib
open StrategyBuilder.Lib.Js
open StrategyBuilder.Shared

/-! ## The checks -/

/-- What the configuration allows. -/
structure DeployConfig where
  /-- Lower case. -/
  addressAllowlist : List String
  enabledSensitiveSteps : List String

/-- What is found in a graph. -/
structure Inspection where
  sensitive : Bool
  errors : List String

/-- What is wrong with one recipient. -/
def recipientErrors (config : DeployConfig) (stepName : String) (params : Record JsValue)
    (f : String × RoleField) : List String :=
  let raw := param params f.1
  if isEmpty raw then
    [stepName ++ ": Empfänger-Feld „" ++ f.1 ++ "\" ist leer/fehlt — abgelehnt."]
  else if !config.addressAllowlist.contains (valueToString raw).toLower then
    [stepName ++ ": Empfänger " ++ valueToString raw ++
      " ist nicht in der Adress-Allowlist — abgelehnt."]
  else []

/-- One round of the loop over the nodes. -/
def inspectNode (catalog : DecoderCatalog) (config : DeployConfig) (node : EditorNode) : Inspection :=
  match Record.own? catalog node.stepTypeId with
  | none => ⟨false, []⟩
  | some step =>
      let recipients := fieldsOf step.fields .recipient
      let nodeSensitive : Bool := recipients ≠ []
      { sensitive := nodeSensitive
        errors := recipients.flatMap (recipientErrors config step.name node.params) ++
          if nodeSensitive && !config.enabledSensitiveSteps.contains step.name then
            [step.name ++
              ": sensibler Step nicht freigeschaltet (Capability-Opt-in fehlt) — nicht verbaubar."]
          else [] }

/-- `inspectGraph`: whether any step needs an approval, and all that is refused. -/
def inspectGraph (rawGraph : EditorGraph) (catalog : DecoderCatalog) (config : DeployConfig) :
    Inspection where
  sensitive := rawGraph.nodes.any fun node => (inspectNode catalog config node).sensitive
  errors := rawGraph.nodes.flatMap fun node => (inspectNode catalog config node).errors

/-- `if (value) parts.push(...)` for a string. -/
def part (start : String) : Option String → List String
  | none => []
  | some s => if s = "" then [] else [start ++ s]

/-- A step, as the human is shown it. -/
def stepLine (step : DecodedStep) : String :=
  "  • " ++ ", ".intercalate ([step.stepType] ++ part "Betrag " step.amount ++
    part "Token " step.token ++ part "→ " step.recipient ++
    (step.direction.map fun d => "Richtung " ++ valueToString d).toList)

/-- The summary for the confirmation, from the stored draft. -/
def formatSummary (draft : Draft) (branched : Bool) : String :=
  let mode := if draft.ownerOnly then "Owner-only" else "Public — feuert autonom"
  "\n".intercalate (["Automation deployen (" ++ mode ++ "):"] ++ draft.summary.steps.map stepLine ++
    (if branched then
      ["  ⚠ Verzweigter Graph — NICHT voll cross-checkbar, bitte besonders prüfen."] else []) ++
    draft.summary.warnings.map fun w => "  ⚠ " ++ w.text)

/-- The answer of the tool. -/
structure DeployResult where
  onChainId : Int
  txHashes : List String
  automationId : String

/-- The action that a deployment passes to the gate. -/
def deployAction (draftId : String) (draft : Draft) (sensitive : Bool) : GuardedAction where
  tool := "deploy_automation"
  sensitive := sensitive
  summary := formatSummary draft (isBranched draft.rawGraph)
  details := [("draftId", .str draftId), ("vault", .str draft.vaultAddress),
    ("execution", .str (executionOf draft.ownerOnly).name)]

/-- What the gate runs. -/
def deployDraft (deployOnChain : Draft → McpProgram DeployReceipt) (draft : Draft) :
    McpProgram (GuardExecuteResult DeployResult) := do
  let receipt ← deployOnChain draft
  return {
    result := { onChainId := receipt.onChainId, txHashes := receipt.txHashes,
                automationId := draft.automationId }
    txHash := receipt.txHashes.getLast? }

/-- `deploy_automation`: the draft is taken out of the store before anything else. -/
def deployAutomation (gate : PolicyGate McpCall McpCall.Reply) (config : DeployConfig)
    (deployOnChain : Draft → McpProgram DeployReceipt) (draftId : String) :
    McpProgram DeployResult := do
  match ← Program.call (McpCall.consumeDraft draftId) with
  | none =>
      throwMessage ("Draft-ID unbekannt oder bereits verwendet/abgelaufen — bitte " ++
        "propose_automation erneut ausführen.")
  | some draft =>
      let inspection := inspectGraph draft.rawGraph draft.catalog config
      if 0 < inspection.errors.length then
        throwMessage ("Deploy abgelehnt:\n- " ++ "\n- ".intercalate inspection.errors)
      gate.guard (deployAction draftId draft inspection.sensitive) (deployDraft deployOnChain draft)

/-! ## The server -/

/-- What has happened in the store. -/
inductive DraftEvent where
  | created (id : String) (draft : Draft) (time : Int)
  | consumed (id : String) (draft : Draft) (time : Int)

/-- The store with its clock, and what has happened in it. -/
structure DraftStore where
  now : Int
  /-- The drafts, each with `expiresAt`. -/
  map : Map String (Draft × Int)
  log : List DraftEvent

namespace DraftStore

/-- `create`: a draft under this id, until it expires. -/
def create (s : DraftStore) (ttlMs : Int) (id : String) (draft : Draft) : DraftStore :=
  { s with
    map := s.map.set id (draft, s.now + ttlMs)
    log := s.log ++ [.created id draft s.now] }

/-- A draft that has expired is removed too. -/
def consume (s : DraftStore) (id : String) : Option Draft × DraftStore :=
  match s.map id with
  | none => (none, s)
  | some (draft, expiresAt) =>
      if expiresAt < s.now then (none, { s with map := s.map.delete id })
      else (some draft,
        { s with map := s.map.delete id, log := s.log ++ [.consumed id draft s.now] })

end DraftStore

/-- A proposal, or a deployment. -/
inductive McpJob where
  | propose (deps : ProposeDeps) (params : ProposeParams)
  | deploy (draftId : String)

/-- What is answered. -/
inductive McpResult where
  | proposed (result : ProposeResult)
  | deployed (result : DeployResult)

/-- How the server is set up. -/
structure McpConfig where
  policy : PolicyConfig
  deploy : DeployConfig
  ttlMs : Int

/-- The gate with the provider and the log as calls. -/
def mcpGate (policy : PolicyConfig) : PolicyGate McpCall McpCall.Reply where
  config := policy
  requestApproval req := Program.call (McpCall.requestApproval req)
  record entry := Program.call (McpCall.record entry)

/-- The program of a tool call. -/
def McpJob.program (config : McpConfig) : McpJob → McpProgram McpResult
  | .propose deps params => do
      let result ← proposeAutomation deps params
      return .proposed result
  | .deploy draftId => do
      let result ← deployAutomation (mcpGate config.policy) config.deploy
        (fun draft => Program.call (McpCall.deployOnChain draft)) draftId
      return .deployed result

/-- A moment: the next id of `genId`, and the answers from outside. -/
structure McpMoment where
  id : String
  reply : (c : McpCall) → Except Thrown c.Reply

/-- The tool calls on one store; from outside the clock goes on. -/
def mcpHost (config : McpConfig) :
    Host McpCall McpCall.Reply Thrown McpResult McpJob DraftStore McpMoment Nat where
  program := McpJob.program config
  immediate
    | .createDraft _ | .consumeDraft _ => true
    | _ => false
  answer m c s :=
    match c with
    | .createDraft draft => some (.ok m.id, s.create config.ttlMs m.id draft)
    | .consumeDraft id => some (.ok (s.consume id).1, (s.consume id).2)
    | c => some (m.reply c, s)
  outside elapsed s := { s with now := s.now + elapsed }

/-! ## What is promised -/

/-- A node of the catalog has a recipient. -/
def Sensitive (draft : Draft) : Prop :=
  ∃ node ∈ draft.rawGraph.nodes, ∃ step, Record.own? draft.catalog node.stepTypeId = some step ∧
    fieldsOf step.fields .recipient ≠ []

/-- Every recipient is on the allowlist, and every step with one is enabled. -/
structure Allowed (config : DeployConfig) (draft : Draft) : Prop where
  recipient : ∀ node ∈ draft.rawGraph.nodes, ∀ step,
    Record.own? draft.catalog node.stepTypeId = some step →
    ∀ f ∈ fieldsOf step.fields .recipient, isEmpty (param node.params f.1) = false ∧
      (valueToString (param node.params f.1)).toLower ∈ config.addressAllowlist
  enabled : ∀ node ∈ draft.rawGraph.nodes, ∀ step,
    Record.own? draft.catalog node.stepTypeId = some step →
    fieldsOf step.fields .recipient ≠ [] → step.name ∈ config.enabledSensitiveSteps

/-- The call goes to the chain. -/
def McpCall.isDeploy : McpCall → Bool
  | .deployOnChain _ => true
  | _ => false

/-- The job deploys this draft. -/
def McpJob.deploys (id : String) : McpJob → Bool
  | .deploy draftId => draftId = id
  | .propose _ _ => false

/-- A proposal or a deployment in progress. -/
abbrev McpProcess := Process McpCall McpCall.Reply Thrown McpResult McpJob

/-- All of them, and the store of drafts. -/
abbrev McpWorld := Processes McpCall McpCall.Reply Thrown McpResult McpJob DraftStore

/-- How often a tool call has gone to the chain. -/
def McpProcess.deployCalls (p : McpProcess) : Nat :=
  p.history.countP (fun a => a.call.isDeploy) +
    match p.rest with
    | .await c _ => if c.isDeploy then 1 else 0
    | .done _ => 0

/-- The ids that have been issued. -/
def createdIds (log : List DraftEvent) : List String :=
  log.filterMap fun
    | .created id _ _ => some id
    | .consumed _ _ _ => none

/-- A draft was stored under an id, and later taken out before it expired. -/
def TakenInTime (ttlMs : Int) (log : List DraftEvent) (id : String) (draft : Draft) : Prop :=
  ∃ before between after created consumed, log = before ++ .created id draft created :: between ++
    .consumed id draft consumed :: after ∧ consumed ≤ created + ttlMs

/-- What holds of a draft that goes to the chain, where `h` are the answers before. -/
structure Cleared (config : McpConfig) (h : McpHistory) (draft : Draft) : Prop where
  allowed : Allowed config.deploy draft
  writable : config.policy.readOnly = false
  approved : Sensitive draft → ∃ req : ConfirmationRequest,
    req.summary = formatSummary draft (isBranched draft.rawGraph) ∧
    ⟨.requestApproval req, .ok true⟩ ∈ h

/-- What the server promises of all tool calls together. -/
structure DeployLaw (config : McpConfig) (w : McpWorld) : Prop where
  once : ∀ id, ((w.list.filter fun p => p.job.deploys id).map McpProcess.deployCalls).sum ≤ 1
  deployed : ∀ p ∈ w.list, ∀ draft, p.Calls (.deployOnChain draft) → ∃ id, p.job = .deploy id ∧
    TakenInTime config.ttlMs w.shared.log id draft ∧ Cleared config p.history draft
  /-- A draft that was taken out is the only one that a proposal stored under its id. -/
  proposed : ∀ id draft, TakenInTime config.ttlMs w.shared.log id draft →
    (∃ p ∈ w.list, ∃ deps params, p.job = .propose deps params ∧
      ⟨.createDraft draft, .ok id⟩ ∈ p.history) ∧
    ∀ p ∈ w.list, ∀ draft', ⟨.createDraft draft', .ok id⟩ ∈ p.history → draft' = draft

/-! ## The checks -/

section Checks

variable {config : DeployConfig} {draft : Draft}

/-- A step is sensitive if it has a recipient. -/
theorem inspectNode_sensitive {catalog : DecoderCatalog} {node : EditorNode} :
    (inspectNode catalog config node).sensitive = true ↔
      ∃ step, Record.own? catalog node.stepTypeId = some step ∧
        fieldsOf step.fields .recipient ≠ [] := by
  rw [inspectNode]
  cases Record.own? catalog node.stepTypeId with
  | none => simp
  | some step => simp

theorem inspectGraph_sensitive :
    (inspectGraph draft.rawGraph draft.catalog config).sensitive = true ↔ Sensitive draft := by
  simp only [inspectGraph, List.any_eq_true, inspectNode_sensitive, Sensitive]

/-- A recipient without an error is on the list. -/
theorem recipientErrors_eq_nil {stepName : String} {params : Record JsValue}
    {f : String × RoleField} (h : recipientErrors config stepName params f = []) :
    isEmpty (param params f.1) = false ∧
      (valueToString (param params f.1)).toLower ∈ config.addressAllowlist := by
  simp only [recipientErrors] at h
  split at h
  · cases h
  next hset =>
  split at h
  · cases h
  next hlisted =>
  exact ⟨by simpa using hset, by simpa using hlisted⟩

/-- A step without errors may be deployed. -/
theorem inspectNode_allowed {catalog : DecoderCatalog} {node : EditorNode} {step : CatalogStep}
    (hown : Record.own? catalog node.stepTypeId = some step)
    (h : (inspectNode catalog config node).errors = []) :
    (∀ f ∈ fieldsOf step.fields .recipient, recipientErrors config step.name node.params f = []) ∧
      (fieldsOf step.fields .recipient ≠ [] → step.name ∈ config.enabledSensitiveSteps) := by
  simp only [inspectNode, hown, List.append_eq_nil_iff, List.flatMap_eq_nil_iff] at h
  refine ⟨h.1, fun hne => ?_⟩
  by_contra hdisabled
  simp [hne, hdisabled] at h

/-- A graph without errors is allowed. -/
theorem inspectGraph_allowed (h : (inspectGraph draft.rawGraph draft.catalog config).errors = []) :
    Allowed config draft := by
  have hnode := List.flatMap_eq_nil_iff.1 h
  constructor
  · intro node hmem step hown f hf
    exact recipientErrors_eq_nil ((inspectNode_allowed hown (hnode node hmem)).1 f hf)
  · intro node hmem step hown hne
    exact (inspectNode_allowed hown (hnode node hmem)).2 hne

end Checks

/-! ## The programs -/

/-- A deployment has taken this draft out of the store. -/
def Took (h : McpHistory) (id : String) (draft : Draft) : Prop :=
  ⟨.consumeDraft id, .ok (some draft)⟩ ∈ h

/-- What the calls of a tool call keep to. -/
def McpKeeps (config : McpConfig) (job : McpJob) (h : McpHistory) : McpCall → Prop
  | .deployOnChain draft => ∃ id, job = .deploy id ∧ Took h id draft ∧ Cleared config h draft ∧
      ∀ a ∈ h, a.call.isDeploy = false
  | .consumeDraft id => job = .deploy id
  | .createDraft _ => ∃ deps params, job = .propose deps params
  | _ => True

/-- A proposal calls what any job may. -/
theorem ProposalKeeps.mcpKeeps {config : McpConfig} {deps : ProposeDeps} {params : ProposeParams}
    {h : McpHistory} {c : McpCall} (hc : ProposalKeeps deps params h c) :
    McpKeeps config (.propose deps params) h c := by
  cases c with
  | createDraft draft => exact ⟨deps, params, rfl⟩
  | deployOnChain draft => exact hc.elim
  | consumeDraft id => exact hc.elim
  | _ => trivial

/-- Before the gate lets an action run, the draft has been taken and nothing has gone to the chain. -/
structure Idle (id : String) (draft : Draft) (h : McpHistory) : Prop where
  took : Took h id draft
  undeployed : ∀ a ∈ h, a.call.isDeploy = false

/-- A call that does not deploy leaves a deployment idle. -/
theorem Idle.concat {id : String} {draft : Draft} {h : McpHistory} (hidle : Idle id draft h)
    {a : Answered McpCall McpCall.Reply Thrown} (ha : a.call.isDeploy = false) :
    Idle id draft (h ++ [a]) := by
  refine ⟨List.mem_append_left _ hidle.took, ?_⟩
  intro b hb
  rcases List.mem_append.1 hb with hb | hb
  · exact hidle.undeployed b hb
  · rw [List.mem_singleton.1 hb]
    exact ha

/-- A deployment calls what it may. -/
theorem deployAutomation_keeps (config : McpConfig) (id : String) :
    (deployAutomation (mcpGate config.policy) config.deploy
      (fun draft => Program.call (McpCall.deployOnChain draft)) id).Always
      (McpKeeps config (.deploy id)) (fun _ _ => True) [] := by
  rw [deployAutomation]
  apply Program.Always.call_bind rfl
  · intro taken
    cases taken with
    | none => trivial
    | some draft =>
      dsimp only
      split
      · trivial
      next herrors =>
      -- the draft has passed the inspection
      have hallowed : Allowed config.deploy draft :=
        inspectGraph_allowed (List.length_eq_zero_iff.1 (Nat.eq_zero_of_not_pos herrors))
      have hmcp (entry : AuditEntry) (h : McpHistory) (I : McpHistory → Prop)
          (hI : ∀ r, I (h ++ [⟨.record entry, r⟩])) : ((mcpGate config.policy).record entry).Always
            (McpKeeps config (.deploy id)) (fun h' _ => I h') h := ⟨trivial, hI⟩
      -- what the gate has to find in the history: an approval of this very summary
      let granted : McpHistory → Prop := fun h => ∃ req : ConfirmationRequest,
        req.summary = formatSummary draft (isBranched draft.rawGraph) ∧
        ⟨.requestApproval req, .ok true⟩ ∈ h
      apply Always.guard (Idle id draft) granted
      · intro entry h _ hidle
        apply hmcp entry h fun h' => Idle id draft h' ∧ (granted h → granted h')
        intro r
        exact ⟨hidle.concat rfl, fun ⟨req, hreq, hmem⟩ => ⟨req, hreq, List.mem_append_left _ hmem⟩⟩
      · intro h hidle
        refine ⟨trivial, fun r => ⟨hidle.concat rfl, ?_⟩⟩
        rintro rfl
        exact ⟨_, rfl, List.mem_append_right _ (List.mem_singleton_self _)⟩
      · intro h hidle hro hgranted
        apply Program.Always.call_bind
        · refine ⟨id, rfl, hidle.took, ⟨hallowed, hro, fun hsensitive => ?_⟩, hidle.undeployed⟩
          exact hgranted (inspectGraph_sensitive.2 hsensitive)
        · intro receipt
          trivial
        · intro e
          trivial
      · intro entry h
        exact hmcp entry h (fun _ => True) fun _ => trivial
      · refine ⟨List.mem_append_right _ (List.mem_singleton_self _), ?_⟩
        intro a ha
        rw [List.mem_singleton.1 ha]
        rfl
  · intro e
    trivial

/-- What each job calls. -/
theorem job_keeps (config : McpConfig) (job : McpJob) :
    (job.program config).Always (McpKeeps config job) (fun _ _ => True) [] := by
  cases job with
  | propose deps params =>
    apply Program.Always.bind
      ((proposeAutomation_keeps deps params).weaken fun _ _ hc => hc.mcpKeeps)
    · intro _ _ _
      trivial
    · intro _ _ _
      trivial
  | deploy id =>
    apply Program.Always.bind (deployAutomation_keeps config id)
    · intro _ _ _
      trivial
    · intro _ _ _
      trivial

/-! ## The store -/

/-- The draft with this id is created. -/
def DraftEvent.creates (id : String) : DraftEvent → Bool
  | .created i _ _ => i = id
  | .consumed _ _ _ => false

/-- The draft with this id is taken out. -/
def DraftEvent.consumes (id : String) : DraftEvent → Bool
  | .created _ _ _ => false
  | .consumed i _ _ => i = id

/-- What was taken in time stays so. -/
theorem TakenInTime.concat {ttlMs : Int} {log : List DraftEvent} {id : String} {draft : Draft}
    (h : TakenInTime ttlMs log id draft) (e : DraftEvent) :
    TakenInTime ttlMs (log ++ [e]) id draft := by
  obtain ⟨before, between, after, created, consumed, rfl, hle⟩ := h
  exact ⟨before, between, after ++ [e], created, consumed, by simp, hle⟩

/-- Only a draft that was created is taken. -/
theorem TakenInTime.created {ttlMs : Int} {log : List DraftEvent} {id : String} {draft : Draft}
    (h : TakenInTime ttlMs log id draft) : ∃ time, .created id draft time ∈ log := by
  obtain ⟨before, between, after, created, consumed, rfl, -⟩ := h
  exact ⟨created, by simp⟩

/-- The invariant of the store. -/
structure DraftStore.Inv (ttlMs : Int) (s : DraftStore) : Prop where
  stored : ∀ id draft expiresAt, s.map id = some (draft, expiresAt) →
    ∃ time, .created id draft time ∈ s.log ∧ expiresAt = time + ttlMs
  taken : ∀ id draft time, .consumed id draft time ∈ s.log → TakenInTime ttlMs s.log id draft
  /-- A draft in the store has not been taken out since it was stored. -/
  effects : ∀ id, s.log.countP (DraftEvent.consumes id) + (if (s.map id).isSome then 1 else 0) ≤
    s.log.countP (DraftEvent.creates id)

namespace DraftStore.Inv

variable {ttlMs : Int} {s : DraftStore}

/-- A new draft keeps the invariant. -/
theorem create (hs : s.Inv ttlMs) (id : String) (draft : Draft) :
    (s.create ttlMs id draft).Inv ttlMs := by
  constructor
  case stored =>
    intro id' draft' expiresAt h
    by_cases heq : id' = id
    · subst heq
      simp only [DraftStore.create, Map.set_self, Option.some.injEq, Prod.mk.injEq] at h
      obtain ⟨rfl, rfl⟩ := h
      -- the new entry expires `ttlMs` from now
      exact ⟨s.now, List.mem_append_right _ (List.mem_singleton_self _), rfl⟩
    · simp only [DraftStore.create, Map.set_of_ne _ _ heq] at h
      obtain ⟨time, htime, hexp⟩ := hs.stored id' draft' expiresAt h
      exact ⟨time, List.mem_append_left _ htime, hexp⟩
  case taken =>
    intro id' draft' time h
    rcases List.mem_append.1 h with h | h
    · exact (hs.taken id' draft' time h).concat _
    · cases List.mem_singleton.1 h
  case effects =>
    intro id'
    have key := hs.effects id'
    simp only [DraftStore.create, List.countP_append, List.countP_singleton, DraftEvent.consumes,
      DraftEvent.creates]
    by_cases heq : id' = id
    · subst heq
      simp
      omega
    · simp [Map.set_of_ne _ _ heq, Ne.symm heq]
      exact key

/-- What `consume` does: nothing is found, or a draft that has expired is dropped, or a draft is taken
out. -/
theorem consume_cases (s : DraftStore) (id : String) :
    (s.consume id = (none, s)) ∨
    (s.consume id = (none, { s with map := s.map.delete id })) ∨
    ∃ draft expiresAt, s.map id = some (draft, expiresAt) ∧ s.now ≤ expiresAt ∧
      s.consume id = (some draft,
        { s with map := s.map.delete id, log := s.log ++ [.consumed id draft s.now] }) := by
  cases hmap : s.map id with
  | none =>
    left
    simp only [DraftStore.consume, hmap]
  | some entry =>
    obtain ⟨draft, expiresAt⟩ := entry
    by_cases hexpired : expiresAt < s.now
    · right; left
      simp only [DraftStore.consume, hmap, if_pos hexpired]
    · right; right
      refine ⟨draft, expiresAt, rfl, Int.not_lt.1 hexpired, ?_⟩
      simp only [DraftStore.consume, hmap, if_neg hexpired]

/-- A draft that goes keeps the invariant. -/
theorem delete (hs : s.Inv ttlMs) (id : String) :
    DraftStore.Inv ttlMs { s with map := s.map.delete id } where
  stored id' draft expiresAt h := hs.stored id' draft expiresAt (Map.delete_eq_some h).2
  taken := hs.taken
  effects id' := by
    have key := hs.effects id'
    by_cases heq : id' = id
    · subst heq
      simp
      omega
    · simpa [Map.delete_of_ne _ heq] using key

/-- A draft that is taken keeps the invariant. -/
theorem consume (hs : s.Inv ttlMs) (id : String) : (s.consume id).2.Inv ttlMs := by
  rcases consume_cases s id with h | h | ⟨draft, expiresAt, hmap, hnow, h⟩
  · rw [h]
    exact hs
  · rw [h]
    exact hs.delete id
  · rw [h]
    constructor
    case stored =>
      intro id' draft' expiresAt' h'
      obtain ⟨time, htime, hexp⟩ := hs.stored id' draft' expiresAt' (Map.delete_eq_some h').2
      exact ⟨time, List.mem_append_left _ htime, hexp⟩
    case taken =>
      intro id' draft' time h'
      rcases List.mem_append.1 h' with h' | h'
      · exact (hs.taken id' draft' time h').concat _
      · cases List.mem_singleton.1 h'
        -- the entry says when the draft was created
        obtain ⟨created, hcreated, rfl⟩ := hs.stored id draft expiresAt hmap
        obtain ⟨before, between, hlog⟩ := List.append_of_mem hcreated
        refine ⟨before, between, [], created, s.now, ?_, hnow⟩
        simp [hlog]
    case effects =>
      intro id'
      have key := hs.effects id'
      simp only [List.countP_append, List.countP_singleton, DraftEvent.consumes, DraftEvent.creates]
      by_cases heq : id' = id
      · subst heq
        -- the draft leaves the store as it counts as taken
        simp [hmap] at key ⊢
        omega
      · simpa [Map.delete_of_ne _ heq, Ne.symm heq] using key

end DraftStore.Inv

/-! ## The store and the answers of the tool calls -/

/-- How far a proposal or a deployment has come. -/
abbrev McpTrack := Host.Track McpCall McpCall.Reply Thrown McpJob

/-- The answer takes a draft out of the store. -/
def takes (id : String) : Answered McpCall McpCall.Reply Thrown → Bool
  | ⟨.consumeDraft i, .ok (some _)⟩ => i = id
  | _ => false

/-- What has happened in the store is what the tool calls were answered. -/
structure DraftsAgree (s : DraftStore) (rs : List McpTrack) : Prop where
  counted : ∀ id, (rs.flatMap Prod.snd).countP (takes id) = s.log.countP (DraftEvent.consumes id)
  took : ∀ track ∈ rs, ∀ id draft, Took track.2 id draft → ∃ time, .consumed id draft time ∈ s.log
  issued : ∀ track ∈ rs, ∀ id draft, ⟨.createDraft draft, .ok id⟩ ∈ track.2 →
    ∃ time, .created id draft time ∈ s.log
  created : ∀ id draft time, .created id draft time ∈ s.log → ∃ track ∈ rs,
    (∃ deps params, track.1 = .propose deps params) ∧ ⟨.createDraft draft, .ok id⟩ ∈ track.2

/-- What is in the store is what the calls say. -/
structure McpInv (ttlMs : Int) (s : DraftStore) (rs : List McpTrack) : Prop where
  state : s.Inv ttlMs
  agree : DraftsAgree s rs

namespace DraftsAgree

variable {s s' : DraftStore} {rs : List McpTrack}

theorem start (h : DraftsAgree s rs) (job : McpJob) : DraftsAgree s (rs ++ [(job, [])]) := by
  have hmem {track : McpTrack} (htrack : track ∈ rs ++ [(job, [])])
      {a : Answered McpCall McpCall.Reply Thrown} (ha : a ∈ track.2) : track ∈ rs := by
    rcases List.mem_append.1 htrack with htrack | htrack
    · exact htrack
    · rw [List.mem_singleton.1 htrack] at ha
      cases ha
  constructor
  · intro id
    rw [List.flatMap_append, List.countP_append, h.counted id]
    rfl
  · intro track htrack id draft ha
    exact h.took track (hmem htrack ha) id draft ha
  · intro track htrack id draft ha
    exact h.issued track (hmem htrack ha) id draft ha
  · intro id draft time hcreated
    obtain ⟨track, htrack, hjob⟩ := h.created id draft time hcreated
    exact ⟨track, List.mem_append_left _ htrack, hjob⟩

/-- An answer and what it does to the log go together. -/
theorem answered (h : DraftsAgree s rs) {i : Nat} {job : McpJob} {history : McpHistory}
    (hi : rs[i]? = some (job, history)) {a : Answered McpCall McpCall.Reply Thrown}
    (hmono : s.log ⊆ s'.log)
    (hcounted : ∀ id, s'.log.countP (DraftEvent.consumes id) =
      s.log.countP (DraftEvent.consumes id) + if takes id a then 1 else 0)
    (htook : ∀ id draft, a = ⟨.consumeDraft id, .ok (some draft)⟩ →
      ∃ time, .consumed id draft time ∈ s'.log)
    (hissued : ∀ id draft, a = ⟨.createDraft draft, .ok id⟩ →
      ∃ time, .created id draft time ∈ s'.log)
    (hcreated : ∀ id draft time, .created id draft time ∈ s'.log →
      .created id draft time ∈ s.log ∨
        ((∃ deps params, job = .propose deps params) ∧ a = ⟨.createDraft draft, .ok id⟩)) :
    DraftsAgree s' (rs.set i (job, history ++ [a])) := by
  constructor
  · intro id
    rw [Host.countP_answered hi, h.counted id, hcounted id]
  -- each law: the answer is the new one, or it was there before
  · intro track htrack id draft ha
    rcases Host.answered_cases hi htrack ha with ⟨track', htrack', -, ha⟩ | ⟨-, heq⟩
    · obtain ⟨time, htime⟩ := h.took track' htrack' id draft ha
      exact ⟨time, hmono htime⟩
    · exact htook id draft heq.symm
  · intro track htrack id draft ha
    rcases Host.answered_cases hi htrack ha with ⟨track', htrack', -, ha⟩ | ⟨-, heq⟩
    · obtain ⟨time, htime⟩ := h.issued track' htrack' id draft ha
      exact ⟨time, hmono htime⟩
    · exact hissued id draft heq.symm
  · intro id draft time htime
    rcases hcreated id draft time htime with htime | ⟨hjob, rfl⟩
    · obtain ⟨track, htrack, ⟨deps, params, hjob⟩, hmem⟩ := h.created id draft time htime
      obtain ⟨track', htrack', hsame, hsubset⟩ := Host.mem_answered hi a htrack
      exact ⟨track', htrack', ⟨deps, params, hsame.trans hjob⟩, hsubset hmem⟩
    · refine ⟨_, List.mem_set (List.getElem?_eq_some_iff.1 hi).1 _, hjob, ?_⟩
      exact List.mem_append_right _ (List.mem_singleton_self _)

/-- The answer to a call that does not use the store. -/
theorem answered_other (h : DraftsAgree s rs) {i : Nat} {job : McpJob} {history : McpHistory}
    (hi : rs[i]? = some (job, history)) {c : McpCall} (r : Except Thrown c.Reply)
    (hcreate : ∀ draft, c ≠ .createDraft draft) (hconsume : ∀ id, c ≠ .consumeDraft id) :
    DraftsAgree s (rs.set i (job, history ++ [⟨c, r⟩])) := by
  apply h.answered hi (List.Subset.refl _)
  · intro id
    have hnot : takes id ⟨c, r⟩ = false := by
      rw [takes.eq_def]
      split
      · next i draft heq => exact absurd (congrArg Answered.call heq) (hconsume i)
      · rfl
    rw [hnot]
    rfl
  · intro id draft heq
    exact absurd (congrArg Answered.call heq) (hconsume id)
  · intro id draft heq
    exact absurd (congrArg Answered.call heq) (hcreate draft)
  · intro id draft time htime
    exact Or.inl htime

/-- Nothing was found. -/
theorem answered_none (h : DraftsAgree s rs) {i : Nat} {job : McpJob} {history : McpHistory}
    (hi : rs[i]? = some (job, history)) (id : String) (hlog : s'.log = s.log) :
    DraftsAgree s' (rs.set i (job, history ++ [⟨.consumeDraft id, .ok none⟩])) := by
  apply h.answered hi
  · rw [hlog]
    exact List.Subset.refl _
  · intro id'
    rw [hlog]
    rfl
  · rintro id' draft ⟨⟩
  · rintro id' draft ⟨⟩
  · intro id' draft time htime
    rw [hlog] at htime
    exact Or.inl htime

end DraftsAgree

/-- What the run rule of the host asks for. -/
theorem mcp_obligations (config : McpConfig) :
    Host.Obligations (mcpHost config) (McpInv config.ttlMs) (McpKeeps config) (fun _ _ _ => True) where
  program job := job_keeps config job
  outside s rs elapsed h := ⟨{ h.state with }, { h.agree with }⟩
  start s rs job h := ⟨h.state, h.agree.start job⟩
  answer s rs m i job history c r s' h hi hc hanswer := by
    cases c with
    | createDraft draft =>
      cases hanswer
      refine ⟨h.state.create m.id draft, ?_⟩
      apply h.agree.answered hi
      · exact List.subset_append_left ..
      · intro id
        simp [DraftStore.create, DraftEvent.consumes, takes]
      · rintro id draft' ⟨⟩
      · rintro id draft' ⟨⟩
        exact ⟨s.now, List.mem_append_right _ (List.mem_singleton_self _)⟩
      · intro id draft' time htime
        rcases List.mem_append.1 htime with htime | htime
        · exact Or.inl htime
        · cases List.mem_singleton.1 htime
          exact Or.inr ⟨hc, rfl⟩
    | consumeDraft id =>
      cases hanswer
      refine ⟨h.state.consume id, ?_⟩
      -- no such draft, an expired one, or the draft
      rcases DraftStore.Inv.consume_cases s id with heq | heq | ⟨draft, expiresAt, -, -, heq⟩
      · rw [heq]
        exact h.agree.answered_none hi id rfl
      · rw [heq]
        exact h.agree.answered_none hi id rfl
      · rw [heq]
        apply h.agree.answered hi
        · exact List.subset_append_left ..
        · intro id'
          simp [DraftEvent.consumes, takes]
        · rintro id' draft' ⟨⟩
          exact ⟨s.now, List.mem_append_right _ (List.mem_singleton_self _)⟩
        · rintro id' draft' ⟨⟩
        · intro id' draft' time htime
          rcases List.mem_append.1 htime with htime | htime
          · exact Or.inl htime
          · cases List.mem_singleton.1 htime
    | _ =>
      cases hanswer
      refine ⟨h.state, h.agree.answered_other hi _ ?_ ?_⟩
      · intro draft heq
        cases heq
      · intro id heq
        cases heq

/-! ## Deployments -/

/-- The store on its own, before any tool call. -/
def mcpStart (now : Int) : McpWorld := ⟨⟨now, Map.empty, []⟩, []⟩

/-- The tool calls and the store after a run. -/
def mcpRun (config : McpConfig) (now : Int) (run : List (HostStep McpJob McpMoment Nat)) : McpWorld :=
  Transition.run (mcpHost config).step (mcpStart now) run

/-- The invariant holds after every run. -/
theorem mcpRun_inv (config : McpConfig) (now : Int) (run : List (HostStep McpJob McpMoment Nat)) :
    Host.Inv (mcpHost config) (McpInv config.ttlMs) (McpKeeps config) (fun _ _ _ => True)
      (mcpRun config now run) := by
  apply Host.run_inv (mcp_obligations config)
  exact ⟨⟨nofun, nofun, fun id => Nat.le_refl 0⟩, ⟨fun id => rfl, nofun, nofun, nofun⟩⟩

/-- An id is as often created as it is in the list. -/
theorem createdIds_count (id : String) (log : List DraftEvent) :
    (createdIds log).count id = log.countP (DraftEvent.creates id) := by
  induction log with
  | nil => rfl
  | cons e log ih =>
    rw [List.countP_cons, ← ih]
    cases e with
    | created i draft time => simp [createdIds, DraftEvent.creates, List.count_cons]
    | consumed i draft time => simp [createdIds, DraftEvent.creates]

theorem mem_createdIds {log : List DraftEvent} {id : String} {draft : Draft} {time : Int}
    (h : .created id draft time ∈ log) : id ∈ createdIds log :=
  List.mem_filterMap.2 ⟨_, h, rfl⟩

/-- An id that is issued once has one draft. -/
theorem draft_unique {log : List DraftEvent} (h : (createdIds log).Nodup) {id : String}
    {draft draft' : Draft} {time time' : Int} (hd : .created id draft time ∈ log)
    (hd' : .created id draft' time' ∈ log) : draft = draft' := by
  induction log with
  | nil => cases hd
  | cons e log ih =>
    have hrest : (createdIds log).Nodup := by
      cases e with
      | created i d t => exact (List.nodup_cons.1 h).2
      | consumed i d t => exact h
    rcases List.mem_cons.1 hd with rfl | hlog
    · rcases List.mem_cons.1 hd' with heq | hlog'
      · cases heq
        rfl
      · exact absurd (mem_createdIds hlog') (List.nodup_cons.1 h).1
    · rcases List.mem_cons.1 hd' with rfl | hlog'
      · exact absurd (mem_createdIds hlog) (List.nodup_cons.1 h).1
      · exact ih hrest hlog hlog'

section Calls

variable {config : McpConfig} {p : McpProcess}

/-- What was cleared stays so. -/
theorem Cleared.mono {h h' : McpHistory} {draft : Draft} (hc : Cleared config h draft)
    (hsubset : h ⊆ h') : Cleared config h' draft where
  allowed := hc.allowed
  writable := hc.writable
  approved hsensitive := by
    obtain ⟨req, hsummary, hmem⟩ := hc.approved hsensitive
    exact ⟨req, hsummary, hsubset hmem⟩

/-- What goes to the chain has been taken out of the store and cleared. -/
theorem calls_cleared (hp : p.Keeps (McpKeeps config) (fun _ _ _ => True)) {draft : Draft}
    (hcalls : p.Calls (.deployOnChain draft)) :
    ∃ id, p.job = .deploy id ∧ Took p.history id draft ∧ Cleared config p.history draft := by
  obtain ⟨before, hbefore, id, hjob, htook, hcleared, -⟩ := hp.calls hcalls
  exact ⟨id, hjob, hbefore.subset htook, hcleared.mono hbefore.subset⟩

theorem isDeploy_iff {c : McpCall} : c.isDeploy = true ↔ ∃ draft, c = .deployOnChain draft := by
  cases c <;> simp [McpCall.isDeploy]

theorem exists_call (h : 0 < p.deployCalls) : ∃ draft, p.Calls (.deployOnChain draft) := by
  rw [McpProcess.deployCalls] at h
  by_cases hcount : 0 < p.history.countP fun a => a.call.isDeploy
  · obtain ⟨⟨c, r⟩, ha, hdeploy⟩ := List.countP_pos_iff.1 hcount
    obtain ⟨draft, rfl⟩ := isDeploy_iff.1 hdeploy
    exact ⟨draft, Or.inl ⟨r, ha⟩⟩
  · rw [Nat.eq_zero_of_not_pos hcount, Nat.zero_add] at h
    cases hrest : p.rest with
    | done r =>
      rw [hrest] at h
      exact absurd h (Nat.lt_irrefl 0)
    | await c next =>
      rw [hrest] at h
      dsimp only at h
      split at h
      · next hdeploy =>
        obtain ⟨draft, rfl⟩ := isDeploy_iff.1 hdeploy
        exact ⟨draft, Or.inr ⟨next, hrest⟩⟩
      · exact absurd h (Nat.lt_irrefl 0)

/-- A call before which there was none counts once. -/
theorem countP_le_one {α : Type} {q : α → Bool} {l : List α}
    (h : ∀ before a after, l = before ++ a :: after → q a = true → ∀ b ∈ before, q b = false) :
    l.countP q ≤ 1 := by
  induction l using List.reverseRecOn with
  | nil => exact Nat.zero_le 1
  | append_singleton l a ih =>
    rw [List.countP_append, List.countP_singleton]
    split
    · next ha =>
      rw [List.countP_eq_zero.2 fun b hb => by rw [h l a [] rfl ha b hb]; decide]
    · apply ih
      intro before b after heq hb
      exact h before b (after ++ [a]) (by rw [heq]; simp) hb

/-- A job deploys once at most. -/
theorem deployCalls_le_one (hp : p.Keeps (McpKeeps config) (fun _ _ _ => True)) :
    p.deployCalls ≤ 1 := by
  -- a deployment is begun only where none was before
  have hkept {h : McpHistory} {c : McpCall} (hc : McpKeeps config p.job h c)
      (hdeploy : c.isDeploy = true) : ∀ a ∈ h, a.call.isDeploy = false := by
    obtain ⟨draft, rfl⟩ := isDeploy_iff.1 hdeploy
    obtain ⟨id, -, -, -, hnone⟩ := hc
    exact hnone
  have hcount : p.history.countP (fun a => a.call.isDeploy) ≤ 1 := by
    apply countP_le_one
    intro before a after heq hdeploy
    exact hkept (hp.past before a after heq) hdeploy
  rw [McpProcess.deployCalls]
  cases hrest : p.rest with
  | done r => exact hcount
  | await c next =>
    dsimp only
    split
    · next hdeploy =>
      have hawaited := hp.rest
      rw [hrest] at hawaited
      have hnone : p.history.countP (fun a => a.call.isDeploy) = 0 := by
        apply List.countP_eq_zero.2
        intro a ha
        rw [hkept hawaited.1 hdeploy a ha]
        decide
      omega
    · exact hcount

/-- A tool call goes to the chain no more often than it takes a draft. -/
theorem deployCalls_le_takes (hp : p.Keeps (McpKeeps config) (fun _ _ _ => True)) {id : String}
    (hjob : p.job.deploys id = true) : p.deployCalls ≤ p.history.countP (takes id) := by
  by_cases hcalls : 0 < p.deployCalls
  · obtain ⟨draft, hdraft⟩ := exists_call hcalls
    obtain ⟨id', hjob', htook, -⟩ := calls_cleared hp hdraft
    rw [hjob', McpJob.deploys, decide_eq_true_eq] at hjob
    subst hjob
    have hpos : 0 < p.history.countP (takes id') :=
      List.countP_pos_iff.2 ⟨_, htook, by simp [takes]⟩
    have hone := deployCalls_le_one hp
    omega
  · omega

end Calls

/-- In every run in which no draft id is issued twice, a draft reaches the chain once at most, before it
expires, as it was stored, and only if it is allowed and, where it is sensitive, approved. -/
theorem deployments_safe (config : McpConfig) (now : Int)
    (run : List (HostStep McpJob McpMoment Nat))
    (hids : (createdIds (mcpRun config now run).shared.log).Nodup) :
    DeployLaw config (mcpRun config now run) := by
  obtain ⟨⟨hstate, hagree⟩, hkeeps⟩ := mcpRun_inv config now run
  constructor
  case once =>
    intro id
    -- deployments ≤ drafts taken ≤ drafts created under this id ≤ 1
    calc (((mcpRun config now run).list.filter fun p => p.job.deploys id).map
          McpProcess.deployCalls).sum
        ≤ (((mcpRun config now run).list.filter fun p => p.job.deploys id).map
            fun p => p.history.countP (takes id)).sum := by
          apply List.sum_le_sum
          intro p hp
          obtain ⟨hp, hjob⟩ := List.mem_filter.1 hp
          exact deployCalls_le_takes (hkeeps p hp) hjob
      _ ≤ ((mcpRun config now run).list.map fun p => p.history.countP (takes id)).sum :=
          (List.filter_sublist.map _).sum_le_sum fun _ _ => Nat.zero_le _
      _ = ((Host.tracks (mcpRun config now run)).flatMap Prod.snd).countP (takes id) := by
          rw [Host.tracks, List.countP_flatMap, List.map_map]
          rfl
      _ = (mcpRun config now run).shared.log.countP (DraftEvent.consumes id) := hagree.counted id
      _ ≤ (mcpRun config now run).shared.log.countP (DraftEvent.creates id) :=
          Nat.le_trans (Nat.le_add_right _ _) (hstate.effects id)
      _ = (createdIds (mcpRun config now run).shared.log).count id := (createdIds_count id _).symm
      _ ≤ 1 := List.nodup_iff_count_le_one.1 hids id
  case deployed =>
    intro p hp draft hcalls
    obtain ⟨id, hjob, htook, hcleared⟩ := calls_cleared (hkeeps p hp) hcalls
    obtain ⟨time, hconsumed⟩ := hagree.took _ (Host.mem_tracks hp) id draft htook
    exact ⟨id, hjob, hstate.taken id draft time hconsumed, hcleared⟩
  case proposed =>
    intro id draft htaken
    obtain ⟨time, hcreated⟩ := htaken.created
    constructor
    · obtain ⟨track, htrack, ⟨deps, params, hjob⟩, hmem⟩ := hagree.created id draft time hcreated
      obtain ⟨p, hp, rfl⟩ := List.mem_map.1 htrack
      exact ⟨p, hp, deps, params, hjob, hmem⟩
    · intro p hp draft' hmem
      obtain ⟨time', hcreated'⟩ := hagree.issued _ (Host.mem_tracks hp) id draft' hmem
      exact draft_unique hids hcreated' hcreated

/-- Everything succeeds. -/
def deployMoment : McpMoment where
  id := "d1"
  reply
    | .getPool _ _ _ => .ok "0x11"
    | .postAutomation _ _ => .ok "a1"
    | .encode _ _ _ _ => .ok ⟨false, none, none, false, 1⟩
    | .requestApproval _ => .ok true
    | .deployOnChain _ => .ok ⟨7, ["0xf1"]⟩
    | .sendTransaction _ _ _ => .ok ⟨"0xf1", []⟩
    | .createDraft _ => .error (.error "Error" "not asked")
    | .consumeDraft _ => .error (.error "Error" "not asked")
    | .deleteAutomation _ _ | .patchAutomation _ _ _ | .record _ => .ok ()

/-- A catalog with a condition, and with a transfer that names its recipient. -/
def transferCatalog : DecoderCatalog :=
  [("always", { name := "Always", properties := none, required := [], abiFragment := none }),
    ("transfer", {
      name := "ERC20 Transfer"
      properties := some [("to", { swapField .accountSelector none with role := .str "recipient" })]
      required := ["to"]
      abiFragment := some [⟨"to", .address⟩] })]

/-- A graph of one condition and one transfer. -/
def transferParams : ProposeParams where
  vaultAddress := "0xaa"
  nodes := [⟨"n1", some .condition, "always", []⟩,
    ⟨"n2", some .action, "transfer", [("to", .str "0xAB")]⟩]
  edges := [⟨"n1", "n2", none⟩]
  intent := ⟨.publicMode, none, [⟨none, none, none⟩]⟩

/-- The recipient is on the allowlist, and the transfer is enabled. -/
def transferConfig : McpConfig := ⟨⟨false⟩, ⟨["0xab"], ["ERC20 Transfer"]⟩, 600000⟩

/-- One proposal, and its draft is deployed twice. -/
def deployTwice : List (HostStep McpJob McpMoment Nat) :=
  [.start (.propose ⟨transferCatalog, [], false⟩ transferParams) deployMoment, .resume 0 deployMoment,
    .resume 0 deployMoment, .outside 600000, .start (.deploy "d1") deployMoment,
    .start (.deploy "d1") deployMoment, .resume 1 deployMoment, .resume 1 deployMoment,
    .resume 1 deployMoment, .resume 1 deployMoment]

/-- The user has approved something in the tool call. -/
def McpProcess.hasApproval (p : McpProcess) : Bool :=
  p.history.any fun
    | ⟨.requestApproval _, .ok approved⟩ => approved
    | _ => false

theorem deployTwice_facts :
    createdIds (mcpRun transferConfig 0 deployTwice).shared.log = ["d1"] ∧
      (mcpRun transferConfig 0 deployTwice).list.map
        (fun p => (McpProcess.deployCalls p, McpProcess.hasApproval p)) =
      [(0, false), (1, true), (0, false)] := by
  decide +kernel

/-- Only the first deployment goes to the chain, after an approval. -/
theorem deployments_safe_sample :
    DeployLaw transferConfig (mcpRun transferConfig 0 deployTwice) ∧
      (mcpRun transferConfig 0 deployTwice).list.map
        (fun p => (McpProcess.deployCalls p, McpProcess.hasApproval p)) =
      [(0, false), (1, true), (0, false)] := by
  obtain ⟨hids, hcalls⟩ := deployTwice_facts
  exact ⟨deployments_safe _ _ _ (hids ▸ List.nodup_singleton _), hcalls⟩

end StrategyBuilder.Mcp
