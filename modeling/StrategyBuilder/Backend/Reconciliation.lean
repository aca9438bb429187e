import StrategyBuilder.Automation.EncodedGraph
import StrategyBuilder.Backend.AutomationAccess
import StrategyBuilder.Lib.Transition

/-!
# Reconciling drafts with the chain

`findById` and `tryReconcile` of `automation.service.ts`, one await at a time, while transactions,
other lookups and other requests go on. A call that is alone does what `findById` does at once
(`findById_alone`).

The search takes the first automation that no row was linked to when it asked, that has as many steps
as the draft has nodes and whose first step calls the contract of the draft's first node. Strategies
that are alike are taken for each other (`similar_draft_linked`). Where no call reads an automation of
another graph that looks like its draft, a draft is linked to what was created from its graph only
(`reconciles_own`).

Vault rows stay; the writes to `contextSlots` touch nothing that is read here.
-/

set_option autoImplicit false

namespace StrategyBuilder.Backend.Reconciliation

open StrategyBuilder.Automation
open StrategyBuilder.Contracts
open StrategyBuilder.Contracts.Vault
open StrategyBuilder.Lib
open StrategyBuilder.Lib.Js
open StrategyBuilder.Lib.Transition
open StrategyBuilder.Shared

/-! ## Requests that write -/

/-- `createDraft`; it fails where there is no such vault. -/
def createDraft (db : Database) (id vaultId : String) (label description : Option String) :
    Except HttpError Database :=
  match h : db.vaults.find? vaultId with
  | none => .error .internal
  | some vault =>
      let row : AutomationRow := {
        id := id
        vaultId := vault.id
        onChainId := none
        label := label
        description := description
        ownerOnly := false
        editorState := none
        stepCount := 0
        isDraft := true }
      .ok { db with
        automations := db.automations.insert row
        onChainIds := by
          intro a ha b hb hvault hlinked hne
          rcases Table.mem_insert.1 ha with ha | ⟨rfl, -⟩
          · rcases Table.mem_insert.1 hb with hb | ⟨rfl, -⟩
            · exact db.onChainIds a ha b hb hvault hlinked hne
            · exact absurd hlinked hne
          · exact absurd rfl hne
        references := by
          intro a ha
          rcases Table.mem_insert.1 ha with ha | ⟨rfl, -⟩
          · exact db.references a ha
          · exact ⟨vault, (Table.find?_eq_some.1 h).1, rfl⟩ }

/-- The `PATCH` route: a body with an on-chain id confirms a deployment. -/
def patch (db : Database) (id : String) (body : UpdateBody) :
    Except HttpError (Database × AutomationRow) :=
  match body.onChainId with
  | some onChainId =>
      confirmDeployment db id onChainId (body.ownerOnly.getD false) (body.stepCount.getD (.ofInt 0))
  | none =>
      db.updateAutomation id
        { editorState := body.editorState
          label := body.label
          description := body.description }

/-! ## The system -/

/-- What the backend is set up with. -/
structure Config where
  services : Services
  /-- `RPC_URL` -/
  rpcUrl : Option String
  /-- The text that the chain's client gives an address. -/
  addressText : Address → String

/-- The local variables of `tryReconcile`. -/
structure Lookup where
  automation : AutomationRow
  vault : VaultRow
  nodes : List StoredNode
  edges : List EditorEdge

/-- What a call of `findById` awaits. -/
inductive FindStage where
  /-- The row. -/
  | finding
  /-- `automationCount()` -/
  | counting (s : Lookup)
  /-- The linked ids. -/
  | linking (s : Lookup) (count : Nat)
  /-- `getAutomation(i)` -/
  | reading (s : Lookup) (linked : Nat → Bool) (count i : Nat)
  /-- The update of the row. -/
  | writing (s : Lookup) (i stepCount : Nat)

/-- A call of `findById` in progress. -/
structure FindCall where
  id : String
  stage : FindStage

/-- The moment at which an await is settled. A write that is not answered may have been made all the
same. -/
structure FindMoment where
  answered : Bool
  written : Bool

/-- The chain with a vault at every address, and the backend. -/
structure Site where
  vaults : String → State
  /-- The steps with which the automations of a vault were created, by their ids. -/
  created : String → List (List Step)
  db : Database
  /-- The automation ids given so far. -/
  issued : List String
  calls : List FindCall

/-- Transactions, requests, and steps of the calls that look for a draft, in any order. -/
inductive SiteEvent where
  | transact (address : String) (tx : Tx)
  | createDraft (id vaultId : String) (label description : Option String)
  | update (id : String) (body : UpdateBody)
  | delete (id : String)
  | findById (id : String)
  | resume (k : Nat) (m : FindMoment)

section System

variable (cfg : Config)

/-- What the RPC endpoint answers. -/
def Site.chain (w : Site) : Chain where
  automationCount := fun address => some (w.vaults address).automationCount
  getAutomation := fun address i =>
    match Vault.getAutomation i (w.vaults address) with
    | .ok a => some (a.steps.map fun s => cfg.addressText s.target)
    | .error _ => none
  getContext := fun address => some (Vault.getContext (w.vaults address))

/-- `tryReconcile` up to its first await; `none` where it returns before. -/
def Lookup.start? (automation : AutomationRow) (vault : VaultRow) : Option Lookup :=
  if vault.address = "" then none
  else match automation.editorState with
    | none => none
    | some editorState =>
        match editorState.nodes with
        | none | some [] => none
        | some nodes =>
            if cfg.rpcUrl.getD "" = "" then none
            else some ⟨automation, vault, nodes, editorState.edges.getD []⟩

/-- The loop from `i` on, up to the next id that is not linked. -/
def Lookup.next (s : Lookup) (linked : Nat → Bool) (count i : Nat) : Option FindStage :=
  ((List.range' i (count - i)).find? fun j => !linked j).map (.reading s linked count)

/-- The `data` of the update in `tryReconcile`. -/
def linkData (i stepCount : Nat) : AutomationData where
  onChainId := some i
  isDraft := some false
  stepCount := some stepCount

/-- A call goes on at the moment of what it awaits: the tables afterwards, and what it awaits next. An
error after the row is found is caught. -/
def FindCall.resume (c : FindCall) (w : Site) (m : FindMoment) : Database × Option FindStage :=
  match c.stage with
  | .finding =>
      match m.answered, w.db.findAutomation c.id with
      | true, some (automation, vault) =>
          if automation.isDraft = true ∧ automation.onChainId = none then
            (w.db, (Lookup.start? cfg automation vault).map .counting)
          else (w.db, none)
      | _, _ => (w.db, none)
  | .counting s =>
      match m.answered, (w.chain cfg).automationCount s.vault.address with
      | true, some count => (w.db, some (.linking s count))
      | _, _ => (w.db, none)
  | .linking s count =>
      (w.db, if m.answered then s.next (w.db.linked s.vault.id) count 0 else none)
  | .reading s linked count i =>
      match m.answered, (w.chain cfg).getAutomation s.vault.address i with
      | true, some targets =>
          if looksLike s.nodes s.edges targets = true then
            (w.db, some (.writing s i targets.length))
          else (w.db, s.next linked count (i + 1))
      | _, _ => (w.db, none)
  | .writing s i stepCount =>
      match w.db.updateAutomation s.automation.id (linkData i stepCount) with
      -- somebody else may have linked this id meanwhile
      | .error _ => (w.db, none)
      -- the row may be written although the answer is lost
      | .ok (db, _) => (if m.answered || m.written then db else w.db, none)

/-- The steps of all automations of a vault. -/
def stepsOf (v : State) : List (List Step) :=
  (List.range v.automationCount).map fun i => (v.automations i).steps

/-- The steps of the automation that a transaction has created, after those before. -/
def recorded (created : List (List Step)) (v v' : State) : List (List Step) :=
  if v.automationCount < v'.automationCount then
    created ++ [(v'.automations v.automationCount).steps]
  else created

namespace Site

/-- The `k`-th call goes on. -/
def resume (w : Site) (k : Nat) (m : FindMoment) : Site :=
  match w.calls[k]? with
  | none => w
  | some c =>
      let r := c.resume cfg w m
      { w with
        db := r.1
        calls :=
          match r.2 with
          | some stage => w.calls.set k { c with stage := stage }
          | none => w.calls.eraseIdx k }

/-- One event. What a transaction creates is recorded with its steps. -/
def step (w : Site) : SiteEvent → Site
  | .transact address tx =>
      let v := Vault.step (w.vaults address) tx
      { w with
        vaults := Function.update w.vaults address v
        created := Function.update w.created address
          (recorded (w.created address) (w.vaults address) v) }
  | .createDraft id vaultId label description =>
      -- an id is never given twice
      if id ∈ w.issued then w
      else match createDraft w.db id vaultId label description with
        | .error _ => w
        | .ok db =>
            { w with
              db := db
              issued := w.issued ++ [id] }
  | .update id body =>
      match patch w.db id body with
      | .error _ => w
      | .ok (db, _) => { w with db := db }
  | .delete id =>
      match w.db.deleteAutomation id with
      | .error _ => w
      | .ok db => { w with db := db }
  | .findById id => { w with calls := w.calls ++ [⟨id, .finding⟩] }
  | .resume k m => w.resume cfg k m

end Site

/-! ## What a link must mean -/

/-- The graph of an editor state. -/
def draftGraph (editorState : Option EditorState) : EditorGraph :=
  toGraph ((editorState.bind EditorState.nodes).getD []) ((editorState.bind EditorState.edges).getD [])

/-- `encode` produces the steps for the row, whatever slots and context it finds: from its graph as it
is stored, or mapped to raw values. -/
def Encodes (svc : Services) (a : AutomationRow) (steps : List Step) : Prop :=
  ∃ graph, (graph = draftGraph a.editorState ∨ ∃ decimals,
      mapGraphToRaw (draftGraph a.editorState) svc.stepSchemas decimals = .ok graph) ∧
    ∃ slots onChainCtx overrides r,
      (encode svc slots onChainCtx a.id graph overrides).2 = .ok r ∧ r.steps = steps

namespace Site

/-- The automation `i` of the row's vault was created from the row's graph. -/
def Own (w : Site) (a : AutomationRow) (i : Nat) : Prop :=
  ∃ vault steps, w.db.vaults.find? a.vaultId = some vault ∧
    (w.created vault.address)[i]? = some steps ∧ Encodes cfg.services a steps

/-- What a step links: the row that a call has written, and the id that it gave it. -/
def links (w : Site) : SiteEvent → Option (AutomationRow × Nat)
  | .resume k _ =>
      match w.calls[k]? with
      | some ⟨_, .writing s i stepCount⟩ =>
          match w.db.updateAutomation s.automation.id (linkData i stepCount) with
          | .ok (_, row) => some (row, i)
          | .error _ => none
      | _ => none
  | _ => none

/-- A step links a draft to its own deployment only. -/
def LinksOwn (w : Site) (event : SiteEvent) : Prop :=
  ∀ a i, w.links event = some (a, i) → w.Own cfg a i

/-- The automations on the chain have the steps they were created with. -/
def Recorded (w : Site) : Prop := ∀ address, w.created address = stepsOf (w.vaults address)

/-- Before the first lookup: what is on the chain counts as created with the steps it has. -/
structure Start (w : Site) : Prop where
  created : w.Recorded
  issued : ∀ a ∈ w.db.automations, a.id ∈ w.issued
  calls : w.calls = []

/-- What keeps the links right: an automation that a call reads and that was created from another graph
does not look like the draft, and no edit replaces the graph of a row whose link is about to be
written, unless the automation was created from the new one as well. -/
def Careful (w : Site) : SiteEvent → Prop
  | .resume k m => ∀ c s linked count i targets, w.calls[k]? = some c →
      c.stage = .reading s linked count i → m.answered = true →
      (w.chain cfg).getAutomation s.vault.address i = some targets →
      ∀ a ∈ w.db.automations, a.id = s.automation.id → ¬ w.Own cfg a i →
        looksLike s.nodes s.edges targets = false
  | .update id body => body.onChainId = none → ∀ c ∈ w.calls, ∀ s i stepCount,
      c.stage = .writing s i stepCount → s.automation.id = id → ∀ a ∈ w.db.automations, a.id = id →
      w.Own cfg a i → w.Own cfg { a with editorState := body.editorState.or a.editorState } i
  | _ => True

end Site

/-- No two automations of a vault have the same on-chain id. -/
def LinkedOnce (db : Database) : Prop :=
  ∀ a ∈ db.automations, ∀ b ∈ db.automations, a.vaultId = b.vaultId →
    a.onChainId = b.onChainId → a.onChainId ≠ none → a = b

end System

/-! ## The invariant -/

section Invariant

variable {cfg : Config} {w w' : Site} {a : AutomationRow} {db : Database} {m : FindMoment} {i : Nat}

/-- The rows of `db'` are rows of `db` with the same graph. -/
def SameGraphs (db db' : Database) : Prop :=
  ∀ a' ∈ db'.automations, ∃ a ∈ db.automations, a.id = a'.id ∧ a.vaultId = a'.vaultId ∧
    a.editorState = a'.editorState

theorem SameGraphs.refl (db : Database) : SameGraphs db db :=
  fun a ha => ⟨a, ha, rfl, rfl, rfl⟩

/-- An update without an editor state keeps the graphs. -/
theorem sameGraphs_updateAutomation {db' : Database} {id : String} {data : AutomationData}
    {row : AutomationRow} (h : db.updateAutomation id data = .ok (db', row))
    (hdata : data.editorState = none) : SameGraphs db db' := by
  obtain ⟨b, hb, rfl, -, hdb⟩ := updateAutomation_eq_ok h
  intro a' ha'
  rw [hdb] at ha'
  rcases Table.mem_update.1 ha' with ⟨ha', -⟩ | ⟨a, ha, -, rfl⟩
  · exact ⟨a', ha', rfl, rfl, rfl⟩
  · refine ⟨a, ha, rfl, rfl, ?_⟩
    simp only [AutomationData.apply, hdata, Option.none_or]

theorem sameGraphs_deleteAutomation {db' : Database} {id : String}
    (h : db.deleteAutomation id = .ok db') : SameGraphs db db' := by
  rw [Database.deleteAutomation] at h
  split at h
  · cases h
  · cases h
    intro a ha
    exact ⟨a, (Table.mem_erase.1 ha).1, rfl, rfl, rfl⟩

theorem confirmDeployment_graphs {db' : Database} {id : String} {onChainId stepCount : JsNumber}
    {ownerOnly : Bool} {row : AutomationRow}
    (h : confirmDeployment db id onChainId ownerOnly stepCount = .ok (db', row)) :
    SameGraphs db db' ∧ db'.vaults = db.vaults := by
  rw [confirmDeployment] at h
  split at h
  · exact ⟨sameGraphs_updateAutomation h rfl, (updateAutomation_keeps h).1⟩
  · cases h

/-- A row with the same graph in a later site has the same deployments. -/
theorem Site.Own.mono {a' : AutomationRow} (h : w.Own cfg a i) (hid : a.id = a'.id)
    (hvault : a.vaultId = a'.vaultId) (hgraph : a.editorState = a'.editorState)
    (hvaults : w'.db.vaults = w.db.vaults)
    (hcreated : ∀ address steps, (w.created address)[i]? = some steps →
      (w'.created address)[i]? = some steps) : w'.Own cfg a' i := by
  obtain ⟨vault, steps, hfind, hsteps, hencodes⟩ := h
  refine ⟨vault, steps, ?_, hcreated _ _ hsteps, ?_⟩
  · rw [hvaults, ← hvault]
    exact hfind
  · simp only [Encodes, ← hgraph, ← hid]
    exact hencodes

/-- The row that a call works for. -/
def FindStage.lookup? : FindStage → Option Lookup
  | .finding => none
  | .counting s | .linking s _ | .reading s _ _ _ | .writing s _ _ => some s

/-- The id of the row was given, and what the call is about to link is its own deployment. -/
structure FindStage.Sound (cfg : Config) (w : Site) (stage : FindStage) : Prop where
  issued : ∀ s, stage.lookup? = some s → s.automation.id ∈ w.issued
  own : ∀ s i stepCount, stage = .writing s i stepCount → ∀ a ∈ w.db.automations,
    a.id = s.automation.id → w.Own cfg a i

/-- The ids of rows are issued, and what a call holds is true of the site. -/
structure Site.Inv (cfg : Config) (w : Site) : Prop where
  issued : ∀ a ∈ w.db.automations, a.id ∈ w.issued
  calls : ∀ c ∈ w.calls, c.stage.Sound cfg w

/-- What the steps that leave the graphs alone have in common. -/
structure Keeps (w w' : Site) : Prop where
  graphs : SameGraphs w.db w'.db
  vaults : w'.db.vaults = w.db.vaults
  issued : w'.issued = w.issued
  created : ∀ (address : String) (i : Nat) (steps : List Step),
    (w.created address)[i]? = some steps → (w'.created address)[i]? = some steps

/-- What a call holds stays true while rows keep their graphs and vaults their steps. -/
theorem FindStage.Sound.keeps {stage : FindStage} (h : stage.Sound cfg w) (hkeeps : Keeps w w') :
    stage.Sound cfg w' := by
  constructor
  · rw [hkeeps.issued]
    exact h.issued
  · intro s i stepCount hstage a' ha' hid
    obtain ⟨a, ha, hsame, hvault, hgraph⟩ := hkeeps.graphs a' ha'
    exact (h.own s i stepCount hstage a ha (hsame.trans hid)).mono hsame hvault hgraph hkeeps.vaults
      fun address steps => hkeeps.created address i steps

/-- A step that leaves the graphs alone keeps what its calls have kept. -/
theorem Site.Inv.keeps (h : w.Inv cfg) (hkeeps : Keeps w w')
    (hcalls : ∀ c ∈ w'.calls, c.stage.Sound cfg w) : w'.Inv cfg := by
  constructor
  · intro a' ha'
    obtain ⟨a, ha, hid, -, -⟩ := hkeeps.graphs a' ha'
    rw [hkeeps.issued, ← hid]
    exact h.issued a ha
  · intro c hc
    exact (hcalls c hc).keeps hkeeps

/-! ### A call goes on -/

/-- A call that goes on keeps the graphs and the vaults. -/
theorem FindCall.resume_keeps (cfg : Config) (c : FindCall) (w : Site) (m : FindMoment) :
    SameGraphs w.db (c.resume cfg w m).1 ∧ (c.resume cfg w m).1.vaults = w.db.vaults := by
  have hsame : SameGraphs w.db w.db ∧ w.db.vaults = w.db.vaults := ⟨SameGraphs.refl _, rfl⟩
  rw [FindCall.resume]
  split
  · split
    · split_ifs
      · exact hsame
      · exact hsame
    · exact hsame
  · split
    · exact hsame
    · exact hsame
  · exact hsame
  · split
    · split_ifs
      · exact hsame
      · exact hsame
    · exact hsame
  -- only the last stage writes
  · split
    · exact hsame
    · rename_i db row hupdate
      simp only
      split_ifs
      · exact ⟨sameGraphs_updateAutomation hupdate rfl, (updateAutomation_keeps hupdate).1⟩
      · exact hsame

/-- The lookup is for this row and this vault. -/
theorem Lookup.start?_row {automation : AutomationRow} {vault : VaultRow} {s : Lookup}
    (h : Lookup.start? cfg automation vault = some s) : s.automation = automation ∧ s.vault = vault := by
  rw [Lookup.start?] at h
  split at h
  · cases h
  · split at h
    · cases h
    · split at h
      · cases h
      · cases h
      · split at h
        · cases h
        · cases h
          exact ⟨rfl, rfl⟩

theorem Lookup.next_eq_some {s : Lookup} {linked : Nat → Bool} {count : Nat} {stage : FindStage}
    (h : s.next linked count i = some stage) : ∃ j, stage = .reading s linked count j := by
  obtain ⟨j, -, rfl⟩ := Option.map_eq_some_iff.1 h
  exact ⟨j, rfl⟩

/-- A stage that is not the last is sound where its id was given. -/
theorem FindStage.sound_of_issued {stage : FindStage} {s : Lookup} (hstage : stage.lookup? = some s)
    (hissued : s.automation.id ∈ w.issued) (hne : ∀ s i stepCount, stage ≠ .writing s i stepCount) :
    stage.Sound cfg w := by
  constructor
  · intro s' hs'
    rw [hstage] at hs'
    cases hs'
    exact hissued
  · intro s' i stepCount heq
    exact absurd heq (hne s' i stepCount)

/-- **One step of a call.** It is about to link only what was created from the graph of its draft. -/
theorem FindCall.resume_sound {c : FindCall} {k : Nat} (hw : w.Inv cfg) (hc : w.calls[k]? = some c)
    (hcareful : w.Careful cfg (.resume k m)) {stage : FindStage}
    (h : (c.resume cfg w m).2 = some stage) : stage.Sound cfg w := by
  have hsound : c.stage.Sound cfg w := hw.calls c (List.mem_of_getElem? hc)
  cases hstage : c.stage with
  | finding =>
    simp only [FindCall.resume, hstage] at h
    split at h
    · rename_i automation vault _ hfind
      split_ifs at h
      obtain ⟨s, hs, rfl⟩ := Option.map_eq_some_iff.1 h
      refine FindStage.sound_of_issued rfl ?_ fun _ _ _ heq => by cases heq
      rw [(Lookup.start?_row hs).1]
      exact hw.issued automation (findAutomation_eq_some.1 hfind).1
    · cases h
  | counting s =>
    have hissued := hsound.issued s (by rw [hstage]; rfl)
    simp only [FindCall.resume, hstage] at h
    split at h
    · cases h
      exact FindStage.sound_of_issued rfl hissued fun _ _ _ heq => by cases heq
    · cases h
  | linking s count =>
    have hissued := hsound.issued s (by rw [hstage]; rfl)
    simp only [FindCall.resume, hstage] at h
    split_ifs at h
    · obtain ⟨j, rfl⟩ := Lookup.next_eq_some h
      exact FindStage.sound_of_issued rfl hissued fun _ _ _ heq => by cases heq
  | reading s linked count i =>
    have hissued := hsound.issued s (by rw [hstage]; rfl)
    simp only [FindCall.resume, hstage] at h
    split at h
    · rename_i targets hanswered htargets
      split_ifs at h with hlooks
      · cases h
        refine ⟨?_, ?_⟩
        · intro s' hs'
          cases hs'
          exact hissued
        · intro s' j stepCount heq a ha hid
          cases heq
          -- what looks like the draft and is not its own would not have been passed over
          by_contra hown
          have hother := hcareful c s linked count i targets hc hstage hanswered htargets a ha hid hown
          rw [hlooks] at hother
          cases hother
      · obtain ⟨j, rfl⟩ := Lookup.next_eq_some h
        exact FindStage.sound_of_issued rfl hissued fun _ _ _ heq => by cases heq
    · cases h
  | writing s i stepCount =>
    simp only [FindCall.resume, hstage] at h
    split at h
    · cases h
    · cases h

/-- A call that goes on keeps the invariant. -/
theorem Site.resume_inv (hw : w.Inv cfg) {k : Nat} (hcareful : w.Careful cfg (.resume k m)) :
    (w.resume cfg k m).Inv cfg := by
  rw [Site.resume]
  split
  · exact hw
  · rename_i c hc
    obtain ⟨hgraphs, hvaults⟩ := c.resume_keeps cfg w m
    refine hw.keeps ⟨hgraphs, hvaults, rfl, fun _ _ _ hsteps => hsteps⟩ fun c' hc' => ?_
    simp only at hc'
    split at hc'
    · rename_i stage hstage
      rcases List.mem_or_eq_of_mem_set hc' with hc' | rfl
      · exact hw.calls c' hc'
      · exact FindCall.resume_sound hw hc hcareful hstage
    · exact hw.calls c' (List.mem_of_mem_eraseIdx hc')

/-! ### The other steps -/

theorem recorded_getElem? {created : List (List Step)} {v v' : State} {steps : List Step}
    (h : created[i]? = some steps) : (recorded created v v')[i]? = some steps := by
  rw [recorded]
  split
  · rw [List.getElem?_append_left (List.getElem?_eq_some_iff.1 h).1]
    exact h
  · exact h

/-- What was created stays so. -/
theorem Site.transact_keeps (w : Site) (address : String) (tx : Tx) :
    Keeps w (w.step cfg (.transact address tx)) := by
  refine ⟨SameGraphs.refl _, rfl, rfl, fun address' i steps hsteps => ?_⟩
  simp only [Site.step]
  by_cases heq : address' = address
  · subst heq
    rw [Function.update_self]
    exact recorded_getElem? hsteps
  · rw [Function.update_of_ne heq]
    exact hsteps

/-- A new draft is the only new row. -/
theorem createDraft_eq_ok {db' : Database} {id vaultId : String} {label description : Option String}
    (h : createDraft db id vaultId label description = .ok db') : db'.vaults = db.vaults ∧
      ∀ a ∈ db'.automations, a ∈ db.automations ∨ a.id = id := by
  rw [createDraft] at h
  split at h
  · cases h
  · cases h
    refine ⟨rfl, fun a ha => ?_⟩
    rcases Table.mem_insert.1 ha with ha | ⟨rfl, -⟩
    · exact Or.inl ha
    · exact Or.inr rfl

/-- A new row has an id that no call has seen. -/
theorem Site.createDraft_inv (hw : w.Inv cfg) {id vaultId : String}
    {label description : Option String} :
    (w.step cfg (.createDraft id vaultId label description)).Inv cfg := by
  simp only [Site.step]
  split_ifs with hissued
  · exact hw
  · split
    · exact hw
    · rename_i db hdb
      obtain ⟨hvaults, hrows⟩ := createDraft_eq_ok hdb
      refine ⟨fun a ha => ?_, fun c hc => ⟨fun s hs => ?_, fun s i stepCount hstage a ha hid => ?_⟩⟩
      · rcases hrows a ha with ha | rfl
        · exact List.mem_append_left _ (hw.issued a ha)
        · exact List.mem_append_right _ (List.mem_singleton_self _)
      · exact List.mem_append_left _ ((hw.calls c hc).issued s hs)
      · rcases hrows a ha with ha | rfl
        · exact ((hw.calls c hc).own s i stepCount hstage a ha hid).mono rfl rfl rfl hvaults
            fun _ _ hsteps => hsteps
        · have hold := (hw.calls c hc).issued s (by rw [hstage]; rfl)
          exact absurd (hid ▸ hold) hissued

/-- An edit keeps what a call is about to link, as far as the condition says. -/
theorem Site.update_inv (hw : w.Inv cfg) {id : String} {body : UpdateBody}
    (hcareful : w.Careful cfg (.update id body)) : (w.step cfg (.update id body)).Inv cfg := by
  simp only [Site.step]
  split
  · exact hw
  · rename_i db row hpatch
    rw [patch] at hpatch
    split at hpatch
    · obtain ⟨hgraphs, hvaults⟩ := confirmDeployment_graphs hpatch
      exact hw.keeps ⟨hgraphs, hvaults, rfl, fun _ _ _ hsteps => hsteps⟩ hw.calls
    · rename_i hbody
      have hvaults := (updateAutomation_keeps hpatch).1
      obtain ⟨b, hb, rfl, -, hdb⟩ := updateAutomation_eq_ok hpatch
      refine ⟨fun a ha => ?_, fun c hc => ⟨(hw.calls c hc).issued, ?_⟩⟩
      · rw [hdb] at ha
        rcases Table.mem_update.1 ha with ⟨ha, -⟩ | ⟨a', ha', -, rfl⟩
        · exact hw.issued a ha
        · exact hw.issued a' ha'
      · intro s i stepCount hstage a ha hid
        rw [hdb] at ha
        rcases Table.mem_update.1 ha with ⟨ha, -⟩ | ⟨a', ha', haid, rfl⟩
        · exact ((hw.calls c hc).own s i stepCount hstage a ha hid).mono rfl rfl rfl hvaults
            fun _ _ hsteps => hsteps
        -- the edited row
        · have hown := (hw.calls c hc).own s i stepCount hstage a' ha' hid
          have hedited := hcareful hbody c hc s i stepCount hstage (hid.symm.trans haid) a' ha' haid hown
          exact hedited.mono rfl rfl rfl hvaults fun _ _ hsteps => hsteps

/-- **One step.** Every step keeps the calls sound. -/
theorem Site.step_inv (hw : w.Inv cfg) {event : SiteEvent} (hcareful : w.Careful cfg event) :
    (w.step cfg event).Inv cfg := by
  cases event with
  | transact address tx => exact hw.keeps (w.transact_keeps address tx) hw.calls
  | createDraft id vaultId label description => exact Site.createDraft_inv hw
  | update id body => exact Site.update_inv hw hcareful
  | resume k m => exact Site.resume_inv hw hcareful
  | delete id =>
    simp only [Site.step]
    split
    · exact hw
    · rename_i db hdelete
      have hvaults : db.vaults = w.db.vaults := by
        rw [Database.deleteAutomation] at hdelete
        split at hdelete
        · cases hdelete
        · cases hdelete
          rfl
      exact hw.keeps ⟨sameGraphs_deleteAutomation hdelete, hvaults, rfl, fun _ _ _ hsteps => hsteps⟩
        hw.calls
  | findById id =>
    refine ⟨hw.issued, fun c hc => ?_⟩
    rcases List.mem_append.1 hc with hc | hc
    · exact ⟨(hw.calls c hc).issued, (hw.calls c hc).own⟩
    -- a new call has no row yet
    · rw [List.mem_singleton] at hc
      subst hc
      refine ⟨fun s hs => ?_, fun s i stepCount hstage => ?_⟩
      · cases hs
      · cases hstage

/-- What a call links was created from the graph of its draft. -/
theorem Site.linksOwn (hw : w.Inv cfg) (event : SiteEvent) : w.LinksOwn cfg event := by
  intro row i hlinks
  cases event with
  | resume k m =>
    simp only [Site.links] at hlinks
    split at hlinks
    · rename_i id s j stepCount hcall
      split at hlinks
      · rename_i db row' hupdate
        cases hlinks
        obtain ⟨a, ha, hid, rfl, -⟩ := updateAutomation_eq_ok hupdate
        have hown := (hw.calls _ (List.mem_of_getElem? hcall)).own s i stepCount rfl a ha hid
        exact hown.mono rfl rfl rfl rfl fun _ _ hsteps => hsteps
      · cases hlinks
    · cases hlinks
  | _ => cases hlinks

theorem Site.Start.inv (h : w.Start) : w.Inv cfg := by
  refine ⟨h.issued, fun c hc => ?_⟩
  rw [h.calls] at hc
  cases hc

/-- **A draft is linked to its own deployment**, in every run in which no call reads an automation of
another graph that looks like its draft, and no edit comes between a call and its write. In every
state of every run, no two automations of a vault have the same on-chain id. -/
theorem reconciles_own (cfg : Config) (hw : w.Start) (events : List SiteEvent) :
    (∀ ms, ms <+: events → LinkedOnce (run (Site.step cfg) w ms).db) ∧
      (Admitted (Site.step cfg) (Site.Careful cfg) w events →
        Admitted (Site.step cfg) (Site.LinksOwn cfg) w events) := by
  refine ⟨fun ms _ => (run (Site.step cfg) w ms).db.onChainIds, fun hcareful => ?_⟩
  refine Admitted.of_invariant (I := Site.Inv cfg) (fun w event hw hcareful => ?_)
    (fun w event hw _ => ?_) hw.inv hcareful
  · exact Site.step_inv hw hcareful
  · exact Site.linksOwn hw event

end Invariant

/-! ## A call that is alone -/

section Alone

variable {cfg : Config} {w : Site} {id : String} {s : Lookup} {linked : Nat → Bool} {count : Nat}

/-- The only call goes on, and is answered. -/
def goOn : SiteEvent := .resume 0 ⟨true, true⟩

/-- The site with one call, as long as it has something to await. -/
def Site.alone (w : Site) (id : String) (r : Database × Option FindStage) : Site :=
  { w with
    db := r.1
    calls := (r.2.map (FindCall.mk id)).toList }

/-- The only call goes on as it would by itself. -/
theorem Site.alone_step (w : Site) (id : String) (db : Database) (stage : FindStage) :
    (w.alone id (db, some stage)).step cfg goOn =
      w.alone id ((FindCall.mk id stage).resume cfg { w with db := db } ⟨true, true⟩) := by
  have hresume : (FindCall.mk id stage).resume cfg (w.alone id (db, some stage)) ⟨true, true⟩ =
      (FindCall.mk id stage).resume cfg { w with db := db } ⟨true, true⟩ := by
    cases stage with
    | _ => rfl
  have hcall : (w.alone id (db, some stage)).calls[0]? = some (FindCall.mk id stage) := rfl
  simp only [Site.step, goOn, Site.resume, hcall, hresume]
  cases hstage : ((FindCall.mk id stage).resume cfg { w with db := db } ⟨true, true⟩).2 with
  | none => simp only [Site.alone, hstage, Option.map_none, Option.toList, Option.map_some,
      List.eraseIdx_cons_zero]
  | some next => simp only [Site.alone, hstage, Option.map_some, Option.toList, List.set_cons_zero]

/-- What the search writes. -/
def linkFound (db : Database) (id : String) : Option (Nat × Nat) → Database
  | none => db
  | some (i, stepCount) =>
      match db.updateAutomation id (linkData i stepCount) with
      | .error _ => db
      | .ok (db, _) => db

/-- The call is done after some more answers, and leaves the database `db`. -/
def Settles (cfg : Config) (w : Site) (id : String) (r : Database × Option FindStage)
    (db : Database) : Prop :=
  ∃ n, run (Site.step cfg) (w.alone id r) (List.replicate n goOn) = w.alone id (db, none)

theorem settles_done (db : Database) : Settles cfg w id (db, none) db := ⟨0, rfl⟩

theorem Settles.step {stage : FindStage} {db : Database}
    (h : Settles cfg w id ((FindCall.mk id stage).resume cfg w ⟨true, true⟩) db) :
    Settles cfg w id (w.db, some stage) db := by
  obtain ⟨n, hn⟩ := h
  refine ⟨n + 1, ?_⟩
  rw [List.replicate_succ, run_cons, Site.alone_step]
  exact hn

/-- The search of a call that is alone is the loop in `tryReconcile`. -/
theorem settles_search (cfg : Config) (w : Site) (id : String) (s : Lookup) (linked : Nat → Bool)
    (count k i : Nat) (hk : count - i = k) :
    Settles cfg w id (w.db, s.next linked count i) (linkFound w.db s.automation.id
      (findOnChain linked ((w.chain cfg).getAutomation s.vault.address) s.nodes s.edges
        (List.range' i k))) := by
  induction k generalizing i with
  | zero =>
    have hnext : s.next linked count i = none := by
      rw [Lookup.next, hk]
      rfl
    rw [hnext]
    exact settles_done _
  | succ k ih =>
    have hrest : count - (i + 1) = k := by omega
    rw [List.range'_succ, findOnChain]
    by_cases hlinked : linked i = true
    -- an index that is linked is passed over without a read
    · have hnext : s.next linked count i = s.next linked count (i + 1) := by
        rw [Lookup.next, Lookup.next, hk, hrest, List.range'_succ, List.find?_cons_of_neg]
        rw [hlinked]
        nofun
      rw [if_pos hlinked, hnext]
      exact ih (i + 1) hrest
    · have hnext : s.next linked count i = some (.reading s linked count i) := by
        rw [Lookup.next, hk, List.range'_succ, List.find?_cons_of_pos]
        · rfl
        · rw [Bool.eq_false_of_not_eq_true hlinked]
          rfl
      rw [if_neg hlinked, hnext]
      apply Settles.step
      simp only [FindCall.resume]
      cases (w.chain cfg).getAutomation s.vault.address i with
      | none => exact settles_done _
      | some targets =>
        simp only
        split_ifs
        -- the row is found and written, and the search ends with that
        · apply Settles.step
          simp only [FindCall.resume, linkFound]
          cases w.db.updateAutomation s.automation.id (linkData i targets.length) with
          | error e => exact settles_done _
          | ok written => exact settles_done _
        · exact ih (i + 1) hrest

/-- What is checked before the first await, and what the loop finds then. -/
theorem reconciledData_eq {env : Providers} (henv : env.rpc =
      if cfg.rpcUrl.getD "" = "" then none else some (w.chain cfg))
    (linked : Nat → Bool) (automation : AutomationRow) (vault : VaultRow) :
    reconciledData env linked automation vault = (Lookup.start? cfg automation vault).bind fun s =>
      (findOnChain linked ((w.chain cfg).getAutomation s.vault.address) s.nodes s.edges
        (List.range (w.vaults s.vault.address).automationCount)).map fun (i, stepCount) =>
          linkData i stepCount := by
  rw [reconciledData, Lookup.start?, henv]
  by_cases haddress : vault.address = ""
  · rw [if_pos haddress, if_pos haddress]
    rfl
  rw [if_neg haddress, if_neg haddress]
  cases automation.editorState with
  | none => rfl
  | some editorState =>
    cases hnodes : editorState.nodes with
    | none => simp only [hnodes, Option.bind_none]
    | some nodes =>
      cases nodes with
      | nil => simp only [hnodes, Option.bind_none]
      | cons node nodes =>
        simp only [hnodes]
        split_ifs with hurl
        · rfl
        · rfl

/-- The search in one piece is the one in steps. -/
theorem tryReconcile_eq {env : Providers} (henv : env.rpc =
      if cfg.rpcUrl.getD "" = "" then none else some (w.chain cfg))
    (hstart : Lookup.start? cfg s.automation s.vault = some s) :
    (tryReconcile env w.db s.automation s.vault).1 = linkFound w.db s.automation.id
      (findOnChain (w.db.linked s.vault.id) ((w.chain cfg).getAutomation s.vault.address) s.nodes
        s.edges (List.range (w.vaults s.vault.address).automationCount)) := by
  rw [tryReconcile, reconciledData_eq henv, hstart, Option.bind_some]
  generalize findOnChain (w.db.linked s.vault.id) ((w.chain cfg).getAutomation s.vault.address) s.nodes
    s.edges (List.range (w.vaults s.vault.address).automationCount) = found
  cases found with
  | none => rfl
  | some found =>
    simp only [Option.map_some, linkFound]
    cases w.db.updateAutomation s.automation.id (linkData found.1 found.2) with
    | error e => rfl
    | ok updated => rfl

/-- A call that is alone ends with the tables of the search in one piece. -/
theorem settles_tryReconcile {env : Providers} (henv : env.rpc =
      if cfg.rpcUrl.getD "" = "" then none else some (w.chain cfg))
    (id : String) (automation : AutomationRow) (vault : VaultRow) :
    Settles cfg w id (w.db, (Lookup.start? cfg automation vault).map .counting)
      (tryReconcile env w.db automation vault).1 := by
  cases hstart : Lookup.start? cfg automation vault with
  | none =>
    rw [tryReconcile, reconciledData_eq henv, hstart]
    exact settles_done _
  | some s =>
    obtain ⟨rfl, rfl⟩ := Lookup.start?_row hstart
    rw [tryReconcile_eq henv hstart]
    -- the count and the linked ids, then the search
    have hsearch := settles_search cfg w id s (w.db.linked s.vault.id)
      (w.vaults s.vault.address).automationCount _ 0 rfl
    rw [Nat.sub_zero, ← List.range_eq_range'] at hsearch
    exact Settles.step (Settles.step hsearch)

/-- **A call that is alone** does what `findById` does at once. -/
theorem findById_alone {env : Providers} (henv : env.rpc =
      if cfg.rpcUrl.getD "" = "" then none else some (w.chain cfg))
    (hcalls : w.calls = []) (id : String) :
    ∃ n, run (Site.step cfg) w (.findById id :: List.replicate n goOn) =
      { w with db := (findById env w.db id).1 } := by
  -- each await is answered at once, with nothing in between
  have hsettles : Settles cfg w id (w.db, some .finding) (findById env w.db id).1 := by
    apply Settles.step
    simp only [FindCall.resume, findById]
    cases w.db.findAutomation id with
    | none => exact settles_done _
    | some found =>
      obtain ⟨automation, vault⟩ := found
      simp only
      split_ifs
      · have htry := settles_tryReconcile henv id automation vault
        cases hresult : tryReconcile env w.db automation vault with
        | mk db reconciled =>
          rw [hresult] at htry
          cases reconciled with
          | none => exact htry
          | some row => exact htry
      · exact settles_done _
  obtain ⟨n, hn⟩ := hsettles
  refine ⟨n, ?_⟩
  have hstart : w.step cfg (.findById id) = w.alone id (w.db, some .finding) := by
    simp only [Site.step, Site.alone, hcalls, List.nil_append, Option.map_some, Option.toList]
  rw [run_cons, hstart, hn]
  simp only [Site.alone, Option.map_none, Option.toList, hcalls]

end Alone

/-! ## Two drafts that are alike -/

/-- The text of an address in small letters. -/
def hexAddress (a : Address) : String :=
  let digits := Nat.toDigits 16 a.toNat
  "0x" ++ String.ofList (List.replicate (40 - digits.length) '0' ++ digits)

/-- Three step types without parameters, and a chain. -/
def sampleConfig : Config where
  services := {
    stepTypes := [⟨"always", ⟨7⟩, 0xd89f1e36, [], none⟩, ⟨"notify", ⟨8⟩, 0x09c5eabe, [], none⟩,
      ⟨"claim", ⟨9⟩, 0x4e71d92d, [], none⟩]
    abiEncode := fun types _ => if types = [] then some [] else none }
  rpcUrl := some "http://localhost:8545"
  addressText := hexAddress

/-- A draft of one condition that leads to one action. -/
def sampleDraft (id action : String) (target : Address) : AutomationRow where
  id := id
  vaultId := "v1"
  onChainId := none
  label := none
  description := none
  ownerOnly := false
  editorState := some ⟨some [⟨⟨"node-1", .condition, "always", []⟩, some (hexAddress ⟨7⟩)⟩,
    ⟨⟨"node-2", .action, action, []⟩, some (hexAddress target)⟩], some [⟨"node-1", "node-2", .true⟩]⟩
  stepCount := 0
  isDraft := true

/-- A draft that notifies. -/
def notifyDraft : AutomationRow := sampleDraft "a1" "notify" ⟨8⟩

/-- A draft that claims. -/
def claimDraft : AutomationRow := sampleDraft "a2" "claim" ⟨9⟩

/-- The steps of such a draft. -/
def sampleSteps (target : Address) (selector : Selector) : List Step :=
  [⟨.condition, ⟨7⟩, 0xd89f1e36, 1, DONE, []⟩, ⟨.action, target, selector, DONE, DONE, []⟩]

/-- The draft is encoded to its two steps. -/
theorem notifyDraft_encodes :
    Encodes sampleConfig.services notifyDraft (sampleSteps ⟨8⟩ 0x09c5eabe) := by
  have hok : ∃ r, (encode sampleConfig.services [] (some []) notifyDraft.id
      (draftGraph notifyDraft.editorState) none).2 = .ok r := exists_of_isOk (by decide)
  obtain ⟨r, hr⟩ := hok
  refine ⟨_, Or.inl rfl, [], some [], none, r, hr, ?_⟩
  have hsteps := (encode_ok hr).1.steps
  have hencoded : encodeSteps sampleConfig.services (draftGraph notifyDraft.editorState) [] =
      .ok (sampleSteps ⟨8⟩ 0x09c5eabe) := rfl
  exact Except.ok.inj (hsteps.symm.trans hencoded)

/-- Whatever slots the vault has, the draft is encoded to its own steps. -/
theorem notifyDraft_steps {steps : List Step} (h : Encodes sampleConfig.services notifyDraft steps) :
    steps = sampleSteps ⟨8⟩ 0x09c5eabe := by
  obtain ⟨graph, hgraph, slots, ctx, overrides, r, hr, rfl⟩ := h
  have hsame : graph = draftGraph notifyDraft.editorState := by
    rcases hgraph with rfl | ⟨decimals, hmap⟩
    · rfl
    · have hraw : mapGraphToRaw (draftGraph notifyDraft.editorState)
          sampleConfig.services.stepSchemas decimals = .ok (draftGraph notifyDraft.editorState) := rfl
      exact (Except.ok.inj (hraw.symm.trans hmap)).symm
  subst hsame
  have hsteps := (encode_ok hr).1.steps
  have hslots : (slotMappingOf sampleConfig.services slots notifyDraft.id
      (draftGraph notifyDraft.editorState)).2 = [] := rfl
  have hencoded : encodeSteps sampleConfig.services (draftGraph notifyDraft.editorState) [] =
      .ok (sampleSteps ⟨8⟩ 0x09c5eabe) := rfl
  rw [hslots] at hsteps
  exact Except.ok.inj (hsteps.symm.trans hencoded)

theorem draftsVault_id : ([sampleVault "v1" "0x3333333333333333333333333333333333333333"
    "0x1111111111111111111111111111111111111111"].map VaultRow.id).Nodup := List.nodup_singleton _

theorem draftsVault_address : ([sampleVault "v1" "0x3333333333333333333333333333333333333333"
    "0x1111111111111111111111111111111111111111"].map VaultRow.address).Nodup :=
  List.nodup_singleton _

theorem draftsVault_label : ([sampleVault "v1" "0x3333333333333333333333333333333333333333"
    "0x1111111111111111111111111111111111111111"].map fun v => (v.ownerAddress, v.label)).Nodup :=
  List.nodup_singleton _

/-- One vault with two drafts. -/
def twoDrafts : Database where
  vaults := ⟨[sampleVault "v1" "0x3333333333333333333333333333333333333333"
    "0x1111111111111111111111111111111111111111"], draftsVault_id⟩
  automations := ⟨[notifyDraft, claimDraft], by decide⟩
  addresses := draftsVault_address
  labels := draftsVault_label
  onChainIds := by
    intro a ha b _ _ _ hne
    rcases List.mem_cons.1 ha with rfl | ha
    · exact absurd rfl hne
    · rw [List.mem_singleton] at ha
      subst ha
      exact absurd rfl hne
  references := by
    intro a ha
    refine ⟨_, List.mem_singleton_self _, ?_⟩
    rcases List.mem_cons.1 ha with rfl | ha
    · rfl
    · rw [List.mem_singleton] at ha
      subst ha
      rfl

/-- Both drafts, and nothing on the chain. -/
def sampleSite : Site where
  vaults := fun _ => initialized ⟨1⟩ Address.zero Address.zero
  created := fun _ => []
  db := twoDrafts
  issued := ["a1", "a2"]
  calls := []

theorem sampleSite_start : sampleSite.Start := by
  refine ⟨fun _ => rfl, fun a ha => ?_, rfl⟩
  rcases List.mem_cons.1 ha with rfl | ha
  · exact List.mem_cons_self ..
  · rw [List.mem_singleton] at ha
    subst ha
    exact List.mem_cons_of_mem _ (List.mem_singleton_self _)

/-- The owner creates an automation. -/
def deploy (steps : List Step) : SiteEvent :=
  .transact "0x3333333333333333333333333333333333333333"
    ⟨⟨1⟩, Vault.sampleEnv [], .createAutomation steps⟩

/-- The local variables of a lookup of the first draft. -/
def notifyLookup : Lookup where
  automation := notifyDraft
  vault := sampleVault "v1" "0x3333333333333333333333333333333333333333"
    "0x1111111111111111111111111111111111111111"
  nodes := [⟨⟨"node-1", .condition, "always", []⟩, some (hexAddress ⟨7⟩)⟩,
    ⟨⟨"node-2", .action, "notify", []⟩, some (hexAddress ⟨8⟩)⟩]
  edges := [⟨"node-1", "node-2", .true⟩]

/-- Whatever the second step is, the automation looks like the draft. -/
theorem notify_looksLike (target : Address) :
    looksLike notifyLookup.nodes notifyLookup.edges [hexAddress ⟨7⟩, hexAddress target] = true := by
  have hstep0 : step0 notifyLookup.nodes notifyLookup.edges =
      some ⟨⟨"node-1", .condition, "always", []⟩, some (hexAddress ⟨7⟩)⟩ := rfl
  simp only [looksLike, hstep0, Option.map_some]
  simp [notifyLookup]

/-- A lookup of the first draft on a chain with one automation of two steps. -/
theorem notify_lookup {w : Site} (target : Address) (ok : Site → SiteEvent → Prop)
    (hw : w.db = twoDrafts ∧ w.calls = [])
    (hcount : (w.vaults "0x3333333333333333333333333333333333333333").automationCount = 1)
    (hchain : (w.chain sampleConfig).getAutomation "0x3333333333333333333333333333333333333333" 0 =
      some [hexAddress ⟨7⟩, hexAddress target]) :
    Admitted (Site.step sampleConfig) ok w (.findById "a1" :: List.replicate 5 goOn) ↔
      ok w (.findById "a1") ∧ ok (w.alone "a1" (twoDrafts, some .finding)) goOn ∧
        ok (w.alone "a1" (twoDrafts, some (.counting notifyLookup))) goOn ∧
        ok (w.alone "a1" (twoDrafts, some (.linking notifyLookup 1))) goOn ∧
        ok (w.alone "a1" (twoDrafts, some (.reading notifyLookup (twoDrafts.linked "v1") 1 0))) goOn ∧
        ok (w.alone "a1" (twoDrafts, some (.writing notifyLookup 0 2))) goOn := by
  obtain ⟨hdb, hcalls⟩ := hw
  -- the six stages of the lookup, each with the answer it gets
  have hfind : w.step sampleConfig (.findById "a1") = w.alone "a1" (twoDrafts, some .finding) := by
    simp only [Site.step, Site.alone, hcalls, ← hdb, List.nil_append, Option.map_some, Option.toList]
  have hfinding : (FindCall.mk "a1" .finding).resume sampleConfig { w with db := twoDrafts }
      ⟨true, true⟩ = (twoDrafts, some (.counting notifyLookup)) := rfl
  have hcounting : (FindCall.mk "a1" (.counting notifyLookup)).resume sampleConfig
      { w with db := twoDrafts } ⟨true, true⟩ = (twoDrafts, some (.linking notifyLookup 1)) := by
    rw [← hcount]
    rfl
  have hlinking : (FindCall.mk "a1" (.linking notifyLookup 1)).resume sampleConfig
      { w with db := twoDrafts } ⟨true, true⟩ =
        (twoDrafts, some (.reading notifyLookup (twoDrafts.linked "v1") 1 0)) := rfl
  have hreading : (FindCall.mk "a1"
      (.reading notifyLookup (twoDrafts.linked "v1") 1 0)).resume sampleConfig
      { w with db := twoDrafts } ⟨true, true⟩ = (twoDrafts, some (.writing notifyLookup 0 2)) := by
    have hanswer : (Site.chain sampleConfig { w with db := twoDrafts }).getAutomation
        notifyLookup.vault.address 0 = some [hexAddress ⟨7⟩, hexAddress target] := hchain
    simp only [FindCall.resume, hanswer, notify_looksLike, if_true]
    rfl
  have hsteps : List.replicate 5 goOn = [goOn, goOn, goOn, goOn, goOn] := rfl
  simp only [hsteps, Admitted, hfind, Site.alone_step, hfinding, hcounting, hlinking, hreading, and_true]

/-- The first draft is deployed and then looked up. -/
def ownRun : List SiteEvent :=
  deploy (sampleSteps ⟨8⟩ 0x09c5eabe) :: .findById "a1" :: List.replicate 5 goOn

/-- The second draft is deployed, and the first one looked up. -/
def similarRun : List SiteEvent :=
  deploy (sampleSteps ⟨9⟩ 0x4e71d92d) :: .findById "a1" :: List.replicate 5 goOn

/-- The first draft is linked to what was created from it. -/
theorem reconciles_own_sample :
    Admitted (Site.step sampleConfig) (Site.LinksOwn sampleConfig) sampleSite ownRun ∧
      LinkedOnce (run (Site.step sampleConfig) sampleSite ownRun).db := by
  refine ⟨(reconciles_own sampleConfig sampleSite_start ownRun).2 ⟨trivial, ?_⟩,
    (reconciles_own sampleConfig sampleSite_start ownRun).1 _ (List.prefix_refl _)⟩
  refine (notify_lookup ⟨8⟩ _ ⟨rfl, rfl⟩ rfl rfl).2 ⟨trivial, ?_, ?_, ?_, ?_, ?_⟩
  · intro c s linked count i targets hc hstage
    cases hc
    cases hstage
  · intro c s linked count i targets hc hstage
    cases hc
    cases hstage
  · intro c s linked count i targets hc hstage
    cases hc
    cases hstage
  -- the automation that is read is the draft's own
  · intro c s linked count i targets hc hstage _ _ a ha hid hother
    cases hc
    cases hstage
    have hrow : a = notifyDraft := Table.eq_of_key ha (List.mem_cons_self ..) hid
    subst hrow
    exact absurd ⟨_, _, rfl, rfl, notifyDraft_encodes⟩ hother
  · intro c s linked count i targets hc hstage
    cases hc
    cases hstage

/-- The first draft is linked to what was created from the second. -/
theorem similar_draft_linked : sampleSite.Start ∧
    ¬ Admitted (Site.step sampleConfig) (Site.LinksOwn sampleConfig) sampleSite similarRun := by
  refine ⟨sampleSite_start, fun h => ?_⟩
  have hlast := ((notify_lookup ⟨9⟩ _ ⟨rfl, rfl⟩ rfl rfl).1 h.2).2.2.2.2.2
  obtain ⟨vault, steps, hvault, hsteps, hencodes⟩ := hlast ((linkData 0 2).apply notifyDraft) 0 rfl
  cases hvault
  cases hsteps
  have hsame := notifyDraft_steps hencodes
  exact absurd hsame (by decide)

end StrategyBuilder.Backend.Reconciliation
