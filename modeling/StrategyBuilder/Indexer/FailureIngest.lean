import StrategyBuilder.Indexer.IndexerService

/-!
# Failure reports

`failure-ingest.service.ts`: a keeper reports a failed run, and the reports of one automation are
collapsed into one open row of `ExecutionFailure`. A call reads the vault, reads the open row and then
updates it or creates a new one, each in a database step of its own. A partial unique index keeps two
open rows of one automation apart.

The rows are those that the indexer resolves, with the columns that it does not read. The decoder of
revert data is what `ContractErrorService` answers.
-/

set_option autoImplicit false

namespace StrategyBuilder.Indexer

open StrategyBuilder.Lib
open StrategyBuilder.Lib.Js

/-! ## The table -/

/-- Where the executor has failed. -/
inductive FailurePath where
  | execution
  | triggerCheck
deriving DecidableEq, Repr

/-- A failure that has been reported, with how often it was. -/
structure FailureRow extends ExecutionFailure where
  id : String
  executorAddress : String
  lastTxHash : Option String
  errorMessage : String
  failurePath : FailurePath
  attemptCount : Nat
  firstFailedAt : Nat
  lastFailedAt : Nat
deriving DecidableEq, Repr

/-- `resolvedAt: null` -/
def FailureRow.isOpen (f : FailureRow) : Bool := f.resolvedAt = none

/-- The automation of a row: `vaultId` and `automationId`. -/
def FailureRow.automation (f : FailureRow) : String × Nat := (f.vaultId, f.automationId)

/-- The automation that was executed. -/
def ExecutionRow.automation (r : ExecutionRow) : String × Nat := (r.vaultId, r.automationId)

/-- The automations of the open rows: the column of the index `ExecutionFailure_open_unique`. -/
def openAutomations (rows : List FailureRow) : List (String × Nat) :=
  (rows.filter FailureRow.isOpen).map FailureRow.automation

theorem mem_openAutomations {rows : List FailureRow} {p : String × Nat} :
    p ∈ openAutomations rows ↔ ∃ f ∈ rows, f.isOpen = true ∧ f.automation = p := by
  rw [openAutomations]
  simp only [List.mem_map, List.mem_filter, and_assoc]

/-- A change of rows that opens none and moves none keeps the index. -/
theorem openAutomations_map {rows : List FailureRow} {g : FailureRow → FailureRow}
    (hopen : ∀ f, (g f).isOpen = true → f.isOpen = true)
    (hautomation : ∀ f, (g f).automation = f.automation) :
    (openAutomations (rows.map g)).Sublist (openAutomations rows) := by
  unfold openAutomations
  induction rows with
  | nil => exact List.Sublist.refl _
  | cons f rows ih =>
    rw [List.map_cons, List.filter_cons, List.filter_cons]
    by_cases hg : (g f).isOpen = true
    · rw [if_pos hg, if_pos (hopen f hg), List.map_cons, List.map_cons, hautomation f]
      exact ih.cons_cons _
    · rw [if_neg hg]
      split
      · exact ih.cons _
      · exact ih

/-- The rows of `ExecutionFailure`: no automation has two open ones. -/
structure FailureTable where
  table : Table FailureRow FailureRow.id
  openUnique : (openAutomations table.rows).Nodup

namespace FailureTable

instance : Membership FailureRow FailureTable := ⟨fun t f => f ∈ t.table⟩

theorem mem_table {t : FailureTable} {f : FailureRow} : f ∈ t.table ↔ f ∈ t := Iff.rfl

/-- No failures. -/
def empty : FailureTable := ⟨Table.empty, List.nodup_nil⟩

theorem notMem_empty (f : FailureRow) : f ∉ empty := Table.notMem_empty f

/-- `findFirst` of the open row of an automation. -/
def findOpen (t : FailureTable) (automation : String × Nat) : Option FailureRow :=
  t.table.rows.find? fun f => f.isOpen && f.automation = automation

/-- Change the row with an id; the change neither opens nor moves a row. -/
def update (t : FailureTable) (id : String) (g : FailureRow → FailureRow)
    (hid : ∀ f, (g f).id = f.id) (hopen : ∀ f, (g f).isOpen = f.isOpen)
    (hautomation : ∀ f, (g f).automation = f.automation) : FailureTable where
  table := t.table.update id g hid
  openUnique := by
    refine (openAutomations_map (fun f h => ?_) (fun f => ?_)).nodup t.openUnique
    · split at h
      · rwa [hopen f] at h
      · exact h
    · split
      · exact hautomation f
      · rfl

theorem lawfulBEq_automation : LawfulBEq (String × Nat) := inferInstance

attribute [local instance] lawfulBEq_automation in
/-- A new row; it is refused where its id is taken, or where it is open and an open row of its
automation is there. -/
def create (t : FailureTable) (f : FailureRow) : Option FailureTable :=
  if t.table.Has f.id then none
  else if h : f.isOpen = true ∧ f.automation ∈ openAutomations t.table.rows then none
  else some {
    table := t.table.insert f
    openUnique := by
      unfold Table.insert
      split
      · exact t.openUnique
      · unfold openAutomations
        rw [List.filter_append, List.map_append]
        by_cases hopen : f.isOpen = true
        · rw [List.filter_cons_of_pos hopen, List.filter_nil, List.map_singleton,
            ← List.concat_eq_append]
          exact List.Nodup.concat (fun hmem => h ⟨hopen, hmem⟩) t.openUnique
        · rw [List.filter_cons_of_neg hopen, List.filter_nil, List.map_nil, List.append_nil]
          exact t.openUnique }

/-- The `updateMany` of the transaction in `persist`, for all pairs. -/
def resolve (t : FailureTable) (rows : List ExecutionRow) (now : Nat) : FailureTable where
  table := t.table.mapRows
    (fun f => { f with toExecutionFailure := resolveFailures rows now f.toExecutionFailure })
    fun _ => rfl
  openUnique := by
    refine (openAutomations_map (fun f h => ?_) (fun f => ?_)).nodup t.openUnique
    · unfold resolveFailures FailureRow.isOpen at h
      split at h
      · cases h
      · exact h
    · unfold resolveFailures FailureRow.automation
      split
      · rfl
      · rfl

end FailureTable

/-! ## A call -/

/-- The body of a report. -/
structure FailureIngestDto where
  vaultAddress : String
  automationId : Nat
  txHash : Option String
  executorAddress : String
  errorData : Option String
  errorMessageFallback : Option String
  failurePath : FailurePath
  timestamp : Option String

/-- What the service calls: `getAddress` with the checksummed address, `new Date` of a text with its
milliseconds, and the decoder of reverts. -/
structure IngestServices where
  getAddress : String → Option String
  parseDate : String → Option Nat
  decodeRevert : Option String → Option String → String

/-- What a call knows when it has found its vault; `at` is `none` for an invalid date. -/
structure FailureReport where
  vaultId : String
  dto : FailureIngestDto
  errorMessage : String
  failedAt : Option Nat
  executor : Option String

/-- The automation that failed. -/
def FailureReport.automation (r : FailureReport) : String × Nat := (r.vaultId, r.dto.automationId)

/-- The time of a failure: the event's own, or that of the call. -/
def failedAt (services : IngestServices) (now : Nat) (timestamp : Option String) : Option Nat :=
  match timestamp with
  | none => some now
  | some text => if text = "" then some now else services.parseDate text

/-- What a report says, with the reason decoded. -/
def report (services : IngestServices) (now : Nat) (vaultId : String) (dto : FailureIngestDto) :
    FailureReport where
  vaultId := vaultId
  dto := dto
  errorMessage := services.decodeRevert dto.errorData dto.errorMessageFallback
  failedAt := failedAt services now dto.timestamp
  -- `safeChecksum`
  executor := services.getAddress dto.executorAddress

/-- The `data` of the update, on the row that is there by then; `found` is the row that was read. -/
def FailureReport.apply (r : FailureReport) (failedAt : Nat) (found f : FailureRow) : FailureRow :=
  { f with
    attemptCount := f.attemptCount + 1
    lastFailedAt := failedAt
    errorMessage := r.errorMessage
    failurePath := r.dto.failurePath
    lastTxHash := r.dto.txHash.or found.lastTxHash
    executorAddress := r.executor.getD found.executorAddress }

/-- The row that is created. -/
def FailureReport.row (r : FailureReport) (failedAt : Nat) (id : String) : FailureRow where
  id := id
  vaultId := r.vaultId
  automationId := r.dto.automationId
  resolvedAt := none
  executorAddress := r.executor.getD r.dto.executorAddress
  lastTxHash := r.dto.txHash
  errorMessage := r.errorMessage
  failurePath := r.dto.failurePath
  attemptCount := 1
  firstFailedAt := failedAt
  lastFailedAt := failedAt

/-- The last step of a call: update the row that was found, by its id, or create one. -/
def FailureReport.write (r : FailureReport) (found : Option FailureRow) (id : String)
    (failures : FailureTable) : Option (FailureTable × FailureRow) :=
  match r.failedAt with
  -- the client refuses an invalid date
  | none => none
  | some failedAt =>
      match found with
      | some found =>
          (failures.table.find? found.id).map fun f =>
            (failures.update found.id (r.apply failedAt found) (fun _ => rfl) (fun _ => rfl)
              fun _ => rfl, r.apply failedAt found f)
      | none => (failures.create (r.row failedAt id)).map fun failures => (failures, r.row failedAt id)

/-- A call before its next database step. -/
inductive IngestCall where
  | findVault (dto : FailureIngestDto) (vaultAddress : String)
  | findOpen (report : FailureReport)
  | write (report : FailureReport) (found : Option FailureRow)

/-- A database step: how it ends, the clock, and the id that a new row gets. -/
structure IngestMoment where
  fate : Fate
  now : Nat
  id : String

/-- How a call goes on; the answer is read off the written row. -/
inductive Progress where
  | running (call : IngestCall)
  | returned (row : FailureRow)
  | badRequest (message : String)
  | failed

/-- The calls that the service takes. -/
def ingest (services : IngestServices) (dto : FailureIngestDto) : Progress :=
  match services.getAddress dto.vaultAddress with
  | none => .badRequest "INVALID_VAULT_ADDRESS"
  | some vaultAddress => .running (.findVault dto vaultAddress)

/-- A step that is not answered may have been committed. -/
def committed : Fate → Bool
  | .answered => true
  | .failed effect => effect
  | .stopped effect => effect

/-- The next step of a call, with the failures after it and the automation of a write that was
committed. -/
def IngestCall.next (services : IngestServices) (vaults : Map String String) (m : IngestMoment)
    (failures : FailureTable) : IngestCall → Progress × FailureTable × Option (String × Nat)
  | .findVault dto vaultAddress =>
      if m.fate = .answered then
        match vaults vaultAddress with
        | none => (.badRequest "VAULT_NOT_FOUND", failures, none)
        | some vaultId => (.running (.findOpen (report services m.now vaultId dto)), failures, none)
      else (.failed, failures, none)
  | .findOpen report =>
      if m.fate = .answered then
        (.running (.write report (failures.findOpen report.automation)), failures, none)
      else (.failed, failures, none)
  | .write report found =>
      match report.write found m.id failures with
      | none => (.failed, failures, none)
      | some (failures', row) =>
          -- the row may be written although the answer is lost
          if committed m.fate then
            (if m.fate = .answered then .returned row else .failed, failures',
              some report.automation)
          else (.failed, failures, none)

end StrategyBuilder.Indexer
