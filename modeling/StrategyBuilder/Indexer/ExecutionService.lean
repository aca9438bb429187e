import StrategyBuilder.Indexer.FailureIngest
import StrategyBuilder.Lib.Pagination

/-!
# The unified history

`execution.service.ts`: executions, deposits and withdrawals, and failures of a vault as one list in
pages. Every page is a query of its own with `ORDER BY "blockTimestamp" DESC, "logIndex" DESC`; how rows
with the same timestamp and log index stand is the choice of the database, query by query.

The pages partition the history exactly if no page ends between such rows (`history_partition`).
-/

set_option autoImplicit false

namespace StrategyBuilder.Indexer

open StrategyBuilder.Contracts
open StrategyBuilder.Lib
open StrategyBuilder.Lib.Js
open StrategyBuilder.Lib.Pagination

/-! ## Rows -/

/-- A row with the `id` that the database gives it. -/
structure Stored (Row : Type) where
  id : String
  row : Row

/-- The tables that the history is read from. -/
structure HistoryTables where
  vaults : Map String String
  executions : Table (Stored ExecutionRow) Stored.id
  vaultEvents : Table (Stored VaultEventRow) Stored.id
  failures : Table FailureRow FailureRow.id

/-- What kind of row it is. -/
inductive RowKind where
  | execution
  | vaultEvent
  | failure
deriving DecidableEq, Repr

/-- Whether there was a success since the failure. -/
inductive FailureStatus where
  | open
  | resolved
deriving DecidableEq, Repr

/-- The column `executorAddress`: of a log, or as a keeper reported it. -/
inductive Executor where
  | logged (address : Address)
  | reported (text : String)
deriving DecidableEq, Repr

/-- A row of the history: an execution, a move of the owner, or a failure. -/
structure UnifiedHistoryRow where
  kind : RowKind
  id : String
  txHash : Option String
  blockNumber : Nat
  logIndex : Nat
  blockTimestamp : Nat
  automationId : Option Nat := none
  executorAddress : Option Executor := none
  gasCompAmount : Option Nat := none
  gasCompToken : Option Address := none
  gasCompUsd : Option String := none
  eventType : Option VaultEventType := none
  token : Option Address := none
  amount : Option Nat := none
  amountUsd : Option String := none
  feeAmount : Option Nat := none
  feeBps : Option Nat := none
  failureStatus : Option FailureStatus := none
  errorMessage : Option String := none
  attemptCount : Option Nat := none
  firstFailedAt : Option Nat := none
  lastFailedAt : Option Nat := none
  resolvedAt : Option Nat := none
deriving DecidableEq

/-- `execSelect` -/
def execSelect (r : Stored ExecutionRow) : UnifiedHistoryRow where
  kind := .execution
  id := r.id
  txHash := some r.row.txHash
  blockNumber := r.row.blockNumber
  logIndex := r.row.logIndex
  blockTimestamp := r.row.blockTimestamp
  automationId := some r.row.automationId
  executorAddress := some (.logged r.row.executorAddress)
  gasCompAmount := r.row.gasCompAmount
  gasCompToken := r.row.gasCompToken
  gasCompUsd := r.row.gasCompUsd

/-- `failureSelect`: a failure stands where it failed first. -/
def failureSelect (f : FailureRow) : UnifiedHistoryRow where
  kind := .failure
  id := f.id
  txHash := f.lastTxHash
  blockNumber := 0
  logIndex := 0
  blockTimestamp := f.firstFailedAt
  automationId := some f.automationId
  executorAddress := some (.reported f.executorAddress)
  failureStatus := some (if f.resolvedAt = none then .open else .resolved)
  errorMessage := some f.errorMessage
  attemptCount := some f.attemptCount
  firstFailedAt := some f.firstFailedAt
  lastFailedAt := some f.lastFailedAt
  resolvedAt := f.resolvedAt

/-- `vaultEventSelect` -/
def vaultEventSelect (r : Stored VaultEventRow) : UnifiedHistoryRow where
  kind := .vaultEvent
  id := r.id
  txHash := some r.row.txHash
  blockNumber := r.row.blockNumber
  logIndex := r.row.logIndex
  blockTimestamp := r.row.blockTimestamp
  eventType := some r.row.eventType
  token := some r.row.token
  amount := some r.row.amount
  amountUsd := r.row.amountUsd
  feeAmount := some r.row.feeAmount
  feeBps := some r.row.feeBps

/-! ## The query -/

/-- `execFilter` -/
def execFilter (automationId : Option Nat) (id : Nat) : Bool :=
  match automationId with
  | none => true
  | some filter => id = filter

/-- The three branches: the rows of a vault, or of one automation without deposits and withdrawals. -/
def executionBranch (db : HistoryTables) (vaultId : String) (automationId : Option Nat) :
    List (Stored ExecutionRow) :=
  db.executions.rows.filter fun r =>
    r.row.vaultId = vaultId && execFilter automationId r.row.automationId

/-- The moves of the owner, which no automation has. -/
def vaultEventBranch (db : HistoryTables) (vaultId : String) (automationId : Option Nat) :
    List (Stored VaultEventRow) :=
  match automationId with
  | none => db.vaultEvents.rows.filter fun r => r.row.vaultId = vaultId
  | some _ => []

/-- The failures of the vault, or of one automation. -/
def failureBranch (db : HistoryTables) (vaultId : String) (automationId : Option Nat) :
    List FailureRow :=
  db.failures.rows.filter fun f => f.vaultId = vaultId && execFilter automationId f.automationId

/-- The `UNION ALL` of the branches: the matching rows. -/
def branches (db : HistoryTables) (vaultId : String) (automationId : Option Nat) :
    List UnifiedHistoryRow :=
  (executionBranch db vaultId automationId).map execSelect ++
    ((vaultEventBranch db vaultId automationId).map vaultEventSelect ++
      (failureBranch db vaultId automationId).map failureSelect)

/-- What a history is asked for: the executions, deposits and withdrawals, and failures of the vault, or
the executions and failures of one of its automations. -/
inductive Matching (db : HistoryTables) (vaultId : String) (automationId : Option Nat) :
    UnifiedHistoryRow → Prop
  | execution {r : Stored ExecutionRow} : r ∈ db.executions.rows → r.row.vaultId = vaultId →
      (∀ filter ∈ automationId, r.row.automationId = filter) →
        Matching db vaultId automationId (execSelect r)
  | vaultEvent {r : Stored VaultEventRow} : r ∈ db.vaultEvents.rows → r.row.vaultId = vaultId →
      automationId = none → Matching db vaultId automationId (vaultEventSelect r)
  | failure {f : FailureRow} : f ∈ db.failures.rows → f.vaultId = vaultId →
      (∀ filter ∈ automationId, f.automationId = filter) →
        Matching db vaultId automationId (failureSelect f)

/-- The key of the `ORDER BY`. -/
def sortKey (r : UnifiedHistoryRow) : Nat ×ₗ Nat := toLex (r.blockTimestamp, r.logIndex)

/-- A page of the history. -/
structure ExecutionPage where
  rows : List UnifiedHistoryRow
  total : Nat
  page : Nat
  pageSize : Nat

/-- `getExecutions` with the order that the database chooses for this query. -/
def getExecutions (db : HistoryTables) (orderBy : OrderBy sortKey) (vaultAddress : String)
    (automationId : Option Nat) (page pageSize : Nat) : Except String ExecutionPage :=
  match db.vaults vaultAddress with
  | none => .error "VAULT_NOT_FOUND"
  | some vaultId =>
      let offset := (page - 1) * pageSize
      .ok {
        rows := ((orderBy.sort (branches db vaultId automationId)).drop offset).take pageSize
        total := (executionBranch db vaultId automationId).length +
          (failureBranch db vaultId automationId).length +
          (vaultEventBranch db vaultId automationId).length
        page := page
        pageSize := pageSize }

/-- All pages, as many as the total of the first one says; the query of the page `k + 1` has the order
`orderBy k`. -/
def getPages (db : HistoryTables) (orderBy : Nat → OrderBy sortKey) (vaultAddress : String)
    (automationId : Option Nat) (pageSize : Nat) : Except String (List ExecutionPage) := do
  let first ← getExecutions db (orderBy 0) vaultAddress automationId 1 pageSize
  (List.range (pageCount first.total pageSize)).mapM fun k =>
    getExecutions db (orderBy k) vaultAddress automationId (k + 1) pageSize

/-! ## The pages -/

theorem execFilter_iff {automationId : Option Nat} {id : Nat} :
    execFilter automationId id = true ↔ ∀ filter ∈ automationId, id = filter := by
  cases automationId with
  | none => exact iff_of_true rfl nofun
  | some filter => simp [execFilter]

/-- The branches have the rows that are asked for. -/
theorem mem_branches {db : HistoryTables} {vaultId : String} {automationId : Option Nat}
    {r : UnifiedHistoryRow} :
    r ∈ branches db vaultId automationId ↔ Matching db vaultId automationId r := by
  constructor
  · intro h
    rcases List.mem_append.1 h with h | h
    · obtain ⟨e, he, rfl⟩ := List.mem_map.1 h
      obtain ⟨he, hfilter⟩ := List.mem_filter.1 he
      obtain ⟨hvault, hfilter⟩ := Bool.and_eq_true_iff.1 hfilter
      exact .execution he (of_decide_eq_true hvault) (execFilter_iff.1 hfilter)
    · rcases List.mem_append.1 h with h | h
      · obtain ⟨e, he, rfl⟩ := List.mem_map.1 h
        -- events of the vault belong to no automation, so a filter leaves them out
        cases automationId with
        | none =>
          obtain ⟨he, hvault⟩ := List.mem_filter.1 he
          exact .vaultEvent he (of_decide_eq_true hvault) rfl
        | some filter => cases he
      · obtain ⟨f, hf, rfl⟩ := List.mem_map.1 h
        obtain ⟨hf, hfilter⟩ := List.mem_filter.1 hf
        obtain ⟨hvault, hfilter⟩ := Bool.and_eq_true_iff.1 hfilter
        exact .failure hf (of_decide_eq_true hvault) (execFilter_iff.1 hfilter)
  · intro h
    cases h with
    | execution he hvault hfilter =>
      exact List.mem_append_left _ (List.mem_map_of_mem (List.mem_filter.2
        ⟨he, Bool.and_eq_true_iff.2 ⟨decide_eq_true hvault, execFilter_iff.2 hfilter⟩⟩))
    | vaultEvent he hvault hnone =>
      subst hnone
      exact List.mem_append_right _ (List.mem_append_left _ (List.mem_map_of_mem
        (List.mem_filter.2 ⟨he, decide_eq_true hvault⟩)))
    | failure hf hvault hfilter =>
      exact List.mem_append_right _ (List.mem_append_right _ (List.mem_map_of_mem (List.mem_filter.2
        ⟨hf, Bool.and_eq_true_iff.2 ⟨decide_eq_true hvault, execFilter_iff.2 hfilter⟩⟩)))

/-- The rows that match, counted by their kind. -/
theorem length_branches (db : HistoryTables) (vaultId : String) (automationId : Option Nat) :
    (branches db vaultId automationId).length = (executionBranch db vaultId automationId).length +
      (failureBranch db vaultId automationId).length +
      (vaultEventBranch db vaultId automationId).length := by
  simp only [branches, List.length_append, List.length_map]
  omega

/-- No row stands twice among the matching ones: kind and id tell them apart. -/
theorem nodup_branches (db : HistoryTables) (vaultId : String) (automationId : Option Nat) :
    (branches db vaultId automationId).Nodup := by
  -- the ids of one branch are those of its table
  have hids {Row : Type} {id : Row → String} {l l' : List Row} {select : Row → UnifiedHistoryRow}
      (hnodup : (l'.map id).Nodup) (hsub : l.Sublist l') (hid : ∀ r, (select r).id = id r) :
      (l.map select).Nodup := by
    have heq : (l.map select).map UnifiedHistoryRow.id = l.map id := by
      rw [List.map_map]
      exact List.map_congr_left fun r _ => hid r
    apply List.Nodup.of_map UnifiedHistoryRow.id
    rw [heq]
    exact (hsub.map id).nodup hnodup
  have hexec : ((executionBranch db vaultId automationId).map execSelect).Nodup :=
    hids db.executions.nodup List.filter_sublist fun _ => rfl
  have hfailure : ((failureBranch db vaultId automationId).map failureSelect).Nodup :=
    hids db.failures.nodup List.filter_sublist fun _ => rfl
  have hevent : ((vaultEventBranch db vaultId automationId).map vaultEventSelect).Nodup := by
    cases automationId with
    | none => exact hids db.vaultEvents.nodup List.filter_sublist fun _ => rfl
    | some _ => exact List.nodup_nil
  -- rows of two branches differ in their kinds
  rw [branches, List.nodup_append', List.nodup_append']
  refine ⟨hexec, ⟨hevent, hfailure, fun r hr hr' => ?_⟩, fun r hr hr' => ?_⟩
  · obtain ⟨e, -, rfl⟩ := List.mem_map.1 hr
    obtain ⟨f, -, heq⟩ := List.mem_map.1 hr'
    cases congrArg UnifiedHistoryRow.kind heq
  · obtain ⟨e, -, rfl⟩ := List.mem_map.1 hr
    rcases List.mem_append.1 hr' with hr' | hr'
    · obtain ⟨f, -, heq⟩ := List.mem_map.1 hr'
      cases congrArg UnifiedHistoryRow.kind heq
    · obtain ⟨f, -, heq⟩ := List.mem_map.1 hr'
      cases congrArg UnifiedHistoryRow.kind heq

/-- The pages of a vault that is there. -/
theorem getPages_rows {db : HistoryTables} {vaultAddress vaultId : String}
    (hvault : db.vaults vaultAddress = some vaultId) (orderBy : Nat → OrderBy sortKey)
    (automationId : Option Nat) (pageSize : Nat) :
    ∃ answer, getPages db orderBy vaultAddress automationId pageSize = .ok answer ∧
      answer.flatMap ExecutionPage.rows =
        pages pageSize (fun k => (orderBy k).sort (branches db vaultId automationId))
          (pageCount (branches db vaultId automationId).length pageSize) := by
  let total := (branches db vaultId automationId).length
  let pageOf (k : Nat) : ExecutionPage :=
    ⟨page pageSize k ((orderBy k).sort (branches db vaultId automationId)), total, k + 1, pageSize⟩
  have hpage (k : Nat) :
      getExecutions db (orderBy k) vaultAddress automationId (k + 1) pageSize = .ok (pageOf k) := by
    simp only [getExecutions, hvault, ← length_branches, Nat.add_sub_cancel]
    rfl
  have hmap (l : List Nat) : (l.mapM fun k =>
      getExecutions db (orderBy k) vaultAddress automationId (k + 1) pageSize) =
        .ok (l.map pageOf) := by
    induction l with
    | nil => rfl
    | cons k l ih =>
      rw [List.mapM_cons, hpage, ih]
      rfl
  -- every page says the same total, so the first one decides how many there are
  refine ⟨(List.range (pageCount total pageSize)).map pageOf, ?_, ?_⟩
  · have hfirst := hpage 0
    rw [Nat.zero_add] at hfirst
    rw [getPages, hfirst]
    exact hmap _
  · rw [List.flatMap_map]
    rfl

/-- **Pages partition the history**, whatever order the database chooses for each query, exactly if the
rows of one timestamp and log index stand on one page. The history has every row that is asked for, and
none twice. -/
theorem history_partition (db : HistoryTables) (vaultAddress vaultId : String)
    (hvault : db.vaults vaultAddress = some vaultId) (automationId : Option Nat) (pageSize : Nat)
    (hsize : 1 ≤ pageSize) :
    ((∀ r, r ∈ branches db vaultId automationId ↔ Matching db vaultId automationId r) ∧
      (branches db vaultId automationId).Nodup) ∧
    ((∀ orderBy : Nat → OrderBy sortKey, ∃ answer,
        getPages db orderBy vaultAddress automationId pageSize = .ok answer ∧
          (answer.flatMap ExecutionPage.rows).Perm (branches db vaultId automationId)) ↔
      TiesOnOnePage sortKey (branches db vaultId automationId) pageSize) := by
  refine ⟨⟨fun _ => mem_branches, nodup_branches db vaultId automationId⟩, ?_⟩
  rw [← pages_perm_iff hsize (nodup_branches db vaultId automationId)]
  refine forall_congr' fun orderBy => ?_
  obtain ⟨answer, hanswer, hrows⟩ := getPages_rows hvault orderBy automationId pageSize
  constructor
  · rintro ⟨answer', hanswer', hperm⟩
    rw [hanswer] at hanswer'
    cases hanswer'
    rwa [hrows] at hperm
  · intro hperm
    refine ⟨answer, hanswer, ?_⟩
    rwa [hrows]

/-! ## Two rows of one second -/

section Sample

/-- A run of automation 3 of a vault in block 41, as the first log of it. -/
def sampleExecuted (id vaultId : String) : Stored ExecutionRow where
  id := id
  row := {
    vaultId := vaultId
    automationId := 3
    executorAddress := ⟨7⟩
    txHash := "0xaa"
    blockNumber := 41
    logIndex := 0
    blockTimestamp := 1780678800000
    gasCompAmount := none
    gasCompToken := none
    gasCompUsd := none }

/-- A deposit in the block before. -/
def sampleDeposited : Stored VaultEventRow where
  id := "deposit-1"
  row := {
    vaultId := "vault-1"
    eventType := .deposit
    token := ⟨5⟩
    amount := 1000
    feeAmount := 0
    feeBps := 0
    txHash := "0xbb"
    blockNumber := 40
    logIndex := 2
    blockTimestamp := 1780678797000
    amountUsd := none }

/-- A failure of automation 4, first reported at some time. -/
def sampleFailed (firstFailedAt : Nat) : FailureRow where
  vaultId := "vault-1"
  automationId := 4
  resolvedAt := none
  id := "failure-1"
  executorAddress := "0x0000000000000000000000000000000000000007"
  lastTxHash := none
  errorMessage := "Condition failed"
  failurePath := .triggerCheck
  attemptCount := 1
  firstFailedAt := firstFailedAt
  lastFailedAt := firstFailedAt

/-- The run, the deposit and the failure, with a run of another vault at the time of the first. -/
def sampleTables (firstFailedAt : Nat) : HistoryTables where
  vaults address := if address = "0x01" then some "vault-1" else none
  executions := ⟨[sampleExecuted "run-1" "vault-1", sampleExecuted "run-2" "vault-2"], by decide⟩
  vaultEvents := ⟨[sampleDeposited], List.nodup_singleton _⟩
  failures := ⟨[sampleFailed firstFailedAt], List.nodup_singleton _⟩

end Sample

/-- The failure is a second younger than the run, and the deposit older: a page has one of them. The run
of the other vault is on none. -/
theorem history_partition_sample :
    (sampleTables 1780678801000).vaults "0x01" = some "vault-1" ∧
      (∀ orderBy : Nat → OrderBy sortKey, ∃ answer,
        getPages (sampleTables 1780678801000) orderBy "0x01" none 1 = .ok answer ∧
          (answer.flatMap ExecutionPage.rows).Perm
            (branches (sampleTables 1780678801000) "vault-1" none)) ∧
      Matching (sampleTables 1780678801000) "vault-1" none (vaultEventSelect sampleDeposited) ∧
      ¬ Matching (sampleTables 1780678801000) "vault-1" none
        (execSelect (sampleExecuted "run-2" "vault-2")) := by
  obtain ⟨⟨hmatching, -⟩, hpages⟩ :=
    history_partition (sampleTables 1780678801000) "0x01" "vault-1" rfl none 1 (Nat.le_refl 1)
  refine ⟨rfl, hpages.2 (by decide), (hmatching _).1 (by decide), fun hother => ?_⟩
  exact absurd ((hmatching _).2 hother) (by decide)

/-- The failure came in the second of the run: one row may stand on both pages, the other on none. -/
theorem tie_splits_pages : ¬ ∀ orderBy : Nat → OrderBy sortKey, ∃ answer,
    getPages (sampleTables 1780678800000) orderBy "0x01" none 1 = .ok answer ∧
      (answer.flatMap ExecutionPage.rows).Perm
        (branches (sampleTables 1780678800000) "vault-1" none) := by
  intro h
  have hvault : (sampleTables 1780678800000).vaults "0x01" = some "vault-1" := rfl
  have hperm : ∀ orderBy : Nat → OrderBy sortKey, (pages 1
      (fun k => (orderBy k).sort (branches (sampleTables 1780678800000) "vault-1" none)) 3).Perm
        (branches (sampleTables 1780678800000) "vault-1" none) := by
    intro orderBy
    obtain ⟨answer, hanswer, hrows⟩ := getPages_rows hvault orderBy none 1
    obtain ⟨answer', hanswer', hperm⟩ := h orderBy
    rw [hanswer] at hanswer'
    cases hanswer'
    rwa [hrows] at hperm
  -- the two rows tie across the end of the first page
  have hties := (pages_perm_iff (Nat.le_refl 1) (nodup_branches _ _ _)).1 hperm
  exact absurd hties (by decide)

end StrategyBuilder.Indexer
