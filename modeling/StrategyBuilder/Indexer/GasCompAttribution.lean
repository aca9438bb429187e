import StrategyBuilder.Contracts.VaultSteps
import StrategyBuilder.Indexer.EventMapper

/-!
# Whose gas compensation a row shows

An execution logs `GasCompSettled` right before its own `AutomationExecuted`
(`executeAutomation_emits`). The row of an execution takes the first settlement of its transaction
for the automation id and the executor, of whichever vault and of whichever run. So the rows are right
exactly when the executions that agree in those three were paid alike (`rows_attributed_iff`).
-/

set_option autoImplicit false

namespace StrategyBuilder.Indexer

open StrategyBuilder.Contracts
open StrategyBuilder.Contracts.Vault (Env executeAutomation settleExecutor settleGasComp saveIfDirty)
open StrategyBuilder.Lib.Js

/-! ## What an execution logs -/

/-- The last logs of an execution that paid `comp`, a token and an amount, to its executor. -/
def executionLogs (automationId : Nat) (executor : Address) :
    Option (Address × Nat) → List Vault.Log
  | some (token, amount) =>
      [.gasCompSettled automationId executor token amount, .automationExecuted automationId executor]
  | none => [.automationExecuted automationId executor]

/-- The settlement emits one event, or none. -/
theorem settleGasComp_emits {env : Env} {automationId : Nat} {executor : Address}
    {v v' : Vault.State} (h : settleGasComp env automationId executor v = .ok v') :
    v'.logs = v.logs ∨ ∃ token amount,
      v'.logs = v.logs ++ [.gasCompSettled automationId executor token amount] := by
  rw [settleGasComp] at h
  split at h
  · cases h
    exact Or.inl rfl
  · obtain ⟨amount, -, h⟩ := bind_eq_ok.1 h
    split at h
    · cases h
      exact Or.inr ⟨_, amount, rfl⟩
    · cases h
      exact Or.inl rfl

/-- To save the context emits nothing. -/
theorem saveIfDirty_logs {s : Vault.Loop} {v v' : Vault.State} (h : saveIfDirty s v = .ok v') :
    v'.logs = v.logs := by
  rw [saveIfDirty] at h
  split at h
  · rw [Vault.saveCtx_eq] at h
    cases h
    rfl
  · cases h
    rfl

/-- **The logs of an execution**: the settlement, if there is one, and then the execution. -/
theorem executeAutomation_emits {env : Env} {sender : Address} {automationId : Nat}
    {v v' : Vault.State} (h : executeAutomation env sender automationId v = .ok v') :
    ∃ comp, v'.logs = v.logs ++ executionLogs automationId sender comp := by
  simp only [executeAutomation, bind_eq_ok] at h
  obtain ⟨-, -, -, -, -, -, _, -, _, -, s, -, w, hsave, w', hsettle, hend⟩ := h
  have hw : w.logs = v.logs := saveIfDirty_logs hsave
  have hw' : w'.logs = w.logs ∨ ∃ token amount,
      w'.logs = w.logs ++ [.gasCompSettled automationId sender token amount] := by
    rw [settleExecutor] at hsettle
    split at hsettle
    · exact settleGasComp_emits hsettle
    · cases hsettle
      exact Or.inl rfl
  cases hend
  rcases hw' with hsame | ⟨token, amount, hpaid⟩
  · refine ⟨none, ?_⟩
    show w'.logs ++ _ = _
    rw [hsame, hw]
    rfl
  · refine ⟨some (token, amount), ?_⟩
    show w'.logs ++ _ = _
    rw [hpaid, hw, List.append_assoc]
    rfl

/-! ## Batches -/

/-- The event that a log of a vault is decoded to. -/
def eventOf : Vault.Log → Option VaultEvent
  | .automationExecuted automationId executor => some (.automationExecuted automationId executor)
  | .gasCompSettled automationId executor token amount =>
      some (.gasCompSettled automationId executor token amount)
  | _ => none

/-- One execution: where it happened, and what it paid to its executor. -/
structure Executed where
  vault : Address
  automationId : Nat
  executor : Address
  comp : Option (Address × Nat)
  txHash : String
  blockNumber : Nat
  /-- The index of its first log. -/
  logIndex : Nat
deriving DecidableEq, Repr

namespace Executed

/-- A log of the execution. -/
def log (e : Executed) (event : VaultEvent) (logIndex : Nat) : ParsedVaultLog :=
  ⟨event, e.vault, e.txHash, e.blockNumber, logIndex⟩

/-- The decoded logs of the execution. -/
def logs (e : Executed) : List ParsedVaultLog :=
  (((executionLogs e.automationId e.executor e.comp).filterMap eventOf).zipIdx e.logIndex).map
    fun (event, i) => e.log event i

/-- The index of its `AutomationExecuted`. -/
def executedIndex (e : Executed) : Nat := if e.comp.isSome then e.logIndex + 1 else e.logIndex

/-- The logs of an execution: its settlement, if there is one, and itself. -/
theorem logs_eq (e : Executed) : e.logs =
    (match e.comp with
      | some (token, amount) =>
          [e.log (.gasCompSettled e.automationId e.executor token amount) e.logIndex]
      | none => []) ++ [e.log (.automationExecuted e.automationId e.executor) e.executedIndex] := by
  unfold logs executedIndex
  cases e.comp with
  | none => rfl
  | some c => rfl

/-- The row of the execution with a gas compensation. -/
def rowWith (blockTimestamps : Map Nat Nat) (e : Executed) (comp : Option (Address × Nat)) :
    ExecutionRowData where
  vaultAddress := e.vault
  automationId := e.automationId
  executorAddress := e.executor
  txHash := e.txHash
  blockNumber := e.blockNumber
  logIndex := e.executedIndex
  blockTimestamp := (blockTimestamps e.blockNumber).getD 0 * 1000
  gasCompAmount := comp.map Prod.snd
  gasCompToken := comp.map Prod.fst

/-- What the row of the execution should be. -/
def row (blockTimestamps : Map Nat Nat) (e : Executed) : ExecutionRowData :=
  e.rowWith blockTimestamps e.comp

end Executed

/-- The logs of a batch of executions, in order. -/
def batchLogs (batch : List Executed) : List ParsedVaultLog := batch.flatMap Executed.logs

/-- The settled amounts of a vault and token, over logs. -/
def settledTotal (logs : List ParsedVaultLog) (vault token : Address) : Nat :=
  (logs.map fun l =>
    match l.event with
    | .gasCompSettled _ _ t amount => if l.address = vault ∧ t = token then amount else 0
    | _ => 0).sum

/-- The gas compensation of a vault and token, over rows. -/
def rowTotal (rows : List ExecutionRowData) (vault token : Address) : Nat :=
  (rows.map fun r =>
    if r.vaultAddress = vault ∧ r.gasCompToken = some token then r.gasCompAmount.getD 0 else 0).sum

/-- Every execution has one row, with its own gas compensation, and the rows add up to what the
vaults settled. -/
structure Attributed (blockTimestamps : Map Nat Nat) (batch : List Executed)
    (rows : List ExecutionRowData) : Prop where
  own : rows = batch.map (Executed.row blockTimestamps)
  total : ∀ vault token, rowTotal rows vault token = settledTotal (batchLogs batch) vault token

/-- Executions of one transaction that agree in automation id and executor were paid alike. -/
def PaidAlike (batch : List Executed) : Prop :=
  ∀ e ∈ batch, ∀ e' ∈ batch, e.txHash = e'.txHash → e.automationId = e'.automationId →
    e.executor = e'.executor → e.comp = e'.comp

/-! ## The join -/

/-- The first settlement of the first list, or of the second. -/
theorem findGasComp_append (logs logs' : List ParsedVaultLog) (txHash : String) (automationId : Nat)
    (executor : Address) : findGasComp (logs ++ logs') txHash automationId executor =
      (findGasComp logs txHash automationId executor).or
        (findGasComp logs' txHash automationId executor) := by
  rw [findGasComp]
  exact List.findSome?_append

/-- An execution's logs have its own settlement. -/
theorem findGasComp_logs (e : Executed) (txHash : String) (automationId : Nat) (executor : Address) :
    findGasComp e.logs txHash automationId executor =
      if e.txHash = txHash ∧ e.automationId = automationId ∧ e.executor = executor then e.comp
      else none := by
  rw [Executed.logs_eq]
  cases hcomp : e.comp with
  | none => simp [findGasComp, Executed.log]
  | some c =>
    by_cases hkey : e.txHash = txHash ∧ e.automationId = automationId ∧ e.executor = executor
    · simp [findGasComp, Executed.log, hkey]
    · simp [findGasComp, Executed.log, hkey]

/-- What is found was paid by an execution of the same transaction, automation id and executor; and
where such an execution was paid, something is found. -/
theorem findGasComp_batch (batch : List Executed) (e : Executed) :
    (∀ comp, findGasComp (batchLogs batch) e.txHash e.automationId e.executor = some comp →
      ∃ e' ∈ batch, e'.txHash = e.txHash ∧ e'.automationId = e.automationId ∧
        e'.executor = e.executor ∧ e'.comp = some comp) ∧
    (e ∈ batch → findGasComp (batchLogs batch) e.txHash e.automationId e.executor = none →
      e.comp = none) := by
  induction batch with
  | nil =>
    constructor
    · intro comp h
      cases h
    · intro he
      cases he
  | cons e₀ batch ih =>
    obtain ⟨hsome, hnone⟩ := ih
    -- the first log with this key wins
    have hsplit : findGasComp (batchLogs (e₀ :: batch)) e.txHash e.automationId e.executor =
        (if e₀.txHash = e.txHash ∧ e₀.automationId = e.automationId ∧ e₀.executor = e.executor
          then e₀.comp else none).or
          (findGasComp (batchLogs batch) e.txHash e.automationId e.executor) := by
      rw [batchLogs, List.flatMap_cons, findGasComp_append, findGasComp_logs]
      rfl
    rw [hsplit]
    constructor
    · intro comp h
      rcases Option.or_eq_some_iff.1 h with hfirst | ⟨-, hrest⟩
      · split at hfirst
        · rename_i hkey
          exact ⟨e₀, List.mem_cons_self .., hkey.1, hkey.2.1, hkey.2.2, hfirst⟩
        · cases hfirst
      · obtain ⟨e', he', hkey⟩ := hsome comp hrest
        exact ⟨e', List.mem_cons_of_mem _ he', hkey⟩
    · intro he h
      rw [Option.or_eq_none_iff] at h
      rcases List.mem_cons.1 he with rfl | he
      · simpa using h.1
      · exact hnone he h.2

/-- The rows of a batch: each with what is found for its execution. -/
theorem buildExecutionRows_batch {blockTimestamps : Map Nat Nat} {batch : List Executed}
    (hts : ∀ e ∈ batch, (blockTimestamps e.blockNumber).isSome = true) :
    buildExecutionRows (batchLogs batch) blockTimestamps = .ok (batch.map fun e =>
      e.rowWith blockTimestamps
        (findGasComp (batchLogs batch) e.txHash e.automationId e.executor)) := by
  rw [buildExecutionRows]
  suffices hloop : ∀ (parsedLogs : List ParsedVaultLog) (l : List Executed),
      (∀ e ∈ l, (blockTimestamps e.blockNumber).isSome = true) →
      executionRows parsedLogs blockTimestamps (batchLogs l) = .ok (l.map fun e =>
        e.rowWith blockTimestamps (findGasComp parsedLogs e.txHash e.automationId e.executor)) from
    hloop (batchLogs batch) batch hts
  intro parsedLogs l
  induction l with
  | nil =>
    intro _
    rfl
  | cons e l ih =>
    intro hl
    obtain ⟨ts, hts⟩ := Option.isSome_iff_exists.1 (hl e (List.mem_cons_self ..))
    have hrest := ih fun e' he' => hl e' (List.mem_cons_of_mem _ he')
    have hrow : executionRows parsedLogs blockTimestamps
        (e.log (.automationExecuted e.automationId e.executor) e.executedIndex :: batchLogs l) =
        .ok ((e :: l).map fun e =>
          e.rowWith blockTimestamps (findGasComp parsedLogs e.txHash e.automationId e.executor)) := by
      simp only [executionRows, Executed.log, executionRow, hts, hrest, Executed.rowWith,
        List.map_cons, Option.getD_some]
      rfl
    rw [batchLogs, List.flatMap_cons, Executed.logs_eq]
    -- a log of the compensation gives no row of its own
    cases hcomp : e.comp with
    | none => exact hrow
    | some c => exact hrow

/-! ## Totals -/

theorem settledTotal_append (logs logs' : List ParsedVaultLog) (vault token : Address) :
    settledTotal (logs ++ logs') vault token =
      settledTotal logs vault token + settledTotal logs' vault token := by
  rw [settledTotal, List.map_append, List.sum_append]
  rfl

/-- What the logs of one execution settle is what its own row shows. -/
theorem settledTotal_logs (blockTimestamps : Map Nat Nat) (e : Executed) (vault token : Address) :
    settledTotal e.logs vault token = rowTotal [e.row blockTimestamps] vault token := by
  rw [Executed.logs_eq]
  cases hcomp : e.comp with
  | none => simp [settledTotal, rowTotal, Executed.log, Executed.row, Executed.rowWith, hcomp]
  | some c => simp [settledTotal, rowTotal, Executed.log, Executed.row, Executed.rowWith, hcomp]

/-- What the rows say was paid is what was settled. -/
theorem rowTotal_batch (blockTimestamps : Map Nat Nat) (batch : List Executed)
    (vault token : Address) : rowTotal (batch.map (Executed.row blockTimestamps)) vault token =
      settledTotal (batchLogs batch) vault token := by
  induction batch with
  | nil => rfl
  | cons e batch ih =>
    have hsplit : rowTotal ((e :: batch).map (Executed.row blockTimestamps)) vault token =
        rowTotal [e.row blockTimestamps] vault token +
          rowTotal (batch.map (Executed.row blockTimestamps)) vault token := by
      simp [rowTotal]
    have hlogs : batchLogs (e :: batch) = e.logs ++ batchLogs batch := rfl
    rw [hsplit, ih, hlogs, settledTotal_append, settledTotal_logs blockTimestamps]

/-! ## When the rows are right -/

/-- A row tells what was paid. -/
theorem rowWith_injective {blockTimestamps : Map Nat Nat} {e : Executed}
    {comp comp' : Option (Address × Nat)}
    (h : e.rowWith blockTimestamps comp = e.rowWith blockTimestamps comp') : comp = comp' := by
  have htoken : comp.map Prod.fst = comp'.map Prod.fst := congrArg ExecutionRowData.gasCompToken h
  have hamount : comp.map Prod.snd = comp'.map Prod.snd := congrArg ExecutionRowData.gasCompAmount h
  cases comp with
  | none =>
    cases comp' with
    | none => rfl
    | some c' => cases htoken
  | some c =>
    cases comp' with
    | none => cases htoken
    | some c' =>
      rw [Option.map_some, Option.map_some, Option.some.injEq] at htoken hamount
      rw [Prod.ext htoken hamount]

/-- **The rows of a batch are right exactly when the executions of one transaction that agree in
automation id and executor were paid alike.** -/
theorem rows_attributed_iff {blockTimestamps : Map Nat Nat} {batch : List Executed}
    (hts : ∀ e ∈ batch, (blockTimestamps e.blockNumber).isSome = true) :
    (∃ rows, buildExecutionRows (batchLogs batch) blockTimestamps = .ok rows ∧
      Attributed blockTimestamps batch rows) ↔ PaidAlike batch := by
  rw [buildExecutionRows_batch hts]
  constructor
  · rintro ⟨rows, hrows, hown, -⟩
    cases hrows
    -- a row shows what is found for its transaction, automation id and executor
    have hfound : ∀ e ∈ batch,
        findGasComp (batchLogs batch) e.txHash e.automationId e.executor = e.comp := by
      intro e he
      exact rowWith_injective (List.map_inj_left.1 hown e he)
    intro e he e' he' htx hid hexec
    calc e.comp = findGasComp (batchLogs batch) e.txHash e.automationId e.executor :=
            (hfound e he).symm
      _ = findGasComp (batchLogs batch) e'.txHash e'.automationId e'.executor := by
            rw [htx, hid, hexec]
      _ = e'.comp := hfound e' he'
  · intro halike
    have hown : batch.map (fun e => e.rowWith blockTimestamps
        (findGasComp (batchLogs batch) e.txHash e.automationId e.executor)) =
        batch.map (Executed.row blockTimestamps) := by
      refine List.map_inj_left.2 fun e he => ?_
      have hfound : findGasComp (batchLogs batch) e.txHash e.automationId e.executor = e.comp := by
        obtain ⟨hsome, hnone⟩ := findGasComp_batch batch e
        -- what is found was paid to an execution that looks the same, and that one was paid alike
        cases hfind : findGasComp (batchLogs batch) e.txHash e.automationId e.executor with
        | none => exact (hnone he hfind).symm
        | some comp =>
          obtain ⟨e', he', htx, hid, hexec, hcomp⟩ := hsome comp hfind
          rw [halike e he e' he' htx.symm hid.symm hexec.symm, hcomp]
      rw [Executed.row, hfound]
    exact ⟨_, rfl, hown, fun vault token => by rw [hown, rowTotal_batch]⟩

/-! ## Two vaults in one transaction -/

/-- An executor runs automation 0 of two vaults in one transaction. -/
def twoVaults : List Executed :=
  [⟨⟨1⟩, 0, ⟨4⟩, some (⟨9⟩, 5), "0xaa", 10, 0⟩, ⟨⟨2⟩, 0, ⟨4⟩, some (⟨9⟩, 7), "0xaa", 10, 2⟩]

/-- Two runs of one automation in one transaction that were paid the same. -/
def twoRuns : List Executed :=
  [⟨⟨1⟩, 0, ⟨4⟩, some (⟨9⟩, 5), "0xaa", 10, 0⟩, ⟨⟨1⟩, 0, ⟨4⟩, some (⟨9⟩, 5), "0xaa", 10, 2⟩]

theorem rows_attributed_iff_twoRuns : (∃ rows, buildExecutionRows (batchLogs twoRuns)
    (fun _ => some 0) = .ok rows ∧ Attributed (fun _ => some 0) twoRuns rows) ↔
      PaidAlike twoRuns :=
  rows_attributed_iff fun _ _ => rfl

/-- The second vault's row shows the gas compensation of the first vault. -/
theorem gasComp_of_other_vault : ¬ ∃ rows, buildExecutionRows (batchLogs twoVaults)
    (fun _ => some 0) = .ok rows ∧ Attributed (fun _ => some 0) twoVaults rows := by
  rintro ⟨rows, hrows, hattributed⟩
  -- the row of the second vault shows 5, its settlement is 7
  have htotal := hattributed.total ⟨2⟩ ⟨9⟩
  have heq : buildExecutionRows (batchLogs twoVaults) (fun _ => some 0) =
      .ok [⟨⟨1⟩, 0, ⟨4⟩, "0xaa", 10, 1, 0, some 5, some ⟨9⟩⟩,
        ⟨⟨2⟩, 0, ⟨4⟩, "0xaa", 10, 3, 0, some 5, some ⟨9⟩⟩] := by decide
  rw [heq] at hrows
  cases hrows
  revert htotal
  decide

end StrategyBuilder.Indexer
