import StrategyBuilder.Indexer.IndexerService

/-!
# The chain that is indexed

The history of the chain, and what its logs have to do with the rows: which logs count for a vault
(`Relevant`), when one of them is indexed (`Indexed`), and that no row is there without its log
(`Sound`). The rows that are built of decoded logs are the rows of these logs (`executionRows_of`,
`vaultEventRows_of`).
-/

set_option autoImplicit false

namespace StrategyBuilder.Indexer

open StrategyBuilder.Contracts
open StrategyBuilder.Lib
open StrategyBuilder.Lib.Js

/-- The logs of all blocks; a transaction and an index name one log. -/
structure History where
  blocks : Nat → List RawLog
  blockNumber : ∀ n, ∀ l ∈ blocks n, l.blockNumber = n
  unique : ∀ m n, ∀ l ∈ blocks m, ∀ l' ∈ blocks n, l.transactionHash = l'.transactionHash →
    l.index = l'.index → l = l'

/-- No reorganisation is deeper than the confirmations: what was so deep once stays in the chain. -/
def Confirms (confirmations : Int) (H : History) (outside : Nat → Moment) : Prop :=
  ∀ t t', t ≤ t' → ∀ n : Nat, (n : Int) + confirmations ≤ (outside t).head →
    (outside t').blocks n = H.blocks n

section

variable (cfg : Config) (H : History)

/-- A decodable log of an execution, a deposit or a withdrawal that the address emitted. -/
structure Relevant (a : Address) (n : Nat) (l : RawLog) (event : VaultEvent) : Prop where
  emitted : l ∈ H.blocks n
  address : l.address = a
  decoded : cfg.vaultEventInterface.parseLog l.topics l.data = some event
  counts : event.name ≠ .gasCompSettled

/-- The log has a row. -/
def Indexed (w : World) (l : RawLog) (event : VaultEvent) : Prop :=
  match event.name with
  | .automationExecuted => w.executions.Has (l.transactionHash, l.index)
  | _ => w.vaultEvents.Has (l.transactionHash, l.index)

/-- The columns that a deposit or a withdrawal determines. -/
def VaultEvent.HasFields (eventType : VaultEventType) (token : Address) (amount feeAmount : Nat) :
    VaultEvent → Prop
  | .deposited eventToken eventAmount =>
      eventType = .deposit ∧ token = eventToken ∧ amount = eventAmount
  | .withdrawn eventToken eventAmount fee _ =>
      eventType = .withdraw ∧ token = eventToken ∧ amount = eventAmount ∧ feeAmount = fee
  | _ => False

/-- The row stands for a log of a vault. -/
def ExecutionRow.Stands (vaults : VaultMap) (r : ExecutionRow) : Prop :=
  ∃ v ∈ vaults, ∃ l, r.vaultId = v.id ∧ r.txHash = l.transactionHash ∧ r.logIndex = l.index ∧
    Relevant cfg H v.address r.blockNumber l (.automationExecuted r.automationId r.executorAddress)

/-- The row is that of an event of the chain, of a known vault. -/
def VaultEventRow.Stands (vaults : VaultMap) (r : VaultEventRow) : Prop :=
  ∃ v ∈ vaults, ∃ l event, r.vaultId = v.id ∧ r.txHash = l.transactionHash ∧ r.logIndex = l.index ∧
    event.HasFields r.eventType r.token r.amount r.feeAmount ∧
      Relevant cfg H v.address r.blockNumber l event

/-- Every row stands for a log of a registered vault. -/
structure Sound (w : World) : Prop where
  executions : ∀ r ∈ w.executions, r.Stands cfg H w.vaults
  vaultEvents : ∀ r ∈ w.vaultEvents, r.Stands cfg H w.vaults

end

/-! ## Rows that are built -/

/-- The rows are of the logs that count, and each of these has one. -/
structure RowsOf {Row : Type} (isOf : ParsedVaultLog → Row → Prop) (counts : ParsedVaultLog → Prop)
    (logs : List ParsedVaultLog) (rows : List Row) : Prop where
  log : ∀ r ∈ rows, ∃ p ∈ logs, isOf p r
  row : ∀ p ∈ logs, counts p → ∃ r ∈ rows, isOf p r

section RowsOf

variable {Row : Type} {isOf : ParsedVaultLog → Row → Prop} {counts : ParsedVaultLog → Prop}
  {logs : List ParsedVaultLog} {rows : List Row} {p : ParsedVaultLog} {r : Row}

/-- No logs, no rows. -/
theorem RowsOf.nil : RowsOf isOf counts [] [] := by
  constructor
  · intro r hr
    cases hr
  · intro p hp
    cases hp

/-- A log that does not count has no row. -/
theorem RowsOf.skip (h : RowsOf isOf counts logs rows) (hp : ¬ counts p) :
    RowsOf isOf counts (p :: logs) rows := by
  constructor
  · intro r hr
    obtain ⟨q, hq, hof⟩ := h.log r hr
    exact ⟨q, List.mem_cons_of_mem _ hq, hof⟩
  · intro q hq hcounts
    rcases List.mem_cons.1 hq with rfl | hq
    · exact absurd hcounts hp
    · exact h.row q hq hcounts

/-- A log that counts has its row. -/
theorem RowsOf.cons (h : RowsOf isOf counts logs rows) (hp : isOf p r) :
    RowsOf isOf counts (p :: logs) (r :: rows) := by
  constructor
  · intro r' hr'
    rcases List.mem_cons.1 hr' with rfl | hr'
    · exact ⟨p, List.mem_cons_self .., hp⟩
    · obtain ⟨q, hq, hof⟩ := h.log r' hr'
      exact ⟨q, List.mem_cons_of_mem _ hq, hof⟩
  · intro q hq hcounts
    rcases List.mem_cons.1 hq with rfl | hq
    · exact ⟨r, List.mem_cons_self .., hp⟩
    · obtain ⟨r', hr', hof⟩ := h.row q hq hcounts
      exact ⟨r', List.mem_cons_of_mem _ hr', hof⟩

end RowsOf

/-- What the row of an execution takes over from its log. -/
structure ExecutionRowData.IsOf (p : ParsedVaultLog) (r : ExecutionRowData) : Prop where
  event : p.event = .automationExecuted r.automationId r.executorAddress
  vaultAddress : r.vaultAddress = p.address
  txHash : r.txHash = p.txHash
  blockNumber : r.blockNumber = p.blockNumber
  logIndex : r.logIndex = p.logIndex

/-- What the row of a deposit or a withdrawal takes over from its log. -/
structure VaultEventRowData.IsOf (p : ParsedVaultLog) (r : VaultEventRowData) : Prop where
  event : p.event.HasFields r.eventType r.token r.amount r.feeAmount
  vaultAddress : r.vaultAddress = p.address
  txHash : r.txHash = p.txHash
  blockNumber : r.blockNumber = p.blockNumber
  logIndex : r.logIndex = p.logIndex

section

variable {parsed logs : List ParsedVaultLog} {blockTimestamps : Map Nat Nat}

/-- There is a row for each execution, in order. -/
theorem executionRows_of {rows : List ExecutionRowData}
    (h : executionRows parsed blockTimestamps logs = .ok rows) :
    RowsOf ExecutionRowData.IsOf (fun p => p.event.name = .automationExecuted) logs rows := by
  induction logs generalizing rows with
  | nil =>
    cases h
    exact RowsOf.nil
  | cons p logs ih =>
    rw [executionRows] at h
    cases hevent : p.event with
    -- the row of this event, and then those of the rest
    | automationExecuted automationId executor =>
      simp only [hevent] at h
      cases hrow : executionRow parsed blockTimestamps p automationId executor with
      | error e =>
        simp only [hrow] at h
        cases h
      | ok row =>
        simp only [hrow] at h
        cases hrest : executionRows parsed blockTimestamps logs with
        | error e =>
          simp only [hrest] at h
          cases h
        | ok rest =>
          simp only [hrest] at h
          cases h
          refine (ih hrest).cons ?_
          rw [executionRow] at hrow
          split at hrow
          · cases hrow
          · cases hrow
            exact ⟨hevent, rfl, rfl, rfl, rfl⟩
    -- other events are skipped
    | _ =>
      simp only [hevent] at h
      refine (ih h).skip fun hname => ?_
      rw [hevent] at hname
      cases hname

/-- The row has the fields of its event. -/
theorem vaultEventRow_fields {p : ParsedVaultLog} {eventType : VaultEventType} {token : Address}
    {amount feeAmount feeBps : Nat} {row : VaultEventRowData}
    (h : vaultEventRow blockTimestamps p eventType token amount feeAmount feeBps = .ok row) :
    (row.eventType = eventType ∧ row.token = token ∧ row.amount = amount ∧
      row.feeAmount = feeAmount) ∧ row.vaultAddress = p.address ∧ row.txHash = p.txHash ∧
        row.blockNumber = p.blockNumber ∧ row.logIndex = p.logIndex := by
  rw [vaultEventRow] at h
  split at h
  · cases h
  · cases h
    exact ⟨⟨rfl, rfl, rfl, rfl⟩, rfl, rfl, rfl, rfl⟩

/-- There is a row for each deposit and withdrawal, in order. -/
theorem vaultEventRows_of {depositFeeBps : Nat} {rows : List VaultEventRowData}
    (h : buildVaultEventRows blockTimestamps depositFeeBps logs = .ok rows) :
    RowsOf VaultEventRowData.IsOf (fun p => p.event.name = .deposited ∨ p.event.name = .withdrawn)
      logs rows := by
  induction logs generalizing rows with
  | nil =>
    cases h
    exact RowsOf.nil
  | cons p logs ih =>
    rw [buildVaultEventRows] at h
    cases hevent : p.event with
    | deposited token amount =>
      simp only [hevent] at h
      cases hrow : vaultEventRow blockTimestamps p .deposit token amount
          (amount * depositFeeBps / 10000) depositFeeBps with
      | error e =>
        simp only [hrow] at h
        cases h
      | ok row =>
        simp only [hrow] at h
        cases hrest : buildVaultEventRows blockTimestamps depositFeeBps logs with
        | error e =>
          simp only [hrest] at h
          cases h
        | ok rest =>
          simp only [hrest] at h
          cases h
          obtain ⟨⟨htype, htoken, hamount, -⟩, haddress, hhash, hblock, hindex⟩ :=
            vaultEventRow_fields hrow
          -- the fee of a deposit depends on the rate, so `HasFields` leaves it open
          refine (ih hrest).cons ⟨?_, haddress, hhash, hblock, hindex⟩
          rw [hevent]
          exact ⟨htype, htoken, hamount⟩
    | withdrawn token amount fee recipient =>
      simp only [hevent] at h
      cases hrow : vaultEventRow blockTimestamps p .withdraw token amount fee
          (if 0 < amount then fee * 10000 / amount else 0) with
      | error e =>
        simp only [hrow] at h
        cases h
      | ok row =>
        simp only [hrow] at h
        cases hrest : buildVaultEventRows blockTimestamps depositFeeBps logs with
        | error e =>
          simp only [hrest] at h
          cases h
        | ok rest =>
          simp only [hrest] at h
          cases h
          obtain ⟨hfields, haddress, hhash, hblock, hindex⟩ := vaultEventRow_fields hrow
          refine (ih hrest).cons ⟨?_, haddress, hhash, hblock, hindex⟩
          rw [hevent]
          exact hfields
    -- an execution or a settlement is no deposit and no withdrawal
    | _ =>
      simp only [hevent] at h
      refine (ih h).skip fun hname => ?_
      rw [hevent] at hname
      rcases hname with hname | hname
      · cases hname
      · cases hname

end

/-! ## Logs that are read -/

/-- The logs of the blocks of a range that have one of the topics. -/
def InRange (cfg : Config) (H : History) (range : BlockRange) (l : RawLog) : Prop :=
  (∃ n, range.fromBlock ≤ n ∧ n ≤ range.toBlock ∧ l ∈ H.blocks n) ∧
    hasTopic cfg.vaultEventInterface.allTopics l = true

/-- The logs of the blocks of a range. -/
theorem mem_logsIn {blocks : Nat → List RawLog} {range : BlockRange} {l : RawLog} :
    l ∈ logsIn blocks range ↔ ∃ n, range.fromBlock ≤ n ∧ n ≤ range.toBlock ∧ l ∈ blocks n := by
  rw [logsIn]
  rw [List.mem_flatMap]
  constructor
  · rintro ⟨n, hn, hl⟩
    rw [List.mem_range'_1] at hn
    exact ⟨n, hn.1, by omega, hl⟩
  · rintro ⟨n, hfrom, hto, hl⟩
    exact ⟨n, List.mem_range'_1.2 ⟨hfrom, by omega⟩, hl⟩

/-- A decodable log has one of the topics. -/
theorem Relevant.hasTopic {cfg : Config} {H : History} {a : Address} {n : Nat} {l : RawLog}
    {event : VaultEvent} (h : Relevant cfg H a n l event) :
    hasTopic cfg.vaultEventInterface.allTopics l = true := by
  obtain ⟨topic, htopic, hmem⟩ := cfg.vaultEventInterface.topic_mem h.decoded
  rw [Indexer.hasTopic]
  rw [htopic]
  exact decide_eq_true hmem

/-- The decoded logs of a window are those of the known vaults. -/
theorem mem_parsedLogs {cfg : Config} {V : VaultMap} {logs : List RawLog} {p : ParsedVaultLog} :
    p ∈ parsedLogs cfg V logs ↔ ∃ l ∈ logs, V.Has l.address ∧ ∃ event,
      cfg.vaultEventInterface.parseLog l.topics l.data = some event ∧
        p = ⟨event, l.address, l.transactionHash, l.blockNumber, l.index⟩ := by
  rw [parsedLogs]
  rw [List.mem_filterMap]
  constructor
  · rintro ⟨l, hl, hp⟩
    obtain ⟨hmem, hknown⟩ := List.mem_filter.1 hl
    rw [parseVaultLog] at hp
    obtain ⟨event, hevent, rfl⟩ := Option.map_eq_some_iff.1 hp
    exact ⟨l, hmem, of_decide_eq_true hknown, event, hevent, rfl⟩
  · rintro ⟨l, hmem, hknown, event, hevent, rfl⟩
    refine ⟨l, List.mem_filter.2 ⟨hmem, decide_eq_true hknown⟩, ?_⟩
    rw [parseVaultLog]
    rw [hevent]
    rfl

end StrategyBuilder.Indexer
