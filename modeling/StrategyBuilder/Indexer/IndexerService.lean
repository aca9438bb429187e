import StrategyBuilder.Indexer.ProtocolFlow
import StrategyBuilder.Indexer.RangePlanner
import StrategyBuilder.Lib.Async

/-!
# The indexer

`indexer.service.ts` over its tables and `IndexerCursorStore`: a tick reads the confirmed logs of all
vaults window by window, stores their rows and advances the cursor.

Every await is a call at a moment (`Moment`), which says what the chain and the prices are then, how
the call ends and which vaults were registered since. An amount in USD is what the moment says, and the
decimals that it takes are read with the prices. What goes to the web socket is left out.
-/

set_option autoImplicit false

namespace StrategyBuilder.Indexer

open StrategyBuilder.Contracts
open StrategyBuilder.Lib
open StrategyBuilder.Lib.Js

/-! ## The tables -/

/-- A row of the executions. -/
structure ExecutionRow where
  vaultId : String
  automationId : Nat
  executorAddress : Address
  txHash : String
  blockNumber : Nat
  logIndex : Nat
  blockTimestamp : Nat
  gasCompAmount : Option Nat
  gasCompToken : Option Address
  gasCompUsd : Option String
deriving DecidableEq, Repr

/-- A row of the deposits and withdrawals. -/
structure VaultEventRow where
  vaultId : String
  eventType : VaultEventType
  token : Address
  amount : Nat
  amountUsd : Option String
  feeAmount : Nat
  feeBps : Nat
  txHash : String
  blockNumber : Nat
  logIndex : Nat
  blockTimestamp : Nat
deriving DecidableEq, Repr

/-- A row of the flows between a vault and a protocol. -/
structure FlowRow where
  vaultId : String
  draft : ProtocolFlowDraft
  amountUsd : Option String
  txHash : String
  blockNumber : Nat
  logIndex : Nat
  blockTimestamp : Nat
deriving DecidableEq, Repr

/-- What the indexer uses of a failure. -/
structure ExecutionFailure where
  vaultId : String
  automationId : Nat
  resolvedAt : Option Nat
deriving DecidableEq, Repr

/-- `@@unique([txHash, logIndex])` -/
def ExecutionRow.key (r : ExecutionRow) : String × Nat := (r.txHash, r.logIndex)

/-- A log is stored once. -/
def VaultEventRow.key (r : VaultEventRow) : String × Nat := (r.txHash, r.logIndex)

/-- A log is stored once. -/
def FlowRow.key (r : FlowRow) : String × Nat := (r.txHash, r.logIndex)

/-- The row of the feed in `IndexerCursor`. -/
structure Cursor where
  lastProcessedBlock : Nat
  lastProcessedBlockTimestamp : Option Nat
deriving DecidableEq, Repr

/-- The tables, and the one field of the service that a tick leaves for the next. -/
structure World where
  vaults : VaultMap
  executions : Table ExecutionRow ExecutionRow.key
  vaultEvents : Table VaultEventRow VaultEventRow.key
  protocolFlows : Table FlowRow FlowRow.key
  failures : List ExecutionFailure
  cursor : Option Cursor
  flowSubs : Option (List LogSubscription)

/-- `createVault`; an address is registered once. -/
def World.register (w : World) (vaults : List VaultEntry) : World :=
  { w with vaults := w.vaults.insertMany vaults }

/-- What a process that ends forgets. -/
def World.forget (w : World) : World := { w with flowSubs := none }

/-! ## The outside -/

/-- The calls of the flow part. -/
inductive FlowCall where
  | getLogs
  | getBlock
  | findMany
  | prices
  | createMany
deriving DecidableEq, Repr

/-- The awaits of the indexer. -/
inductive Call where
  | getBlockNumber
  | getCursor
  | minCreatedAtBlock
  | initCursor
  | findVaults
  | getLogs (range : BlockRange)
  | getBlock (block : Nat)
  | findExecutions
  | findVaultEvents
  | prices
  | transaction
  | findCreated
  | depositFeeBps
  | createVaultEvents
  | advance
  | logSubscriptions (source : Nat)
  /-- The calls of the flow part of a window. -/
  | flow (range : BlockRange) (call : FlowCall)
deriving DecidableEq, Repr

/-- What is outside the indexer when a call is made. -/
structure Moment where
  fate : Call → Fate
  /-- The vaults that were registered since the last call. -/
  registered : List VaultEntry
  head : Nat
  /-- The logs of every block, as the node sees the chain. -/
  blocks : Nat → List RawLog
  timestamp : Nat → Option Nat
  depositFeeBps : Nat
  usd : Address → Nat → Option String
  now : Nat
  /-- What a flow source answers; `none` where it throws. -/
  logSubscriptions : Nat → Option (List LogSubscription)

/-- The environment variables and the number of flow sources, with the interface of the vaults. -/
structure Config where
  confirmations : Int
  maxRange : Int
  startBlockOverride : Option Int
  feeRegistryAddress : Option Address
  flowSources : Nat
  vaultEventInterface : EventInterface

/-- A part of a tick, with the world that it finds at each await. -/
abbrev Program (α : Type) := Async Moment World α

/-- A call that is awaited: it may fail, and vaults may be registered meanwhile. -/
def await {α : Type} (call : Call) (f : Moment → World → Option (α × World)) : Program α :=
  Async.call (fun m => m.fate call) (fun m w => w.register m.registered) f

/-- A call that changes nothing. -/
def query {α : Type} (call : Call) (f : Moment → World → α) : Program α :=
  await call fun m w => some (f m w, w)

/-! ## The cursor -/

namespace IndexerCursorStore

/-- `IndexerCursorStore.get` -/
def get : Program (Option Nat) := query .getCursor fun _ w => w.cursor.map Cursor.lastProcessedBlock

/-- `IndexerCursorStore.initIfMissing`: an upsert that changes nothing of a row that is there. -/
def initIfMissing (block : Nat) : Program Unit :=
  await .initCursor fun _ w =>
    match w.cursor with
    | some _ => some ((), w)
    | none => some ((), { w with cursor := some ⟨block, none⟩ })

/-- `IndexerCursorStore.advance`: an update, which throws without a row. -/
def advance (block blockTimestamp : Nat) : Program Unit :=
  await .advance fun _ w =>
    match w.cursor with
    | none => none
    | some _ => some ((), { w with cursor := some ⟨block, some blockTimestamp⟩ })

end IndexerCursorStore

/-- The head of the chain. -/
def getBlockNumber : Program Nat := query .getBlockNumber fun m _ => m.head

/-- `_min: { createdAtBlock: true }` -/
def minCreatedAtBlock (vaults : List VaultEntry) : Option Int :=
  (vaults.map VaultEntry.createdAtBlock).min?

/-- Where a new cursor starts: before the override, before the oldest vault, or at the head. -/
def seedBlock (cfg : Config) : Program Nat :=
  match cfg.startBlockOverride with
  -- `Math.max(0, …)` is what `toNat` does
  | some startBlock => pure (startBlock - 1).toNat
  | none => do
      let min ← query .minCreatedAtBlock fun _ w => minCreatedAtBlock w.vaults.rows
      match min with
      | some block => pure (block - 1).toNat
      | none => getBlockNumber

/-- `ensureCursorSeeded`: a cursor that is there stays. -/
def ensureCursorSeeded (cfg : Config) : Program Unit := do
  let existing ← IndexerCursorStore.get
  match existing with
  | some _ => pure ()
  | none => do
      let seed ← seedBlock cfg
      IndexerCursorStore.initIfMissing seed

/-! ## Reading the chain -/

/-- The logs of a range. -/
def logsIn (blocks : Nat → List RawLog) (range : BlockRange) : List RawLog :=
  (List.range' range.fromBlock (range.toBlock + 1 - range.fromBlock)).flatMap blocks

/-- The log has one of the topics. -/
def hasTopic (topics : List String) (log : RawLog) : Bool :=
  match log.topics.head? with
  | some topic => topic ∈ topics
  | none => false

/-- The logs of the range with a topic of the vaults. -/
def getLogs (cfg : Config) (range : BlockRange) : Program (List RawLog) :=
  query (.getLogs range) fun m _ =>
    (logsIn m.blocks range).filter (hasTopic cfg.vaultEventInterface.allTopics)

/-- `fetchLogs`, for ranges that span at most `n` blocks more than one. -/
def fetchLogsWithin (cfg : Config) : Nat → BlockRange → Program (List RawLog)
  | 0, range => getLogs cfg range
  | n + 1, range =>
      (getLogs cfg range).tryCatch
        (if range.fromBlock < range.toBlock then
          (RangePlanner.halve range).foldlM
            (fun out half => do
              let logs ← fetchLogsWithin cfg n half
              pure (out ++ logs)) []
        -- a single block that is refused fails the tick
        else Async.throw)

/-- `fetchLogs`: a range that is refused is halved. -/
def fetchLogs (cfg : Config) (range : BlockRange) : Program (List RawLog) :=
  fetchLogsWithin cfg (range.toBlock - range.fromBlock) range

/-- It throws where the block is not found. -/
def blockTimestamp (call : Call) (block : Nat) : Program Nat :=
  await call fun m w => (m.timestamp block).map fun timestamp => (timestamp, w)

/-- The timestamps of the blocks, each read once. -/
def resolveTimestamps (call : Nat → Call) (blocks : List Nat) : Program (Map Nat Nat) :=
  (distinct blocks).foldlM
    (fun out block => do
      let timestamp ← blockTimestamp (call block) block
      pure (out.set block timestamp)) Map.empty

/-- The times of the blocks of the logs, each read once. -/
def resolveBlockTimestamps (logs : List ParsedVaultLog) : Program (Map Nat Nat) :=
  resolveTimestamps Call.getBlock (logs.map ParsedVaultLog.blockNumber)

/-- The fee rate of the registry at this time, or 0. -/
def readDepositFeeBps (cfg : Config) : Program Nat :=
  match cfg.feeRegistryAddress with
  | none => pure 0
  | some _ => (query .depositFeeBps fun m _ => m.depositFeeBps).tryCatch (pure 0)

/-- Prices are only asked for where there is an amount of a token. -/
def computeUsd (call : Call) (items : List (Option Address × Option Nat)) :
    Program (List (Option String)) :=
  if items.any fun (token, amount) => token.isSome && amount.isSome then
    query call fun m _ => items.map fun
      | (some token, some amount) => m.usd token amount
      | _ => none
  else pure (items.map fun _ => none)

/-! ## Storing rows -/

/-- `vaultByAddress.get(vaultAddress)!`: the logs are gated on known vaults. -/
def vaultIdOf (vaultByAddress : VaultMap) (vaultAddress : Address) : String :=
  ((vaultByAddress.find? vaultAddress).map VaultEntry.id).getD ""

/-- What `findMany` finds of the keys. -/
def existingKeys {Row : Type} {key : Row → String × Nat} (table : Table Row key)
    (keys : List (String × Nat)) : List (String × Nat) :=
  keys.filter fun k => table.Has k

/-- What the three `persist` methods have in common: of the rows whose keys are not in the table yet,
compute the USD value and store them. -/
def persistNew {Data Row : Type} {key : Row → String × Nat} (find usdCall : Call)
    (table : World → Table Row key) (keyOf : Data → String × Nat)
    (item : Data → Option Address × Option Nat) (build : Data → Option String → Row)
    (store : List Row → Program Unit) (rows : List Data) : Program Unit := do
  let existing ← query find fun _ w => existingKeys (table w) (rows.map keyOf)
  let newRows := rows.filter fun r => keyOf r ∉ existing
  if newRows.length = 0 then pure ()
  else do
    let usd ← computeUsd usdCall (newRows.map item)
    store (List.zipWith build newRows usd)

/-- The row of an execution, under the id of its vault. -/
def executionOf (vaultByAddress : VaultMap) (r : ExecutionRowData) (usd : Option String) :
    ExecutionRow where
  vaultId := vaultIdOf vaultByAddress r.vaultAddress
  automationId := r.automationId
  executorAddress := r.executorAddress
  txHash := r.txHash
  blockNumber := r.blockNumber
  logIndex := r.logIndex
  blockTimestamp := r.blockTimestamp
  gasCompAmount := r.gasCompAmount
  gasCompToken := r.gasCompToken
  gasCompUsd := usd

/-- A success resolves the open failure of its automation. -/
def resolveFailures (rows : List ExecutionRow) (now : Nat) (f : ExecutionFailure) :
    ExecutionFailure :=
  if f.resolvedAt = none ∧ rows.any (fun r => r.vaultId = f.vaultId && r.automationId = f.automationId)
  then { f with resolvedAt := some now }
  else f

/-- Rows and resolved failures are stored in one transaction; then the rows are read back. -/
def storeExecutions (data : List ExecutionRow) : Program Unit := do
  await .transaction fun m w => some ((), { w with
    executions := w.executions.insertMany data
    failures := w.failures.map (resolveFailures data m.now) })
  -- only the web socket gets what is read back, but the read may fail
  query .findCreated fun _ _ => ()

/-- `persist`: the executions that are not stored yet, with prices. -/
def persist (rows : List ExecutionRowData) (vaultByAddress : VaultMap) : Program Unit :=
  persistNew .findExecutions .prices World.executions (fun r => (r.txHash, r.logIndex))
    (fun r => (r.gasCompToken, r.gasCompAmount)) (executionOf vaultByAddress) storeExecutions rows

/-- The row of a deposit or withdrawal, under the id of its vault. -/
def vaultEventOf (vaultByAddress : VaultMap) (r : VaultEventRowData) (usd : Option String) :
    VaultEventRow where
  vaultId := vaultIdOf vaultByAddress r.vaultAddress
  eventType := r.eventType
  token := r.token
  amount := r.amount
  amountUsd := usd
  feeAmount := r.feeAmount
  feeBps := r.feeBps
  txHash := r.txHash
  blockNumber := r.blockNumber
  logIndex := r.logIndex
  blockTimestamp := r.blockTimestamp

/-- The rows are inserted; those that are there are skipped. -/
def storeVaultEvents (data : List VaultEventRow) : Program Unit :=
  await .createVaultEvents fun _ w => some ((), { w with
    vaultEvents := w.vaultEvents.insertMany data })

/-- `persistVaultEvents`: the moves that are not stored yet, with prices. -/
def persistVaultEvents (rows : List VaultEventRowData) (vaultByAddress : VaultMap) : Program Unit :=
  if rows.length = 0 then pure ()
  else persistNew .findVaultEvents .prices World.vaultEvents (fun r => (r.txHash, r.logIndex))
    (fun r => (some r.token, some r.amount)) (vaultEventOf vaultByAddress) storeVaultEvents rows

/-- The row of a flow, under the id of its vault. -/
def flowOf (vaultByAddress : VaultMap) (r : ProtocolFlowRow) (usd : Option String) : FlowRow where
  vaultId := vaultIdOf vaultByAddress r.vaultAddress
  draft := r.draft
  amountUsd := usd
  txHash := r.txHash
  blockNumber := r.blockNumber
  logIndex := r.logIndex
  blockTimestamp := r.blockTimestamp

/-- The rows are inserted; those that are there are skipped. -/
def storeFlows (range : BlockRange) (data : List FlowRow) : Program Unit :=
  await (.flow range .createMany) fun _ w => some ((), { w with
    protocolFlows := w.protocolFlows.insertMany data })

/-- `persistProtocolFlows`: the flows that are not stored yet, with prices. -/
def persistProtocolFlows (range : BlockRange) (rows : List ProtocolFlowRow)
    (vaultByAddress : VaultMap) : Program Unit :=
  if rows.length = 0 then pure ()
  else persistNew (.flow range .findMany) (.flow range .prices) World.protocolFlows
    (fun r => (r.txHash, r.logIndex)) (fun r => (some r.draft.token, some r.draft.amount))
    (flowOf vaultByAddress) (storeFlows range) rows

/-! ## Protocol flows -/

/-- One round of `resolveFlowSubscriptions`: a source that throws is skipped. -/
def addSubscriptions (subs : List LogSubscription) (source : Nat) : Program (List LogSubscription) :=
  (do
    let more ← await (.logSubscriptions source) fun m w =>
      (m.logSubscriptions source).map fun more => (more, w)
    pure (subs ++ more)).tryCatch (pure subs)

/-- `resolveFlowSubscriptions`: a source that fails is skipped, and the rest is kept. -/
def resolveFlowSubscriptions (cfg : Config) : Program (List LogSubscription) := do
  let w ← Async.get
  match w.flowSubs with
  | some subs => pure subs
  | none => do
      let subs ← (List.range cfg.flowSources).foldlM addSubscriptions []
      -- cached also where a source was skipped
      Async.modify fun w => { w with flowSubs := some subs }
      pure subs

/-- The flows of one subscription. -/
def indexSubscription (range : BlockRange) (vaultByAddress : VaultMap) (sub : LogSubscription) :
    Program Unit := do
  let logs ← query (.flow range .getLogs) fun m _ =>
    (logsIn m.blocks range).filter fun log => log.address = sub.address &&
      vaultTopicFilter sub (vaultByAddress.rows.map VaultEntry.address) log
  if logs.length = 0 then pure ()
  else do
    let blockTimestamps ← resolveTimestamps (fun _ => .flow range .getBlock)
      (logs.map RawLog.blockNumber)
    match buildProtocolFlowRows sub vaultByAddress blockTimestamps logs with
    -- the decoder of the subscription throws on one of the logs
    | none => Async.throw
    | some rows => persistProtocolFlows range rows vaultByAddress

/-- A failure here is logged and swallowed. -/
def indexProtocolFlows (cfg : Config) (range : BlockRange) (vaultByAddress : VaultMap) :
    Program Unit :=
  (do
    let subs ← resolveFlowSubscriptions cfg
    if subs.length = 0 then pure ()
    else if vaultByAddress.rows.length = 0 then pure ()
    else subs.forM (indexSubscription range vaultByAddress)).tryCatch (pure ())

/-! ## A tick -/

/-- The decoded logs of known vaults. -/
def parsedLogs (cfg : Config) (vaultByAddress : VaultMap) (logs : List RawLog) : List ParsedVaultLog :=
  (logs.filter fun l => vaultByAddress.Has l.address).filterMap (parseVaultLog cfg.vaultEventInterface)

/-- The rate is only read where there is a deposit. -/
def depositFeeBpsOf (cfg : Config) (parsed : List ParsedVaultLog) : Program Nat :=
  if parsed.any fun p => p.event.name = .deposited then readDepositFeeBps cfg else pure 0

/-- The rows of the decoded logs of a window. -/
def persistLogs (cfg : Config) (parsed : List ParsedVaultLog) (vaultByAddress : VaultMap) :
    Program Unit :=
  if 0 < parsed.length then do
    let blockTimestamps ← resolveBlockTimestamps parsed
    match buildExecutionRows parsed blockTimestamps with
    | .error _ => Async.throw
    | .ok execRows => do
        persist execRows vaultByAddress
        -- the current rate, also for deposits made under another one
        let depositFeeBps ← depositFeeBpsOf cfg parsed
        match buildVaultEventRows blockTimestamps depositFeeBps parsed with
        | .error _ => Async.throw
        | .ok eventRows => persistVaultEvents eventRows vaultByAddress
  else pure ()

/-- The body of the loop in `tick`. -/
def indexRange (cfg : Config) (vaultByAddress : VaultMap) (range : BlockRange) : Program Unit := do
  let logs ← fetchLogs cfg range
  persistLogs cfg (parsedLogs cfg vaultByAddress logs) vaultByAddress
  indexProtocolFlows cfg range vaultByAddress
  let toTs ← blockTimestamp (.getBlock range.toBlock) range.toBlock
  IndexerCursorStore.advance range.toBlock (toTs * 1000)

/-- What a tick does for a cursor and a head. -/
def indexFrom (cfg : Config) (head cursor : Nat) : Program Unit :=
  match RangePlanner.plan head cursor cfg.maxRange cfg.confirmations with
  | none => Async.throw
  -- no block after the cursor is confirmed yet
  | some [] => pure ()
  | some ranges => do
      let vaultByAddress ← query .findVaults fun _ w => w.vaults
      ranges.forM (indexRange cfg vaultByAddress)

/-- `tick`: from behind the cursor up to the confirmed head. -/
def tick (cfg : Config) : Program Unit := do
  let head ← getBlockNumber
  let cursor ← IndexerCursorStore.get
  match cursor with
  -- a tick that seeds the cursor scans nothing
  | none => ensureCursorSeeded cfg
  | some cursor => indexFrom cfg head cursor

/-! ## Runs -/

/-- What the process does. -/
inductive Event where
  /-- A new process: `onModuleInit`. -/
  | start
  /-- `runOnce` -/
  | tick
deriving DecidableEq, Repr

/-- The program of an event; an exception ends no more than it. -/
def Event.program (cfg : Config) : Event → Program Unit
  | .start => do
      Async.modify World.forget
      -- a start that fails does not end the process
      (ensureCursorSeeded cfg).tryCatch (pure ())
  | .tick => (Indexer.tick cfg).tryCatch (pure ())

/-- One process does one thing at a time: an event goes through the next moments. A process that stops
forgets. -/
def step (cfg : Config) (outside : Nat → Moment) (s : Nat × World) (event : Event) : Nat × World :=
  match (event.program cfg).run outside s.1 s.2 with
  -- the next event belongs to a new process
  | (.stopped, time, w) => (time, w.forget)
  | (_, time, w) => (time, w)

/-- The tables before the indexer has run. -/
def World.initial (vaults : VaultMap) (cursor : Option Cursor) (failures : List ExecutionFailure) :
    World where
  vaults := vaults
  executions := Table.empty
  vaultEvents := Table.empty
  protocolFlows := Table.empty
  failures := failures
  cursor := cursor
  flowSubs := none

end StrategyBuilder.Indexer
