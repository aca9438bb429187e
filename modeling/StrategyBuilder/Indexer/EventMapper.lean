import StrategyBuilder.Contracts.Solidity
import StrategyBuilder.Lib.Js

/-!
# From vault logs to rows

`event-mapper.ts`: the decoded logs of the vaults become `Execution` rows, each with the gas
compensation that was settled for it, and `VaultEvent` rows.

Addresses are the addresses that the checksummed strings denote, amounts the numbers that the decimal
strings denote. The decoder of the event interface is a parameter (`EventInterface`).
-/

set_option autoImplicit false

namespace StrategyBuilder.Indexer

open StrategyBuilder.Contracts
open StrategyBuilder.Lib.Js

/-! ## Logs -/

/-- `VAULT_EVENT_SIGNATURES` -/
inductive EventName where
  | automationExecuted
  | gasCompSettled
  | deposited
  | withdrawn
deriving DecidableEq, Repr

/-- Name and arguments of a decoded event. -/
inductive VaultEvent where
  | automationExecuted (automationId : Nat) (executor : Address)
  | gasCompSettled (automationId : Nat) (executor token : Address) (gasCompTokens : Nat)
  | deposited (token : Address) (amount : Nat)
  | withdrawn (token : Address) (amount fee : Nat) (recipient : Address)
deriving DecidableEq, Repr

/-- The event that a value is one of. -/
def VaultEvent.name : VaultEvent → EventName
  | .automationExecuted .. => .automationExecuted
  | .gasCompSettled .. => .gasCompSettled
  | .deposited .. => .deposited
  | .withdrawn .. => .withdrawn

/-- `RawLogLike`: what the provider returns. -/
structure RawLog where
  address : Address
  transactionHash : String
  blockNumber : Nat
  index : Nat
  topics : List String
  data : List UInt8
deriving DecidableEq, Repr

/-- `vaultEventInterface`. Decoding finds an event by its topic; it answers `none` for the logs of
other events, and where it throws. -/
structure EventInterface where
  topicHash : EventName → String
  parseLog : List String → List UInt8 → Option VaultEvent
  parseLog_topic : ∀ topics data event, parseLog topics data = some event →
    topics.head? = some (topicHash event.name)

/-- `ALL_TOPICS` -/
def EventInterface.allTopics (iface : EventInterface) : List String :=
  [iface.topicHash .automationExecuted, iface.topicHash .gasCompSettled, iface.topicHash .deposited,
    iface.topicHash .withdrawn]

/-- What decodes is among the topics that are asked for. -/
theorem EventInterface.topic_mem (iface : EventInterface) {topics : List String} {data : List UInt8}
    {event : VaultEvent} (h : iface.parseLog topics data = some event) :
    ∃ topic, topics.head? = some topic ∧ topic ∈ iface.allTopics := by
  refine ⟨_, iface.parseLog_topic topics data event h, ?_⟩
  cases event <;> simp [VaultEvent.name, allTopics]

/-- A log of a vault, parsed, and where it stands in the chain. -/
structure ParsedVaultLog where
  event : VaultEvent
  address : Address
  txHash : String
  blockNumber : Nat
  logIndex : Nat
deriving DecidableEq, Repr

/-- `parseVaultLog`: no other event than those of the interface is read. -/
def parseVaultLog (iface : EventInterface) (log : RawLog) : Option ParsedVaultLog :=
  (iface.parseLog log.topics log.data).map fun event =>
    { event := event
      address := log.address
      txHash := log.transactionHash
      blockNumber := log.blockNumber
      logIndex := log.index }

/-! ## Executions -/

/-- An execution, with what its executor got for it. -/
structure ExecutionRowData where
  vaultAddress : Address
  automationId : Nat
  executorAddress : Address
  txHash : String
  blockNumber : Nat
  logIndex : Nat
  /-- In milliseconds. -/
  blockTimestamp : Nat
  gasCompAmount : Option Nat
  gasCompToken : Option Address
deriving DecidableEq, Repr

/-- `Missing block timestamp for block … (tx …)` -/
structure MissingTimestamp where
  blockNumber : Nat
  txHash : String
deriving DecidableEq, Repr

/-- The arguments `token` and `gasCompTokens` of the first `GasCompSettled` of the transaction for the
automation and the executor. -/
def findGasComp (parsedLogs : List ParsedVaultLog) (txHash : String) (automationId : Nat)
    (executor : Address) : Option (Address × Nat) :=
  parsedLogs.findSome? fun l =>
    match l.event with
    | .gasCompSettled id exec token gasCompTokens =>
        -- the vault that emitted the log is not compared
        if l.txHash = txHash ∧ id = automationId ∧ exec = executor then some (token, gasCompTokens)
        else none
    | _ => none

/-- The row of an `AutomationExecuted`. -/
def executionRow (parsedLogs : List ParsedVaultLog) (blockTimestamps : Map Nat Nat)
    (log : ParsedVaultLog) (automationId : Nat) (executor : Address) :
    Except MissingTimestamp ExecutionRowData :=
  let gasComp := findGasComp parsedLogs log.txHash automationId executor
  match blockTimestamps log.blockNumber with
  | none => .error ⟨log.blockNumber, log.txHash⟩
  | some tsSeconds => .ok {
      vaultAddress := log.address
      automationId := automationId
      executorAddress := executor
      txHash := log.txHash
      blockNumber := log.blockNumber
      logIndex := log.logIndex
      blockTimestamp := tsSeconds * 1000
      gasCompAmount := gasComp.map Prod.snd
      gasCompToken := gasComp.map Prod.fst }

/-- The loop of `buildExecutionRows`. -/
def executionRows (parsedLogs : List ParsedVaultLog) (blockTimestamps : Map Nat Nat) :
    List ParsedVaultLog → Except MissingTimestamp (List ExecutionRowData)
  | [] => .ok []
  | log :: logs =>
      match log.event with
      | .automationExecuted automationId executor => do
          let row ← executionRow parsedLogs blockTimestamps log automationId executor
          let rows ← executionRows parsedLogs blockTimestamps logs
          return row :: rows
      -- `GasCompSettled`, `Deposited` and `Withdrawn` are no executions
      | _ => executionRows parsedLogs blockTimestamps logs

/-- `buildExecutionRows`: an execution takes the first settlement of its transaction, its automation
and its executor. -/
def buildExecutionRows (parsedLogs : List ParsedVaultLog) (blockTimestamps : Map Nat Nat) :
    Except MissingTimestamp (List ExecutionRowData) :=
  executionRows parsedLogs blockTimestamps parsedLogs

/-! ## Deposits and withdrawals -/

/-- `'DEPOSIT' | 'WITHDRAW'` -/
inductive VaultEventType where
  | deposit
  | withdraw
deriving DecidableEq, Repr

/-- A deposit or withdrawal, with its fee. -/
structure VaultEventRowData where
  vaultAddress : Address
  eventType : VaultEventType
  token : Address
  amount : Nat
  feeAmount : Nat
  feeBps : Nat
  txHash : String
  blockNumber : Nat
  logIndex : Nat
  blockTimestamp : Nat
deriving DecidableEq, Repr

/-- The row of a `Deposited` or `Withdrawn`. -/
def vaultEventRow (blockTimestamps : Map Nat Nat) (log : ParsedVaultLog) (eventType : VaultEventType)
    (token : Address) (amount feeAmount feeBps : Nat) : Except MissingTimestamp VaultEventRowData :=
  match blockTimestamps log.blockNumber with
  | none => .error ⟨log.blockNumber, log.txHash⟩
  | some tsSeconds => .ok {
      vaultAddress := log.address
      eventType := eventType
      token := token
      amount := amount
      feeAmount := feeAmount
      feeBps := feeBps
      txHash := log.txHash
      blockNumber := log.blockNumber
      logIndex := log.logIndex
      blockTimestamp := tsSeconds * 1000 }

/-- The loop of `buildVaultEventRows`: the fee of a deposit is derived from the current rate, that of
a withdrawal is exact. -/
def buildVaultEventRows (blockTimestamps : Map Nat Nat) (depositFeeBps : Nat) :
    List ParsedVaultLog → Except MissingTimestamp (List VaultEventRowData)
  | [] => .ok []
  | log :: logs =>
      match log.event with
      | .deposited token amount => do
          let row ← vaultEventRow blockTimestamps log .deposit token amount
            (amount * depositFeeBps / 10000) depositFeeBps
          let rows ← buildVaultEventRows blockTimestamps depositFeeBps logs
          return row :: rows
      | .withdrawn token amount fee _ => do
          let row ← vaultEventRow blockTimestamps log .withdraw token amount fee
            (if 0 < amount then fee * 10000 / amount else 0)
          let rows ← buildVaultEventRows blockTimestamps depositFeeBps logs
          return row :: rows
      | _ => buildVaultEventRows blockTimestamps depositFeeBps logs

end StrategyBuilder.Indexer
