import StrategyBuilder.Indexer.History
import StrategyBuilder.Lib.Abi

/-!
# The interface of the vaults

The event interface of `VAULT_EVENT_SIGNATURES`, spelled out: the topic of each event, and how its
indexed arguments are read off the topics and the others off the data. What is proved of the indexer
holds for any interface; its sample runs decode with this one.
-/

set_option autoImplicit false

namespace StrategyBuilder.Indexer.VaultInterface

open StrategyBuilder.Contracts
open StrategyBuilder.Lib
open StrategyBuilder.Lib.Js

/-- The hash of the signature. -/
def topicHash : EventName → String
  | .automationExecuted => "0x9fb0d2913aaf57e5c0b35319ca24d166edc6c012a5705c63bebd887beee0656c"
  | .gasCompSettled => "0xd7b296b37a6ca435d4e67079623af4c978534dd764279ca7f7ce3e5175fb3859"
  | .deposited => "0x2da466a7b24304f47e87fa2e1e5a81b9831ce54fec19055ce277ca2f39ba42c4"
  | .withdrawn => "0xbc0fb706d03a6cb96fbe31862998338850cd01d239a360045dbe469d548e4218"

/-- The word in a topic. -/
def indexedWord (topics : List String) (i : Nat) : Option Nat :=
  topics[i]?.map fun topic => digitsValue 16 (topic.toList.drop 2)

/-- An address in a topic: it does not decode where the word is too large. -/
def indexedAddress (topics : List String) (i : Nat) : Option Address := do
  let word ← indexedWord topics i
  if word < 16 ^ 40 then some ⟨word⟩ else none

/-- The arguments of an event. -/
def decodeArgs (topics : List String) (data : List UInt8) : EventName → Option VaultEvent
  | .automationExecuted => do
      let automationId ← indexedWord topics 1
      let executor ← indexedAddress topics 2
      some (.automationExecuted (automationId % 2 ^ 32) executor)
  | .gasCompSettled => do
      let automationId ← indexedWord topics 1
      let executor ← indexedAddress topics 2
      let token ← indexedAddress topics 3
      let gasCompTokens ← Abi.wordAt data 0
      some (.gasCompSettled (automationId % 2 ^ 32) executor token gasCompTokens)
  | .deposited => do
      let token ← indexedAddress topics 1
      let amount ← Abi.wordAt data 0
      some (.deposited token amount)
  | .withdrawn => do
      let token ← indexedAddress topics 1
      let recipient ← indexedAddress topics 2
      let amount ← Abi.wordAt data 0
      let fee ← Abi.wordAt data 32
      some (.withdrawn token amount fee recipient)

/-- The event with a topic. -/
def getEvent (topic : String) : Option EventName :=
  [EventName.automationExecuted, .gasCompSettled, .deposited, .withdrawn].find? fun name =>
    topicHash name = topic

/-- `parseLog`: the event of the first topic, with its arguments. -/
def parseLog (topics : List String) (data : List UInt8) : Option VaultEvent :=
  match topics.head? with
  | none => none
  | some topic =>
      match getEvent topic with
      | none => none
      | some name => decodeArgs topics data name

/-- What is decoded is the event that was looked up. -/
theorem decodeArgs_name {topics : List String} {data : List UInt8} {name : EventName}
    {event : VaultEvent} (h : decodeArgs topics data name = some event) : event.name = name := by
  cases name with
  | automationExecuted =>
    obtain ⟨_, -, h⟩ := Option.bind_eq_some_iff.1 h
    obtain ⟨_, -, h⟩ := Option.bind_eq_some_iff.1 h
    cases h
    rfl
  | gasCompSettled =>
    obtain ⟨_, -, h⟩ := Option.bind_eq_some_iff.1 h
    obtain ⟨_, -, h⟩ := Option.bind_eq_some_iff.1 h
    obtain ⟨_, -, h⟩ := Option.bind_eq_some_iff.1 h
    obtain ⟨_, -, h⟩ := Option.bind_eq_some_iff.1 h
    cases h
    rfl
  | deposited =>
    obtain ⟨_, -, h⟩ := Option.bind_eq_some_iff.1 h
    obtain ⟨_, -, h⟩ := Option.bind_eq_some_iff.1 h
    cases h
    rfl
  | withdrawn =>
    obtain ⟨_, -, h⟩ := Option.bind_eq_some_iff.1 h
    obtain ⟨_, -, h⟩ := Option.bind_eq_some_iff.1 h
    obtain ⟨_, -, h⟩ := Option.bind_eq_some_iff.1 h
    obtain ⟨_, -, h⟩ := Option.bind_eq_some_iff.1 h
    cases h
    rfl

/-- A log that decodes starts with the topic of its event. -/
theorem parseLog_topic (topics : List String) (data : List UInt8) (event : VaultEvent)
    (h : parseLog topics data = some event) : topics.head? = some (topicHash event.name) := by
  unfold parseLog at h
  cases hhead : topics.head? with
  | none =>
    rw [hhead] at h
    cases h
  | some topic =>
    rw [hhead] at h
    simp only at h
    cases hname : getEvent topic with
    | none =>
      rw [hname] at h
      cases h
    | some name =>
      rw [hname] at h
      have htopic := List.find?_some hname
      rw [decodeArgs_name h, of_decide_eq_true htopic]

/-- `new Interface(VAULT_EVENT_SIGNATURES)` -/
def vaultEventInterface : EventInterface := ⟨topicHash, parseLog, parseLog_topic⟩

/-! ## A chain with one deposit -/

/-- A chain with one log. -/
def oneLogChain (l : RawLog) : History where
  blocks n := if n = l.blockNumber then [l] else []
  blockNumber := by
    intro n l' hl'
    split at hl'
    · rename_i hn
      rw [List.mem_singleton.1 hl', hn]
    · cases hl'
  unique := by
    intro m n l₁ hl₁ l₂ hl₂ _ _
    have heq {k : Nat} {x : RawLog} (h : x ∈ if k = l.blockNumber then [l] else []) : x = l := by
      split at h
      · exact List.mem_singleton.1 h
      · cases h
    rw [heq hl₁, heq hl₂]

/-- The vault at address 7 takes a deposit of 1000 of the token at address 9. -/
def depositLog : RawLog where
  address := ⟨7⟩
  transactionHash := "0xd1"
  blockNumber := 6
  index := 0
  topics := [topicHash .deposited, "0x0000000000000000000000000000000000000000000000000000000000000009"]
  data := Abi.encodeWord 1000

theorem depositLog_parse :
    vaultEventInterface.parseLog depositLog.topics depositLog.data = some (.deposited ⟨9⟩ 1000) := by
  decide

/-- The log counts for its vault. -/
theorem depositLog_relevant {cfg : Config} (hcfg : cfg.vaultEventInterface = vaultEventInterface) :
    Relevant cfg (oneLogChain depositLog) ⟨7⟩ 6 depositLog (.deposited ⟨9⟩ 1000) := by
  refine ⟨List.mem_singleton_self depositLog, rfl, ?_, nofun⟩
  rw [hcfg]
  exact depositLog_parse

/-- The defaults of the environment variables. -/
def defaultConfig (flowSources : Nat) : Config where
  confirmations := 5
  maxRange := 2000
  startBlockOverride := none
  feeRegistryAddress := none
  flowSources := flowSources
  vaultEventInterface := vaultEventInterface

/-- A moment at which every call is answered. -/
def answeredMoment (H : History) (head : Nat) : Moment where
  fate _ := .answered
  registered := []
  head := head
  blocks := H.blocks
  timestamp n := some (12 * n)
  depositFeeBps := 0
  usd _ _ := none
  now := 0
  logSubscriptions _ := some []

/-- The vault at address 7 was created in block 4. -/
def vaultSeven : VaultEntry := ⟨"v7", ⟨7⟩, 4⟩

/-- The map of one vault. -/
def onlyVaultSeven : VaultMap := ⟨[vaultSeven], List.nodup_singleton _⟩

end StrategyBuilder.Indexer.VaultInterface
