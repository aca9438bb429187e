import StrategyBuilder.Indexer.EventMapper
import StrategyBuilder.Lib.Table

/-!
# Protocol flows

`protocol-flow.ts`: an adapter describes the logs of its protocol by subscriptions, and the matching
logs become `ProtocolFlow` rows of the vaults that their topics name. A subscription decodes a log and
maps it to a draft in one function (`toDraft`), which may throw.
-/

set_option autoImplicit false

namespace StrategyBuilder.Indexer

open StrategyBuilder.Contracts
open StrategyBuilder.Lib
open StrategyBuilder.Lib.Js

/-- A row of the `Vault` table, as far as the indexer reads it. -/
structure VaultEntry where
  id : String
  address : Address
  createdAtBlock : Int
deriving DecidableEq, Repr

/-- `vaultByAddress` -/
abbrev VaultMap := Table VaultEntry VaultEntry.address

/-- What a log says of a flow. -/
structure ProtocolFlowDraft where
  protocol : String
  kind : String
  token : Address
  amount : Nat
deriving DecidableEq, Repr

/-- What the decoder makes of a log. -/
inductive Decoded where
  | thrown
  | skipped
  | draft (d : ProtocolFlowDraft)
deriving DecidableEq, Repr

/-- A subscription of an adapter; the vault is in one of the indexed topics. -/
structure LogSubscription where
  address : Address
  topic0 : String
  vaultTopicIndex : Nat
  indexed : 1 ≤ vaultTopicIndex ∧ vaultTopicIndex ≤ 3
  toDraft : List String → List UInt8 → Decoded

/-- A flow, with its vault and where it stands in the chain. -/
structure ProtocolFlowRow where
  draft : ProtocolFlowDraft
  vaultAddress : Address
  txHash : String
  blockNumber : Nat
  logIndex : Nat
  blockTimestamp : Nat
deriving DecidableEq, Repr

/-- The last forty hex digits of a topic. -/
def addressFromTopic (topic : String) : Address :=
  ⟨digitsValue 16 (topic.toList.drop (topic.toList.length - 40))⟩

/-- The characters of `toLowerCase()`. -/
def lowerCase (s : String) : List Char := s.toList.map Char.toLower

/-- The topic is the address, padded to a word. -/
def isPaddedAddress (topic : String) (a : Address) : Bool :=
  topic.toList.length = 66 && digitsValue 16 (topic.toList.drop 2) = a.toNat && a.toNat < 16 ^ 40

/-- The filter of `vaultTopicFilter`, as the node applies it. -/
def vaultTopicFilter (sub : LogSubscription) (vaultAddresses : List Address) (log : RawLog) : Bool :=
  (match log.topics.head? with
    | some topic => lowerCase topic = lowerCase sub.topic0
    | none => false) &&
  match log.topics[sub.vaultTopicIndex]? with
  | some topic => vaultAddresses.any fun a => isPaddedAddress topic a
  | none => false

/-- One round of `buildProtocolFlowRows`; `none` where the decoder throws. -/
def protocolFlowRow (sub : LogSubscription) (vaultByAddress : VaultMap) (blockTimestamps : Map Nat Nat)
    (log : RawLog) : Option (List ProtocolFlowRow) :=
  if lowerCase (log.topics.head?.getD "") ≠ lowerCase sub.topic0 then some []
  else match log.topics[sub.vaultTopicIndex]? with
    -- a log without the topic of the vault is skipped
    | none => some []
    | some vaultTopic =>
        let vault := addressFromTopic vaultTopic
        if ¬ vaultByAddress.Has vault then some []
        else match sub.toDraft log.topics log.data with
          | .thrown => none
          | .skipped => some []
          | .draft draft =>
              match blockTimestamps log.blockNumber with
              | none => some []
              | some ts => some [{
                  draft := draft
                  vaultAddress := vault
                  txHash := log.transactionHash
                  blockNumber := log.blockNumber
                  logIndex := log.index
                  blockTimestamp := ts * 1000 }]

/-- `buildProtocolFlowRows` -/
def buildProtocolFlowRows (sub : LogSubscription) (vaultByAddress : VaultMap)
    (blockTimestamps : Map Nat Nat) : List RawLog → Option (List ProtocolFlowRow)
  | [] => some []
  | log :: logs =>
      match protocolFlowRow sub vaultByAddress blockTimestamps log,
        buildProtocolFlowRows sub vaultByAddress blockTimestamps logs with
      | some row, some rows => some (row ++ rows)
      | _, _ => none

/-! ## Topics -/

/-- The value of digits in two parts. -/
theorem digitsValue_append (radix : Nat) (cs ds : List Char) :
    digitsValue radix (cs ++ ds) = digitsValue radix cs * radix ^ ds.length + digitsValue radix ds := by
  have hfold (n : Nat) : ds.foldl (fun n c => n * radix + (digit? radix c).getD 0) n =
      n * radix ^ ds.length + digitsValue radix ds := by
    unfold digitsValue
    induction ds generalizing n with
    | nil => simp
    | cons d ds ih =>
      rw [List.foldl_cons, ih, List.foldl_cons, ih (0 * radix + _), List.length_cons, Nat.pow_succ',
        Nat.zero_mul, Nat.zero_add, Nat.add_mul, Nat.mul_assoc, Nat.add_assoc]
  have happend : digitsValue radix (cs ++ ds) =
      ds.foldl (fun n c => n * radix + (digit? radix c).getD 0) (digitsValue radix cs) :=
    List.foldl_append
  rw [happend, hfold]

/-- The address in a topic that is a padded address. -/
theorem addressFromTopic_padded {topic : String} {a : Address} (h : isPaddedAddress topic a = true) :
    addressFromTopic topic = a := by
  unfold isPaddedAddress at h
  rw [Bool.and_eq_true, Bool.and_eq_true, decide_eq_true_eq, decide_eq_true_eq,
    decide_eq_true_eq] at h
  obtain ⟨⟨hlen, hvalue⟩, hlt⟩ := h
  have hsplit : topic.toList.drop 2 =
      (topic.toList.drop 2).take 24 ++ topic.toList.drop (topic.toList.length - 40) := by
    rw [hlen]
    conv_lhs => rw [← List.take_append_drop 24 (topic.toList.drop 2)]
    rw [List.drop_drop]
  have hsize : (topic.toList.drop (topic.toList.length - 40)).length = 40 := by
    rw [List.length_drop, hlen]
  rw [hsplit, digitsValue_append, hsize] at hvalue
  -- the leading digits are zero, since the address has forty
  have hzero : digitsValue 16 ((topic.toList.drop 2).take 24) = 0 := by
    by_contra hne
    have hpos : 1 ≤ digitsValue 16 ((topic.toList.drop 2).take 24) := Nat.one_le_iff_ne_zero.2 hne
    have hge := Nat.mul_le_mul_right (16 ^ 40) hpos
    omega
  rw [hzero, Nat.zero_mul, Nat.zero_add] at hvalue
  unfold addressFromTopic
  rw [hvalue]

end StrategyBuilder.Indexer
