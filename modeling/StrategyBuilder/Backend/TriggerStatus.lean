import StrategyBuilder.Contracts.VaultSteps
import StrategyBuilder.Lib.Double

/-!
# Trigger statuses

`trigger-status.service.ts`. A call of `getStatuses` that finds no list in the cache reads the vault:
the number of automations, the step types, the context, and then one automation after the other. It
awaits every answer, so the chain may change between two of them; `StatusRead` is where such a call
stands and `StatusRead.resume` goes on from there with an answer. An automation that cannot be read is
reported as inactive.

What `isTriggerMet` answers comes with the moment. A date is its number of milliseconds; times are
doubles.
-/

set_option autoImplicit false

namespace StrategyBuilder.Backend

open StrategyBuilder.Contracts
open StrategyBuilder.Contracts.Vault
open StrategyBuilder.Lib.Abi
open StrategyBuilder.Lib.Js

/-! ## Statuses -/

/-- What kind of trigger an automation has. -/
inductive TriggerType where
  | interval
  | timer
  | balance
  | ownerOnly
  | unknown
deriving DecidableEq, Repr

/-- What the interface shows of a trigger. -/
structure TriggerStatus where
  type : TriggerType
  met : Bool
  description : String
  nextFireAt : Option Nat := none
deriving DecidableEq, Repr

/-- The status of an automation of the vault. -/
structure AutomationStatus where
  onChainId : Nat
  active : Bool
  triggerStatus : TriggerStatus
deriving DecidableEq, Repr

/-- The statuses of a vault, and until when they are served. -/
structure CacheEntry where
  statuses : List AutomationStatus
  expiresAt : Nat

/-- `CACHE_TTL`, in milliseconds -/
def cacheTtl : Nat := 30000

/-- `Math.floor(Date.now() / 1000)` -/
def nowSeconds (now : Nat) : JsNumber := ((JsNumber.ofInt now).div (.ofInt 1000)).floor

/-- `formatDuration`: seconds, whole minutes, or hours and minutes. -/
def formatDuration (seconds : JsNumber) : String :=
  if seconds.lt (.ofInt 60) then s!"{numberToString seconds}s"
  else if seconds.lt (.ofInt 3600) then s!"{numberToString (seconds.div (.ofInt 60)).floor}m"
  else
    let h := (seconds.div (.ofInt 3600)).floor
    let m := ((seconds.rem (.ofInt 3600)).div (.ofInt 60)).floor
    if JsNumber.lt (.ofInt 0) m then s!"{numberToString h}h {numberToString m}m"
    else s!"{numberToString h}h"

/-- `new Date(ms).toISOString()` fails past the last date. -/
def toIsoDate (ms : JsNumber) : Option Nat :=
  match ms.integer? with
  | some n => if n ≤ 8640000000000000 then some n.toNat else none
  | none => none

/-- The amount and the slot in the data of an interval or a timer; the slot is cut to a `uint32`. -/
def decodeTimeData (data : Bytes) : Option (Nat × Nat) := do
  let amount ← wordAt data 0
  let timeSlot ← wordAt data 32
  return (amount, timeSlot % 2 ^ 32)

/-- The status of a trigger that fires at `fireTime`; dates and `now` are in seconds. -/
def fireStatus (type : TriggerType) (now fireTime : JsNumber) : Option TriggerStatus :=
  if fireTime.le now then some ⟨type, true, "Ready to fire", none⟩
  else (toIsoDate (fireTime.mul (.ofInt 1000))).map fun date =>
    ⟨type, false, s!"Fires in {formatDuration (fireTime.sub now)}", some date⟩

/-- `interpretInterval`: due when the slot's time and the interval have passed. -/
def interpretInterval (now : Nat) (data : Bytes) (ctx : List Bytes) : TriggerStatus :=
  match decodeTimeData data with
  | none => unableToDecode
  | some (_, slotIdx) =>
      match ctx[slotIdx]? with
      | none | some [] =>
          ⟨.interval, false, "Not initialized — set context slot with initial timestamp", none⟩
      | some slot =>
          match decodeUint256 slot with
          | none => unableToDecode
          | some n =>
              -- `Number` of a word rounds it
              let nextTime := toDouble n
              if nextTime = .ofInt 0 then
                ⟨.interval, false, "Not initialized — context slot is 0", none⟩
              else (fireStatus .interval (nowSeconds now) nextTime).getD unableToDecode
where
  unableToDecode : TriggerStatus := ⟨.interval, false, "Unable to decode", none⟩

/-- `interpretTimer`: a slot that is zero or missing is a timer that does not run. -/
def interpretTimer (now : Nat) (data : Bytes) (ctx : List Bytes) : TriggerStatus :=
  match decodeTimeData data with
  | none => stopped
  | some (delta, slotIdx) =>
      match ctx[slotIdx]? with
      | none | some [] => stopped
      | some slot =>
          match decodeUint256 slot with
          | none => stopped
          | some n =>
              let startTime := toDouble n
              if startTime = .ofInt 0 then stopped
              else
                let fireTime := startTime.add (toDouble delta)
                (fireStatus .timer (nowSeconds now) fireTime).getD stopped
where
  stopped : TriggerStatus := ⟨.timer, false, "Stopped", none⟩

/-- The status after `isTriggerMet`, which fails with `none`. -/
def metStatus (type : TriggerType) (met : Option Bool) : TriggerStatus :=
  match type, met with
  | .balance, none => ⟨.balance, false, "Unable to check", none⟩
  | _, some true => ⟨type, true, "Condition met", none⟩
  | _, _ => ⟨type, false, "Condition not met", none⟩

/-! ## Reading the vault -/

/-- The loop of `getStatuses`. -/
structure StatusLoop where
  count : Nat
  addressToType : Map Address String
  ctx : List Bytes
  statuses : List AutomationStatus
  /-- The statuses are in the order of the automations. -/
  indexed : statuses.map AutomationStatus.onChainId = List.range statuses.length

/-- A call of `getStatuses` at the answer that it awaits. -/
inductive StatusRead where
  | automationCount
  | stepTypes (count : Nat)
  | context (count : Nat) (addressToType : Map Address String)
  /-- Of the automation after the last status. -/
  | automation (loop : StatusLoop)
  | triggerMet (loop : StatusLoop) (active : Bool) (type : TriggerType)

/-- What a call does with an answer: it awaits the next one, returns, returns a list that it caches,
or throws. -/
inductive Progress where
  | awaits (read : StatusRead)
  | returns (statuses : List AutomationStatus)
  | caches (statuses : List AutomationStatus)
  | throws

/-- The moment at which an await is settled. -/
structure Moment where
  answered : Bool
  /-- What `isTriggerMet` answers. -/
  met : Bool

namespace StatusLoop

/-- `statuses.push(...)` for the automation after the last status, and the test of the loop. -/
def push (loop : StatusLoop) (active : Bool) (triggerStatus : TriggerStatus) : Progress :=
  let statuses := loop.statuses ++ [⟨loop.statuses.length, active, triggerStatus⟩]
  if statuses.length < loop.count then
    .awaits (.automation { loop with
      statuses := statuses
      indexed := by
        rw [List.map_append, loop.indexed, List.length_append, List.length_singleton,
          List.range_succ]
        rfl })
  else .caches statuses

/-- What the round does with the automation. -/
def interpret (loop : StatusLoop) (now : Nat) (auto : Automation) : Progress :=
  match auto.steps with
  | [] => loop.push auto.active ⟨.unknown, false, "No steps", none⟩
  | step0 :: _ =>
      match step0.stepType with
      | .action => loop.push auto.active ⟨.ownerOnly, false, "Owner-only (no trigger)", none⟩
      | .condition =>
          match loop.addressToType step0.target with
          | none => .awaits (.triggerMet loop auto.active .unknown)
          | some name =>
              if name = "Interval Condition" then
                loop.push auto.active (interpretInterval now step0.data loop.ctx)
              else if name = "Timer Condition" then
                loop.push auto.active (interpretTimer now step0.data loop.ctx)
              -- only these ask the chain
              else if name = "Token Balance Condition" then
                .awaits (.triggerMet loop auto.active .balance)
              else .awaits (.triggerMet loop auto.active .unknown)

end StatusLoop

/-- Go on with an answer from the vault and the clock of that moment. -/
def StatusRead.resume (stepTypes : List (Address × String)) (vault : State) (now : Nat) (m : Moment) :
    StatusRead → Progress
  | .automationCount =>
      if m.answered = false then .throws
      else if vault.automationCount = 0 then .returns []
      else .awaits (.stepTypes vault.automationCount)
  | .stepTypes count =>
      if m.answered = false then .throws else .awaits (.context count (Map.ofEntries stepTypes))
  | .context count addressToType =>
      -- no context yet
      .awaits (.automation
        ⟨count, addressToType, if m.answered then getContext vault else [], [], rfl⟩)
  | .automation loop =>
      match m.answered, getAutomation loop.statuses.length vault with
      | true, .ok auto => loop.interpret now auto
      | _, _ => loop.push false ⟨.unknown, false, "Error reading status", none⟩
  | .triggerMet loop active type =>
      loop.push active (metStatus type (if m.answered then some m.met else none))

/-! ## What a list shows of an automation -/

/-- The status of the automation is in the list, and it is active there. -/
def ListsActive (statuses : List AutomationStatus) (n : Nat) : Prop :=
  ∃ s, statuses.find? (fun s => s.onChainId = n) = some s ∧ s.active = true

/-- A read so far does not leave the automation out, nor has it found it inactive. -/
def StatusRead.Shows (n : Nat) : StatusRead → Prop
  | .automationCount => True
  | .stepTypes count => n < count
  | .context count _ => n < count
  | .automation loop => n < loop.count ∧ ∀ s ∈ loop.statuses, s.onChainId = n → s.active = true
  | .triggerMet loop active _ =>
      n < loop.count ∧ (∀ s ∈ loop.statuses, s.onChainId = n → s.active = true) ∧
        (loop.statuses.length = n → active = true)

/-- The same of what a read goes on to. -/
def Progress.Shows (n : Nat) : Progress → Prop
  | .awaits read => read.Shows n
  | .returns statuses | .caches statuses => ListsActive statuses n
  | .throws => True

/-- The list of an indexed loop that has passed the automation lists it. -/
theorem listsActive_of_indexed {statuses : List AutomationStatus} {n : Nat}
    (hindexed : statuses.map AutomationStatus.onChainId = List.range statuses.length)
    (hn : n < statuses.length) (hactive : ∀ s ∈ statuses, s.onChainId = n → s.active = true) :
    ListsActive statuses n := by
  have hmem : n ∈ statuses.map AutomationStatus.onChainId := by
    rw [hindexed]
    exact List.mem_range.2 hn
  obtain ⟨s, hs, hid⟩ := List.mem_map.1 hmem
  cases hfind : statuses.find? (fun s => s.onChainId = n) with
  | none =>
    have hnone := List.find?_eq_none.1 hfind s hs
    exact absurd (decide_eq_true hid) hnone
  | some t =>
    have hid := List.find?_some hfind
    exact ⟨t, hfind, hactive t (List.mem_of_find?_eq_some hfind) (of_decide_eq_true hid)⟩

/-- A round that finds the automation active, or reads another one, keeps it shown. -/
theorem StatusLoop.push_shows {loop : StatusLoop} {active : Bool} {n : Nat}
    (triggerStatus : TriggerStatus) (hcount : n < loop.count)
    (hseen : ∀ s ∈ loop.statuses, s.onChainId = n → s.active = true)
    (hactive : loop.statuses.length = n → active = true) :
    (loop.push active triggerStatus).Shows n := by
  have hnext : ∀ s ∈ loop.statuses ++ [⟨loop.statuses.length, active, triggerStatus⟩],
      s.onChainId = n → s.active = true := by
    intro s hs hid
    rcases List.mem_append.1 hs with hs | hs
    · exact hseen s hs hid
    · rw [List.mem_singleton] at hs
      subst hs
      exact hactive hid
  simp only [StatusLoop.push]
  split
  · exact ⟨hcount, hnext⟩
  · rename_i hend
    apply listsActive_of_indexed _ (by omega) hnext
    rw [List.map_append, loop.indexed, List.length_append, List.length_singleton, List.range_succ]
    rfl

/-- The loop shows an automation with its status, or as inactive. -/
theorem StatusLoop.interpret_shows {loop : StatusLoop} {auto : Automation} {n : Nat} (now : Nat)
    (hcount : n < loop.count) (hseen : ∀ s ∈ loop.statuses, s.onChainId = n → s.active = true)
    (hactive : loop.statuses.length = n → auto.active = true) :
    (loop.interpret now auto).Shows n := by
  cases hsteps : auto.steps with
  | nil =>
    simp only [StatusLoop.interpret, hsteps]
    exact push_shows _ hcount hseen hactive
  | cons step0 steps =>
    simp only [StatusLoop.interpret, hsteps]
    cases step0.stepType with
    | action => exact push_shows _ hcount hseen hactive
    | condition =>
      cases loop.addressToType step0.target with
      | none => exact ⟨hcount, hseen, hactive⟩
      | some name =>
        simp only
        split_ifs
        · exact push_shows _ hcount hseen hactive
        · exact push_shows _ hcount hseen hactive
        · exact ⟨hcount, hseen, hactive⟩
        · exact ⟨hcount, hseen, hactive⟩

/-- **One answer.** While an automation is active, a read goes on to show it unless reading it fails. -/
theorem StatusRead.resume_shows {stepTypes : List (Address × String)} {vault : State} {now : Nat}
    {m : Moment} {read : StatusRead} {n : Nat} (hshows : read.Shows n)
    (hcreated : n < vault.automationCount) (hactive : (vault.automations n).active = true)
    (hread : ∀ loop, read = .automation loop → loop.statuses.length = n → m.answered = true) :
    (read.resume stepTypes vault now m).Shows n := by
  cases read with
  | automationCount =>
    simp only [StatusRead.resume]
    split_ifs with hfailed hzero
    · trivial
    · omega
    · exact hcreated
  | stepTypes count =>
    simp only [StatusRead.resume]
    split_ifs with hfailed
    · trivial
    · exact hshows
  | context count addressToType =>
    refine ⟨hshows, fun s hs => ?_⟩
    cases hs
  | automation loop =>
    obtain ⟨hcount, hseen⟩ := hshows
    simp only [StatusRead.resume]
    split
    · rename_i auto _ hauto
      apply StatusLoop.interpret_shows now hcount hseen
      intro hn
      simp only [getAutomation, bind_eq_ok, pure_eq_ok, hn] at hauto
      obtain ⟨-, -, rfl⟩ := hauto
      exact hactive
    · rename_i hfailed
      apply StatusLoop.push_shows _ hcount hseen
      intro hn
      -- the automation is there, so only the read itself can have failed
      have hauto : getAutomation loop.statuses.length vault =
          .ok (vault.automations loop.statuses.length) := by
        rw [getAutomation, revertIf_of_not (by omega)]
        rfl
      exact absurd hauto (hfailed _ (hread loop rfl hn))
  | triggerMet loop active type =>
    obtain ⟨hcount, hseen, hlast⟩ := hshows
    exact StatusLoop.push_shows _ hcount hseen hlast

end StrategyBuilder.Backend
