import Mathlib.Algebra.Ring.Int.Defs
import StrategyBuilder.Contracts.Vault

/-!
# Updatable conditions

The trigger conditions that the vault updates after they fired: `TimerCondition.sol`,
`IntervalCondition.sol` and `WickWaitRebalanceCondition.sol`. Each is a pair of view functions on the
parameters of its step and the vault's context; `Hosts` says that a contract answers the vault's
static calls with the encodings of their results.

What the Wick-and-Wait condition reads from the registry, the position manager, the factory and the
pool is a parameter (`Market`); any of these calls may revert.
-/

set_option autoImplicit false

namespace StrategyBuilder.Contracts

open StrategyBuilder.Lib.Abi
open StrategyBuilder.Contracts.Vault

universe u

/-- The slots and values that `afterExecution` returns. -/
abbrev Diff := List Nat × List Bytes

/-- A condition contract with the custom errors `ε`. Both functions get the number of rounds the
traversal ran before the call, the block time, the parameters and the context. -/
structure UpdatableCondition (ε : Type u) where
  check : Nat → Nat → Bytes → List Bytes → Result ε Bool
  afterExecution : Nat → Nat → Bytes → List Bytes → Result ε Diff

/-- All that `afterExecution` writes with these parameters is a word in the slot. -/
def WritesOnly {ε : Type u} (c : UpdatableCondition ε) (data : Bytes) (slot : Nat) : Prop :=
  ∀ k timestamp ctx d, c.afterExecution k timestamp data ctx = .ok d →
    slot < 2 ^ 32 ∧ ∃ value, value.length = 32 ∧ d = ([slot], [value])

/-- The `uint256` in a context slot; `none` for a missing slot or one with less than 32 bytes. -/
def storedUint (ctx : List Bytes) (slot : Nat) : Option Nat := ctx[slot]? >>= decodeUint256

theorem storedUint_eq_some {ctx : List Bytes} {slot n : Nat} :
    storedUint ctx slot = some n ↔ ∃ raw, ctx[slot]? = some raw ∧ decodeUint256 raw = some n := by
  unfold storedUint
  cases ctx[slot]? with
  | none => simp
  | some raw => simp

theorem decodeUint256_le {raw : Bytes} {n : Nat} (h : decodeUint256 raw = some n) :
    32 ≤ raw.length := by
  by_contra hlt
  have hnone : decodeUint256 raw = none := if_neg (by omega)
  rw [hnone] at h
  cases h

/-- `ICondition.check.selector` -/
def checkSelector : Selector := 0xd89f1e36

/-- A static call returns what the function returns and fails where it reverts. -/
def Answers {ε : Type u} (r : Result ε Bytes) (c : CallResult) : Prop :=
  match r with
  | .ok ret => c = .success ret
  | .error _ => ∃ reason, c = .failure reason

/-- The contract at `target` is the condition `c`. -/
structure Hosts {ε : Type u} (env : Env) (target : Address) (c : UpdatableCondition ε) : Prop where
  check : ∀ k data ctx, Answers ((c.check k env.timestamp data ctx).map encodeBool)
    (env.staticcall k target checkSelector data ctx)
  afterExecution : ∀ k data ctx,
    Answers ((c.afterExecution k env.timestamp data ctx).map
        fun d => encodeUint32sBytesList d.1 d.2)
      (env.staticcall k target afterExecutionSelector data ctx)

/-- The answer to a static call with that result. -/
def answerOf {ε : Type u} : Result ε Bytes → CallResult
  | .ok ret => .success ret
  | .error _ => .failure []

/-- A world in which every address is the condition `c` and actions return nothing. -/
def hosting {ε : Type u} (c : UpdatableCondition ε) (timestamp : Nat) : Env where
  timestamp := timestamp % 2 ^ 256
  timestamp_lt := Nat.mod_lt _ (by decide)
  gasUsed := 0
  staticcall := fun k _ selector data ctx =>
    if selector = checkSelector then
      answerOf ((c.check k (timestamp % 2 ^ 256) data ctx).map encodeBool)
    else
      answerOf ((c.afterExecution k (timestamp % 2 ^ 256) data ctx).map
        fun d => encodeUint32sBytesList d.1 d.2)
  delegatecall := fun _ _ _ _ _ => .success []
  deductGasComp := fun _ _ _ _ => some 0

theorem answers_answerOf {ε : Type u} (r : Result ε Bytes) : Answers r (answerOf r) := by
  cases r with
  | ok ret => rfl
  | error e => exact ⟨[], rfl⟩

theorem hosting_hosts {ε : Type u} (c : UpdatableCondition ε) (timestamp : Nat)
    (target : Address) : Hosts (hosting c timestamp) target c :=
  ⟨fun _ _ _ => answers_answerOf _, fun _ _ _ => answers_answerOf _⟩

/-! ## The timer -/

namespace TimerCondition

/-- The custom errors of the timer. -/
inductive Error where
  | slotOutOfBounds (slot : Nat)
  | zeroDelta
deriving DecidableEq, Repr

/-- The parameters are `(delta, timeSlot)`. -/
def check (timestamp : Nat) (params : Bytes) (ctx : List Bytes) : Result Error Bool := do
  let (delta, timeSlot) ← decoded (decodeUint256Uint32 params)
  revertIf (ctx.length % 2 ^ 32 ≤ timeSlot) (.slotOutOfBounds timeSlot)
  let raw ← readAt ctx timeSlot
  if raw.length < 32 then return false
  else do
    let startTime ← decoded (decodeUint256 raw)
    if startTime = 0 then return false
    else do
      let due ← checkedAdd startTime delta
      return decide (due ≤ timestamp)

/-- Stop the timer. -/
def afterExecution (params : Bytes) (ctx : List Bytes) : Result Error Diff := do
  let (delta, timeSlot) ← decoded (decodeUint256Uint32 params)
  revertIf (delta = 0) .zeroDelta
  revertIf (ctx.length % 2 ^ 32 ≤ timeSlot) (.slotOutOfBounds timeSlot)
  return ([timeSlot], [encodeWord 0])

/-- A timer that fires was started, and its delay is over. -/
theorem check_true {timestamp delta slot : Nat} {params : Bytes} {ctx : List Bytes}
    (hp : decodeUint256Uint32 params = some (delta, slot))
    (h : check timestamp params ctx = .ok true) :
    slot < ctx.length % 2 ^ 32 ∧
      ∃ start, storedUint ctx slot = some start ∧ start ≠ 0 ∧ start + delta ≤ timestamp := by
  simp only [check, hp, decoded, bind_eq_ok, revertIf_eq_ok, readAt_eq_ok, Except.ok.injEq,
    exists_eq_left'] at h
  obtain ⟨-, hslot, raw, hraw, h⟩ := h
  refine ⟨Nat.lt_of_not_le hslot, ?_⟩
  split at h
  · cases h
  · obtain ⟨start, hstart, h⟩ := bind_eq_ok.1 h
    have hdec : decodeUint256 raw = some start := decoded_eq_ok.1 hstart
    split at h
    · cases h
    · rename_i hne
      simp only [bind_eq_ok, checkedAdd_eq_ok, pure_eq_ok] at h
      obtain ⟨due, ⟨-, rfl⟩, hdue⟩ := h
      exact ⟨start, storedUint_eq_some.2 ⟨raw, hraw, hdec⟩, hne, of_decide_eq_true hdue⟩

/-- The timer is due if it runs and its delay has passed. -/
theorem check_true_iff {timestamp delta slot : Nat} {params : Bytes} {ctx : List Bytes}
    (hp : decodeUint256Uint32 params = some (delta, slot)) (htime : timestamp ≤ maxUint256) :
    check timestamp params ctx = .ok true ↔
      slot < ctx.length % 2 ^ 32 ∧
        ∃ start, storedUint ctx slot = some start ∧ start ≠ 0 ∧ start + delta ≤ timestamp := by
  constructor
  · exact check_true hp
  · rintro ⟨hslot, start, hstored, hne, hdue⟩
    obtain ⟨raw, hraw, hdec⟩ := storedUint_eq_some.1 hstored
    have hread : (readAt ctx slot : Result Error Bytes) = .ok raw := readAt_eq_ok.2 hraw
    have hadd : (checkedAdd start delta : Result Error Nat) = .ok (start + delta) :=
      if_pos (Nat.le_trans hdue htime)
    simp only [check, bind_eq_ok]
    refine ⟨(delta, slot), decoded_eq_ok.2 hp, (), revertIf_of_not (Nat.not_le.2 hslot), raw, hread, ?_⟩
    rw [if_neg (Nat.not_lt.2 (decodeUint256_le hdec)), bind_eq_ok]
    refine ⟨start, decoded_eq_ok.2 hdec, ?_⟩
    rw [if_neg hne, bind_eq_ok]
    exact ⟨start + delta, hadd, congrArg Except.ok (decide_eq_true hdue)⟩

/-- The timer is stopped: its slot becomes 0. -/
theorem afterExecution_eq {delta slot : Nat} {params : Bytes} {ctx : List Bytes}
    (hp : decodeUint256Uint32 params = some (delta, slot)) (hdelta : delta ≠ 0)
    (hslot : slot < ctx.length % 2 ^ 32) :
    afterExecution params ctx = .ok ([slot], [encodeWord 0]) := by
  simp only [afterExecution, bind_eq_ok]
  exact ⟨(delta, slot), decoded_eq_ok.2 hp, (), revertIf_of_not hdelta, (),
    revertIf_of_not (Nat.not_le.2 hslot), rfl⟩

end TimerCondition

/-- The timer, as the vault calls it. -/
def timerCondition : UpdatableCondition TimerCondition.Error where
  check := fun _ timestamp params ctx => TimerCondition.check timestamp params ctx
  afterExecution := fun _ _ params ctx => TimerCondition.afterExecution params ctx

/-- The timer writes its own slot only. -/
theorem TimerCondition.writesOnly {delta slot : Nat} {params : Bytes}
    (hp : decodeUint256Uint32 params = some (delta, slot)) :
    WritesOnly timerCondition params slot := by
  intro k timestamp ctx d h
  have h' : TimerCondition.afterExecution params ctx = .ok d := h
  simp only [TimerCondition.afterExecution, hp, decoded, bind_eq_ok, revertIf_eq_ok, pure_eq_ok,
    Except.ok.injEq, exists_eq_left'] at h'
  obtain ⟨-, -, -, hslot, rfl⟩ := h'
  exact ⟨Nat.lt_trans (Nat.lt_of_not_le hslot) (Nat.mod_lt _ (by decide)), _, length_encodeWord 0, rfl⟩

/-! ## The interval -/

namespace IntervalCondition

/-- The custom errors of the interval. -/
inductive Error where
  | slotOutOfBounds (slot : Nat)
  | zeroInterval
deriving DecidableEq, Repr

/-- The parameters are `(interval, timeSlot)`. -/
def check (timestamp : Nat) (params : Bytes) (ctx : List Bytes) : Result Error Bool := do
  let (_, timeSlot) ← decoded (decodeUint256Uint32 params)
  revertIf (ctx.length % 2 ^ 32 ≤ timeSlot) (.slotOutOfBounds timeSlot)
  let raw ← readAt ctx timeSlot
  if raw.length < 32 then return false
  else do
    let nextTime ← decoded (decodeUint256 raw)
    if nextTime = 0 then return false
    else return decide (nextTime ≤ timestamp)

/-- The next time in a slot; a slot that was never set counts as 0. -/
def storedTime (raw : Bytes) : Result Error Nat :=
  if 32 ≤ raw.length then decoded (decodeUint256 raw) else return 0

/-- Advance the schedule by one interval. -/
def afterExecution (params : Bytes) (ctx : List Bytes) : Result Error Diff := do
  let (interval, timeSlot) ← decoded (decodeUint256Uint32 params)
  revertIf (interval = 0) .zeroInterval
  revertIf (ctx.length % 2 ^ 32 ≤ timeSlot) (.slotOutOfBounds timeSlot)
  let raw ← readAt ctx timeSlot
  let nextTime ← storedTime raw
  let advanced ← checkedAdd nextTime interval
  return ([timeSlot], [encodeWord advanced])

/-- An interval that fires has a schedule, and its next time has come. -/
theorem check_true {timestamp interval slot : Nat} {params : Bytes} {ctx : List Bytes}
    (hp : decodeUint256Uint32 params = some (interval, slot))
    (h : check timestamp params ctx = .ok true) :
    slot < ctx.length % 2 ^ 32 ∧
      ∃ next, storedUint ctx slot = some next ∧ next ≠ 0 ∧ next ≤ timestamp := by
  simp only [check, hp, decoded, bind_eq_ok, revertIf_eq_ok, readAt_eq_ok, Except.ok.injEq,
    exists_eq_left'] at h
  obtain ⟨-, hslot, raw, hraw, h⟩ := h
  refine ⟨Nat.lt_of_not_le hslot, ?_⟩
  split at h
  · cases h
  · obtain ⟨next, hnext, h⟩ := bind_eq_ok.1 h
    have hdec : decodeUint256 raw = some next := decoded_eq_ok.1 hnext
    split at h
    · cases h
    · rename_i hne
      rw [pure_eq_ok] at h
      exact ⟨next, storedUint_eq_some.2 ⟨raw, hraw, hdec⟩, hne, of_decide_eq_true h⟩

/-- The interval is due if its next time has come. -/
theorem check_true_iff {timestamp interval slot : Nat} {params : Bytes} {ctx : List Bytes}
    (hp : decodeUint256Uint32 params = some (interval, slot)) :
    check timestamp params ctx = .ok true ↔
      slot < ctx.length % 2 ^ 32 ∧
        ∃ next, storedUint ctx slot = some next ∧ next ≠ 0 ∧ next ≤ timestamp := by
  constructor
  · exact check_true hp
  · rintro ⟨hslot, next, hstored, hne, hdue⟩
    obtain ⟨raw, hraw, hdec⟩ := storedUint_eq_some.1 hstored
    have hread : (readAt ctx slot : Result Error Bytes) = .ok raw := readAt_eq_ok.2 hraw
    simp only [check, bind_eq_ok]
    refine ⟨(interval, slot), decoded_eq_ok.2 hp, (), revertIf_of_not (Nat.not_le.2 hslot), raw,
      hread, ?_⟩
    rw [if_neg (Nat.not_lt.2 (decodeUint256_le hdec)), bind_eq_ok]
    refine ⟨next, decoded_eq_ok.2 hdec, ?_⟩
    rw [if_neg hne]
    exact congrArg Except.ok (decide_eq_true hdue)

/-- Where the sum fits, the schedule advances by one interval. -/
theorem afterExecution_eq {interval slot next : Nat} {params : Bytes} {ctx : List Bytes}
    (hp : decodeUint256Uint32 params = some (interval, slot)) (hinterval : interval ≠ 0)
    (hslot : slot < ctx.length % 2 ^ 32) (hnext : storedUint ctx slot = some next)
    (hfits : next + interval ≤ maxUint256) :
    afterExecution params ctx = .ok ([slot], [encodeWord (next + interval)]) := by
  obtain ⟨raw, hraw, hdec⟩ := storedUint_eq_some.1 hnext
  have hread : (readAt ctx slot : Result Error Bytes) = .ok raw := readAt_eq_ok.2 hraw
  have hstored : storedTime raw = .ok next := by
    rw [storedTime, if_pos (decodeUint256_le hdec), hdec]
    rfl
  have hadd : (checkedAdd next interval : Result Error Nat) = .ok (next + interval) := if_pos hfits
  simp only [afterExecution, bind_eq_ok]
  exact ⟨(interval, slot), decoded_eq_ok.2 hp, (), revertIf_of_not hinterval, (),
    revertIf_of_not (Nat.not_le.2 hslot), raw, hread, next, hstored, next + interval, hadd, rfl⟩

end IntervalCondition

/-- The interval, as the vault calls it. -/
def intervalCondition : UpdatableCondition IntervalCondition.Error where
  check := fun _ timestamp params ctx => IntervalCondition.check timestamp params ctx
  afterExecution := fun _ _ params ctx => IntervalCondition.afterExecution params ctx

/-- The interval writes its own slot only. -/
theorem IntervalCondition.writesOnly {interval slot : Nat} {params : Bytes}
    (hp : decodeUint256Uint32 params = some (interval, slot)) :
    WritesOnly intervalCondition params slot := by
  intro k timestamp ctx d h
  have h' : IntervalCondition.afterExecution params ctx = .ok d := h
  simp only [IntervalCondition.afterExecution, hp, decoded, bind_eq_ok, revertIf_eq_ok, pure_eq_ok,
    Except.ok.injEq, exists_eq_left'] at h'
  obtain ⟨-, -, -, hslot, raw, -, next, -, advanced, -, rfl⟩ := h'
  exact ⟨Nat.lt_trans (Nat.lt_of_not_le hslot) (Nat.mod_lt _ (by decide)), _,
    length_encodeWord advanced, rfl⟩

/-! ## Wick and wait -/

namespace WickWaitRebalanceCondition

/-- The custom errors of the rebalance condition. -/
inductive Error where
  | zeroWindow
  | poolNotFound
  | slotOutOfBounds (slot : Nat)
deriving DecidableEq, Repr

/-- The decoded parameters. -/
structure Params where
  tokenIdSlot : Nat
  twapWindow : Nat
  cooldown : Nat
  lastRebalanceSlot : Nat
deriving DecidableEq, Repr

/-- `abi.decode(params, (Params))` -/
def decodeParams (params : Bytes) : Option Params := do
  let tokenIdSlot ← uint32At params 0
  let twapWindow ← uint32At params 32
  let cooldown ← wordAt params 64
  let lastRebalanceSlot ← uint32At params 96
  return ⟨tokenIdSlot, twapWindow, cooldown, lastRebalanceSlot⟩

theorem decodeParams_cooldown {params : Bytes} {p : Params} (h : decodeParams params = some p) :
    p.cooldown ≤ maxUint256 := by
  simp only [decodeParams, Option.bind_eq_bind, Option.bind_eq_some_iff] at h
  obtain ⟨_, -, _, -, cooldown, hcooldown, _, -, h⟩ := h
  obtain rfl := Option.some.inj h
  exact Nat.le_sub_one_of_lt (wordAt_lt hcooldown)

/-- What the condition reads of an LP position. -/
structure Position where
  token0 : Address
  token1 : Address
  fee : Nat
  tickLower : Int
  tickUpper : Int

/-- The answers of the contracts the condition asks; `none` is a revert. -/
structure Market where
  positionManager : Option Address
  factory : Option Address
  positions : Address → Nat → Option Position
  getPool : Address → Address → Address → Nat → Option Address
  observe : Address → List Nat → Option (List Int)

/-- `a - b` on `int56`. -/
def checkedSubInt56 (a b : Int) : Result Error Int :=
  if -2 ^ 55 ≤ a - b ∧ a - b < 2 ^ 55 then .ok (a - b) else .error (.panic 0x11)

/-- `int24(a)`, which keeps the low 24 bits. -/
def toInt24 (a : Int) : Int := a.bmod (2 ^ 24)

/-- `_twapTick` -/
def twapTick (m : Market) (pool : Address) (w : Nat) : Result Error Int := do
  let cum ← passThrough (m.observe pool [w, 0])
  let now ← readAt cum 1
  let before ← readAt cum 0
  let delta ← checkedSubInt56 now before
  let tick := toInt24 (delta.tdiv w)
  if delta < 0 ∧ delta.tmod w ≠ 0 then
    if tick = -2 ^ 23 then .error (.panic 0x11) else return tick - 1
  else return tick

/-- `ActionLib.readUint256Slot` -/
def readUint256Slot (ctx : List Bytes) (slot : Nat) : Result Error Nat := do
  revertIf (ctx.length % 2 ^ 32 ≤ slot) (.slotOutOfBounds slot)
  let raw ← readAt ctx slot
  decoded (decodeUint256 raw)

/-- `_readTimestamp` -/
def readTimestamp (ctx : List Bytes) (slot : Nat) : Result Error Nat := do
  revertIf (ctx.length % 2 ^ 32 ≤ slot) (.slotOutOfBounds slot)
  let raw ← readAt ctx slot
  if raw.length < 32 then return 0 else decoded (decodeUint256 raw)

/-- The first time at which the cooldown is over, saturated. -/
def unlockAt (last cooldown : Nat) : Nat :=
  if maxUint256 - cooldown < last then maxUint256 else last + cooldown

/-- The mean price has left the range of the position. -/
def breach (m : Market) (p : Params) (ctx : List Bytes) : Result Error Bool := do
  let tokenId ← readUint256Slot ctx p.tokenIdSlot
  let npm ← passThrough m.positionManager
  let position ← passThrough (m.positions npm tokenId)
  let factory ← passThrough m.factory
  let pool ← passThrough (m.getPool factory position.token0 position.token1 position.fee)
  revertIf (pool = Address.zero) .poolNotFound
  let tick ← twapTick m pool p.twapWindow
  return decide (tick < position.tickLower ∨ position.tickUpper ≤ tick)

/-- `check`: the mean tick of the window is out of range, and the cooldown has passed. -/
def check (m : Market) (timestamp : Nat) (params : Bytes) (ctx : List Bytes) :
    Result Error Bool := do
  let p ← decoded (decodeParams params)
  revertIf (p.twapWindow = 0) .zeroWindow
  let out ← breach m p ctx
  if out = false then return false
  else do
    let last ← readTimestamp ctx p.lastRebalanceSlot
    return decide (unlockAt last p.cooldown ≤ timestamp)

/-- Record the time of the firing. -/
def afterExecution (timestamp : Nat) (params : Bytes) (ctx : List Bytes) : Result Error Diff := do
  let p ← decoded (decodeParams params)
  revertIf (ctx.length % 2 ^ 32 ≤ p.lastRebalanceSlot) (.slotOutOfBounds p.lastRebalanceSlot)
  return ([p.lastRebalanceSlot], [encodeWord timestamp])

/-- A rebalance that is due finds its cooldown over. -/
theorem check_true {m : Market} {timestamp : Nat} {params : Bytes} {p : Params} {ctx : List Bytes}
    (hp : decodeParams params = some p) (h : check m timestamp params ctx = .ok true) :
    p.lastRebalanceSlot < ctx.length % 2 ^ 32 ∧
      ∃ last, readTimestamp ctx p.lastRebalanceSlot = .ok last ∧
        unlockAt last p.cooldown ≤ timestamp := by
  simp only [check, hp, decoded, bind_eq_ok, Except.ok.injEq, exists_eq_left'] at h
  obtain ⟨-, -, out, -, h⟩ := h
  split at h
  · cases h
  · obtain ⟨last, hlast, h⟩ := bind_eq_ok.1 h
    have hslot : p.lastRebalanceSlot < ctx.length % 2 ^ 32 := by
      obtain ⟨_, hs, -⟩ := bind_eq_ok.1 hlast
      exact Nat.lt_of_not_le (revertIf_eq_ok.1 hs)
    rw [pure_eq_ok] at h
    exact ⟨hslot, last, hlast, of_decide_eq_true h⟩

/-- A slot with a number is read. -/
theorem readTimestamp_eq {ctx : List Bytes} {slot last : Nat} (hslot : slot < ctx.length % 2 ^ 32)
    (h : storedUint ctx slot = some last) : readTimestamp ctx slot = .ok last := by
  obtain ⟨raw, hraw, hdec⟩ := storedUint_eq_some.1 h
  have hread : (readAt ctx slot : Result Error Bytes) = .ok raw := readAt_eq_ok.2 hraw
  have hlen : ¬ raw.length < 32 := Nat.not_lt.2 (decodeUint256_le hdec)
  simp only [readTimestamp, bind_eq_ok]
  refine ⟨(), revertIf_of_not (Nat.not_le.2 hslot), raw, hread, ?_⟩
  rw [if_neg hlen]
  exact decoded_eq_ok.2 hdec

theorem afterExecution_eq {timestamp : Nat} {params : Bytes} {p : Params} {ctx : List Bytes}
    (hp : decodeParams params = some p) (hslot : p.lastRebalanceSlot < ctx.length % 2 ^ 32) :
    afterExecution timestamp params ctx = .ok ([p.lastRebalanceSlot], [encodeWord timestamp]) := by
  simp only [afterExecution, bind_eq_ok]
  exact ⟨p, decoded_eq_ok.2 hp, (), revertIf_of_not (Nat.not_le.2 hslot), rfl⟩

/-- The saturated end of the cooldown is the smaller of its end and the largest `uint256`. -/
theorem unlockAt_eq {last cooldown : Nat} (hc : cooldown ≤ maxUint256) :
    unlockAt last cooldown = min (last + cooldown) maxUint256 := by
  unfold unlockAt
  split
  · rw [Nat.min_eq_right (by omega)]
  · rw [Nat.min_eq_left (by omega)]

end WickWaitRebalanceCondition

/-- The condition over markets that may change while the traversal runs. -/
def wickWaitRebalanceCondition (market : Nat → WickWaitRebalanceCondition.Market) :
    UpdatableCondition WickWaitRebalanceCondition.Error where
  check := fun k timestamp params ctx =>
    WickWaitRebalanceCondition.check (market k) timestamp params ctx
  afterExecution := fun _ timestamp params ctx =>
    WickWaitRebalanceCondition.afterExecution timestamp params ctx

/-- The condition writes the slot of its last rebalance only. -/
theorem WickWaitRebalanceCondition.writesOnly (market : Nat → WickWaitRebalanceCondition.Market)
    {params : Bytes} {p : WickWaitRebalanceCondition.Params} (hp : decodeParams params = some p) :
    WritesOnly (wickWaitRebalanceCondition market) params p.lastRebalanceSlot := by
  intro k timestamp ctx d h
  have h' : WickWaitRebalanceCondition.afterExecution timestamp params ctx = .ok d := h
  simp only [WickWaitRebalanceCondition.afterExecution, hp, decoded, bind_eq_ok, revertIf_eq_ok,
    pure_eq_ok, Except.ok.injEq, exists_eq_left'] at h'
  obtain ⟨-, hslot, rfl⟩ := h'
  exact ⟨Nat.lt_trans (Nat.lt_of_not_le hslot) (Nat.mod_lt _ (by decide)), _,
    length_encodeWord timestamp, rfl⟩

end StrategyBuilder.Contracts
