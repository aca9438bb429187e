import StrategyBuilder.Backend.TriggerStatus
import StrategyBuilder.Contracts.Conditions

/-!
# The mirror of the time conditions

The service tells whether an interval or a timer is met without asking the chain, in doubles. It agrees
with the contracts for all values (`mirror_agrees`): a time up to `2 ^ 53` is exact, and a larger one,
or a sum that overflows, is later than now.
-/

set_option autoImplicit false

namespace StrategyBuilder.Backend

open StrategyBuilder.Contracts
open StrategyBuilder.Lib.Abi
open StrategyBuilder.Lib.Js

/-- The clock shows every second. -/
theorem nowSeconds_mul {now : Nat} (h : now ≤ 2 ^ 53) : nowSeconds (now * 1000) = .ofInt now := by
  have hquotient : ((now * 1000 : Nat) : Int) / (1000 : Rat) = (now : Int) := by
    push_cast
    rw [mul_div_cancel_right₀ _ (by norm_num)]
  have hdiv : (JsNumber.ofInt (now * 1000 : Nat)).div (.ofInt 1000) = .ofInt now := by
    have hexact := toDouble_intCast (n := now) (by rw [Int.natAbs_natCast]; exact h)
    rw [div_ofInt _ (by decide), ← hexact]
    exact congrArg toDouble hquotient
  rw [nowSeconds, hdiv, JsNumber.ofInt, JsNumber.floor, Rat.floor_intCast, JsNumber.ofInt]

/-- Amount and slot are read back. -/
theorem decodeTimeData_encode {amount slot : Nat} (hamount : amount < 2 ^ 256) (hslot : slot < 2 ^ 32) :
    decodeTimeData (encodeWord amount ++ encodeWord slot) = some (amount, slot) := by
  obtain ⟨hfirst, hsecond⟩ := at_append.1 (at_zero (encodeWord amount ++ encodeWord slot))
  rw [length_encodeWord, Nat.zero_add] at hsecond
  have hword := wordAt_eq hfirst hamount
  have hword' := wordAt_eq hsecond (Nat.lt_trans hslot (by decide))
  simp only [decodeTimeData, hword, hword', Option.bind_eq_bind, Option.bind_some,
    Nat.mod_eq_of_lt hslot]
  rfl

/-- A date past the last one does not make a status met. -/
theorem fireStatus_met {type : TriggerType} {now fireTime : JsNumber} {failed : TriggerStatus}
    (hfailed : failed.met = false) :
    ((fireStatus type now fireTime).getD failed).met = fireTime.le now := by
  rw [fireStatus]
  split
  · rename_i h
    rw [h]
    rfl
  · rename_i h
    rw [Bool.not_eq_true] at h
    rw [h]
    cases toIsoDate (fireTime.mul (.ofInt 1000)) with
    | none => exact hfailed
    | some date => rfl

/-- The interval is met from its next time on. -/
theorem interpretInterval_met {ms now amount slot : Nat} {data : Bytes} {ctx : List Bytes}
    (hdata : decodeTimeData data = some (amount, slot)) (hms : nowSeconds ms = .ofInt now)
    (hnow : now < 2 ^ 53) :
    (interpretInterval ms data ctx).met = true ↔
      ∃ next, storedUint ctx slot = some next ∧ next ≠ 0 ∧ next ≤ now := by
  simp only [interpretInterval, hdata, storedUint]
  cases ctx[slot]? with
  | none => simp
  | some raw =>
    cases raw with
    | nil => simp [decodeUint256, wordAt]
    | cons b raw =>
      simp only [Option.bind_eq_bind, Option.bind_some]
      cases decodeUint256 (b :: raw) with
      | none => simp [interpretInterval.unableToDecode]
      | some next =>
        have hstands := toDouble_standsFor next
        simp only [hstands.eq_zero_iff, Option.some.injEq, exists_eq_left']
        by_cases hzero : next = 0
        · simp [hzero]
        · rw [if_neg hzero, fireStatus_met rfl, hms, hstands.le_iff hnow]
          exact (and_iff_right hzero).symm

/-- The timer is due if it runs and its delay has passed. -/
theorem interpretTimer_met {ms now delta slot : Nat} {data : Bytes} {ctx : List Bytes}
    (hdata : decodeTimeData data = some (delta, slot)) (hms : nowSeconds ms = .ofInt now)
    (hnow : now < 2 ^ 53) :
    (interpretTimer ms data ctx).met = true ↔
      ∃ start, storedUint ctx slot = some start ∧ start ≠ 0 ∧ start + delta ≤ now := by
  simp only [interpretTimer, hdata, storedUint]
  cases ctx[slot]? with
  | none => simp [interpretTimer.stopped]
  | some raw =>
    cases raw with
    | nil => simp [decodeUint256, wordAt, interpretTimer.stopped]
    | cons b raw =>
      simp only [Option.bind_eq_bind, Option.bind_some]
      cases decodeUint256 (b :: raw) with
      | none => simp [interpretTimer.stopped]
      | some start =>
        have hstands := toDouble_standsFor start
        simp only [hstands.eq_zero_iff, Option.some.injEq, exists_eq_left']
        by_cases hzero : start = 0
        · simp [hzero, interpretTimer.stopped]
        · have hsum := hstands.add (toDouble_standsFor delta)
          rw [if_neg hzero, fireStatus_met rfl, hms, hsum.le_iff hnow]
          exact (and_iff_right hzero).symm

/-- **The mirror agrees with the contracts.** An array of JavaScript has less than `2 ^ 32` entries. -/
theorem mirror_agrees {ms now amount slot : Nat} {ctx : List Bytes} (hamount : amount < 2 ^ 256)
    (hslot : slot < 2 ^ 32) (hctx : ctx.length < 2 ^ 32) (hms : nowSeconds ms = .ofInt now)
    (hnow : now < 2 ^ 53) :
    ((interpretInterval ms (encodeWord amount ++ encodeWord slot) ctx).met = true ↔
      IntervalCondition.check now (encodeWord amount ++ encodeWord slot) ctx = .ok true) ∧
    ((interpretTimer ms (encodeWord amount ++ encodeWord slot) ctx).met = true ↔
      TimerCondition.check now (encodeWord amount ++ encodeWord slot) ctx = .ok true) := by
  have hdata := decodeTimeData_encode hamount hslot
  have hparams := decodeUint256Uint32_encode hamount hslot
  have htime : now ≤ maxUint256 := hnow.le.trans (by decide)
  -- a stored time is in a slot that exists
  have hexists (n : Nat) (h : storedUint ctx slot = some n) : slot < ctx.length % 2 ^ 32 := by
    obtain ⟨raw, hraw, -⟩ := storedUint_eq_some.1 h
    rw [Nat.mod_eq_of_lt hctx]
    exact (List.getElem?_eq_some_iff.1 hraw).1
  constructor
  · rw [interpretInterval_met hdata hms hnow, IntervalCondition.check_true_iff hparams]
    constructor
    · rintro ⟨next, hstored, hdue⟩
      exact ⟨hexists next hstored, next, hstored, hdue⟩
    · exact fun h => h.2
  · rw [interpretTimer_met hdata hms hnow, TimerCondition.check_true_iff hparams htime]
    constructor
    · rintro ⟨start, hstored, hdue⟩
      exact ⟨hexists start hstored, start, hstored, hdue⟩
    · exact fun h => h.2

theorem mirror_agrees_due :
    ((interpretInterval (1000 * 1000) (encodeWord 60 ++ encodeWord 0) [encodeWord 900]).met = true ↔
      IntervalCondition.check 1000 (encodeWord 60 ++ encodeWord 0) [encodeWord 900] = .ok true) ∧
    ((interpretTimer (1000 * 1000) (encodeWord 60 ++ encodeWord 0) [encodeWord 900]).met = true ↔
      TimerCondition.check 1000 (encodeWord 60 ++ encodeWord 0) [encodeWord 900] = .ok true) :=
  mirror_agrees (by decide) (by decide) (by decide) (nowSeconds_mul (by decide)) (by decide)

end StrategyBuilder.Backend
