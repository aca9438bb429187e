import Mathlib.Data.Rat.Floor
import StrategyBuilder.Contracts.Conditions
import StrategyBuilder.Contracts.TickMath
import StrategyBuilder.Lib.FloorDiv

/-!
# The mean tick

`_twapTick` of `WickWaitRebalanceCondition.sol`: the mean of the ticks over the window, from two
cumulative ticks of the pool. The division truncates toward 0, and a tick is taken off where that rounds
a negative mean up.

A pool that traded within the ticks of the exchange leaves the difference within the window times the
range of ticks. There no type overflows, the result is the floor of the exact mean, and an integer bound
is passed by the floor where it is passed by the mean (`twapTick_eq_floor_mean`).
-/

set_option autoImplicit false

namespace StrategyBuilder.Contracts.WickWaitRebalanceCondition

open StrategyBuilder.Contracts.Vault
open StrategyBuilder.Contracts.TickMath
open StrategyBuilder.Lib
open StrategyBuilder.Lib.Abi

/-- The values of `int56`. -/
def IsInt56 (n : Int) : Prop := -2 ^ 55 ≤ n ∧ n < 2 ^ 55

instance : DecidablePred IsInt56 := fun n =>
  inferInstanceAs (Decidable (-2 ^ 55 ≤ n ∧ n < 2 ^ 55))

/-- The cumulative ticks of the pool at both ends of the window. -/
structure Observes (m : Market) (pool : Address) (w : Nat) (before now : Int) : Prop where
  window_pos : 0 < w
  window_lt : w < 2 ^ 32
  before_int56 : IsInt56 before
  now_int56 : IsInt56 now
  observe : ∃ rest, m.observe pool [w, 0] = some (before :: now :: rest)
  low : minTick * w ≤ now - before
  high : now - before ≤ maxTick * w

/-- Every intermediate value of `_twapTick` is one of its type: no operation reverts, and no cast
cuts. -/
structure Fits (before now : Int) (w : Nat) : Prop where
  delta : IsInt56 (now - before)
  window : IsInt56 w
  quotient : IsInt56 ((now - before).tdiv w)
  narrowed : IsInt24 ((now - before).tdiv w)
  remainder : IsInt56 ((now - before).tmod w)
  corrected : now - before < 0 ∧ (now - before).tmod w ≠ 0 → IsInt24 ((now - before).tdiv w - 1)

/-- The exact mean of the ticks. -/
def meanTick (before now : Int) (w : Nat) : Rat := ((now - before : Int) : Rat) / w

/-- The mean tick is outside the range of the position. -/
abbrev MeanBreach (before now : Int) (w : Nat) (position : Position) : Prop :=
  meanTick before now w < position.tickLower ∨ (position.tickUpper : Rat) ≤ meanTick before now w

/-- The position of a step with these parameters and the pool of its tokens. -/
structure Reads (m : Market) (ctx : List Bytes) (p : Params) (position : Position) (pool : Address) :
    Prop where
  positions : ∃ tokenId npm, readUint256Slot ctx p.tokenIdSlot = .ok tokenId ∧
    m.positionManager = some npm ∧ m.positions npm tokenId = some position
  getPool : ∃ factory, m.factory = some factory ∧
    m.getPool factory position.token0 position.token1 position.fee = some pool
  pool_ne : pool ≠ Address.zero

/-- The last part of `check`, behind the breach. -/
def cooldownOver (timestamp : Nat) (p : Params) (ctx : List Bytes) : Result Error Bool := do
  let last ← readTimestamp ctx p.lastRebalanceSlot
  return decide (unlockAt last p.cooldown ≤ timestamp)

theorem floor_meanTick (before now : Int) (w : Nat) :
    ⌊meanTick before now w⌋ = (now - before) / (w : Int) :=
  Rat.floor_intCast_div_natCast (now - before) w

theorem toInt24_eq {n : Int} (h : IsInt24 n) : toInt24 n = n := by
  obtain ⟨hlow, hhigh⟩ := h
  exact Int.bmod_eq_of_le_mul_two (by omega) (by omega)

namespace Observes

variable {m : Market} {pool : Address} {w : Nat} {before now : Int}

/-- The floored mean is a tick. -/
theorem floor_bounds (h : Observes m pool w before now) :
    minTick ≤ ⌊meanTick before now w⌋ ∧ ⌊meanTick before now w⌋ ≤ maxTick := by
  have hw : (0 : Int) < w := Int.natCast_pos.2 h.window_pos
  rw [floor_meanTick]
  constructor
  · exact (Int.le_ediv_iff_mul_le hw).2 h.low
  · have hhigh := Int.ediv_le_ediv hw h.high
    rwa [Int.mul_ediv_cancel _ hw.ne'] at hhigh

/-- The difference of two observations is one of the type. -/
theorem delta_int56 (h : Observes m pool w before now) : IsInt56 (now - before) := by
  have hlow := h.low
  have hhigh := h.high
  have hw := h.window_lt
  unfold minTick at hlow
  unfold maxTick at hhigh
  exact ⟨by omega, by omega⟩

/-- The truncated quotient is the floor, or the floor and 1 where the correction follows. -/
theorem quotient (h : Observes m pool w before now) :
    (now - before).tdiv w = ⌊meanTick before now w⌋ +
      if now - before < 0 ∧ (now - before).tmod w ≠ 0 then 1 else 0 := by
  have hw : (0 : Int) < w := Int.natCast_pos.2 h.window_pos
  rw [floor_meanTick]
  split
  · rename_i hcorrected
    have hfloor := tdiv_sub_one_eq_ediv hw hcorrected.1 hcorrected.2
    omega
  · rename_i huncorrected
    rw [tdiv_eq_ediv_of_uncorrected huncorrected, Int.add_zero]

/-- The mean is a tick of the range, or one above. -/
theorem quotient_bounds (h : Observes m pool w before now) :
    minTick ≤ (now - before).tdiv w ∧ (now - before).tdiv w ≤ maxTick + 1 := by
  obtain ⟨hlow, hhigh⟩ := h.floor_bounds
  rw [h.quotient]
  split
  · exact ⟨by omega, by omega⟩
  · exact ⟨by omega, by omega⟩

/-- No intermediate value leaves its type. -/
theorem fits (h : Observes m pool w before now) : Fits before now w := by
  have hw : (0 : Int) < w := Int.natCast_pos.2 h.window_pos
  have hlt := h.window_lt
  obtain ⟨hlow, hhigh⟩ := h.quotient_bounds
  unfold minTick at hlow
  unfold maxTick at hhigh
  -- a remainder is smaller than the window
  have hrestlow := Int.lt_tmod_of_pos (now - before) hw
  have hresthigh := Int.tmod_lt_of_pos (now - before) hw
  exact {
    delta := h.delta_int56
    window := ⟨by omega, by omega⟩
    quotient := ⟨by omega, by omega⟩
    narrowed := ⟨by omega, by omega⟩
    remainder := ⟨by omega, by omega⟩
    corrected := fun _ => ⟨by omega, by omega⟩ }

/-- The tick is the floor of the mean. -/
theorem twapTick_eq (h : Observes m pool w before now) :
    twapTick m pool w = .ok ⌊meanTick before now w⌋ := by
  obtain ⟨rest, hobserve⟩ := h.observe
  have hnarrow : toInt24 ((now - before).tdiv w) = (now - before).tdiv w :=
    toInt24_eq h.fits.narrowed
  have hdelta : checkedSubInt56 now before = .ok (now - before) := if_pos h.delta_int56
  simp only [twapTick, bind_eq_ok]
  refine ⟨_, passThrough_eq_ok.2 hobserve, now, readAt_eq_ok.2 rfl, before, readAt_eq_ok.2 rfl, _,
    hdelta, ?_⟩
  have hquotient := h.quotient
  rw [hnarrow]
  split
  · rename_i hcorrected
    rw [if_pos hcorrected] at hquotient
    -- the floor is a tick, so the quotient above it is not the least `int24`
    have hleast : (now - before).tdiv w ≠ -2 ^ 23 := by
      have hlow := h.floor_bounds.1
      unfold minTick at hlow
      omega
    rw [if_neg hleast, hquotient, Int.add_sub_cancel]
    rfl
  · rename_i huncorrected
    rw [if_neg huncorrected, Int.add_zero] at hquotient
    rw [hquotient]
    rfl

end Observes

section Breach

variable {m : Market} {ctx : List Bytes} {p : Params}

/-- An integer bound is above the floor where it is above the number, and at most the floor where it is
at most the number. -/
theorem floor_outside_iff (x : Rat) (lower upper : Int) :
    (⌊x⌋ < lower ∨ upper ≤ ⌊x⌋) ↔ (x < lower ∨ (upper : Rat) ≤ x) :=
  or_congr Int.floor_lt Int.le_floor

/-- The breach is reported of a position that was read, by the tick of its pool. -/
theorem breach_eq_ok {out : Bool} :
    breach m p ctx = .ok out ↔
      ∃ position pool tick, Reads m ctx p position pool ∧ twapTick m pool p.twapWindow = .ok tick ∧
        out = decide (tick < position.tickLower ∨ position.tickUpper ≤ tick) := by
  simp only [breach, bind_eq_ok, passThrough_eq_ok, revertIf_eq_ok, pure_eq_ok]
  constructor
  · rintro ⟨tokenId, htokenId, npm, hnpm, position, hposition, factory, hfactory, pool, hpool, _, hne,
      tick, htick, hout⟩
    exact ⟨position, pool, tick, ⟨⟨tokenId, npm, htokenId, hnpm, hposition⟩,
      ⟨factory, hfactory, hpool⟩, hne⟩, htick, hout.symm⟩
  · rintro ⟨position, pool, tick, hreads, htick, hout⟩
    obtain ⟨tokenId, npm, htokenId, hnpm, hposition⟩ := hreads.positions
    obtain ⟨factory, hfactory, hpool⟩ := hreads.getPool
    exact ⟨tokenId, htokenId, npm, hnpm, position, hposition, factory, hfactory, pool, hpool, (),
      hreads.pool_ne, tick, htick, hout.symm⟩

theorem check_eq {timestamp : Nat} {params : Bytes} {out : Bool} (hp : decodeParams params = some p)
    (hwindow : p.twapWindow ≠ 0) (hout : breach m p ctx = .ok out) :
    check m timestamp params ctx = if out = false then .ok false else cooldownOver timestamp p ctx := by
  have hpass : revertIf (p.twapWindow = 0) Error.zeroWindow = .ok () := revertIf_of_not hwindow
  simp only [check, cooldownOver, hp, decoded, hpass, hout, bind, Except.bind]
  rfl

/-- The breach of a pool within the ticks of the exchange is that of the exact mean. -/
theorem breach_eq_meanBreach {position : Position} {pool : Address} {before now : Int}
    (h : Observes m pool p.twapWindow before now) (hreads : Reads m ctx p position pool) :
    breach m p ctx = .ok (decide (MeanBreach before now p.twapWindow position)) :=
  breach_eq_ok.2 ⟨position, pool, _, hreads, h.twapTick_eq,
    decide_eq_decide.2 (floor_outside_iff _ _ _).symm⟩

end Breach

/-- Within the ticks of the exchange nothing overflows, the tick is the floor of the mean, and the check
goes on to the cooldown exactly where the mean has left the range. -/
theorem twapTick_eq_floor_mean {m : Market} {pool : Address} {w : Nat} {before now : Int}
    (h : Observes m pool w before now) :
    Fits before now w ∧
      twapTick m pool w = .ok ⌊meanTick before now w⌋ ∧
      ∀ timestamp params ctx p position, decodeParams params = some p → p.twapWindow = w →
        Reads m ctx p position pool →
          breach m p ctx = .ok (decide (MeanBreach before now w position)) ∧
          check m timestamp params ctx =
            if MeanBreach before now w position then cooldownOver timestamp p ctx else .ok false := by
  refine ⟨h.fits, h.twapTick_eq, ?_⟩
  rintro timestamp params ctx p position hp rfl hreads
  have hbreach := breach_eq_meanBreach h hreads
  refine ⟨hbreach, ?_⟩
  rw [check_eq hp h.window_pos.ne' hbreach]
  by_cases hout : MeanBreach before now p.twapWindow position
  · rw [if_neg (by rw [decide_eq_true hout]; decide), if_pos hout]
  · rw [if_pos (decide_eq_false hout), if_neg hout]

/-- A pool that fell by 9 over a window of 2, and a position whose range starts at tick -4. -/
def fallingMarket : Market where
  positionManager := some ⟨0xa1⟩
  factory := some ⟨0xa2⟩
  positions := fun _ _ => some ⟨⟨1⟩, ⟨2⟩, 500, -4, 10⟩
  getPool := fun _ _ _ _ => some ⟨0xb1⟩
  observe := fun _ _ => some [7, -2]

/-- The position in slot 0, a window of 2, no cooldown, no firing in slot 1. -/
def fallingParams : Bytes := encodeWord 0 ++ encodeWord 2 ++ encodeWord 0 ++ encodeWord 1

set_option maxRecDepth 4000 in
/-- The truncated quotient -4 is in the range, the mean -4.5 is not. -/
theorem twapTick_eq_floor_mean_falling :
    twapTick fallingMarket ⟨0xb1⟩ 2 = .ok (-5) ∧
      check fallingMarket 1000 fallingParams [encodeWord 7, []] = .ok true := by
  have hobserves : Observes fallingMarket ⟨0xb1⟩ 2 7 (-2) := {
    window_pos := by decide
    window_lt := by decide
    before_int56 := by decide
    now_int56 := by decide
    observe := ⟨[], rfl⟩
    low := by decide
    high := by decide }
  have hparams : decodeParams fallingParams = some ⟨0, 2, 0, 1⟩ := by decide
  have htokenId : readUint256Slot [encodeWord 7, []] 0 = .ok 7 := by decide
  have hreads : Reads fallingMarket [encodeWord 7, []] ⟨0, 2, 0, 1⟩ ⟨⟨1⟩, ⟨2⟩, 500, -4, 10⟩ ⟨0xb1⟩ :=
    ⟨⟨7, ⟨0xa1⟩, htokenId, rfl, rfl⟩, ⟨⟨0xa2⟩, rfl, rfl⟩, by decide⟩
  have hfloor : ⌊meanTick 7 (-2) 2⌋ = -5 := floor_meanTick 7 (-2) 2
  have hbreach : MeanBreach 7 (-2) 2 ⟨⟨1⟩, ⟨2⟩, 500, -4, 10⟩ :=
    (floor_outside_iff _ _ _).1 (Or.inl (by rw [hfloor]; decide))
  obtain ⟨-, htick, hcheck⟩ := twapTick_eq_floor_mean hobserves
  obtain ⟨-, hmet⟩ := hcheck 1000 fallingParams _ _ _ hparams rfl hreads
  refine ⟨by rw [htick, hfloor], ?_⟩
  rw [hmet, if_pos hbreach]
  decide

end StrategyBuilder.Contracts.WickWaitRebalanceCondition
