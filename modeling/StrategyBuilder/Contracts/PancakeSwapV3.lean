import Mathlib.Tactic.Linarith
import StrategyBuilder.Contracts.AaveActions
import StrategyBuilder.Contracts.TickMath
import StrategyBuilder.Lib.FloorDiv

/-!
# Opening a PancakeSwap position

`PancakeSwapV3MintAction.sol`: the range of a position is explicit, or a preset half-width around the
live tick, rounded to the spacing of the pool. The division of Solidity rounds toward 0; each helper
corrects it on one side of 0 only, where it rounds the wrong way (`roundDown_eq`, `roundUp_eq`).

What the contracts of the exchange and the tokens answer is a parameter (`PancakeSwapV3`). The parameters
of a step come decoded.
-/

set_option autoImplicit false

namespace StrategyBuilder.Contracts

open StrategyBuilder.Lib
open StrategyBuilder.Lib.Abi

universe u

/-! ## `int24` -/

/-- `int24` -/
abbrev Int24 := { n : Int // IsInt24 n }

theorem isInt24_bmod (n : Int) : IsInt24 (n.bmod (2 ^ 24)) := by
  have hlow := Int.le_bmod (x := n) (m := 2 ^ 24) (by decide)
  have hhigh := Int.bmod_lt (x := n) (m := 2 ^ 24) (by decide)
  exact ⟨by omega, by omega⟩

/-- `int24(n)` -/
def castInt24 (n : Int) : Int24 := ⟨n.bmod (2 ^ 24), isInt24_bmod n⟩

section

variable {ε : Type u}

/-- The result of a checked operation on `int24`. -/
def checkedInt24 (n : Int) : Result ε Int := if IsInt24 n then .ok n else .error (.panic 0x11)

/-- `a / b`, rounded toward 0. -/
def divInt24 (a b : Int) : Result ε Int :=
  if b = 0 then .error (.panic 0x12) else checkedInt24 (a.tdiv b)

/-- `a % b`, with the sign of `a`. -/
def modInt24 (a b : Int) : Result ε Int :=
  if b = 0 then .error (.panic 0x12) else .ok (a.tmod b)

end

/-! ## The exchange -/

/-- `INonfungiblePositionManager.MintParams` -/
structure MintParams where
  token0 : Address
  token1 : Address
  fee : Nat
  tickLower : Int
  tickUpper : Int
  amount0Desired : Nat
  amount1Desired : Nat
  amount0Min : Nat
  amount1Min : Nat
  recipient : Address
  deadline : Nat
deriving DecidableEq, Repr

/-- `IPancakeV3SwapRouter.ExactInputSingleParams` -/
structure ExactInputSingleParams where
  tokenIn : Address
  tokenOut : Address
  fee : Nat
  recipient : Address
  deadline : Nat
  amountIn : Nat
  amountOutMinimum : Nat
  sqrtPriceLimitX96 : Nat
deriving DecidableEq, Repr

/-- The calls that change something. -/
inductive SwapCall where
  | forceApprove (token spender : Address) (amount : Nat)
  | mint (params : MintParams)
  | exactInputSingle (params : ExactInputSingleParams)
deriving DecidableEq, Repr

/-- `slot0` of a pool, as far as the actions read it. -/
structure Slot0 where
  sqrtPriceX96 : Nat
  tick : Int24

/-- What the registry, the contracts of the exchange and the tokens answer to the vault. A call that
fails has no answer. -/
structure PancakeSwapV3 where
  vault : Address
  timestamp : Nat
  positionManager : Address
  swapRouter : Address
  getPool : Address → Address → Nat → Address
  slot0 : Address → Slot0
  tickSpacing : Address → Int24
  balanceOf : Address → Nat
  answer : SwapCall → Option Nat

/-- The custom errors of the actions on pools. -/
inductive SwapError where
  | ZeroToken
  | SameToken
  | InvalidTicks
  | PoolNotFound
  | SqrtPriceTooHigh
deriving DecidableEq, Repr

/-- A sequence of calls, with their answers. -/
def PancakeSwapV3.perform (px : PancakeSwapV3) : List SwapCall → Result SwapError (List Nat)
  | [] => .ok []
  | c :: l => do
      let a ← passThrough (px.answer c)
      let rest ← px.perform l
      return a :: rest

namespace MintAction

/-- The decoded parameters. -/
structure Params where
  tokenA : Address
  tokenB : Address
  fee : Nat
  rangeMode : Nat
  tickLower : Int24
  tickUpper : Int24
  tickDelta : Int24
  amountADesired : Nat
  amountBDesired : Nat
  tokenIdToSlot : Nat

/-- `_roundDown`: towards the lower multiple of the spacing. -/
def roundDown (tick spacing : Int) : Result SwapError Int := do
  let quotient ← divInt24 tick spacing
  let r ← checkedInt24 (quotient * spacing)
  if tick < 0 then
    let rest ← modInt24 tick spacing
    if rest ≠ 0 then checkedInt24 (r - spacing) else return r
  else return r

/-- `_roundUp`: towards the upper multiple of the spacing. -/
def roundUp (tick spacing : Int) : Result SwapError Int := do
  let quotient ← divInt24 tick spacing
  let r ← checkedInt24 (quotient * spacing)
  if 0 < tick then
    let rest ← modInt24 tick spacing
    if rest ≠ 0 then checkedInt24 (r + spacing) else return r
  else return r

/-- The quotient that both helpers start from, in units of the tick. -/
theorem truncated_eq {tick spacing : Int} (htick : IsInt24 tick) (hspacing : 0 < spacing) :
    (divInt24 tick spacing : Result SwapError Int) = .ok (tick.tdiv spacing) ∧
      (checkedInt24 (tick.tdiv spacing * spacing) : Result SwapError Int) =
        .ok (tick.tdiv spacing * spacing) := by
  obtain ⟨hlow, hhigh⟩ := htick
  have hquotient := Int.natAbs_tdiv_le_natAbs tick spacing
  have hproduct : (tick.tdiv spacing * spacing).natAbs ≤ tick.natAbs := by
    rw [Int.natAbs_mul, Int.natAbs_tdiv]
    exact Nat.div_mul_le_self _ _
  -- no quotient of a negative tick is positive
  have hsign : tick < 0 → tick.tdiv spacing ≤ 0 ∧ tick.tdiv spacing * spacing ≤ 0 := by
    intro hneg
    have hmirror : 0 ≤ (-tick).tdiv spacing := Int.tdiv_nonneg (by omega) hspacing.le
    rw [Int.neg_tdiv] at hmirror
    have hle : tick.tdiv spacing ≤ 0 := by omega
    exact ⟨hle, Int.mul_nonpos_of_nonpos_of_nonneg hle hspacing.le⟩
  refine ⟨?_, if_pos ⟨by omega, by omega⟩⟩
  rw [divInt24, if_neg hspacing.ne']
  exact if_pos ⟨by omega, by omega⟩

/-- The correction is made where the quotient is not exact, and its sign is negative. -/
theorem roundDown_eq {tick spacing : Int} (htick : IsInt24 tick) (hspacing : 0 < spacing) :
    roundDown tick spacing = checkedInt24 (tick / spacing * spacing) := by
  obtain ⟨hdiv, hmul⟩ := truncated_eq htick hspacing
  have hmod : (modInt24 tick spacing : Result SwapError Int) = .ok (tick.tmod spacing) :=
    if_neg hspacing.ne'
  simp only [roundDown, hdiv, hmul, hmod, bind, Except.bind, pure, Except.pure]
  split
  · rename_i hneg
    split
    · rename_i hrest
      rw [← tdiv_sub_one_eq_ediv hspacing hneg hrest, Int.sub_mul, Int.one_mul]
    · rename_i hrest
      rw [← tdiv_eq_ediv_of_uncorrected (fun h => hrest h.2), hmul]
  · rename_i hpos
    rw [← tdiv_eq_ediv_of_uncorrected (fun h => hpos h.1), hmul]

/-- The rounding is that of integers towards above, also for negative ticks. -/
theorem roundUp_eq {tick spacing : Int} (htick : IsInt24 tick) (hspacing : 0 < spacing) :
    roundUp tick spacing = checkedInt24 (-(-tick / spacing) * spacing) := by
  obtain ⟨hdiv, hmul⟩ := truncated_eq htick hspacing
  have hmod : (modInt24 tick spacing : Result SwapError Int) = .ok (tick.tmod spacing) :=
    if_neg hspacing.ne'
  -- the ceiling is the floor of the mirrored tick
  have hquotient : (-tick).tdiv spacing = -tick.tdiv spacing := Int.neg_tdiv tick spacing
  have hremainder : (-tick).tmod spacing = -tick.tmod spacing := Int.neg_tmod tick spacing
  simp only [roundUp, hdiv, hmul, hmod, bind, Except.bind, pure, Except.pure]
  split
  · rename_i hpos
    split
    · rename_i hrest
      have hceil := tdiv_sub_one_eq_ediv hspacing (Int.neg_neg_of_pos hpos) (by omega)
      have hsum : -(-tick / spacing) = tick.tdiv spacing + 1 := by omega
      rw [hsum, Int.add_mul, Int.one_mul]
    · rename_i hrest
      have hceil := tdiv_eq_ediv_of_uncorrected (a := -tick) (b := spacing) (by omega)
      rw [← hceil, hquotient, Int.neg_neg, hmul]
  · rename_i hneg
    have hceil := tdiv_eq_ediv_of_uncorrected (a := -tick) (b := spacing) (by omega)
    rw [← hceil, hquotient, Int.neg_neg, hmul]

/-- The preset branch of `_resolveTicks`, from the live tick on. -/
def presetTicks (tick tickDelta spacing : Int) : Result SwapError (Int × Int) := do
  let lower ← checkedInt24 (tick - tickDelta)
  let tickLower ← roundDown lower spacing
  let upper ← checkedInt24 (tick + tickDelta)
  let tickUpper ← roundUp upper spacing
  if tickLower = tickUpper then
    let tickUpper ← checkedInt24 (tickUpper + spacing)
    return (tickLower, tickUpper)
  else return (tickLower, tickUpper)

/-- `_resolveTicks`: the given ticks, or the preset range around the price of the pool. -/
def resolveTicks (px : PancakeSwapV3) (p : Params) (token0 token1 : Address) :
    Result SwapError (Int × Int) :=
  if p.rangeMode = 0 then return (p.tickLower, p.tickUpper)
  else do
    let pool := px.getPool token0 token1 p.fee
    revertIf (pool = Address.zero) .PoolNotFound
    presetTicks (px.slot0 pool).tick p.tickDelta (px.tickSpacing pool)

/-- The calls, the identifier of the position, and the diff of its output slot. -/
def execute (px : PancakeSwapV3) (p : Params) :
    Result SwapError (List SwapCall × List Nat × List Bytes) := do
  revertIf (p.tokenA = Address.zero ∨ p.tokenB = Address.zero) .ZeroToken
  revertIf (p.tokenA = p.tokenB) .SameToken
  -- 0 stands for the whole balance
  let amountA := if p.amountADesired = 0 then px.balanceOf p.tokenA else p.amountADesired
  let amountB := if p.amountBDesired = 0 then px.balanceOf p.tokenB else p.amountBDesired
  let (token0, token1, amount0, amount1) :=
    if p.tokenA.toNat < p.tokenB.toNat then (p.tokenA, p.tokenB, amountA, amountB)
    else (p.tokenB, p.tokenA, amountB, amountA)
  let (tickLower, tickUpper) ← resolveTicks px p token0 token1
  revertIf (tickUpper ≤ tickLower) .InvalidTicks
  let mintCall := .mint
    { token0, token1, fee := p.fee, tickLower, tickUpper, amount0Desired := amount0,
      amount1Desired := amount1, amount0Min := 0, amount1Min := 0, recipient := px.vault,
      deadline := px.timestamp }
  let calls :=
    [.forceApprove token0 px.positionManager amount0, .forceApprove token1 px.positionManager amount1,
      mintCall, .forceApprove token0 px.positionManager 0, .forceApprove token1 px.positionManager 0]
  let _ ← px.perform calls
  let tokenId ← passThrough (px.answer mintCall)
  return (calls, AaveActions.singleSlotDiff p.tokenIdToSlot tokenId)

/-! ## The preset range -/

/-- The range of a half-width around a tick, in integers of any size. -/
def presetRange (tick delta spacing : Int) : Int × Int :=
  let lower := (tick - delta) / spacing * spacing
  let upper := -(-(tick + delta) / spacing) * spacing
  if lower = upper then (lower, upper + spacing) else (lower, upper)

/-- What has to be an `int24` on the way to the range. -/
def RangeFits (tick delta spacing : Int) : Prop :=
  IsInt24 (tick - delta) ∧ IsInt24 (tick + delta) ∧
    IsInt24 (presetRange tick delta spacing).1 ∧ IsInt24 (presetRange tick delta spacing).2

instance (tick delta spacing : Int) : Decidable (RangeFits tick delta spacing) :=
  inferInstanceAs (Decidable (_ ∧ _))

theorem presetRange_lower (tick delta spacing : Int) :
    (presetRange tick delta spacing).1 = (tick - delta) / spacing * spacing := by
  rw [presetRange]
  split
  · rfl
  · rfl

/-- **The range is outward and minimal.** -/
theorem presetRange_outward {tick delta spacing : Int} (hdelta : 0 ≤ delta) (hspacing : 0 < spacing) :
    let range := presetRange tick delta spacing
    spacing ∣ range.1 ∧ spacing ∣ range.2 ∧
      range.1 ≤ tick - delta ∧ tick - delta < range.1 + spacing ∧
      tick + delta ≤ range.2 ∧
      (range.2 - spacing < tick + delta ∨
        delta = 0 ∧ range.1 = tick ∧ range.2 = range.1 + spacing) ∧
      range.1 ≤ tick ∧ tick < range.2 := by
  have hlowerDvd : spacing ∣ (tick - delta) / spacing * spacing := Dvd.intro_left _ rfl
  have hupperDvd : spacing ∣ -(-(tick + delta) / spacing) * spacing := Dvd.intro_left _ rfl
  have hlower := Int.ediv_mul_le (tick - delta) hspacing.ne'
  have hlower' := Int.lt_ediv_add_one_mul_self (tick - delta) hspacing
  have hupper := Int.ediv_mul_le (-(tick + delta)) hspacing.ne'
  have hupper' := Int.lt_ediv_add_one_mul_self (-(tick + delta)) hspacing
  have hneg := Int.neg_mul (-(tick + delta) / spacing) spacing
  rw [Int.add_mul, Int.one_mul] at hlower' hupper'
  simp only [presetRange]
  split
  · -- both bounds are the tick
    rename_i hdegenerate
    exact ⟨hlowerDvd, dvd_add hupperDvd (dvd_refl spacing), hlower, hlower', by omega,
      Or.inr ⟨by omega, by omega, by omega⟩, by omega, by omega⟩
  · rename_i hproper
    refine ⟨hlowerDvd, hupperDvd, hlower, hlower', by omega, Or.inl (by omega), by omega, ?_⟩
    apply lt_of_le_of_ne (by omega)
    intro heq
    have hzero : delta = 0 := by omega
    have hupperEq : -(-(tick + delta) / spacing) * spacing = tick := heq.symm
    rw [hupperEq] at hupperDvd
    apply hproper
    rw [hupperEq, hzero, Int.sub_zero, Int.ediv_mul_cancel hupperDvd]

/-- The branch returns the range of the integers, if all of it is `int24`. -/
theorem presetTicks_eq {tick delta spacing : Int} (hspacing : 0 < spacing) :
    presetTicks tick delta spacing =
      if RangeFits tick delta spacing then .ok (presetRange tick delta spacing)
      else .error (.panic 0x11) := by
  have hfits (n : Int) (h : IsInt24 n) : (checkedInt24 n : Result SwapError Int) = .ok n := if_pos h
  have hoverflow (n : Int) (h : ¬ IsInt24 n) :
      (checkedInt24 n : Result SwapError Int) = .error (.panic 0x11) := if_neg h
  let lower := (tick - delta) / spacing * spacing
  let upper := -(-(tick + delta) / spacing) * spacing
  have hfirst : (presetRange tick delta spacing).1 = lower := presetRange_lower tick delta spacing
  simp only [presetTicks, bind, Except.bind, pure, Except.pure]
  -- each checked operation in its order; the first that does not fit panics
  by_cases hlow : IsInt24 (tick - delta)
  · rw [hfits _ hlow]
    simp only [roundDown_eq hlow hspacing]
    by_cases hlower : IsInt24 lower
    · rw [hfits _ hlower]
      by_cases hhigh : IsInt24 (tick + delta)
      · simp only [hfits _ hhigh, roundUp_eq hhigh hspacing]
        -- an empty range is widened by one spacing
        by_cases heq : lower = upper
        · have hrange : presetRange tick delta spacing = (lower, upper + spacing) := if_pos heq
          have hupper : IsInt24 upper := heq ▸ hlower
          rw [hfits _ hupper]
          simp only [if_pos heq]
          by_cases hshifted : IsInt24 (upper + spacing)
          · rw [hfits _ hshifted, if_pos ⟨hlow, hhigh, hrange ▸ hlower, hrange ▸ hshifted⟩, hrange]
          · rw [hoverflow _ hshifted, if_neg fun h => hshifted (by simpa only [hrange] using h.2.2.2)]
        · have hrange : presetRange tick delta spacing = (lower, upper) := if_neg heq
          by_cases hupper : IsInt24 upper
          · rw [hfits _ hupper, if_pos ⟨hlow, hhigh, hrange ▸ hlower, hrange ▸ hupper⟩, hrange]
            exact if_neg heq
          · rw [hoverflow _ hupper, if_neg fun h => hupper (by simpa only [hrange] using h.2.2.2)]
      · rw [hoverflow _ hhigh, if_neg fun h => hhigh h.2.1]
    · rw [hoverflow _ hlower, if_neg fun h => hlower (hfirst ▸ h.2.2.1)]
  · rw [hoverflow _ hlow, if_neg fun h => hlow h.1]

end MintAction

end StrategyBuilder.Contracts
