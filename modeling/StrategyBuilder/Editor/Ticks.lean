import StrategyBuilder.Contracts.PancakeSwapV3
import StrategyBuilder.Lib.Double

/-!
# Ticks of the range widget

`ticks.ts`: the rounding of a tick to the spacing of a pool, in doubles. On the ticks of a contract it is
that of the mint action, whose preset range is outward and minimal (`resolveTicks_outward`).
-/

set_option autoImplicit false

namespace StrategyBuilder.Editor

open StrategyBuilder.Contracts
open StrategyBuilder.Contracts.MintAction
open StrategyBuilder.Lib.Js

/-- `roundTickDown` -/
def roundTickDown (tick spacing : JsNumber) : JsNumber := (tick.div spacing).floor.mul spacing

/-- `roundTickUp` -/
def roundTickUp (tick spacing : JsNumber) : JsNumber := (tick.div spacing).ceil.mul spacing

/-- The editor rounds ticks to the floor and the ceiling of the exact quotient. -/
theorem roundTick_eq {tick spacing : Int} (htick : IsInt24 tick) (hint : IsInt24 spacing)
    (hspacing : 0 < spacing) :
    roundTickDown (.ofInt tick) (.ofInt spacing) = .ofInt (tick / spacing * spacing) ∧
      roundTickUp (.ofInt tick) (.ofInt spacing) = .ofInt (-(-tick / spacing) * spacing) := by
  obtain ⟨hlow, hhigh⟩ := htick
  have habs : |tick| ≤ 2 ^ 23 := abs_le.2 ⟨hlow, hhigh.le⟩
  obtain ⟨r, hr, hfloor, hceil⟩ := toDouble_quotient habs hspacing hint.2
  have hdiv : (JsNumber.ofInt tick).div (.ofInt spacing) = .finite r := by
    rw [div_ofInt tick hspacing.ne', hr]
  have hlower := Int.ediv_mul_le tick hspacing.ne'
  have hlower' := Int.lt_ediv_add_one_mul_self tick hspacing
  have hupper := Int.ediv_mul_le (-tick) hspacing.ne'
  have hupper' := Int.lt_ediv_add_one_mul_self (-tick) hspacing
  have hneg := Int.neg_mul (-tick / spacing) spacing
  rw [Int.add_mul, Int.one_mul] at hlower' hupper'
  obtain ⟨-, hsmall⟩ := hint
  constructor
  · rw [roundTickDown, hdiv, JsNumber.floor, hfloor]
    exact mul_ofInt (by omega)
  · rw [roundTickUp, hdiv, JsNumber.ceil, hceil]
    exact mul_ofInt (by omega)

/-- **The preset range is outward and minimal**, unless the arithmetic overflows; and on every tick the
helpers of the action round like the editor. -/
theorem resolveTicks_outward {px : PancakeSwapV3} {p : Params} {token0 token1 : Address}
    (hmode : p.rangeMode ≠ 0) (hpool : px.getPool token0 token1 p.fee ≠ Address.zero)
    (hdelta : 0 ≤ (p.tickDelta : Int))
    (hspacing : 0 < (px.tickSpacing (px.getPool token0 token1 p.fee) : Int))
    (hfits : resolveTicks px p token0 token1 ≠ .error (.panic 0x11)) :
    let tick : Int := (px.slot0 (px.getPool token0 token1 p.fee)).tick
    let delta : Int := p.tickDelta
    let s : Int := px.tickSpacing (px.getPool token0 token1 p.fee)
    (∃ tickLower tickUpper, resolveTicks px p token0 token1 = .ok (tickLower, tickUpper) ∧
      s ∣ tickLower ∧ s ∣ tickUpper ∧
      tickLower ≤ tick - delta ∧ tick - delta < tickLower + s ∧
      tick + delta ≤ tickUpper ∧
      (tickUpper - s < tick + delta ∨
        delta = 0 ∧ tickLower = tick ∧ tickUpper = tickLower + s) ∧
      tickLower ≤ tick ∧ tick < tickUpper) ∧
    ∀ t spacing : Int24, 0 < (spacing : Int) →
      (∃ v, roundTickDown (.ofInt t) (.ofInt spacing) = .ofInt v ∧
        roundDown t spacing = checkedInt24 v) ∧
      ∃ v, roundTickUp (.ofInt t) (.ofInt spacing) = .ofInt v ∧
        roundUp t spacing = checkedInt24 v := by
  intro tick delta s
  refine ⟨?_, fun t spacing hpos => ?_⟩
  · have hpreset : resolveTicks px p token0 token1 = presetTicks tick delta s := by
      rw [resolveTicks, if_neg hmode]
      simp only [revertIf_of_not hpool]
      rfl
    rw [hpreset, presetTicks_eq hspacing] at hfits ⊢
    -- what does not panic fits
    have hrange : RangeFits tick delta s := by
      by_contra hnot
      exact hfits (if_neg hnot)
    exact ⟨_, _, if_pos hrange, presetRange_outward hdelta hspacing⟩
  · obtain ⟨hdown, hup⟩ := roundTick_eq t.2 spacing.2 hpos
    exact ⟨⟨_, hdown, roundDown_eq t.2 hpos⟩, _, hup, roundUp_eq t.2 hpos⟩

/-- A pool with the price 1 at the tick -3 in the spacing 10. -/
def poolBelow : PancakeSwapV3 where
  vault := ⟨1⟩
  timestamp := 0
  positionManager := ⟨2⟩
  swapRouter := ⟨3⟩
  getPool := fun _ _ _ => ⟨4⟩
  slot0 := fun _ => ⟨2 ^ 96, castInt24 (-3)⟩
  tickSpacing := fun _ => castInt24 10
  balanceOf := fun _ => 1000
  answer := fun _ => some 1

/-- A preset of 7 ticks to either side, in a pool of spacing 10. -/
def presetParams : Params where
  tokenA := ⟨5⟩
  tokenB := ⟨6⟩
  fee := 500
  rangeMode := 1
  tickLower := castInt24 0
  tickUpper := castInt24 0
  tickDelta := castInt24 7
  amountADesired := 0
  amountBDesired := 0
  tokenIdToSlot := 0

theorem resolveTicks_outward_below :
    ∃ tickLower tickUpper,
      resolveTicks poolBelow presetParams ⟨5⟩ ⟨6⟩ = .ok (tickLower, tickUpper) ∧
        (10 : Int) ∣ tickLower ∧ (10 : Int) ∣ tickUpper ∧ tickLower ≤ -10 ∧ 4 ≤ tickUpper ∧
        tickLower ≤ -3 ∧ -3 < tickUpper := by
  obtain ⟨⟨lower, upper, hok, hlowerDvd, hupperDvd, hlower, -, hupper, -, hbelow, habove⟩, -⟩ :=
    @resolveTicks_outward poolBelow presetParams ⟨5⟩ ⟨6⟩ (by decide) (by decide) (by decide)
      (by decide) (by decide)
  exact ⟨lower, upper, hok, hlowerDvd, hupperDvd, hlower, hupper, hbelow, habove⟩

end StrategyBuilder.Editor
