import StrategyBuilder.Contracts.PancakeSwapV3
import StrategyBuilder.Lib.FloorDiv

/-!
# Swapping to the ratio of a range

`PancakeSwapV3SwapToRangeRatioAction.sol`: at the live price of a pool the action works out in which
ratio the preset range of the mint action takes the two tokens, and swaps the token of which the vault
holds too much. The value of token 0 in units of token 1 is staged, each stage a floored product with
the square root of the price.

The price is inside the range, so it is not clamped; the amount to sell is at most the balance; and the
value that remains misses the target by less than the floors lose (`swap_sized`).
-/

set_option autoImplicit false

namespace StrategyBuilder.Contracts

open StrategyBuilder.Lib

namespace SwapToRangeRatioAction

/-- The decoded parameters. -/
structure Params where
  tokenA : Address
  tokenB : Address
  fee : Nat
  tickDelta : Int24
  amountOutMinimum : Nat

/-- The library reverts inside the action. -/
inductive Error where
  | action (e : SwapError)
  | tickMath (e : TickMath.Error)
deriving DecidableEq, Repr

/-- `1 << 96` -/
def Q96 : Nat := 2 ^ 96

/-- `_mulSpDivQ96`, rounded down -/
def mulSpDivQ96 (x sp : Nat) : Result SwapError Nat := do
  let product ← checkedMul x sp
  checkedDiv product Q96

/-- `_divSpMulQ96`, rounded down -/
def divSpMulQ96 (x sp : Nat) : Result SwapError Nat := do
  let product ← checkedMul x Q96
  checkedDiv product sp

/-- `_roundDown`: towards the lower multiple of the spacing. -/
def roundDown (tick spacing : Int) : Result SwapError Int := do
  let quotient ← divInt24 tick spacing
  let r ← checkedInt24 (quotient * spacing)
  if tick < 0 then
    let rest ← modInt24 tick spacing
    if rest ≠ 0 then checkedInt24 (r - spacing) else return r
  else return r

/-- `_roundUp`: towards the upper multiple of the spacing. -/
def roundUp (tick spacing : Int) : Result SwapError Int := do
  let quotient ← divInt24 tick spacing
  let r ← checkedInt24 (quotient * spacing)
  if 0 < tick then
    let rest ← modInt24 tick spacing
    if rest ≠ 0 then checkedInt24 (r + spacing) else return r
  else return r

/-- The calls of `_swap`. -/
def swapCalls (px : PancakeSwapV3) (tokenIn tokenOut : Address) (fee amountIn minOut : Nat) :
    List SwapCall :=
  if amountIn = 0 then []
  else
    [.forceApprove tokenIn px.swapRouter amountIn,
      .exactInputSingle
        { tokenIn, tokenOut, fee, recipient := px.vault, deadline := px.timestamp, amountIn,
          amountOutMinimum := minOut, sqrtPriceLimitX96 := 0 },
      .forceApprove tokenIn px.swapRouter 0]

/-- The calls of a swap are performed: approve, swap, and approve 0. -/
def swap (px : PancakeSwapV3) (tokenIn tokenOut : Address) (fee amountIn minOut : Nat) :
    Result SwapError (List SwapCall) := do
  let calls := swapCalls px tokenIn tokenOut fee amountIn minOut
  let _ ← px.perform calls
  return calls

/-- The range of `execute`. -/
def rangeTicks (tick tickDelta spacing : Int) : Result SwapError (Int × Int) := do
  let lower ← checkedInt24 (tick - tickDelta)
  let tickLower ← roundDown lower spacing
  let upper ← checkedInt24 (tick + tickDelta)
  let tickUpper ← roundUp upper spacing
  if tickLower = tickUpper then
    let tickUpper ← checkedInt24 (tickUpper + spacing)
    return (tickLower, tickUpper)
  else return (tickLower, tickUpper)

/-- `execute` from the balances on, with the weights of the two tokens. -/
def swapToward (px : PancakeSwapV3) (token0 token1 : Address) (fee minOut sp A denom : Nat) :
    Result SwapError (List SwapCall) := do
  let bal0 := px.balanceOf token0
  let bal1 := px.balanceOf token1
  let half ← mulSpDivQ96 bal0 sp
  let value0 ← mulSpDivQ96 half sp
  let V ← checkedAdd value0 bal1
  let weighted ← checkedMul V A
  let targetValue0 ← checkedDiv weighted denom
  if targetValue0 < value0 then
    -- too much of token 0: the excess is valued in token 1, and converted back
    let excess1 ← checkedSub value0 targetValue0
    let half ← divSpMulQ96 excess1 sp
    let amountIn ← divSpMulQ96 half sp
    let amountIn := if bal0 < amountIn then bal0 else amountIn
    swap px token0 token1 fee amountIn minOut
  else if value0 < targetValue0 then
    -- too little of token 0: what is missing is paid in token 1
    let amountIn ← checkedSub targetValue0 value0
    let amountIn := if bal1 < amountIn then bal1 else amountIn
    swap px token1 token0 fee amountIn minOut
  else return []

/-- `execute` from the prices of the range on. -/
def swapToRange (px : PancakeSwapV3) (token0 token1 : Address) (fee minOut sqrtP sa sb : Nat) :
    Result SwapError (List SwapCall) := do
  -- a price outside the range counts as its nearest bound
  let sp := if sqrtP < sa then sa else sqrtP
  let sp := if sb < sp then sb else sp
  revertIf (2 ^ 128 - 1 < sb) .SqrtPriceTooHigh
  let above ← checkedSub sb sp
  let product ← checkedMul sp above
  let A ← checkedDiv product sb
  let B ← checkedSub sp sa
  let denom ← checkedAdd A B
  -- both weights are 0 if the range is a single price
  if denom = 0 then return []
  else swapToward px token0 token1 fee minOut sp A denom

/-- The tokens in the order of the pool. -/
def sortTokens (tokenA tokenB : Address) : Address × Address :=
  if tokenA.toNat < tokenB.toNat then (tokenA, tokenB) else (tokenB, tokenA)

/-- The calls that the action makes. -/
def execute (px : PancakeSwapV3) (p : Params) : Result Error (List SwapCall) := do
  liftRevert .action (revertIf (p.tokenA = Address.zero ∨ p.tokenB = Address.zero) .ZeroToken)
  liftRevert .action (revertIf (p.tokenA = p.tokenB) .SameToken)
  let (token0, token1) := sortTokens p.tokenA p.tokenB
  let pool := px.getPool token0 token1 p.fee
  liftRevert .action (revertIf (pool = Address.zero) .PoolNotFound)
  let (tickLower, tickUpper) ←
    liftRevert .action (rangeTicks (px.slot0 pool).tick p.tickDelta (px.tickSpacing pool))
  let sa ← liftRevert .tickMath (TickMath.getSqrtRatioAtTick tickLower)
  let sb ← liftRevert .tickMath (TickMath.getSqrtRatioAtTick tickUpper)
  liftRevert .action
    (swapToRange px token0 token1 p.fee p.amountOutMinimum (px.slot0 pool).sqrtPriceX96 sa sb)

/-! ## The amount to sell -/

/-- The price of token 0 in units of token 1. -/
def price (sp : Nat) : Rat := sp ^ 2 / 2 ^ 192

/-- `value0` -/
def stagedValue (bal0 sp : Nat) : Nat := bal0 * sp / Q96 * sp / Q96

/-- `amountIn`, before it is capped at the balance. -/
def stagedAmount (excess1 sp : Nat) : Nat := excess1 * Q96 / sp * Q96 / sp

theorem price_eq (sp : Nat) : price sp = ((sp : Rat) / Q96) ^ 2 := by
  rw [price, div_pow, Q96]
  norm_num

/-- What the vault keeps of token 0 is worth the target, up to what the floors lose. -/
theorem stagedAmount_bounds {bal0 sp target : Nat} (hsp : 0 < sp)
    (htarget : target < stagedValue bal0 sp) :
    stagedAmount (stagedValue bal0 sp - target) sp ≤ bal0 ∧
      (target : Rat) ≤ (bal0 - stagedAmount (stagedValue bal0 sp - target) sp) * price sp ∧
      ((bal0 : Rat) - stagedAmount (stagedValue bal0 sp - target) sp) * price sp <
        target + 1 + 2 * sp / 2 ^ 96 + price sp := by
  let s : Rat := sp / Q96
  let t : Rat := Q96 / sp
  let excess := stagedValue bal0 sp - target
  let amount := stagedAmount excess sp
  have hspos : (0 : Rat) < sp := Nat.cast_pos.2 hsp
  have hQ : (0 : Rat) < Q96 := Nat.cast_pos.2 (by decide)
  have hinverse : t * s = 1 := by
    simp only [t, s]
    field_simp
  have hs : 0 < s := div_pos hspos hQ
  have hprice : price sp = s ^ 2 := price_eq sp
  -- the value of the balance, and of the amount
  have hvalueLe : (stagedValue bal0 sp : Rat) ≤ bal0 * s ^ 2 := staged_le bal0 sp (by decide)
  have hvalueLt : (bal0 : Rat) * s ^ 2 < stagedValue bal0 sp + s + 1 := lt_staged bal0 sp (by decide)
  have hamountLe : (amount : Rat) * s ^ 2 ≤ excess := by
    have h : (amount : Rat) ≤ excess * t ^ 2 := staged_le excess Q96 hsp
    calc (amount : Rat) * s ^ 2 ≤ excess * t ^ 2 * s ^ 2 := mul_le_mul_of_nonneg_right h (sq_nonneg s)
      _ = excess * (t * s) ^ 2 := by ring
      _ = excess := by rw [hinverse, one_pow, mul_one]
  have hamountLt : (excess : Rat) < amount * s ^ 2 + s + s ^ 2 := by
    have h : (excess : Rat) * t ^ 2 < amount + t + 1 := lt_staged excess Q96 hsp
    calc (excess : Rat) = excess * (t * s) ^ 2 := by rw [hinverse, one_pow, mul_one]
      _ = excess * t ^ 2 * s ^ 2 := by ring
      _ < (amount + t + 1) * s ^ 2 := mul_lt_mul_of_pos_right h (pow_pos hs 2)
      _ = amount * s ^ 2 + t * s * s + s ^ 2 := by ring
      _ = amount * s ^ 2 + s + s ^ 2 := by rw [hinverse, one_mul]
  have hexcess : (excess : Rat) = stagedValue bal0 sp - target := Nat.cast_sub htarget.le
  refine ⟨?_, ?_, ?_⟩
  · have hcap : (amount : Rat) * s ^ 2 ≤ bal0 * s ^ 2 := by
      have htarget0 : (0 : Rat) ≤ target := Nat.cast_nonneg target
      linarith
    exact_mod_cast le_of_mul_le_mul_right hcap (pow_pos hs 2)
  · rw [hprice, sub_mul]
    linarith
  · have hs96 : 2 * (sp : Rat) / 2 ^ 96 = 2 * s := by
      simp only [s, Q96]
      push_cast
      ring
    rw [hprice, sub_mul, hs96]
    linarith

/-! ## The run -/

theorem mulSpDivQ96_eq_ok {x sp y : Nat} (h : mulSpDivQ96 x sp = .ok y) : y = x * sp / Q96 := by
  simp only [mulSpDivQ96, bind_eq_ok, checkedMul_eq_ok, checkedDiv_eq_ok] at h
  obtain ⟨product, ⟨-, rfl⟩, -, rfl⟩ := h
  rfl

theorem divSpMulQ96_eq_ok {x sp y : Nat} (h : divSpMulQ96 x sp = .ok y) :
    0 < sp ∧ y = x * Q96 / sp := by
  simp only [divSpMulQ96, bind_eq_ok, checkedMul_eq_ok, checkedDiv_eq_ok] at h
  obtain ⟨product, ⟨-, rfl⟩, hsp, rfl⟩ := h
  exact ⟨Nat.pos_of_ne_zero hsp, rfl⟩

theorem swap_eq_ok {px : PancakeSwapV3} {tokenIn tokenOut : Address} {fee amountIn minOut : Nat}
    {calls : List SwapCall} (h : swap px tokenIn tokenOut fee amountIn minOut = .ok calls) :
    calls = swapCalls px tokenIn tokenOut fee amountIn minOut := by
  simp only [swap, bind_eq_ok, pure_eq_ok] at h
  obtain ⟨answers, -, rfl⟩ := h
  rfl

/-- What the router is asked to swap: the token that is sold, the one that is bought, and the amount
sold. -/
def swapsOf (calls : List SwapCall) : List (Address × Address × Nat) :=
  calls.filterMap fun
    | .exactInputSingle params => some (params.tokenIn, params.tokenOut, params.amountIn)
    | _ => none

/-- The calls of a swap ask the router once, or not at all for 0. -/
theorem swapsOf_swapCalls (px : PancakeSwapV3) (tokenIn tokenOut : Address) (fee amountIn minOut : Nat) :
    swapsOf (swapCalls px tokenIn tokenOut fee amountIn minOut) =
      if amountIn = 0 then [] else [(tokenIn, tokenOut, amountIn)] := by
  rw [swapCalls]
  split
  · rfl
  · rfl

/-- The calls bring the value of token 0 to the target, in whole units of the token that is sold. -/
structure Sized (px : PancakeSwapV3) (token0 token1 : Address) (fee minOut sp target : Nat)
    (calls : List SwapCall) : Prop where
  balanced : stagedValue (px.balanceOf token0) sp = target → calls = []
  sold0 : target < stagedValue (px.balanceOf token0) sp →
    ∃ amountIn, amountIn = stagedAmount (stagedValue (px.balanceOf token0) sp - target) sp ∧
      calls = swapCalls px token0 token1 fee amountIn minOut ∧
      swapsOf calls = (if amountIn = 0 then [] else [(token0, token1, amountIn)]) ∧
      amountIn ≤ px.balanceOf token0 ∧
      (target : Rat) ≤ (px.balanceOf token0 - amountIn) * price sp ∧
      ((px.balanceOf token0 : Rat) - amountIn) * price sp < target + 1 + 2 * sp / 2 ^ 96 + price sp
  sold1 : stagedValue (px.balanceOf token0) sp < target →
    calls = swapCalls px token1 token0 fee (target - stagedValue (px.balanceOf token0) sp) minOut ∧
      swapsOf calls = [(token1, token0, target - stagedValue (px.balanceOf token0) sp)] ∧
      target - stagedValue (px.balanceOf token0) sp ≤ px.balanceOf token1

/-- The target of a weight. -/
def targetValue (px : PancakeSwapV3) (token0 token1 : Address) (sp A denom : Nat) : Nat :=
  (stagedValue (px.balanceOf token0) sp + px.balanceOf token1) * A / denom

/-- The swap goes towards the target, sized by its distance. -/
theorem swapToward_eq_ok {px : PancakeSwapV3} {token0 token1 : Address} {fee minOut sp A denom : Nat}
    {calls : List SwapCall} (hA : A ≤ denom)
    (h : swapToward px token0 token1 fee minOut sp A denom = .ok calls) :
    Sized px token0 token1 fee minOut sp (targetValue px token0 token1 sp A denom) calls := by
  simp only [swapToward, bind_eq_ok, checkedAdd_eq_ok, checkedMul_eq_ok, checkedDiv_eq_ok] at h
  obtain ⟨half, hhalf, value0, hvalue0, V, ⟨-, rfl⟩, weighted, ⟨-, rfl⟩, targetValue0,
    ⟨hdenom, htarget⟩, h⟩ := h
  obtain rfl := mulSpDivQ96_eq_ok hhalf
  have hvalue : value0 = stagedValue (px.balanceOf token0) sp := mulSpDivQ96_eq_ok hvalue0
  subst hvalue
  change targetValue px token0 token1 sp A denom = targetValue0 at htarget
  rw [htarget]
  split at h
  · rename_i hless
    simp only [bind_eq_ok, checkedSub_eq_ok] at h
    obtain ⟨excess1, ⟨-, rfl⟩, half, hhalf, amountIn, hamount, h⟩ := h
    obtain ⟨hsp, rfl⟩ := divSpMulQ96_eq_ok hhalf
    -- token 0 is sold: both floors go down, so the balance covers the amount
    have hamountIn : amountIn = stagedAmount (stagedValue (px.balanceOf token0) sp - targetValue0) sp :=
      (divSpMulQ96_eq_ok hamount).2
    subst hamountIn
    obtain ⟨hcap, hlow, hhigh⟩ := stagedAmount_bounds hsp hless
    have hcalls := swap_eq_ok h
    rw [if_neg (Nat.not_lt.2 hcap)] at hcalls
    have hswaps := congrArg swapsOf hcalls
    rw [swapsOf_swapCalls] at hswaps
    exact ⟨fun heq => absurd heq hless.ne', fun _ => ⟨_, rfl, hcalls, hswaps, hcap, hlow, hhigh⟩,
      fun hmore => absurd hmore hless.asymm⟩
  · rename_i hnotLess
    split at h
    · rename_i hmore
      simp only [bind_eq_ok, checkedSub_eq_ok] at h
      obtain ⟨amountIn, ⟨-, rfl⟩, h⟩ := h
      -- token 1 is sold: the target is at most the value of both
      have hcap : targetValue0 - stagedValue (px.balanceOf token0) sp ≤ px.balanceOf token1 := by
        have hle : targetValue0 ≤ stagedValue (px.balanceOf token0) sp + px.balanceOf token1 := by
          rw [← htarget, targetValue]
          exact Nat.div_le_of_le_mul (by
            rw [Nat.mul_comm denom]
            exact Nat.mul_le_mul_left _ hA)
        omega
      have hcalls := swap_eq_ok h
      rw [if_neg (Nat.not_lt.2 hcap)] at hcalls
      have hswaps := congrArg swapsOf hcalls
      rw [swapsOf_swapCalls, if_neg (by omega)] at hswaps
      exact ⟨fun heq => absurd heq hmore.ne, fun hless => absurd hless hnotLess,
        fun _ => ⟨hcalls, hswaps, hcap⟩⟩
    · rename_i hnotMore
      rw [pure_eq_ok] at h
      exact ⟨fun _ => h.symm, fun hless => absurd hless hnotLess, fun hmore => absurd hmore hnotMore⟩

/-- A price inside the range is not clamped. -/
theorem swapToRange_eq_ok {px : PancakeSwapV3} {token0 token1 : Address} {fee minOut sp sa sb : Nat}
    {calls : List SwapCall} (hlow : sa ≤ sp) (hhigh : sp ≤ sb)
    (h : swapToRange px token0 token1 fee minOut sp sa sb = .ok calls) :
    let A := sp * (sb - sp) / sb
    let denom := A + (sp - sa)
    (denom = 0 → calls = []) ∧
      (denom ≠ 0 →
        Sized px token0 token1 fee minOut sp (targetValue px token0 token1 sp A denom) calls) := by
  simp only [swapToRange, if_neg (Nat.not_lt.2 hlow), if_neg (Nat.not_lt.2 hhigh), bind_eq_ok,
    revertIf_eq_ok, checkedSub_eq_ok, checkedMul_eq_ok, checkedDiv_eq_ok, checkedAdd_eq_ok] at h
  obtain ⟨-, -, above, ⟨-, rfl⟩, product, ⟨-, rfl⟩, A, ⟨-, rfl⟩, B, ⟨-, rfl⟩, denom, ⟨-, rfl⟩,
    h⟩ := h
  intro A denom
  split at h
  · rename_i hzero
    rw [pure_eq_ok] at h
    exact ⟨fun _ => h.symm, fun hne => absurd hzero hne⟩
  · rename_i hne
    exact ⟨fun hzero => absurd hzero hne, fun _ => swapToward_eq_ok (Nat.le_add_right _ _) h⟩

/-- The two actions round alike. -/
theorem rangeTicks_eq (tick tickDelta spacing : Int) :
    rangeTicks tick tickDelta spacing = MintAction.presetTicks tick tickDelta spacing := rfl

/-- An execution that succeeds has found the pool, the range and its prices. -/
theorem execute_eq_ok {px : PancakeSwapV3} {p : Params} {calls : List SwapCall}
    {token0 token1 pool : Address} (htokens : sortTokens p.tokenA p.tokenB = (token0, token1))
    (hpool : px.getPool token0 token1 p.fee = pool) (h : execute px p = .ok calls) :
    pool ≠ Address.zero ∧ ∃ ticks sa sb,
      rangeTicks (px.slot0 pool).tick p.tickDelta (px.tickSpacing pool) = .ok ticks ∧
        TickMath.getSqrtRatioAtTick ticks.1 = .ok sa ∧ TickMath.getSqrtRatioAtTick ticks.2 = .ok sb ∧
        swapToRange px token0 token1 p.fee p.amountOutMinimum (px.slot0 pool).sqrtPriceX96 sa sb =
          .ok calls := by
  simp only [execute, htokens, hpool, bind_eq_ok, liftRevert_eq_ok, revertIf_eq_ok] at h
  obtain ⟨-, -, -, -, -, hne, ticks, hticks, sa, hsa, sb, hsb, hcalls⟩ := h
  exact ⟨hne, ticks, sa, sb, hticks, hsa, hsb, hcalls⟩

/-- A swap is the call of the router. -/
def isSwap : SwapCall → Bool
  | .exactInputSingle _ => true
  | _ => false

theorem swapCalls_swaps (px : PancakeSwapV3) (tokenIn tokenOut : Address) (fee amountIn minOut : Nat) :
    ((swapCalls px tokenIn tokenOut fee amountIn minOut).filter isSwap).length ≤ 1 := by
  rw [swapCalls]
  split
  · decide
  · exact Nat.le_refl 1

/-- There is one swap at most. -/
theorem Sized.swaps {px : PancakeSwapV3} {token0 token1 : Address} {fee minOut sp target : Nat}
    {calls : List SwapCall} (h : Sized px token0 token1 fee minOut sp target calls) :
    (calls.filter isSwap).length ≤ 1 := by
  rcases lt_trichotomy (stagedValue (px.balanceOf token0) sp) target with hmore | heq | hless
  · rw [(h.sold1 hmore).1]
    exact swapCalls_swaps ..
  · rw [h.balanced heq]
    exact Nat.zero_le 1
  · obtain ⟨amountIn, -, hcalls, -⟩ := h.sold0 hless
    rw [hcalls]
    exact swapCalls_swaps ..

/-- **The swap is sized for the range of the mint action.** The price is inside the range, at most
one swap is made, no cap binds, and what remains of token 0 is worth the target up to what the floors
lose. -/
theorem swap_sized {px : PancakeSwapV3} {p : Params} {calls : List SwapCall}
    {token0 token1 pool : Address} (htokens : sortTokens p.tokenA p.tokenB = (token0, token1))
    (hpool : px.getPool token0 token1 p.fee = pool) (hdelta : 0 ≤ (p.tickDelta : Int))
    (hspacing : 0 < (px.tickSpacing pool : Int)) {r r' : Nat}
    (hr : TickMath.getSqrtRatioAtTick (px.slot0 pool).tick = .ok r)
    (hr' : TickMath.getSqrtRatioAtTick ((px.slot0 pool).tick + 1) = .ok r')
    (hlow : r ≤ (px.slot0 pool).sqrtPriceX96) (hhigh : (px.slot0 pool).sqrtPriceX96 < r')
    (hrun : execute px p = .ok calls) :
    let sp := (px.slot0 pool).sqrtPriceX96
    ∃ tickLower tickUpper sa sb,
      rangeTicks (px.slot0 pool).tick p.tickDelta (px.tickSpacing pool) = .ok (tickLower, tickUpper) ∧
      (∀ mint : MintAction.Params, mint.rangeMode ≠ 0 → mint.fee = p.fee → mint.tickDelta = p.tickDelta →
        MintAction.resolveTicks px mint token0 token1 = .ok (tickLower, tickUpper)) ∧
      TickMath.getSqrtRatioAtTick tickLower = .ok sa ∧ TickMath.getSqrtRatioAtTick tickUpper = .ok sb ∧
      sa ≤ sp ∧ sp ≤ sb ∧ (calls.filter isSwap).length ≤ 1 ∧
      let A := sp * (sb - sp) / sb
      let denom := A + (sp - sa)
      (denom = 0 → calls = []) ∧
        (denom ≠ 0 → Sized px token0 token1 p.fee p.amountOutMinimum sp
          (targetValue px token0 token1 sp A denom) calls) := by
  intro sp
  obtain ⟨hne, ⟨tickLower, tickUpper⟩, sa, sb, hticks, hsa, hsb, hswap⟩ :=
    execute_eq_ok htokens hpool hrun
  have htick : IsInt24 (px.slot0 pool).tick := (px.slot0 pool).tick.2
  -- the range is that of the integers
  have hrange := hticks
  rw [rangeTicks_eq, MintAction.presetTicks_eq hspacing] at hrange
  split at hrange
  · rename_i hfits
    obtain ⟨-, -, hlower, hupper⟩ := hfits
    obtain ⟨-, -, -, -, -, -, hbelow, habove⟩ :=
      @MintAction.presetRange_outward (px.slot0 pool).tick p.tickDelta (px.tickSpacing pool) hdelta
        hspacing
    rw [Except.ok.inj hrange] at hlower hupper hbelow habove
    -- the next tick has a price, so the current one is not the last
    have hnext : IsInt24 ((px.slot0 pool).tick + 1) := by
      have hlast := ((TickMath.getSqrtRatioAtTick_eq_ok htick).1 hr).1
      exact ⟨by omega, by omega⟩
    have hsaLe : sa ≤ sp := (TickMath.getSqrtRatioAtTick_mono hlower htick hbelow hsa hr).trans hlow
    have hspLe : sp ≤ sb :=
      hhigh.le.trans (TickMath.getSqrtRatioAtTick_mono hnext hupper habove hr' hsb)
    obtain ⟨hnone, hsized⟩ := swapToRange_eq_ok hsaLe hspLe hswap
    refine ⟨tickLower, tickUpper, sa, sb, hticks, ?_, hsa, hsb, hsaLe, hspLe, ?_, hnone, hsized⟩
    · intro mint hmode hfee hmintDelta
      rw [MintAction.resolveTicks, if_neg hmode]
      simp only [hfee, hpool, hmintDelta, revertIf_of_not hne]
      exact hticks
    · by_cases hzero : sp * (sb - sp) / sb + (sp - sa) = 0
      · rw [hnone hzero]
        exact Nat.zero_le 1
      · exact (hsized hzero).swaps
  · cases hrange

/-- A pool with the price 1; the vault holds token 0 only. -/
def poolAtOne : PancakeSwapV3 where
  vault := ⟨1⟩
  timestamp := 0
  positionManager := ⟨2⟩
  swapRouter := ⟨3⟩
  getPool := fun _ _ _ => ⟨4⟩
  slot0 := fun _ => ⟨2 ^ 96, castInt24 0⟩
  tickSpacing := fun _ => castInt24 10
  balanceOf := fun token => if token = ⟨5⟩ then 1000 else 0
  answer := fun _ => some 0

/-- 100 ticks to either side, with the tokens given in the other order. -/
def aroundOne : Params where
  tokenA := ⟨6⟩
  tokenB := ⟨5⟩
  fee := 500
  tickDelta := castInt24 100
  amountOutMinimum := 0

theorem aroundOne_facts :
    execute poolAtOne aroundOne = .ok (swapCalls poolAtOne ⟨5⟩ ⟨6⟩ 500 500 0) ∧
      TickMath.getSqrtRatioAtTick (poolAtOne.slot0 ⟨4⟩).tick = .ok (2 ^ 96) ∧
      TickMath.getSqrtRatioAtTick ((poolAtOne.slot0 ⟨4⟩).tick + 1) =
        .ok 79232123823359799118286999568 ∧
      rangeTicks 0 100 10 = .ok (-100, 100) ∧
      TickMath.getSqrtRatioAtTick (-100) = .ok 78833030112140176575862854579 ∧
      TickMath.getSqrtRatioAtTick 100 = .ok 79625275426524748796330556128 := by
  decide +kernel

/-- Half of token 0 is sold for token 1. -/
theorem swap_sized_around_one :
    ∃ tickLower tickUpper sa sb calls, execute poolAtOne aroundOne = .ok calls ∧
      rangeTicks 0 100 10 = .ok (tickLower, tickUpper) ∧
        TickMath.getSqrtRatioAtTick tickLower = .ok sa ∧ TickMath.getSqrtRatioAtTick tickUpper = .ok sb ∧
        sa ≤ 2 ^ 96 ∧ 2 ^ 96 ≤ sb ∧ (calls.filter isSwap).length ≤ 1 ∧
        swapsOf calls = [(⟨5⟩, ⟨6⟩, 500)] := by
  obtain ⟨hrun, hr, hr', hrange, hlowest, hhighest⟩ := aroundOne_facts
  obtain ⟨tickLower, tickUpper, sa, sb, hticks, -, hsa, hsb, hlow, hhigh, hone, -, hsized⟩ :=
    @swap_sized poolAtOne aroundOne _ ⟨5⟩ ⟨6⟩ ⟨4⟩ (by decide) rfl (by decide) (by decide) _ _ hr hr'
      (by decide) (by decide) hrun
  refine ⟨tickLower, tickUpper, sa, sb, _, hrun, hticks, hsa, hsb, hlow, hhigh, hone, ?_⟩
  cases hticks.symm.trans hrange
  cases hsa.symm.trans hlowest
  cases hsb.symm.trans hhighest
  -- the value of token 0 is 1000 and the target 500
  obtain ⟨amountIn, hamount, -, hswaps, -⟩ := (hsized (by decide)).sold0 (by decide)
  have h500 : amountIn = 500 := hamount.trans (by decide)
  rw [hswaps, h500]
  rfl

end SwapToRangeRatioAction

end StrategyBuilder.Contracts
