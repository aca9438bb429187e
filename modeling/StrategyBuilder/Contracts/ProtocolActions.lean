import StrategyBuilder.Contracts.Allowances
import StrategyBuilder.Contracts.HealthFactor
import StrategyBuilder.Contracts.SwapToRange
import StrategyBuilder.Contracts.Vault

/-!
# Actions on protocols that are not trusted

All actions of the vault on Aave and on PancakeSwap, with their approvals:
`PancakeSwapV3SwapAction.sol`, `PancakeSwapV3IncreaseLiquidityAction.sol`,
`PancakeSwapV3DecreaseLiquidityAction.sol` and `PancakeSwapV3CollectAction.sol` beside the ones modelled
before. An execution performs its actions in order on the tokens of the vault and on the context, and
reverts as a whole. While an action calls a contract, anybody but the vault may call any token any
number of times: the protocol, its owner, a stranger. The guard against reentrancy keeps the vault's own
executions out. The tokens are standard ones, so not the rebasing tokens of Aave.

Between executions the vault has approved nobody, and an execution costs it, of each token, at most what
the parameters of its actions say: an amount, what a slot holds, or the balance (`cost_run`).
-/

set_option autoImplicit false

namespace StrategyBuilder.Contracts

open StrategyBuilder.Contracts
open StrategyBuilder.Contracts.AaveActions (readUint256Slot singleSlotDiff noSlot PoolCall Aave)
open StrategyBuilder.Contracts.Erc20
open StrategyBuilder.Lib.Abi
open StrategyBuilder.Lib.Transition

/-! ## Swapping -/

namespace SwapAction

/-- The decoded parameters. -/
structure Params where
  tokenIn : Address
  tokenOut : Address
  fee : Nat
  amountIn : Nat
  amountInFromSlot : Nat
  amountOutToSlot : Nat
  amountOutMinimum : Nat
  minOutFromSlot : Nat
deriving DecidableEq, Repr

/-- The custom errors of the action. -/
inductive Error where
  | ZeroTokenIn
  | ZeroTokenOut
  | ZeroAmount
  | library (e : AaveActions.ActionError)
deriving DecidableEq, Repr

/-- The amount to swap: of a slot, all of it for 0, or as given. -/
def resolveAmountIn (px : PancakeSwapV3) (p : Params) (ctx : List Bytes) : Result Error Nat :=
  if p.amountInFromSlot ≠ noSlot then liftRevert .library (readUint256Slot ctx p.amountInFromSlot)
  else if p.amountIn = 0 then return px.balanceOf p.tokenIn
  else return p.amountIn

/-- The least amount to get: of a slot, or as given. -/
def resolveMinOut (p : Params) (ctx : List Bytes) : Result Error Nat :=
  if p.minOutFromSlot ≠ noSlot then liftRevert .library (readUint256Slot ctx p.minOutFromSlot)
  else return p.amountOutMinimum

/-- The calls, and the diff of the output slot. -/
def execute (px : PancakeSwapV3) (p : Params) (ctx : List Bytes) :
    Result Error (List SwapCall × List Nat × List Bytes) := do
  revertIf (p.tokenIn = Address.zero) .ZeroTokenIn
  revertIf (p.tokenOut = Address.zero) .ZeroTokenOut
  let amountIn ← resolveAmountIn px p ctx
  revertIf (amountIn = 0) .ZeroAmount
  -- the minimum may come from a slot too
  let minOut ← resolveMinOut p ctx
  let swapCall := .exactInputSingle
    { tokenIn := p.tokenIn, tokenOut := p.tokenOut, fee := p.fee, recipient := px.vault,
      deadline := px.timestamp, amountIn, amountOutMinimum := minOut, sqrtPriceLimitX96 := 0 }
  let calls :=
    [.forceApprove p.tokenIn px.swapRouter amountIn, swapCall, .forceApprove p.tokenIn px.swapRouter 0]
  let _ ← passThrough (px.perform calls).toOption
  let amountOut ← passThrough (px.answer swapCall)
  return (calls, singleSlotDiff p.amountOutToSlot amountOut)

end SwapAction

/-! ## Positions -/

/-- The calls that change a position. -/
inductive PositionCall where
  | forceApprove (token spender : Address) (amount : Nat)
  | increaseLiquidity (tokenId amount0Desired amount1Desired amount0Min amount1Min deadline : Nat)
  | decreaseLiquidity (tokenId liquidity amount0Min amount1Min deadline : Nat)
  | collect (tokenId : Nat) (recipient : Address) (amount0Max amount1Max : Nat)
deriving DecidableEq, Repr

/-- What the position manager answers: the liquidity of a position, if there is one, and whether a call
succeeds. -/
structure Positions where
  liquidity : Nat → Option Nat
  succeeds : PositionCall → Bool

/-- The custom errors of the actions on positions. -/
inductive PositionError where
  | ZeroToken
  | SameToken
  | TokenIdSlotRequired
  | InvalidPercent (percent : Nat)
  | library (e : AaveActions.ActionError)
deriving DecidableEq, Repr

/-- A sequence of calls: one that fails reverts the action. -/
def Positions.perform (npm : Positions) : List PositionCall → Result PositionError Unit
  | [] => .ok ()
  | c :: l => do
      passThrough (if npm.succeeds c then some () else none)
      npm.perform l

/-- `type(uint128).max` -/
def maxUint128 : Nat := 2 ^ 128 - 1

namespace IncreaseLiquidityAction

/-- The decoded parameters. -/
structure Params where
  tokenA : Address
  tokenB : Address
  tokenIdFromSlot : Nat
  amountADesired : Nat
  amountAFromSlot : Nat
  amountBDesired : Nat
  amountBFromSlot : Nat
deriving DecidableEq, Repr

/-- `_resolveAmount`: of a slot, all of it for 0, or as given. -/
def resolveAmount (px : PancakeSwapV3) (token : Address) (amountDesired amountFromSlot : Nat)
    (ctx : List Bytes) : Result PositionError Nat :=
  if amountFromSlot ≠ noSlot then liftRevert .library (readUint256Slot ctx amountFromSlot)
  else if amountDesired = 0 then return px.balanceOf token
  else return amountDesired

/-- `execute`: both approvals, the increase, and both approvals set back. -/
def execute (px : PancakeSwapV3) (npm : Positions) (p : Params) (ctx : List Bytes) :
    Result PositionError (List PositionCall) := do
  revertIf (p.tokenA = Address.zero ∨ p.tokenB = Address.zero) .ZeroToken
  revertIf (p.tokenA = p.tokenB) .SameToken
  revertIf (p.tokenIdFromSlot = noSlot) .TokenIdSlotRequired
  let tokenId ← liftRevert .library (readUint256Slot ctx p.tokenIdFromSlot)
  let amountA ← resolveAmount px p.tokenA p.amountADesired p.amountAFromSlot ctx
  let amountB ← resolveAmount px p.tokenB p.amountBDesired p.amountBFromSlot ctx
  let (token0, token1, amount0, amount1) :=
    if p.tokenA.toNat < p.tokenB.toNat then (p.tokenA, p.tokenB, amountA, amountB)
    else (p.tokenB, p.tokenA, amountB, amountA)
  let calls :=
    [.forceApprove token0 px.positionManager amount0, .forceApprove token1 px.positionManager amount1,
      .increaseLiquidity tokenId amount0 amount1 0 0 px.timestamp,
      .forceApprove token0 px.positionManager 0, .forceApprove token1 px.positionManager 0]
  npm.perform calls
  return calls

end IncreaseLiquidityAction

namespace DecreaseLiquidityAction

/-- The decoded parameters. -/
structure Params where
  tokenIdFromSlot : Nat
  percent : Nat
deriving DecidableEq, Repr

/-- `uint128((uint256(liquidity) * p.percent) / 100)` -/
def liquidityToRemove (liquidity percent : Nat) : Result PositionError Nat := do
  let product ← checkedMul liquidity percent
  return product / 100 % 2 ^ 128

/-- `execute`: the share of the liquidity is taken out, and everything is collected. Nothing is
approved. -/
def execute (px : PancakeSwapV3) (npm : Positions) (p : Params) (ctx : List Bytes) :
    Result PositionError (List PositionCall) := do
  revertIf (p.tokenIdFromSlot = noSlot) .TokenIdSlotRequired
  revertIf (p.percent = 0 ∨ 100 < p.percent) (.InvalidPercent p.percent)
  let tokenId ← liftRevert .library (readUint256Slot ctx p.tokenIdFromSlot)
  let liquidity ← passThrough (npm.liquidity tokenId)
  let toRemove ← liquidityToRemove liquidity p.percent
  let collectCall := .collect tokenId px.vault maxUint128 maxUint128
  let calls :=
    -- a share that is rounded to nothing only collects
    if 0 < toRemove then [.decreaseLiquidity tokenId toRemove 0 0 px.timestamp, collectCall]
    else [collectCall]
  npm.perform calls
  return calls

end DecreaseLiquidityAction

namespace CollectAction

/-- The decoded parameters. -/
structure Params where
  tokenIdFromSlot : Nat
deriving DecidableEq, Repr

/-- `execute`: everything is collected. Nothing is approved. -/
def execute (px : PancakeSwapV3) (npm : Positions) (p : Params) (ctx : List Bytes) :
    Result PositionError (List PositionCall) := do
  revertIf (p.tokenIdFromSlot = noSlot) .TokenIdSlotRequired
  let tokenId ← liftRevert .library (readUint256Slot ctx p.tokenIdFromSlot)
  let calls := [.collect tokenId px.vault maxUint128 maxUint128]
  npm.perform calls
  return calls

end CollectAction

/-! ## What the tokens of the vault notice -/

/-- A call of a swap, as far as allowances go. -/
def SwapCall.ownCall : SwapCall → OwnCall
  | .forceApprove token spender amount => .forceApprove token spender amount
  | .mint _ | .exactInputSingle _ => .callOut

/-- A call of the position manager, as far as allowances go. -/
def PositionCall.ownCall : PositionCall → OwnCall
  | .forceApprove token spender amount => .forceApprove token spender amount
  | .increaseLiquidity .. | .decreaseLiquidity .. | .collect .. => .callOut

/-- A call of the Aave pool with its approvals. `_repayMax` approves the whole balance, of which the pool
takes the debt; the other modes and `AaveV3SupplyAction` approve the amount of the call. -/
def PoolCall.ownCalls (aave : Aave) (pool : Address) (mode : Nat) : PoolCall → List OwnCall
  | .supply asset amount => [.forceApprove asset pool amount, .callOut, .forceApprove asset pool 0]
  | .repay asset amount =>
      let approveAmount := if mode = 2 then aave.balanceOf asset else amount
      [.forceApprove asset pool approveAmount, .callOut, .forceApprove asset pool 0]
  | .withdraw _ _ | .borrow _ _ => [.callOut]

/-- The protocols, as they answer the vault during one action. -/
structure Protocols where
  pancake : PancakeSwapV3
  positions : Positions
  aave : Aave
  aavePool : Address
  pool : PoolCall → Option Nat

/-- The protocols when the vault holds these tokens. -/
def Protocols.holding (x : Protocols) (vault : Address) (tokens : Erc20) : Protocols :=
  { x with
    pancake := { x.pancake with vault := vault, balanceOf := fun t => tokens.balanceOf t vault }
    aave := { x.aave with balanceOf := fun t => tokens.balanceOf t vault } }

/-- The actions on protocols, with their parameters. -/
inductive ProtocolAction where
  | supply (p : AaveActions.Params)
  | withdraw (p : AaveActions.Params)
  | borrow (p : AaveActions.Params)
  | repay (p : AaveActions.Params)
  | swap (p : SwapAction.Params)
  | swapToRangeRatio (p : SwapToRangeRatioAction.Params)
  | mint (p : MintAction.Params)
  | increaseLiquidity (p : IncreaseLiquidityAction.Params)
  | decreaseLiquidity (p : DecreaseLiquidityAction.Params)
  | collect (p : CollectAction.Params)

namespace ProtocolAction

/-- The calls of the pool, with their approvals. -/
def aaveCalls (x : Protocols) (mode : Nat) (out : List PoolCall × List Nat × List Bytes) :
    List OwnCall × List Nat × List Bytes :=
  (out.1.flatMap (PoolCall.ownCalls x.aave x.aavePool mode), out.2)

/-- The calls of a swap with its diff, as far as allowances go. -/
def swapCalls (out : List SwapCall × List Nat × List Bytes) : List OwnCall × List Nat × List Bytes :=
  (out.1.map SwapCall.ownCall, out.2)

/-- The calls on a position, which writes no slot. -/
def positionCalls (calls : List PositionCall) : List OwnCall × List Nat × List Bytes :=
  (calls.map PositionCall.ownCall, [], [])

/-- What an action does: its calls and the diff of its output slots. `none` is a revert. -/
def execute (x : Protocols) (ctx : List Bytes) :
    ProtocolAction → Option (List OwnCall × List Nat × List Bytes)
  | .supply p => (AaveActions.supply x.aave x.pool p ctx).toOption.map (aaveCalls x p.mode)
  | .withdraw p => (AaveActions.withdraw x.aave x.pool p ctx).toOption.map (aaveCalls x p.mode)
  | .borrow p => (AaveActions.borrow x.aave x.pool p ctx).toOption.map (aaveCalls x p.mode)
  | .repay p => (AaveActions.repay x.aave x.pool p ctx).toOption.map (aaveCalls x p.mode)
  | .swap p => (SwapAction.execute x.pancake p ctx).toOption.map swapCalls
  | .swapToRangeRatio p =>
      (SwapToRangeRatioAction.execute x.pancake p).toOption.map fun calls => swapCalls (calls, [], [])
  | .mint p => (MintAction.execute x.pancake p).toOption.map swapCalls
  | .increaseLiquidity p =>
      (IncreaseLiquidityAction.execute x.pancake x.positions p ctx).toOption.map positionCalls
  | .decreaseLiquidity p =>
      (DecreaseLiquidityAction.execute x.pancake x.positions p ctx).toOption.map positionCalls
  | .collect p => (CollectAction.execute x.pancake x.positions p ctx).toOption.map positionCalls

end ProtocolAction

/-! ## Executions -/

/-- One action of an execution: how the protocols answer it, and what others do while it calls out. -/
structure ActionStep (vault : Address) where
  protocols : Protocols
  action : ProtocolAction
  rounds : List (List (CallByOthers vault))

/-- The tokens, and the context of the vault. -/
structure TokenState where
  tokens : Erc20
  ctx : List Bytes

/-- One action on the tokens and the context. -/
def executeAction {vault : Address} (step : ActionStep vault) (s : TokenState) : Option TokenState := do
  let (calls, slots, values) ←
    step.action.execute (step.protocols.holding vault s.tokens) s.ctx
  let ctx ← (Vault.applyDiff slots values s.ctx).toOption
  return { tokens := performed vault calls step.rounds s.tokens, ctx }

/-- The actions of an execution, in order. -/
def executeActions {vault : Address} : List (ActionStep vault) → TokenState → Option TokenState
  | [], s => some s
  | step :: steps, s => do
      let s ← executeAction step s
      executeActions steps s

/-- What happens to the tokens of a vault: an execution, a new context, a call by somebody else. -/
inductive TokenLabel (vault : Address) where
  | execute (steps : List (ActionStep vault))
  | setContext (ctx : List Bytes)
  | others (c : CallByOthers vault)

/-- An execution that reverts changes nothing, whatever was done in it. -/
def tokenStep {vault : Address} (s : TokenState) : TokenLabel vault → TokenState
  | .execute steps => (executeActions steps s).getD s
  | .setContext ctx => { s with ctx }
  | .others c => { s with tokens := s.tokens.applyByOthers c }

/-! ## What the parameters allow -/

/-- An amount that a slot holds, or a number, or with 0 the balance. -/
def amountOf (ctx : List Bytes) (slot amount balance : Nat) : Nat :=
  if slot ≠ noSlot then ((ctx[slot]?).bind decodeUint256).getD 0
  else if amount = 0 then balance
  else amount

/-- What the parameters of an action allow it to spend of a token. -/
def ProtocolAction.allows (x : Protocols) (ctx : List Bytes) (token : Address) : ProtocolAction → Nat
  | .supply p | .repay p =>
      if token = p.asset then
        if p.mode = 0 then p.amount
        else if p.mode = 1 then ((ctx[p.amountFromSlot]?).bind decodeUint256).getD 0
        else x.aave.balanceOf p.asset
      else 0
  | .swap p =>
      if token = p.tokenIn then
        amountOf ctx p.amountInFromSlot p.amountIn (x.pancake.balanceOf p.tokenIn)
      else 0
  | .swapToRangeRatio p =>
      if token = p.tokenA ∨ token = p.tokenB then x.pancake.balanceOf token else 0
  | .mint p =>
      if token = p.tokenA then amountOf ctx noSlot p.amountADesired (x.pancake.balanceOf p.tokenA)
      else if token = p.tokenB then
        amountOf ctx noSlot p.amountBDesired (x.pancake.balanceOf p.tokenB)
      else 0
  | .increaseLiquidity p =>
      if token = p.tokenA then
        amountOf ctx p.amountAFromSlot p.amountADesired (x.pancake.balanceOf p.tokenA)
      else if token = p.tokenB then
        amountOf ctx p.amountBFromSlot p.amountBDesired (x.pancake.balanceOf p.tokenB)
      else 0
  | .withdraw _ | .borrow _ | .decreaseLiquidity _ | .collect _ => 0

/-- What the actions of an execution may cost of a token. -/
def allowed {vault : Address} (token : Address) : List (ActionStep vault) → TokenState → Nat
  | [], _ => 0
  | step :: steps, s =>
      let x := step.protocols.holding vault s.tokens
      limit (step.action.allows x s.ctx token) (s.tokens.balanceOf token vault) +
        ((executeAction step s).map (allowed token steps)).getD 0

/-- What a step of the vault may cost: a reverted execution nothing. -/
def TokenLabel.cost {vault : Address} (token : Address) (s : TokenState) : TokenLabel vault → Nat
  | .execute steps => ((executeActions steps s).map fun _ => allowed token steps s).getD 0
  | .setContext _ | .others _ => 0

/-! ## Every action is a bracket -/

/-- The calls of an action are a bracket, and approve no more than the parameters allow. -/
structure Allowed (allows : Address → Nat) (calls : List OwnCall) : Prop where
  bracket : ∃ b : Bracket, b.calls = calls
  approved : ∀ t, approved t calls ≤ allows t

theorem allowed_callOuts (allows : Address → Nat) (n : Nat) :
    Allowed allows (List.replicate n .callOut) where
  bracket := ⟨⟨Address.zero, [], n, List.nodup_nil⟩, by simp [Bracket.calls, approveAll]⟩
  approved t := by
    rw [Erc20.approved, List.map_replicate, List.sum_replicate]
    exact le_of_eq_of_le (Nat.mul_zero n) (Nat.zero_le _)

/-- One approval, one call, and the approval taken back. -/
theorem allowed_single {allows : Address → Nat} (token spender : Address) {amount : Nat}
    (h : amount ≤ allows token) :
    Allowed allows
      [.forceApprove token spender amount, .callOut, .forceApprove token spender 0] where
  bracket := ⟨⟨spender, [(token, amount)], 1, List.nodup_singleton token⟩, rfl⟩
  approved t := by
    by_cases ht : token = t
    · subst ht
      simpa [Erc20.approved, OwnCall.approved] using h
    · simp [Erc20.approved, OwnCall.approved, ht]

/-- Two approvals of one spender, one call, and both approvals taken back. -/
theorem allowed_pair {allows : Address → Nat} {token0 token1 : Address} (spender : Address)
    {amount0 amount1 : Nat} (hne : token0 ≠ token1) (h0 : amount0 ≤ allows token0)
    (h1 : amount1 ≤ allows token1) :
    Allowed allows
      [.forceApprove token0 spender amount0, .forceApprove token1 spender amount1, .callOut,
        .forceApprove token0 spender 0, .forceApprove token1 spender 0] where
  bracket := ⟨⟨spender, [(token0, amount0), (token1, amount1)], 1, by simpa using hne⟩, rfl⟩
  approved t := by
    by_cases ht0 : token0 = t
    · subst ht0
      simpa [Erc20.approved, OwnCall.approved, hne.symm] using h0
    · by_cases ht1 : token1 = t
      · subst ht1
        simpa [Erc20.approved, OwnCall.approved, hne] using h1
      · simp [Erc20.approved, OwnCall.approved, ht0, ht1]

section

variable {x : Protocols} {ctx : List Bytes} {calls : List OwnCall} {diff : List Nat × List Bytes}

theorem toOption_map_eq_some {ε α β : Type} {r : Except ε α} {f : α → β} {b : β}
    (h : r.toOption.map f = some b) : ∃ a, r = .ok a ∧ f a = b := by
  cases r with
  | error e => cases h
  | ok a => exact ⟨a, rfl, Option.some.inj h⟩

theorem readUint256Slot_ok {slot n : Nat} (h : readUint256Slot ctx slot = .ok n) :
    ((ctx[slot]?).bind decodeUint256).getD 0 = n := by
  simp only [readUint256Slot, bind_eq_ok, readAt_eq_ok, decoded_eq_ok] at h
  obtain ⟨-, -, raw, hraw, hdecoded⟩ := h
  rw [hraw, Option.bind_some, hdecoded, Option.getD_some]

/-! ### Aave -/

/-- The pool is called once, or not at all. -/
theorem callPool_calls {pool : PoolCall → Option Nat} {call : Nat → PoolCall} {amount slot : Nat}
    {out : List PoolCall × List Nat × List Bytes}
    (h : AaveActions.callPool pool call amount slot = .ok out) :
    out.1 = [] ∨ out.1 = [call amount] := by
  rw [AaveActions.callPool] at h
  split at h
  · obtain ⟨actual, -, h⟩ := bind_eq_ok.1 h
    cases h
    exact .inr rfl
  · cases h
    exact .inl rfl

/-- The amounts of the four modes, where the action's own two are bounded by the balance. -/
theorem resolveAmount_le {maxAvailable targetHf : Result AaveActions.ActionError Nat}
    {p : AaveActions.Params} {n balance : Nat}
    (hmax : p.mode = 2 → ∀ n, maxAvailable = .ok n → n ≤ balance)
    (htarget : ∀ n, targetHf = .ok n → n ≤ balance)
    (h : AaveActions.resolveAmount maxAvailable targetHf p ctx = .ok n) :
    n ≤ if p.mode = 0 then p.amount
      else if p.mode = 1 then ((ctx[p.amountFromSlot]?).bind decodeUint256).getD 0
      else balance := by
  rw [AaveActions.resolveAmount] at h
  obtain ⟨mode, hmode, h⟩ := bind_eq_ok.1 h
  -- the modes by number; from 4 on there is none
  cases hnumber : p.mode with
  | zero =>
    rw [hnumber] at hmode
    cases hmode
    simp only [AaveActions.explicitAmount, bind_eq_ok, pure_eq_ok] at h
    obtain ⟨-, -, rfl⟩ := h
    exact le_rfl
  | succ m =>
    cases m with
    | zero =>
      rw [hnumber] at hmode
      cases hmode
      simp only [AaveActions.explicitAmount, bind_eq_ok, pure_eq_ok] at h
      obtain ⟨a, ha, -, -, rfl⟩ := h
      exact (readUint256Slot_ok ha).ge
    | succ m =>
      rw [if_neg (Nat.succ_ne_zero _), if_neg (by omega)]
      rw [hnumber] at hmode
      cases m with
      | zero =>
        cases hmode
        exact hmax hnumber n h
      | succ m =>
        cases m with
        | zero =>
          cases hmode
          exact htarget n h
        | succ m => cases hmode

/-- A supply approves its amount, and takes it back. -/
theorem supply_allowed {p : AaveActions.Params}
    (h : (ProtocolAction.supply p).execute x ctx = some (calls, diff)) :
    Allowed (fun t => (ProtocolAction.supply p).allows x ctx t) calls := by
  obtain ⟨out, hout, heq⟩ := toOption_map_eq_some h
  obtain ⟨rfl, rfl⟩ := Prod.mk.inj heq
  simp only [AaveActions.supply, bind_eq_ok] at hout
  obtain ⟨-, -, amount, hamount, hcall⟩ := hout
  have hmax : p.mode = 2 → ∀ n, (pure (x.aave.balanceOf p.asset) : Result AaveActions.ActionError Nat)
      = .ok n → n ≤ x.aave.balanceOf p.asset := fun _ n hn => (pure_eq_ok.1 hn).ge
  have hle := resolveAmount_le hmax
    (fun n hn => (AaveActions.targetHfAmount_ok hn).le.trans (Nat.min_le_right _ _)) hamount
  rcases callPool_calls hcall with hnone | hone
  · rw [hnone]
    exact allowed_callOuts _ 0
  · rw [hone]
    refine allowed_single p.asset x.aavePool ?_
    rw [ProtocolAction.allows, if_pos rfl]
    exact hle

/-- A repayment approves its amount, and takes it back. -/
theorem repay_allowed {p : AaveActions.Params}
    (h : (ProtocolAction.repay p).execute x ctx = some (calls, diff)) :
    Allowed (fun t => (ProtocolAction.repay p).allows x ctx t) calls := by
  obtain ⟨out, hout, heq⟩ := toOption_map_eq_some h
  obtain ⟨rfl, rfl⟩ := Prod.mk.inj heq
  simp only [AaveActions.repay, bind_eq_ok] at hout
  obtain ⟨-, -, amount, hamount, hcall⟩ := hout
  rcases callPool_calls hcall with hnone | hone
  · rw [hnone]
    exact allowed_callOuts _ 0
  · rw [hone]
    refine allowed_single p.asset x.aavePool ?_
    rw [ProtocolAction.allows, if_pos rfl]
    by_cases hmode : p.mode = 2
    · -- the pool may be asked for more than the balance, but it is not approved
      rw [if_pos hmode, if_neg (by omega), if_neg (by omega)]
    · rw [if_neg hmode]
      exact resolveAmount_le (fun hmax => absurd hmax hmode)
        (fun n hn => (AaveActions.targetHfRepay_ok hn).le.trans (Nat.min_le_right _ _)) hamount

/-- To withdraw needs no approval. -/
theorem withdraw_allowed {p : AaveActions.Params}
    (h : (ProtocolAction.withdraw p).execute x ctx = some (calls, diff)) :
    Allowed (fun t => (ProtocolAction.withdraw p).allows x ctx t) calls := by
  obtain ⟨out, hout, heq⟩ := toOption_map_eq_some h
  obtain ⟨rfl, rfl⟩ := Prod.mk.inj heq
  simp only [AaveActions.withdraw, bind_eq_ok] at hout
  obtain ⟨-, -, amount, -, hcall⟩ := hout
  rcases callPool_calls hcall with hnone | hone
  · rw [hnone]
    exact allowed_callOuts _ 0
  · rw [hone]
    exact allowed_callOuts _ 1

/-- To borrow needs no approval. -/
theorem borrow_allowed {p : AaveActions.Params}
    (h : (ProtocolAction.borrow p).execute x ctx = some (calls, diff)) :
    Allowed (fun t => (ProtocolAction.borrow p).allows x ctx t) calls := by
  obtain ⟨out, hout, heq⟩ := toOption_map_eq_some h
  obtain ⟨rfl, rfl⟩ := Prod.mk.inj heq
  simp only [AaveActions.borrow, bind_eq_ok] at hout
  obtain ⟨-, -, amount, -, hcall⟩ := hout
  rcases callPool_calls hcall with hnone | hone
  · rw [hnone]
    exact allowed_callOuts _ 0
  · rw [hone]
    exact allowed_callOuts _ 1

/-! ### PancakeSwap -/

/-- A swap approves its amount, and takes it back. -/
theorem swap_allowed {p : SwapAction.Params}
    (h : (ProtocolAction.swap p).execute x ctx = some (calls, diff)) :
    Allowed (fun t => (ProtocolAction.swap p).allows x ctx t) calls := by
  obtain ⟨out, hout, heq⟩ := toOption_map_eq_some h
  obtain ⟨rfl, rfl⟩ := Prod.mk.inj heq
  simp only [SwapAction.execute, bind_eq_ok, pure_eq_ok] at hout
  obtain ⟨-, -, -, -, amountIn, hamount, -, -, minOut, -, answers, -, amountOut, -, rfl⟩ := hout
  refine allowed_single p.tokenIn x.pancake.swapRouter ?_
  rw [ProtocolAction.allows, if_pos rfl, amountOf]
  rw [SwapAction.resolveAmountIn] at hamount
  split at hamount
  · rename_i hslot
    obtain hread := liftRevert_eq_ok.1 hamount
    rw [if_pos hslot, readUint256Slot_ok hread]
  · rename_i hslot
    rw [if_neg hslot]
    split at hamount
    · rename_i hzero
      rw [if_pos hzero, pure_eq_ok.1 hamount]
    · rename_i hzero
      rw [if_neg hzero, pure_eq_ok.1 hamount]

/-- The resolved amount is that of the slot, the parameter or the balance. -/
theorem resolveAmount_amountOf {px : PancakeSwapV3} {token : Address} {amount slot n : Nat}
    (h : IncreaseLiquidityAction.resolveAmount px token amount slot ctx = .ok n) :
    n = amountOf ctx slot amount (px.balanceOf token) := by
  rw [IncreaseLiquidityAction.resolveAmount] at h
  rw [amountOf]
  split at h
  · rename_i hslot
    rw [if_pos hslot, readUint256Slot_ok (liftRevert_eq_ok.1 h)]
  · rename_i hslot
    rw [if_neg hslot]
    split at h
    · rename_i hzero
      rw [if_pos hzero, pure_eq_ok.1 h]
    · rename_i hzero
      rw [if_neg hzero, pure_eq_ok.1 h]

/-- The approvals of both tokens of a pair, in the order of the pool. -/
theorem allowed_sorted {allows : Address → Nat} {tokenA tokenB : Address} (spender : Address)
    {amountA amountB : Nat} (hne : tokenA ≠ tokenB) (hA : amountA ≤ allows tokenA)
    (hB : amountB ≤ allows tokenB) {token0 token1 : Address} {amount0 amount1 : Nat}
    (h : (if tokenA.toNat < tokenB.toNat then (tokenA, tokenB, amountA, amountB)
      else (tokenB, tokenA, amountB, amountA)) = (token0, token1, amount0, amount1)) :
    Allowed allows
      [.forceApprove token0 spender amount0, .forceApprove token1 spender amount1, .callOut,
        .forceApprove token0 spender 0, .forceApprove token1 spender 0] := by
  split at h
  · cases h
    exact allowed_pair spender hne hA hB
  · cases h
    exact allowed_pair spender hne.symm hB hA

/-- An increase approves both amounts, and takes them back. -/
theorem increaseLiquidity_allowed {p : IncreaseLiquidityAction.Params}
    (h : (ProtocolAction.increaseLiquidity p).execute x ctx = some (calls, diff)) :
    Allowed (fun t => (ProtocolAction.increaseLiquidity p).allows x ctx t) calls := by
  obtain ⟨out, hout, heq⟩ := toOption_map_eq_some h
  obtain ⟨rfl, rfl⟩ := Prod.mk.inj heq
  simp only [IncreaseLiquidityAction.execute, bind_eq_ok, pure_eq_ok, revertIf_eq_ok] at hout
  obtain ⟨-, -, -, hne, -, -, tokenId, -, amountA, hA, amountB, hB, -, -, rfl⟩ := hout
  refine allowed_sorted x.pancake.positionManager hne ?_ ?_ rfl
  · rw [ProtocolAction.allows, if_pos rfl]
    exact (resolveAmount_amountOf hA).le
  · rw [ProtocolAction.allows, if_neg (Ne.symm hne), if_pos rfl]
    exact (resolveAmount_amountOf hB).le

/-- A mint approves what it may, and takes it back. -/
theorem mint_allowed {p : MintAction.Params}
    (h : (ProtocolAction.mint p).execute x ctx = some (calls, diff)) :
    Allowed (fun t => (ProtocolAction.mint p).allows x ctx t) calls := by
  obtain ⟨out, hout, heq⟩ := toOption_map_eq_some h
  obtain ⟨rfl, rfl⟩ := Prod.mk.inj heq
  simp only [MintAction.execute, bind_eq_ok, pure_eq_ok, revertIf_eq_ok] at hout
  obtain ⟨-, -, -, hne, ticks, -, -, -, answers, -, tokenId, -, rfl⟩ := hout
  refine allowed_sorted x.pancake.positionManager hne ?_ ?_ rfl
  · rw [ProtocolAction.allows, if_pos rfl]
    rfl
  · rw [ProtocolAction.allows, if_neg (Ne.symm hne), if_pos rfl]
    rfl

/-- The action sells one of the two tokens, at most all of it. -/
theorem swapToRange_calls {px : PancakeSwapV3} {token0 token1 : Address} {fee minOut sp sa sb : Nat}
    {calls : List SwapCall}
    (h : SwapToRangeRatioAction.swapToRange px token0 token1 fee minOut sp sa sb = .ok calls) :
    ∃ tokenIn tokenOut amountIn, (tokenIn = token0 ∨ tokenIn = token1) ∧
      amountIn ≤ px.balanceOf tokenIn ∧
      calls = SwapToRangeRatioAction.swapCalls px tokenIn tokenOut fee amountIn minOut := by
  have hnone : ([] : List SwapCall) =
      SwapToRangeRatioAction.swapCalls px token0 token1 fee 0 minOut := (if_pos rfl).symm
  -- the cap by the balance, whatever the prices give
  have hcap : ∀ bal amount : Nat, (if bal < amount then bal else amount) ≤ bal := by
    intro bal amount
    split
    · exact le_rfl
    · rename_i hle
      exact Nat.le_of_not_lt hle
  simp only [SwapToRangeRatioAction.swapToRange, bind_eq_ok] at h
  obtain ⟨-, -, above, -, product, -, A, -, B, -, denom, -, h⟩ := h
  split at h
  · rw [pure_eq_ok] at h
    exact ⟨token0, token1, 0, .inl rfl, Nat.zero_le _, h ▸ hnone⟩
  · simp only [SwapToRangeRatioAction.swapToward, bind_eq_ok] at h
    obtain ⟨half, -, value0, -, V, -, weighted, -, target, -, h⟩ := h
    split at h
    · simp only [bind_eq_ok] at h
      obtain ⟨excess, -, half, -, amountIn, -, h⟩ := h
      exact ⟨token0, token1, _, .inl rfl, hcap _ amountIn, SwapToRangeRatioAction.swap_eq_ok h⟩
    · split at h
      · simp only [bind_eq_ok] at h
        obtain ⟨amountIn, -, h⟩ := h
        exact ⟨token1, token0, _, .inr rfl, hcap _ amountIn, SwapToRangeRatioAction.swap_eq_ok h⟩
      · rw [pure_eq_ok] at h
        exact ⟨token0, token1, 0, .inl rfl, Nat.zero_le _, h ▸ hnone⟩

/-- A swap to the ratio approves what it may, and takes it back. -/
theorem swapToRangeRatio_allowed {p : SwapToRangeRatioAction.Params}
    (h : (ProtocolAction.swapToRangeRatio p).execute x ctx = some (calls, diff)) :
    Allowed (fun t => (ProtocolAction.swapToRangeRatio p).allows x ctx t) calls := by
  obtain ⟨out, hout, heq⟩ := toOption_map_eq_some h
  obtain ⟨rfl, rfl⟩ := Prod.mk.inj heq
  cases htokens : SwapToRangeRatioAction.sortTokens p.tokenA p.tokenB with
  | mk token0 token1 =>
    obtain ⟨-, ticks, sa, sb, -, -, -, hswap⟩ :=
      SwapToRangeRatioAction.execute_eq_ok htokens rfl hout
    obtain ⟨tokenIn, tokenOut, amountIn, htoken, hamount, rfl⟩ := swapToRange_calls hswap
    rw [SwapToRangeRatioAction.swapCalls]
    split
    · exact allowed_callOuts _ 0
    · refine allowed_single tokenIn x.pancake.swapRouter ?_
      have hpair : tokenIn = p.tokenA ∨ tokenIn = p.tokenB := by
        rw [SwapToRangeRatioAction.sortTokens] at htokens
        split at htokens
        · cases htokens
          exact htoken
        · cases htokens
          exact htoken.symm
      rw [ProtocolAction.allows, if_pos hpair]
      exact hamount

/-- To take liquidity out needs no approval. -/
theorem decreaseLiquidity_allowed {p : DecreaseLiquidityAction.Params}
    (h : (ProtocolAction.decreaseLiquidity p).execute x ctx = some (calls, diff)) :
    Allowed (fun t => (ProtocolAction.decreaseLiquidity p).allows x ctx t) calls := by
  obtain ⟨out, hout, heq⟩ := toOption_map_eq_some h
  obtain ⟨rfl, rfl⟩ := Prod.mk.inj heq
  simp only [DecreaseLiquidityAction.execute, bind_eq_ok, pure_eq_ok] at hout
  obtain ⟨-, -, -, -, tokenId, -, liquidity, -, toRemove, -, -, -, rfl⟩ := hout
  split
  · exact allowed_callOuts _ 2
  · exact allowed_callOuts _ 1

/-- To collect needs no approval. -/
theorem collect_allowed {p : CollectAction.Params}
    (h : (ProtocolAction.collect p).execute x ctx = some (calls, diff)) :
    Allowed (fun t => (ProtocolAction.collect p).allows x ctx t) calls := by
  obtain ⟨out, hout, heq⟩ := toOption_map_eq_some h
  obtain ⟨rfl, rfl⟩ := Prod.mk.inj heq
  simp only [CollectAction.execute, bind_eq_ok, pure_eq_ok] at hout
  obtain ⟨-, -, tokenId, -, -, -, rfl⟩ := hout
  exact allowed_callOuts _ 1

/-- An action approves what it may, and takes it back. -/
theorem action_allowed {a : ProtocolAction} (h : a.execute x ctx = some (calls, diff)) :
    Allowed (fun t => a.allows x ctx t) calls := by
  cases a with
  | supply p => exact supply_allowed h
  | withdraw p => exact withdraw_allowed h
  | borrow p => exact borrow_allowed h
  | repay p => exact repay_allowed h
  | swap p => exact swap_allowed h
  | swapToRangeRatio p => exact swapToRangeRatio_allowed h
  | mint p => exact mint_allowed h
  | increaseLiquidity p => exact increaseLiquidity_allowed h
  | decreaseLiquidity p => exact decreaseLiquidity_allowed h
  | collect p => exact collect_allowed h

end

/-! ## Runs -/

section

variable {vault : Address} {s s' : TokenState}

/-- One action leaves no approval, and costs at most what its parameters allow. -/
theorem executeAction_cost {step : ActionStep vault} (hs : NoAllowance s.tokens vault)
    (h : executeAction step s = some s') :
    NoAllowance s'.tokens vault ∧ ∀ t, s.tokens.balanceOf t vault ≤ s'.tokens.balanceOf t vault +
      limit (step.action.allows (step.protocols.holding vault s.tokens) s.ctx t)
        (s.tokens.balanceOf t vault) := by
  simp only [executeAction, Option.bind_eq_bind, Option.bind_eq_some_iff, Prod.exists,
    Option.pure_def, Option.some.injEq] at h
  obtain ⟨calls, slots, values, hexecute, ctx, -, rfl⟩ := h
  obtain ⟨⟨b, rfl⟩, happroved⟩ := action_allowed hexecute
  obtain ⟨hclosed, hcost⟩ := b.performed_bracket hs step.rounds
  exact ⟨hclosed, fun t => le_add_limit_mono (happroved t) (hcost t)⟩

/-- An execution leaves no approval, and costs at most what its actions allow one after the other. -/
theorem executeActions_cost {steps : List (ActionStep vault)} (hs : NoAllowance s.tokens vault)
    (h : executeActions steps s = some s') :
    NoAllowance s'.tokens vault ∧ ∀ t, s.tokens.balanceOf t vault ≤
      s'.tokens.balanceOf t vault + allowed t steps s := by
  induction steps generalizing s with
  | nil =>
    cases h
    exact ⟨hs, fun _ => Nat.le_add_right _ _⟩
  | cons step steps ih =>
    obtain ⟨mid, hmid, hrest⟩ := Option.bind_eq_some_iff.1 h
    obtain ⟨hclosed, hfirst⟩ := executeAction_cost hs hmid
    obtain ⟨hend, hlater⟩ := ih hclosed hrest
    refine ⟨hend, fun t => ?_⟩
    rw [allowed, hmid, Option.map_some, Option.getD_some]
    have hle := hfirst t
    have hle' := hlater t
    omega

/-- A step leaves no allowance, and costs what it may at most. -/
theorem tokenStep_cost (hs : NoAllowance s.tokens vault) (l : TokenLabel vault) :
    NoAllowance (tokenStep s l).tokens vault ∧ ∀ t, s.tokens.balanceOf t vault ≤
      (tokenStep s l).tokens.balanceOf t vault + l.cost t s := by
  cases l with
  | execute steps =>
    cases h : executeActions steps s with
    | none =>
      -- everything is reverted
      have hsame : tokenStep s (.execute steps) = s := by rw [tokenStep, h, Option.getD_none]
      rw [hsame]
      exact ⟨hs, fun _ => Nat.le_add_right _ _⟩
    | some s' =>
      have hafter : tokenStep s (.execute steps) = s' := by rw [tokenStep, h, Option.getD_some]
      rw [hafter]
      obtain ⟨hclosed, hcost⟩ := executeActions_cost hs h
      refine ⟨hclosed, fun t => ?_⟩
      rw [TokenLabel.cost, h, Option.map_some, Option.getD_some]
      exact hcost t
  | setContext ctx => exact ⟨hs, fun _ => Nat.le_add_right _ _⟩
  | others c =>
    obtain ⟨hnone, hkept⟩ := noAllowance_run hs [c]
    exact ⟨hnone, fun t => (hkept t).trans (Nat.le_add_right _ _)⟩

/-- **What automations can cost.** From a vault that has approved nobody, any run of executions, with
whatever the protocols and anybody else do during and between them, ends in one; and of each token the
vault has lost at most what the parameters of the executed actions allowed. -/
theorem cost_run (hs : NoAllowance s.tokens vault) (ls : List (TokenLabel vault)) :
    NoAllowance (run tokenStep s ls).tokens vault ∧ ∀ t, s.tokens.balanceOf t vault ≤
      (run tokenStep s ls).tokens.balanceOf t vault +
        runTotal tokenStep (fun s l => l.cost t s) s ls := by
  have hclosed : ∀ s (l : TokenLabel vault), NoAllowance s.tokens vault → True →
      NoAllowance (tokenStep s l).tokens vault := fun _ l hs _ => (tokenStep_cost hs l).1
  have hls : Admitted tokenStep (fun _ _ => True) s ls := admitted_true _ _ ls
  refine ⟨run_invariant (I := fun s => NoAllowance s.tokens vault) hclosed hs hls, fun t => ?_⟩
  exact le_run_add_total (I := fun s => NoAllowance s.tokens vault)
    (Φ := fun s => s.tokens.balanceOf t vault) hclosed (fun _ l hs _ => (tokenStep_cost hs l).2 t) hs hls

end

/-- A router that takes four of the five that it may, and a stranger who tries to take the rest. -/
def sampleSwap : ActionStep ⟨1⟩ where
  protocols :=
    { pancake := SwapToRangeRatioAction.poolAtOne
      positions := { liquidity := fun _ => none, succeeds := fun _ => false }
      aave := AaveActions.stableAave
      aavePool := ⟨2⟩
      pool := fun _ => none }
  action := .swap
    { tokenIn := ⟨5⟩, tokenOut := ⟨6⟩, fee := 500, amountIn := 5, amountInFromSlot := noSlot,
      amountOutToSlot := noSlot, amountOutMinimum := 0, minOutFromSlot := noSlot }
  rounds :=
    [[⟨.transferFrom ⟨5⟩ ⟨3⟩ ⟨1⟩ ⟨4⟩ 4, by decide⟩, ⟨.transferFrom ⟨5⟩ ⟨9⟩ ⟨1⟩ ⟨9⟩ 6, by decide⟩]]

/-- Everybody has 10 of each token, and nothing is approved. -/
def sampleTokens : TokenState where
  tokens := { balanceOf := fun _ _ => 10, allowance := fun _ _ _ => 0 }
  ctx := []

theorem cost_run_sample :
    let s := run tokenStep sampleTokens
      [.execute [sampleSwap], .others ⟨.transferFrom ⟨5⟩ ⟨3⟩ ⟨1⟩ ⟨4⟩ 1, by decide⟩]
    s.tokens.balanceOf ⟨5⟩ ⟨1⟩ = 6 ∧ NoAllowance s.tokens ⟨1⟩ ∧ 10 ≤ s.tokens.balanceOf ⟨5⟩ ⟨1⟩ + 5 := by
  intro s
  have hnone : NoAllowance sampleTokens.tokens ⟨1⟩ := fun _ _ => rfl
  obtain ⟨hclosed, hcost⟩ := cost_run hnone
    [.execute [sampleSwap], .others ⟨.transferFrom ⟨5⟩ ⟨3⟩ ⟨1⟩ ⟨4⟩ 1, by decide⟩]
  exact ⟨by decide, hclosed, hcost ⟨5⟩⟩

end StrategyBuilder.Contracts
