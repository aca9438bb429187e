import StrategyBuilder.Contracts.Erc20

/-!
# The fee registry

`FeeRegistry.sol`: the custodian of the gas-compensation deposits of all vaults and of the collected
deposit and withdraw fees. The state is the registry's storage together with the token ledgers and
the logs of the chain. A call either returns the new state or reverts; `applyCall` keeps the state of
a reverted call.

Two things of the source have no counterpart here. The reentrancy guard is open between calls, and
no call to a standard token or to a price oracle (a view) comes back into the registry. The
overflow of a token's own ledger is the token's business: the total supply bounds every balance.
-/

set_option autoImplicit false

namespace StrategyBuilder.Contracts.FeeRegistry

open StrategyBuilder.Contracts

/-- The custom errors of the registry and of `Ownable`. -/
inductive RegistryError where
  | feeTooHigh
  | zeroAddress
  | tokenNotAccepted
  | insufficientFeeDeposit (required available : Nat)
  | nothingToWithdraw
  | withdrawExceedsDeposit (requested available : Nat)
  | ownableUnauthorizedAccount (account : Address)
  | ownableInvalidOwner (owner : Address)
deriving DecidableEq, Repr

/-- The events of the registry, and the `Transfer` event of a token. -/
inductive Log where
  | tokenAdded (token : Address) (decimals : Nat)
  | tokenRemoved (token : Address)
  | gasConfigSet (priceOracle nativeToken : Address)
      (executorMarkupBps overhead maxGasPrice : Nat)
  | feeDeposited (vault token : Address) (amount : Nat)
  | feeDepositWithdrawn (vault token : Address) (amount : Nat)
  | depositFeeBpsSet (bps : Nat)
  | withdrawFeeBpsSet (bps : Nat)
  | feeCollected (vault token : Address) (amount : Nat)
  | gasCompDeducted (vault executor token : Address) (gasCompTokens : Nat)
  | feesWithdrawn (token : Address) (amount : Nat)
  | ownershipTransferred (previousOwner newOwner : Address)
  | transfer (token sender recipient : Address) (amount : Nat)
deriving DecidableEq, Repr

/-- `MAX_FEE_BPS`. -/
def maxFeeBps : Nat := 1000

/-- What the registry stores of a token. -/
structure TokenConfig where
  enabled : Bool
  decimals : Nat

/-- The storage of the registry. -/
structure Registry where
  owner : Address
  tokens : Address → TokenConfig
  vaultDeposits : Address → Address → Nat
  collectedFees : Address → Nat
  depositFeeBps : Nat
  withdrawFeeBps : Nat
  priceOracle : Address
  nativeToken : Address
  executorMarkupBps : Nat
  gasOverhead : Nat
  maxGasPrice : Nat

/-- The storage of the registry at the address `self`, the token ledgers, and the logs so far. -/
structure World where
  self : Address
  registry : Registry
  erc20 : Erc20
  logs : List Log

/-- The storage after the constructor: the deployer owns the registry and every mapping is zero. -/
def Registry.deployed (deployer : Address) : Registry where
  owner := deployer
  tokens := fun _ => ⟨false, 0⟩
  vaultDeposits := fun _ _ => 0
  collectedFees := fun _ => 0
  depositFeeBps := 0
  withdrawFeeBps := 0
  priceOracle := Address.zero
  nativeToken := Address.zero
  executorMarkupBps := 0
  gasOverhead := 0
  maxGasPrice := 0

/-- What `getTokenPrice` of a price oracle answers: a price, a revert that `try` catches, or an
answer that `try` does not catch (no code at the address, or malformed return data). -/
inductive OracleAnswer where
  | price (p : Nat)
  | reverted
  | malformed

/-- The transaction around a call: its caller, its gas price, and the answer of every price oracle
(by oracle address and token) while the call runs. -/
structure Msg where
  sender : Address
  gasprice : Nat
  oracle : Address → Address → OracleAnswer

namespace World

/-- The world after an event. -/
def emit (w : World) (l : Log) : World := { w with logs := w.logs ++ [l] }

/-- The world with these balances and allowances. -/
def setErc20 (w : World) (erc20 : Erc20) : World := { w with erc20 := erc20 }

/-- The world with this deposit of a vault. -/
def setDeposit (w : World) (vault token : Address) (n : Nat) : World :=
  { w with
    registry := { w.registry with
      vaultDeposits := update₂ w.registry.vaultDeposits vault token n } }

/-- The world with these collected fees. -/
def setCollected (w : World) (token : Address) (n : Nat) : World :=
  { w with
    registry := { w.registry with
      collectedFees := Function.update w.registry.collectedFees token n } }

/-- The world with this entry of a token. -/
def setToken (w : World) (token : Address) (cfg : TokenConfig) : World :=
  { w with registry := { w.registry with tokens := Function.update w.registry.tokens token cfg } }

end World

/-- `IERC20(token).safeTransfer(recipient, amount)` by the registry. -/
def safeTransfer (w : World) (token recipient : Address) (amount : Nat) :
    Result RegistryError World := do
  let erc20 ← passThrough (w.erc20.transfer token w.self recipient amount)
  return (w.setErc20 erc20).emit (.transfer token w.self recipient amount)

/-- `IERC20(token).safeTransferFrom(sender, address(this), amount)` by the registry. -/
def safeTransferFrom (w : World) (token sender : Address) (amount : Nat) :
    Result RegistryError World := do
  let erc20 ← passThrough (w.erc20.transferFrom token w.self sender w.self amount)
  return (w.setErc20 erc20).emit (.transfer token sender w.self amount)

/-- The modifier `onlyOwner`. -/
def onlyOwner (msg : Msg) (w : World) : Result RegistryError Unit :=
  revertIf (msg.sender ≠ w.registry.owner) (.ownableUnauthorizedAccount msg.sender)

/-! ## Owner: accepted tokens, fee rates, gas compensation -/

/-- `addAcceptedToken`: a token that was removed is accepted again. -/
def addAcceptedToken (msg : Msg) (token : Address) (decimals : Nat) (w : World) :
    Result RegistryError World := do
  onlyOwner msg w
  revertIf (token = Address.zero) .zeroAddress
  return (w.setToken token ⟨true, decimals⟩).emit (.tokenAdded token decimals)

/-- `removeAcceptedToken`: the token keeps its decimals. -/
def removeAcceptedToken (msg : Msg) (token : Address) (w : World) : Result RegistryError World := do
  onlyOwner msg w
  return (w.setToken token { w.registry.tokens token with enabled := false }).emit
    (.tokenRemoved token)

/-- `setDepositFeeBps` -/
def setDepositFeeBps (msg : Msg) (bps : Nat) (w : World) : Result RegistryError World := do
  onlyOwner msg w
  revertIf (maxFeeBps < bps) .feeTooHigh
  return { w with registry := { w.registry with depositFeeBps := bps } }.emit (.depositFeeBpsSet bps)

/-- `setWithdrawFeeBps` -/
def setWithdrawFeeBps (msg : Msg) (bps : Nat) (w : World) : Result RegistryError World := do
  onlyOwner msg w
  revertIf (maxFeeBps < bps) .feeTooHigh
  return { w with registry := { w.registry with withdrawFeeBps := bps } }.emit
    (.withdrawFeeBpsSet bps)

/-- `setGasConfig`: none of the values is checked. -/
def setGasConfig (msg : Msg) (priceOracle nativeToken : Address)
    (executorMarkupBps overhead maxGasPrice : Nat) (w : World) : Result RegistryError World := do
  onlyOwner msg w
  let registry := { w.registry with
    priceOracle := priceOracle
    nativeToken := nativeToken
    executorMarkupBps := executorMarkupBps
    gasOverhead := overhead
    maxGasPrice := maxGasPrice }
  return { w with registry := registry }.emit
    (.gasConfigSet priceOracle nativeToken executorMarkupBps overhead maxGasPrice)

/-- `Ownable.transferOwnership` -/
def transferOwnership (msg : Msg) (newOwner : Address) (w : World) : Result RegistryError World := do
  onlyOwner msg w
  revertIf (newOwner = Address.zero) (.ownableInvalidOwner Address.zero)
  return { w with registry := { w.registry with owner := newOwner } }.emit
    (.ownershipTransferred w.registry.owner newOwner)

/-- `Ownable.renounceOwnership` -/
def renounceOwnership (msg : Msg) (w : World) : Result RegistryError World := do
  onlyOwner msg w
  return { w with registry := { w.registry with owner := Address.zero } }.emit
    (.ownershipTransferred w.registry.owner Address.zero)

/-! ## Money in and out -/

/-- `withdrawFees`: all fees of a token go to the owner. -/
def withdrawFees (msg : Msg) (token : Address) (w : World) : Result RegistryError World := do
  onlyOwner msg w
  let amount := w.registry.collectedFees token
  revertIf (amount = 0) .nothingToWithdraw
  let w ← safeTransfer (w.setCollected token 0) token w.registry.owner amount
  return w.emit (.feesWithdrawn token amount)

/-- `depositFor`: anybody may add to the deposit of a vault. -/
def depositFor (msg : Msg) (vault token : Address) (amount : Nat) (w : World) :
    Result RegistryError World := do
  revertIf (vault = Address.zero) .zeroAddress
  revertIf ((w.registry.tokens token).enabled = false) .tokenNotAccepted
  let w ← safeTransferFrom w token msg.sender amount
  let deposit ← checkedAdd (w.registry.vaultDeposits vault token) amount
  return (w.setDeposit vault token deposit).emit (.feeDeposited vault token amount)

/-- What `withdrawDeposit` pays out: `0` stands for the whole deposit. -/
def toWithdraw (available amount : Nat) : Nat := if amount = 0 then available else amount

/-- `withdrawDeposit`: a vault takes from its own deposit; 0 asks for all of it. -/
def withdrawDeposit (msg : Msg) (token : Address) (amount : Nat) (w : World) :
    Result RegistryError World := do
  let available := w.registry.vaultDeposits msg.sender token
  revertIf (available = 0) .nothingToWithdraw
  let n := toWithdraw available amount
  revertIf (available < n) (.withdrawExceedsDeposit n available)
  let w ← safeTransfer (w.setDeposit msg.sender token (available - n)) token msg.sender n
  return w.emit (.feeDepositWithdrawn msg.sender token n)

/-- `collectFee`: the registry takes the fee from the one who calls. -/
def collectFee (msg : Msg) (token : Address) (amount : Nat) (w : World) :
    Result RegistryError World :=
  if amount = 0 then return w
  else do
    let w ← safeTransferFrom w token msg.sender amount
    let collected ← checkedAdd (w.registry.collectedFees token) amount
    return (w.setCollected token collected).emit (.feeCollected msg.sender token amount)

/-! ## Gas compensation -/

/-- The branches of `_feeTokenAmount` that use no price: USD counts as one token. -/
def feeTokenAmountWithoutPrice (dec feeUSD : Nat) : Result RegistryError Nat :=
  if dec = 18 then return feeUSD
  else if dec = 6 then return feeUSD / 10 ^ 12
  else if dec = 8 then return feeUSD / 10 ^ 10
  else if 18 < dec then do
    let scale ← checkedPow 10 (dec - 18)
    checkedMul feeUSD scale
  else return feeUSD / 10 ^ (18 - dec)

/-- `_feeTokenAmount` -/
def feeTokenAmount (msg : Msg) (token : Address) (feeUSD : Nat) (r : Registry) :
    Result RegistryError Nat :=
  if feeUSD = 0 then return 0
  else if (r.tokens token).enabled = false then return 0
  else
    let dec := (r.tokens token).decimals
    if r.priceOracle = Address.zero then feeTokenAmountWithoutPrice dec feeUSD
    else match msg.oracle r.priceOracle token with
      -- `catch` takes a revert, not an answer that cannot be decoded
      | .malformed => .error .external
      | .reverted => feeTokenAmountWithoutPrice dec feeUSD
      | .price tokenPriceUSD =>
        if tokenPriceUSD = 0 then feeTokenAmountWithoutPrice dec feeUSD
        else do
          let scale ← checkedPow 10 dec
          let scaled ← checkedMul feeUSD scale
          return scaled / tokenPriceUSD

/-- `_fetchNativePrice` -/
def fetchNativePrice (msg : Msg) (r : Registry) : Result RegistryError Nat :=
  match msg.oracle r.priceOracle r.nativeToken with
  | .price p => return p
  | .reverted => return 0
  | .malformed => .error .external

/-- `_estimateGasCompWithPrice` -/
def estimateGasCompWithPrice (msg : Msg) (token : Address) (totalGas gasPrice nativePriceUSD : Nat)
    (r : Registry) : Result RegistryError Nat :=
  if gasPrice = 0 then return 0
  else do
    let gasCost ← checkedMul totalGas gasPrice
    let gasCostNative ← checkedMul gasCost nativePriceUSD
    let gasCostUSD := gasCostNative / 10 ^ 18
    let markup ← checkedMul gasCostUSD r.executorMarkupBps
    let gasCompUSD ← checkedAdd gasCostUSD (markup / 10000)
    feeTokenAmount msg token gasCompUSD r

/-- `tx.gasprice` under the cap of the registry; `0` stands for no cap. -/
def effectiveGasPrice (msg : Msg) (r : Registry) : Nat :=
  if 0 < r.maxGasPrice ∧ r.maxGasPrice < msg.gasprice then r.maxGasPrice else msg.gasprice

/-- `_computeGasComp` -/
def computeGasComp (msg : Msg) (token : Address) (gasUsed : Nat) (r : Registry) :
    Result RegistryError Nat :=
  if r.priceOracle = Address.zero then return 0
  else do
    let nativePrice ← fetchNativePrice msg r
    if nativePrice = 0 then return 0
    else do
      let totalGas ← checkedAdd gasUsed r.gasOverhead
      estimateGasCompWithPrice msg token totalGas (effectiveGasPrice msg r) nativePrice r

/-- `estimateGasComp`: 0 where the oracle has no price. -/
def estimateGasComp (msg : Msg) (token : Address) (gasUsed gasPrice : Nat) (r : Registry) :
    Result RegistryError Nat :=
  if r.priceOracle = Address.zero then return 0
  else do
    let nativePrice ← fetchNativePrice msg r
    if nativePrice = 0 then return 0
    else do
      let totalGas ← checkedAdd gasUsed r.gasOverhead
      estimateGasCompWithPrice msg token totalGas gasPrice nativePrice r

/-- Returns the new state and `gasCompTokens`. -/
def deductGasComp (msg : Msg) (token executor : Address) (gasUsed : Nat) (w : World) :
    Result RegistryError (World × Nat) := do
  let gasCompTokens ← computeGasComp msg token gasUsed w.registry
  if gasCompTokens = 0 then return (w, 0)
  else do
    let available := w.registry.vaultDeposits msg.sender token
    revertIf (available < gasCompTokens) (.insufficientFeeDeposit gasCompTokens available)
    let w ← safeTransfer (w.setDeposit msg.sender token (available - gasCompTokens)) token executor
      gasCompTokens
    return (w.emit (.gasCompDeducted msg.sender executor token gasCompTokens), gasCompTokens)

/-! ## Views -/

/-- `isAcceptedToken` -/
def isAcceptedToken (token : Address) (r : Registry) : Bool := (r.tokens token).enabled

/-- `vaultDeposit` -/
def vaultDeposit (vault token : Address) (r : Registry) : Nat := r.vaultDeposits vault token

/-! ## The system -/

/-- The operations of the registry that change state. -/
inductive Op where
  | addAcceptedToken (token : Address) (decimals : Nat)
  | removeAcceptedToken (token : Address)
  | setDepositFeeBps (bps : Nat)
  | setWithdrawFeeBps (bps : Nat)
  | setGasConfig (priceOracle nativeToken : Address)
      (executorMarkupBps overhead maxGasPrice : Nat)
  | withdrawFees (token : Address)
  | depositFor (vault token : Address) (amount : Nat)
  | withdrawDeposit (token : Address) (amount : Nat)
  | collectFee (token : Address) (amount : Nat)
  | deductGasComp (token executor : Address) (gasUsed : Nat)
  | transferOwnership (newOwner : Address)
  | renounceOwnership

/-- One call of an operation. -/
def call (msg : Msg) (w : World) : Op → Result RegistryError World
  | .addAcceptedToken token decimals => addAcceptedToken msg token decimals w
  | .removeAcceptedToken token => removeAcceptedToken msg token w
  | .setDepositFeeBps bps => setDepositFeeBps msg bps w
  | .setWithdrawFeeBps bps => setWithdrawFeeBps msg bps w
  | .setGasConfig priceOracle nativeToken executorMarkupBps overhead maxGasPrice =>
      setGasConfig msg priceOracle nativeToken executorMarkupBps overhead maxGasPrice w
  | .withdrawFees token => withdrawFees msg token w
  | .depositFor vault token amount => depositFor msg vault token amount w
  | .withdrawDeposit token amount => withdrawDeposit msg token amount w
  | .collectFee token amount => collectFee msg token amount w
  | .deductGasComp token executor gasUsed => do
      let r ← deductGasComp msg token executor gasUsed w
      return r.1
  | .transferOwnership newOwner => transferOwnership msg newOwner w
  | .renounceOwnership => renounceOwnership msg w

/-- A reverted call leaves the state as it was. -/
def applyCall (msg : Msg) (w : World) (op : Op) : World :=
  match call msg w op with
  | .ok w' => w'
  | .error _ => w

/-- One step of the world: a call of the registry, or something that tokens do without it. -/
inductive Label where
  | call (msg : Msg) (op : Op)
  | transfer (token sender recipient : Address) (amount : Nat)
  | approve (token owner spender : Address) (amount : Nat)
  | mint (token recipient : Address) (amount : Nat)

/-- One event: a call that reverts changes nothing. -/
def step (w : World) : Label → World
  | .call msg op => applyCall msg w op
  | .transfer token sender recipient amount =>
      match w.erc20.transfer token sender recipient amount with
      | some erc20 => (w.setErc20 erc20).emit (.transfer token sender recipient amount)
      | none => w
  | .approve token owner spender amount =>
      w.setErc20 (w.erc20.approve token owner spender amount)
  | .mint token recipient amount =>
      (w.setErc20 (w.erc20.mint token recipient amount)).emit
        (.transfer token Address.zero recipient amount)

/-- Who takes a step is somebody else than the registry. The code of the registry calls nothing but
`transfer` and `transferFrom` of tokens and `getTokenPrice` of its oracle, so it is never its own
caller, and outside its own operations it moves no token. -/
def Label.Outside (self : Address) : Label → Prop
  | .call msg _ => msg.sender ≠ self
  | .transfer _ sender _ _ => sender ≠ self
  | .approve _ _ _ _ => True
  | .mint _ _ _ => True

end StrategyBuilder.Contracts.FeeRegistry
