import StrategyBuilder.Contracts.VaultAuthority

/-!
# The vault factory

`StrategyBuilderVaultFactory.sol` on a chain with the vaults that it deploys and with everybody else's
contracts. A vault is an `ERC1967Proxy` at a `CREATE2` address, whose constructor runs `initialize`; its
transactions are those of the vault contract. An implementation may also be another contract, of which
nothing is known but whether its `initialize` succeeds; it may replace itself.

The list of vaults, the set behind `isRegisteredVault` and the logs say the same in every reachable
state, and every vault in them that was created with the vault contract stands at its address with this
implementation, the registry and the deposit token of its creation, whatever the factory owner changed
since and whatever was sent to the vault (`registry_sound`). A salt is bound to its caller: two
creations meet at one address only if they are the same in all their parameters, or the hash collides on
what they hash (`create2_bound`).
-/

set_option autoImplicit false

namespace StrategyBuilder.Contracts.VaultFactory

open StrategyBuilder.Contracts
open StrategyBuilder.Lib
open StrategyBuilder.Lib.Abi
open StrategyBuilder.Lib.Transition

/-! ## Addresses -/

/-- What the factory is deployed with: the hash of the chain, its own address, the creation code of the
proxy, and which implementations are deployments of the vault contract. -/
structure Deployment where
  keccak256 : Bytes → Nat
  self : Address
  proxyCreationCode : Bytes
  isVault : Address → Bool

/-- The arguments of `createVault`, with the caller. -/
structure CreateVault where
  sender : Address
  vaultOwner : Address
  depositToken : Address
  salt : Nat
deriving DecidableEq, Repr

/-- An address as `abi.encodePacked` has it. -/
def packAddress (a : Address) : Bytes := toBytes 20 a.toNat

/-- `initialize.selector` -/
def initializeSelector : Bytes := toBytes 4 0xc0c53b8b

/-- `abi.encodeCall(StrategyBuilderVault.initialize, (vaultOwner, feeRegistry, depositToken_))` -/
def initData (c : CreateVault) (feeRegistry : Address) : Bytes :=
  initializeSelector ++ (encodeWord c.vaultOwner.toNat ++
    (encodeWord feeRegistry.toNat ++ encodeWord c.depositToken.toNat))

/-- `abi.encodePacked(msg.sender, salt)` -/
def saltInput (c : CreateVault) : Bytes := packAddress c.sender ++ encodeWord c.salt

/-- The creation code with the arguments of the constructor. -/
def initCode (d : Deployment) (implementation : Address) (data : Bytes) : Bytes :=
  d.proxyCreationCode ++ (encodeWord implementation.toNat ++ (encodeWord 64 ++ encodeBytes data))

/-- What `CREATE2` hashes. -/
def create2Input (d : Deployment) (c : CreateVault) (implementation feeRegistry : Address) : Bytes :=
  toBytes 1 0xff ++ (packAddress d.self ++ (encodeWord (d.keccak256 (saltInput c)) ++
    encodeWord (d.keccak256 (initCode d implementation (initData c feeRegistry)))))

/-- The address of `new ERC1967Proxy{salt: effectiveSalt}(...)`. -/
def create2Address (d : Deployment) (c : CreateVault) (implementation feeRegistry : Address) :
    Address :=
  ⟨d.keccak256 (create2Input d c implementation feeRegistry) % 2 ^ 160⟩

/-! ## The contract -/

/-- The custom errors of the factory and of `Ownable`. -/
inductive FactoryError where
  | zeroAddress
  | implementationNotSet
  | invalidImplementation
  | feeTokenNotAccepted
  | ownableUnauthorizedAccount (account : Address)
  | ownableInvalidOwner (owner : Address)
deriving DecidableEq, Repr

/-- The events of the factory. -/
inductive Log where
  | vaultCreated (vault vaultOwner : Address) (vaultIndex : Nat)
  | vaultImplementationUpdated (newImplementation : Address)
  | feeRegistryUpdated (newFeeRegistry : Address)
deriving DecidableEq, Repr

/-- A proxy, with the storage of its vault. The storage of another implementation is not known. -/
structure Proxy where
  implementation : Address
  vault : Option Vault.State

/-- A creation as it was carried out. -/
structure Creation where
  call : CreateVault
  implementation : Address
  feeRegistry : Address
  isAcceptedToken : Bool
deriving DecidableEq, Repr

/-- The storage of the factory with its logs, the addresses with code, and the proxies. `history` is
what was created so far, in order; the contract does not keep it. -/
structure World where
  owner : Address
  vaultImplementation : Address
  feeRegistry : Address
  vaults : List Address
  vaultSet : Address → Bool
  logs : List Log
  code : Address → Bool
  proxies : Address → Option Proxy
  history : List Creation

/-- The answers of what `createVault` calls: `isAcceptedToken` of the registry (`none` reverts), and
whether the `initialize` of another implementation succeeds. -/
structure Answers where
  isAcceptedToken : Option Bool
  foreignInitialize : Bool
deriving DecidableEq, Repr

/-- `if (reg != address(0) && depositToken_ != address(0)) ...` -/
def checkDepositToken (answers : Answers) (feeRegistry depositToken : Address) :
    Result FactoryError Bool :=
  if feeRegistry ≠ Address.zero ∧ depositToken ≠ Address.zero then do
    let accepted ← passThrough answers.isAcceptedToken
    revertIf (accepted = false) .feeTokenNotAccepted
    return accepted
  else return false

/-- `initialize` through the proxy. `__Ownable_init` refuses the zero address. -/
def constructProxy (d : Deployment) (answers : Answers) (implementation vaultOwner feeRegistry
    depositToken : Address) : Option Proxy :=
  if d.isVault implementation then
    if vaultOwner = Address.zero then none
    else some ⟨implementation, some (Vault.initialized vaultOwner feeRegistry depositToken)⟩
  else if answers.foreignInitialize then some ⟨implementation, none⟩
  else none

/-- `new ERC1967Proxy{salt: ...}(implementation, data)`: refused at an address that has code, and by the
constructor if the implementation has none or its `initialize` reverts. -/
def deployProxy (d : Deployment) (answers : Answers) (c : CreateVault) (w : World) :
    Option (Address × Proxy) :=
  let vault := create2Address d c w.vaultImplementation w.feeRegistry
  if w.code vault ∨ w.code w.vaultImplementation = false then none
  else
    (constructProxy d answers w.vaultImplementation c.vaultOwner w.feeRegistry c.depositToken).map
      fun proxy => (vault, proxy)

/-- `createVault`: a proxy is deployed under the salt, and registered. -/
def createVault (d : Deployment) (answers : Answers) (c : CreateVault) (w : World) :
    Result FactoryError (World × Address) := do
  revertIf (c.vaultOwner = Address.zero) .zeroAddress
  revertIf (w.vaultImplementation = Address.zero) .implementationNotSet
  let accepted ← checkDepositToken answers w.feeRegistry c.depositToken
  let (vault, proxy) ← passThrough (deployProxy d answers c w)
  let index := w.vaults.length
  return ({ w with
    vaults := w.vaults ++ [vault]
    vaultSet := Function.update w.vaultSet vault true
    logs := w.logs ++ [.vaultCreated vault c.vaultOwner index]
    code := Function.update w.code vault true
    proxies := Function.update w.proxies vault (some proxy)
    history := w.history ++ [⟨c, w.vaultImplementation, w.feeRegistry, accepted⟩] }, vault)

/-- The modifier `onlyOwner`. -/
def onlyOwner (sender : Address) (w : World) : Result FactoryError Unit :=
  revertIf (sender ≠ w.owner) (.ownableUnauthorizedAccount sender)

/-- `setVaultImplementation`: vaults that exist keep theirs. -/
def setVaultImplementation (sender newImplementation : Address) (w : World) :
    Result FactoryError World := do
  onlyOwner sender w
  revertIf (newImplementation = Address.zero) .zeroAddress
  revertIf (w.code newImplementation = false) .invalidImplementation
  return { w with
    vaultImplementation := newImplementation
    logs := w.logs ++ [.vaultImplementationUpdated newImplementation] }

/-- `setFeeRegistry`: vaults that exist keep theirs. -/
def setFeeRegistry (sender newFeeRegistry : Address) (w : World) : Result FactoryError World := do
  onlyOwner sender w
  return { w with
    feeRegistry := newFeeRegistry
    logs := w.logs ++ [.feeRegistryUpdated newFeeRegistry] }

/-- `transferOwnership` of the factory -/
def transferOwnership (sender newOwner : Address) (w : World) : Result FactoryError World := do
  onlyOwner sender w
  revertIf (newOwner = Address.zero) (.ownableInvalidOwner newOwner)
  return { w with owner := newOwner }

/-- `renounceOwnership` of the factory -/
def renounceOwnership (sender : Address) (w : World) : Result FactoryError World := do
  onlyOwner sender w
  return { w with owner := Address.zero }

/-! ## Views -/

/-- `getVault` -/
def getVault (index : Nat) (w : World) : Result FactoryError Address := readAt w.vaults index

/-- `vaultCount` -/
def vaultCount (w : World) : Nat := w.vaults.length

/-- `isRegisteredVault` -/
def isRegisteredVault (vault : Address) (w : World) : Bool := w.vaultSet vault

/-! ## The system -/

/-- The factory right after its constructor, on a chain with these contracts. -/
def deployed (owner : Address) (code : Address → Bool) : World where
  owner := owner
  vaultImplementation := Address.zero
  feeRegistry := Address.zero
  vaults := []
  vaultSet := fun _ => false
  logs := []
  code := code
  proxies := fun _ => none
  history := []

/-- A transaction of the factory or of a vault, a contract that somebody else deploys, or a proxy of
another implementation that this implementation changes for one of its own choice. -/
inductive Label where
  | createVault (answers : Answers) (call : CreateVault)
  | setVaultImplementation (sender newImplementation : Address)
  | setFeeRegistry (sender newFeeRegistry : Address)
  | transferOwnership (sender newOwner : Address)
  | renounceOwnership (sender : Address)
  | deploy (contract : Address)
  | vault (vault : Address) (tx : Vault.OwnedTx)
  | foreign (proxy implementation : Address)

/-- The state after a call; one that reverts changes nothing. -/
def settled (r : Result FactoryError World) (w : World) : World :=
  match r with
  | .ok w' => w'
  | .error _ => w

/-- A transaction of the proxy at an address. -/
def Proxy.step (p : Proxy) (tx : Vault.OwnedTx) : Proxy :=
  { p with vault := p.vault.map fun v => Vault.ownedStep v tx }

/-- Another implementation than the vault contract may replace itself. -/
def Proxy.replace (d : Deployment) (p : Proxy) (implementation : Address) : Proxy :=
  if d.isVault p.implementation then p else { p with implementation := implementation }

/-- What happens to the factory and to the proxies. -/
def step (d : Deployment) (w : World) : Label → World
  | .createVault answers call =>
      settled (do
        let r ← createVault d answers call w
        return r.1) w
  | .setVaultImplementation sender newImplementation =>
      settled (setVaultImplementation sender newImplementation w) w
  | .setFeeRegistry sender newFeeRegistry => settled (setFeeRegistry sender newFeeRegistry w) w
  | .transferOwnership sender newOwner => settled (transferOwnership sender newOwner w) w
  | .renounceOwnership sender => settled (renounceOwnership sender w) w
  | .deploy contract => { w with code := Function.update w.code contract true }
  | .vault vault tx =>
      { w with proxies := Function.update w.proxies vault ((w.proxies vault).map fun p => p.step tx) }
  | .foreign proxy implementation =>
      { w with
        proxies := Function.update w.proxies proxy
          ((w.proxies proxy).map fun p => p.replace d implementation) }

/-! ## What is registered -/

/-- Where the vault of a creation stands. -/
def Creation.address (d : Deployment) (c : Creation) : Address :=
  create2Address d c.call c.implementation c.feeRegistry

/-- The logs of the vaults: address, owner at the creation, and index. -/
def Log.created? : Log → Option (Address × Address × Nat)
  | .vaultCreated vault vaultOwner vaultIndex => some (vault, vaultOwner, vaultIndex)
  | _ => none

/-- A proxy is that of a creation: where this was one of the vault contract, it has its implementation,
its registry and its token, in a state that the vault can come to. Nothing is known of other
implementations. -/
structure Proxy.Of (p : Proxy) (d : Deployment) (c : Creation) : Prop where
  implementation : d.isVault c.implementation = true → p.implementation = c.implementation
  vault : d.isVault c.implementation = true →
    ∃ v, p.vault = some v ∧ v.feeRegistry = c.feeRegistry ∧ v.depositToken = c.call.depositToken ∧
      Reachable Vault.ownedStep Vault.Initial (fun _ _ => True) v

/-- What was checked when a vault was created. -/
structure Creation.Checked (c : Creation) : Prop where
  vaultOwner : c.call.vaultOwner ≠ Address.zero
  implementation : c.implementation ≠ Address.zero
  depositToken : c.feeRegistry ≠ Address.zero → c.call.depositToken ≠ Address.zero →
    c.isAcceptedToken = true

/-- The list, the set and the logs of the vaults agree with what was created, and every vault stands. -/
structure Sound (d : Deployment) (w : World) : Prop where
  vaults : w.vaults = w.history.map (Creation.address d)
  nodup : w.vaults.Nodup
  set : ∀ a, isRegisteredVault a w = true ↔ a ∈ w.vaults
  logs : w.logs.filterMap Log.created? =
    w.history.zipIdx.map fun c => (c.1.address d, c.1.call.vaultOwner, c.2)
  checked : ∀ c ∈ w.history, c.Checked
  code : ∀ a ∈ w.vaults, w.code a = true
  standing : ∀ c ∈ w.history, ∃ p, w.proxies (c.address d) = some p ∧ p.Of d c

section

variable {d : Deployment} {w w' : World}

/-- With a registry and a token, the token has been accepted. -/
theorem checkDepositToken_ok {answers : Answers} {feeRegistry depositToken : Address} {accepted : Bool}
    (h : checkDepositToken answers feeRegistry depositToken = .ok accepted) :
    feeRegistry ≠ Address.zero → depositToken ≠ Address.zero → accepted = true := by
  intro hregistry htoken
  rw [checkDepositToken, if_pos ⟨hregistry, htoken⟩] at h
  obtain ⟨a, -, h⟩ := bind_eq_ok.1 h
  obtain ⟨u, hrefused, h⟩ := bind_eq_ok.1 h
  rw [revertIf_eq_ok, Bool.not_eq_false] at hrefused
  rw [pure_eq_ok] at h
  rw [← h, hrefused]

/-- The proxy that a constructor leaves is that of its creation. -/
theorem constructProxy_of {answers : Answers} {c : CreateVault} {implementation feeRegistry : Address}
    {p : Proxy} (accepted : Bool)
    (h : constructProxy d answers implementation c.vaultOwner feeRegistry c.depositToken = some p) :
    p.Of d ⟨c, implementation, feeRegistry, accepted⟩ := by
  rw [constructProxy] at h
  split at h
  · split at h
    · cases h
    · cases h
      refine ⟨fun _ => rfl, fun _ => ⟨_, rfl, rfl, rfl, .start ⟨_, _, _, rfl⟩⟩⟩
  · rename_i hforeign
    split at h
    · cases h
      exact ⟨fun _ => rfl, fun hvault => absurd hvault hforeign⟩
    · cases h

/-- What `createVault` did when it returned. -/
theorem createVault_ok {answers : Answers} {c : CreateVault} {r : World × Address}
    (h : createVault d answers c w = .ok r) :
    ∃ proxy, ∃ created : Creation, created.Checked ∧ created.call = c ∧ proxy.Of d created ∧
      r.2 = created.address d ∧ w.code r.2 = false ∧
      r.1 = { w with
        vaults := w.vaults ++ [r.2]
        vaultSet := Function.update w.vaultSet r.2 true
        logs := w.logs ++ [.vaultCreated r.2 c.vaultOwner w.vaults.length]
        code := Function.update w.code r.2 true
        proxies := Function.update w.proxies r.2 (some proxy)
        history := w.history ++ [created] } := by
  simp only [createVault, bind_eq_ok, revertIf_eq_ok, passThrough_eq_ok, pure_eq_ok] at h
  obtain ⟨-, howner, -, himplementation, accepted, haccepted, ⟨vault, proxy⟩, hdeploy, rfl⟩ := h
  rw [deployProxy] at hdeploy
  split at hdeploy
  · cases hdeploy
  · rename_i hfree
    rw [not_or, Bool.not_eq_true, Bool.not_eq_false] at hfree
    obtain ⟨p, hp, heq⟩ := Option.map_eq_some_iff.1 hdeploy
    obtain ⟨rfl, rfl⟩ := Prod.mk.inj heq
    exact ⟨p, ⟨c, w.vaultImplementation, w.feeRegistry, accepted⟩,
      ⟨howner, himplementation, checkDepositToken_ok haccepted⟩, rfl, constructProxy_of accepted hp,
      rfl, hfree.1, rfl⟩

/-- A creation keeps the factory sound. -/
theorem createVault_sound (hw : Sound d w) {answers : Answers} {c : CreateVault}
    {r : World × Address} (h : createVault d answers c w = .ok r) : Sound d r.1 := by
  obtain ⟨proxy, created, hchecked, hcall, hof, haddress, hfree, hr⟩ := createVault_ok h
  -- the address had no code before, so it is none of the vaults so far
  have hnew : r.2 ∉ w.vaults := by
    intro hmem
    rw [hw.code _ hmem] at hfree
    cases hfree
  rw [hr]
  constructor
  · change w.vaults ++ [r.2] = (w.history ++ [created]).map _
    rw [List.map_append, hw.vaults, haddress]
    rfl
  · exact List.nodup_append.2 ⟨hw.nodup, by simp, by
      intro a ha b hb
      rw [List.mem_singleton.1 hb]
      exact fun hab => hnew (hab ▸ ha)⟩
  · intro a
    change Function.update w.vaultSet r.2 true a = true ↔ a ∈ w.vaults ++ [r.2]
    by_cases ha : a = r.2
    · subst ha
      simp
    · have hset := hw.set a
      rw [isRegisteredVault] at hset
      simp [hset, ha]
  · change (w.logs ++ [Log.vaultCreated r.2 c.vaultOwner w.vaults.length]).filterMap Log.created? =
      (w.history ++ [created]).zipIdx.map _
    have hlength : w.vaults.length = w.history.length := by rw [hw.vaults, List.length_map]
    rw [List.filterMap_append, hw.logs, List.zipIdx_append, List.map_append, hlength, haddress,
      ← hcall]
    simp [Log.created?]
  · intro x hx
    rcases List.mem_append.1 hx with h | h
    · exact hw.checked x h
    · rw [List.mem_singleton.1 h]
      exact hchecked
  · intro a ha
    change Function.update w.code r.2 true a = true
    by_cases hne : a = r.2
    · rw [hne, Function.update_self]
    · rw [Function.update_of_ne hne]
      rcases List.mem_append.1 ha with h | h
      · exact hw.code a h
      · exact absurd (List.mem_singleton.1 h) hne
  · intro x hx
    change ∃ p, Function.update w.proxies r.2 (some proxy) (x.address d) = some p ∧ p.Of d x
    rcases List.mem_append.1 hx with h | h
    · have hmem : x.address d ∈ w.vaults := hw.vaults ▸ List.mem_map_of_mem h
      have hne : x.address d ≠ r.2 := fun he => hnew (he ▸ hmem)
      rw [Function.update_of_ne hne]
      exact hw.standing x h
    · rw [List.mem_singleton.1 h, ← haddress, Function.update_self]
      exact ⟨proxy, rfl, hof⟩

/-- A change of what the owner sets leaves the vaults alone. -/
theorem Sound.configured (hw : Sound d w) {owner implementation feeRegistry : Address} {logs : List Log}
    (hlogs : logs.filterMap Log.created? = w.logs.filterMap Log.created?) :
    Sound d { w with
      owner := owner, vaultImplementation := implementation, feeRegistry := feeRegistry
      logs := logs } :=
  ⟨hw.vaults, hw.nodup, hw.set, hlogs.trans hw.logs, hw.checked, hw.code, hw.standing⟩

/-- No transaction changes the registry or the token of a vault. -/
theorem ownedStep_wiring (v : Vault.State) (tx : Vault.OwnedTx) :
    (Vault.ownedStep v tx).feeRegistry = v.feeRegistry ∧
      (Vault.ownedStep v tx).depositToken = v.depositToken := by
  have hconfig := Vault.ownedStep_config v tx
  have hwiring := Vault.after_wiring v.config (Vault.decision v.owner tx)
  rw [← hconfig] at hwiring
  exact hwiring

/-- A transaction of a vault leaves it that of its creation. -/
theorem Proxy.Of.step {p : Proxy} {c : Creation} (h : p.Of d c) (tx : Vault.OwnedTx) :
    (p.step tx).Of d c := by
  refine ⟨fun hvault => h.implementation hvault, fun hvault => ?_⟩
  obtain ⟨v, hv, hregistry, htoken, hreachable⟩ := h.vault hvault
  obtain ⟨hregistry', htoken'⟩ := ownedStep_wiring v tx
  refine ⟨Vault.ownedStep v tx, ?_, hregistry'.trans hregistry, htoken'.trans htoken,
    hreachable.next trivial⟩
  rw [Proxy.step, hv]
  rfl

/-- A proxy of the vault contract is not replaced. -/
theorem Proxy.Of.replace {p : Proxy} {c : Creation} (h : p.Of d c) (implementation : Address) :
    (p.replace d implementation).Of d c := by
  rw [Proxy.replace]
  split
  · exact h
  · rename_i hforeign
    -- so neither was the creation one of the vault contract
    have hother : d.isVault c.implementation ≠ true := fun hvault =>
      hforeign ((h.implementation hvault).symm ▸ hvault)
    exact ⟨fun hvault => absurd hvault hother, fun hvault => absurd hvault hother⟩

/-- A change of one proxy that leaves it that of its creation keeps all proxies those of theirs. -/
theorem Sound.changeProxy (hw : Sound d w) (vault : Address) {change : Proxy → Proxy}
    (hchange : ∀ p c, Proxy.Of p d c → (change p).Of d c) :
    Sound d { w with proxies := Function.update w.proxies vault ((w.proxies vault).map change) } := by
  refine ⟨hw.vaults, hw.nodup, hw.set, hw.logs, hw.checked, hw.code, fun c hc => ?_⟩
  obtain ⟨p, hp, hof⟩ := hw.standing c hc
  change ∃ p, Function.update w.proxies vault _ (c.address d) = some p ∧ p.Of d c
  by_cases hne : c.address d = vault
  · subst hne
    refine ⟨change p, ?_, hchange p c hof⟩
    rw [Function.update_self, hp]
    rfl
  · rw [Function.update_of_ne hne]
    exact ⟨p, hp, hof⟩

/-- A step keeps the factory sound. -/
theorem step_sound (hw : Sound d w) (l : Label) : Sound d (step d w l) := by
  cases l with
  | createVault answers c =>
    rw [step]
    cases h : createVault d answers c w with
    | error e => exact hw
    | ok r => exact createVault_sound hw h
  -- the settings are read only by the next creation
  | setVaultImplementation sender newImplementation =>
    rw [step]
    cases h : setVaultImplementation sender newImplementation w with
    | error e => exact hw
    | ok w' =>
      simp only [setVaultImplementation, bind_eq_ok, pure_eq_ok] at h
      obtain ⟨-, -, -, -, -, -, rfl⟩ := h
      exact hw.configured (by simp [Log.created?])
  | setFeeRegistry sender newFeeRegistry =>
    rw [step]
    cases h : setFeeRegistry sender newFeeRegistry w with
    | error e => exact hw
    | ok w' =>
      simp only [setFeeRegistry, bind_eq_ok, pure_eq_ok] at h
      obtain ⟨-, -, rfl⟩ := h
      exact hw.configured (by simp [Log.created?])
  | transferOwnership sender newOwner =>
    rw [step]
    cases h : transferOwnership sender newOwner w with
    | error e => exact hw
    | ok w' =>
      simp only [transferOwnership, bind_eq_ok, pure_eq_ok] at h
      obtain ⟨-, -, -, -, rfl⟩ := h
      exact hw.configured rfl
  | renounceOwnership sender =>
    rw [step]
    cases h : renounceOwnership sender w with
    | error e => exact hw
    | ok w' =>
      simp only [renounceOwnership, bind_eq_ok, pure_eq_ok] at h
      obtain ⟨-, -, rfl⟩ := h
      exact hw.configured rfl
  -- code is never taken away
  | deploy contract =>
    refine ⟨hw.vaults, hw.nodup, hw.set, hw.logs, hw.checked, fun a ha => ?_, hw.standing⟩
    change Function.update w.code contract true a = true
    by_cases hne : a = contract
    · rw [hne, Function.update_self]
    · rw [Function.update_of_ne hne]
      exact hw.code a ha
  | vault vault tx => exact hw.changeProxy vault fun _ _ hof => hof.step tx
  | foreign proxy implementation => exact hw.changeProxy proxy fun _ _ hof => hof.replace implementation

/-- The factory is sound in every reachable state. -/
theorem run_sound (d : Deployment) (owner : Address) (code : Address → Bool) (ls : List Label) :
    Sound d (run (step d) (deployed owner code) ls) := by
  have hstart : Sound d (deployed owner code) := by
    refine ⟨rfl, List.nodup_nil, fun a => ?_, rfl, ?_, ?_, ?_⟩
    · simp [isRegisteredVault, deployed]
    · intro c hc
      cases hc
    · intro a ha
      cases ha
    · intro c hc
      cases hc
  exact run_invariant (I := Sound d) (fun w l hw _ => step_sound hw l) hstart (admitted_true _ _ ls)

theorem settled_vaults {r : Result FactoryError World} (h : ∀ w', r = .ok w' → w'.vaults = w.vaults) :
    (settled r w).vaults = w.vaults := by
  cases hr : r with
  | error e => rfl
  | ok w' => exact h w' hr

/-- The list of vaults only grows. -/
theorem step_vaults (d : Deployment) (w : World) (l : Label) : w.vaults <+: (step d w l).vaults := by
  cases l with
  -- only a creation that succeeds adds a vault
  | createVault answers c =>
    rw [step]
    cases h : createVault d answers c w with
    | error e => exact List.prefix_refl _
    | ok r =>
      obtain ⟨proxy, created, -, -, -, -, -, hr⟩ := createVault_ok h
      change w.vaults <+: r.1.vaults
      rw [hr]
      exact List.prefix_append _ _
  | setVaultImplementation sender newImplementation =>
    rw [step, settled_vaults]
    intro w' h
    simp only [setVaultImplementation, bind_eq_ok, pure_eq_ok] at h
    obtain ⟨-, -, -, -, -, -, rfl⟩ := h
    rfl
  | setFeeRegistry sender newFeeRegistry =>
    rw [step, settled_vaults]
    intro w' h
    simp only [setFeeRegistry, bind_eq_ok, pure_eq_ok] at h
    obtain ⟨-, -, rfl⟩ := h
    rfl
  | transferOwnership sender newOwner =>
    rw [step, settled_vaults]
    intro w' h
    simp only [transferOwnership, bind_eq_ok, pure_eq_ok] at h
    obtain ⟨-, -, -, -, rfl⟩ := h
    rfl
  | renounceOwnership sender =>
    rw [step, settled_vaults]
    intro w' h
    simp only [renounceOwnership, bind_eq_ok, pure_eq_ok] at h
    obtain ⟨-, -, rfl⟩ := h
    rfl
  | deploy contract => exact List.prefix_refl _
  | vault vault tx => exact List.prefix_refl _
  | foreign proxy implementation => exact List.prefix_refl _

/-- A vault that is registered stays registered. -/
theorem registered_stays (d : Deployment) (owner : Address) (code : Address → Bool)
    (ls ls' : List Label) {vault : Address}
    (h : isRegisteredVault vault (run (step d) (deployed owner code) ls) = true) :
    isRegisteredVault vault (run (step d) (deployed owner code) (ls ++ ls')) = true := by
  rw [(run_sound d owner code _).set] at h ⊢
  rw [run_append]
  exact run_invariant (I := fun w => vault ∈ w.vaults)
    (fun w l hmem _ => (step_vaults d w l).subset hmem) h (admitted_true _ _ ls')

/-- **The registry of vaults is sound.** After any run of transactions of the factory and of the vaults,
by anybody, the list, the set and the logs of the vaults agree without a vault twice, and every vault
created stands at its address as it was wired at its creation, if the implementation was the vault
contract. Whatever comes then, a registered vault stays registered. The actions that vaults execute
write a vault's storage only through the diffs that they return. -/
theorem registry_sound (d : Deployment) (owner : Address) (code : Address → Bool) (ls : List Label) :
    Sound d (run (step d) (deployed owner code) ls) ∧
      ∀ ls' vault, isRegisteredVault vault (run (step d) (deployed owner code) ls) = true →
        isRegisteredVault vault (run (step d) (deployed owner code) (ls ++ ls')) = true :=
  ⟨run_sound d owner code ls, fun ls' _ h => registered_stays d owner code ls ls' h⟩

end

/-! ## The addresses -/

/-- Two different strings with the same hash, of which so many bits are used. -/
def Collides (d : Deployment) (bits : Nat) (x y : Bytes) : Prop :=
  x ≠ y ∧ d.keccak256 x % 2 ^ bits = d.keccak256 y % 2 ^ bits

theorem toBytes_inj {len m n : Nat} (h : toBytes len m = toBytes len n) :
    m % 256 ^ len = n % 256 ^ len := by
  rw [← ofBytes_toBytes, ← ofBytes_toBytes, h]

theorem encodeWord_inj {m n : Nat} (hm : m < 2 ^ 256) (hn : n < 2 ^ 256)
    (h : encodeWord m = encodeWord n) : m = n := by
  have hmod := toBytes_inj h
  rwa [Nat.mod_eq_of_lt (lt_of_lt_of_eq hm (by decide)),
    Nat.mod_eq_of_lt (lt_of_lt_of_eq hn (by decide))] at hmod

/-- Addresses and words within their types. -/
structure CreateVault.WellFormed (c : CreateVault) : Prop where
  sender : c.sender.toNat < 2 ^ 160
  vaultOwner : c.vaultOwner.toNat < 2 ^ 160
  depositToken : c.depositToken.toNat < 2 ^ 160
  salt : c.salt < 2 ^ 256

theorem wordAddress_inj {a b : Address} (ha : a.toNat < 2 ^ 160) (hb : b.toNat < 2 ^ 160)
    (h : encodeWord a.toNat = encodeWord b.toNat) : a = b := by
  cases a
  cases b
  have hlt : (2 : Nat) ^ 160 < 2 ^ 256 := by decide
  exact congrArg Address.mk (encodeWord_inj (ha.trans hlt) (hb.trans hlt) h)

/-- An address is read back from its 20 bytes. -/
theorem packAddress_inj {a b : Address} (ha : a.toNat < 2 ^ 160) (hb : b.toNat < 2 ^ 160)
    (h : packAddress a = packAddress b) : a = b := by
  cases a
  cases b
  have hmod := toBytes_inj h
  rw [Nat.mod_eq_of_lt (lt_of_lt_of_eq ha (by decide)),
    Nat.mod_eq_of_lt (lt_of_lt_of_eq hb (by decide))] at hmod
  exact congrArg Address.mk hmod

/-- A word shows all bits of a hash. -/
theorem hashWord_inj {m n : Nat} (h : encodeWord m = encodeWord n) : m % 2 ^ 256 = n % 2 ^ 256 := by
  have hbits : (256 : Nat) ^ 32 = 2 ^ 256 := by decide
  rw [← hbits]
  exact toBytes_inj h

theorem saltInput_inj {c c' : CreateVault} (hc : c.WellFormed) (hc' : c'.WellFormed)
    (h : saltInput c = saltInput c') : c.sender = c'.sender ∧ c.salt = c'.salt := by
  obtain ⟨hsender, hsalt⟩ := List.append_inj h (by simp only [packAddress, length_toBytes])
  exact ⟨packAddress_inj hc.sender hc'.sender hsender, encodeWord_inj hc.salt hc'.salt hsalt⟩

/-- The arguments are read back from the call. -/
theorem initData_inj {c c' : CreateVault} {r r' : Address} (hc : c.WellFormed) (hc' : c'.WellFormed)
    (hr : r.toNat < 2 ^ 160) (hr' : r'.toNat < 2 ^ 160) (h : initData c r = initData c' r') :
    c.vaultOwner = c'.vaultOwner ∧ r = r' ∧ c.depositToken = c'.depositToken := by
  obtain ⟨-, h⟩ := List.append_inj h rfl
  obtain ⟨howner, h⟩ := List.append_inj h (by simp only [length_encodeWord])
  obtain ⟨hregistry, htoken⟩ := List.append_inj h (by simp only [length_encodeWord])
  exact ⟨wordAddress_inj hc.vaultOwner hc'.vaultOwner howner, wordAddress_inj hr hr' hregistry,
    wordAddress_inj hc.depositToken hc'.depositToken htoken⟩

/-- The implementation and the call are read back from the code. -/
theorem initCode_inj {d : Deployment} {i i' : Address} {data data' : Bytes} (hi : i.toNat < 2 ^ 160)
    (hi' : i'.toNat < 2 ^ 160) (hlength : data.length = data'.length)
    (h : initCode d i data = initCode d i' data') : i = i' ∧ data = data' := by
  have h := List.append_cancel_left h
  obtain ⟨himpl, h⟩ := List.append_inj h (by simp only [length_encodeWord])
  obtain ⟨-, h⟩ := List.append_inj h rfl
  obtain ⟨-, h⟩ := List.append_inj h (by simp only [length_encodeWord])
  exact ⟨wordAddress_inj hi hi' himpl, (List.append_inj h hlength).1⟩

/-- **A salt is bound to its caller.** Two creations, by whomever and under whatever implementation and
registry, have one address only if they agree in everything, the caller included, or if the hash collides
on two of the strings that they hash: with all of its bits on the salts and on the init codes, with the
bits of an address on what these hashes go into. -/
theorem create2_bound (d : Deployment) {c c' : CreateVault} {i i' r r' : Address}
    (hc : c.WellFormed) (hc' : c'.WellFormed) (hi : i.toNat < 2 ^ 160) (hi' : i'.toNat < 2 ^ 160)
    (hr : r.toNat < 2 ^ 160) (hr' : r'.toNat < 2 ^ 160)
    (h : create2Address d c i r = create2Address d c' i' r') :
    (c = c' ∧ i = i' ∧ r = r') ∨ Collides d 256 (saltInput c) (saltInput c') ∨
      Collides d 256 (initCode d i (initData c r)) (initCode d i' (initData c' r')) ∨
      Collides d 160 (create2Input d c i r) (create2Input d c' i' r') := by
  by_cases hinput : create2Input d c i r = create2Input d c' i' r'
  · obtain ⟨-, hrest⟩ := List.append_inj hinput rfl
    obtain ⟨-, hrest⟩ := List.append_inj hrest rfl
    obtain ⟨hsalt, hcode⟩ := List.append_inj hrest (by simp only [length_encodeWord])
    by_cases hsaltInput : saltInput c = saltInput c'
    · by_cases hinitCode : initCode d i (initData c r) = initCode d i' (initData c' r')
      · -- all that was hashed agrees, so the parameters do
        left
        obtain ⟨hsender, hsalt⟩ := saltInput_inj hc hc' hsaltInput
        obtain ⟨himpl, hdata⟩ := initCode_inj hi hi'
          (by simp only [initData, List.length_append, length_encodeWord]) hinitCode
        obtain ⟨howner, hregistry, htoken⟩ := initData_inj hc hc' hr hr' hdata
        refine ⟨?_, himpl, hregistry⟩
        cases c
        cases c'
        simp only at hsender hsalt howner htoken
        rw [hsender, hsalt, howner, htoken]
      · exact .inr (.inr (.inl ⟨hinitCode, hashWord_inj hcode⟩))
    · exact .inr (.inl ⟨hsaltInput, hashWord_inj hsalt⟩)
  · exact .inr (.inr (.inr ⟨hinput, congrArg Address.toNat h⟩))

/-- The first owner asks for a vault. -/
def sampleCreation : CreateVault := ⟨⟨1⟩, ⟨2⟩, Address.zero, 0⟩

/-- The hash on the strings of `sampleCreation`, with an empty creation code. -/
def sampleDeployment : Deployment where
  keccak256 b :=
    if b.length = 52 then 0xb9382d35273c75a50631a3e84d3c75ec9266e2b18c35a627e16cdbf26a18ca85
    else if b.length = 85 then 0x9f1b31013cb26832e1938181f65570f039caa75c913c819c0cad7f1b7aa1efc
    else 0x469931b260b58c1dd998bb635012af5595fc52b731d0be579189fcb2564c6ab0
  self := ⟨4⟩
  proxyCreationCode := []
  isVault := fun a => a = ⟨3⟩

theorem create2_bound_sample :
    (sampleCreation = sampleCreation ∧ (⟨3⟩ : Address) = ⟨3⟩ ∧ Address.zero = Address.zero) ∨
      Collides sampleDeployment 256 (saltInput sampleCreation) (saltInput sampleCreation) ∨
      Collides sampleDeployment 256
        (initCode sampleDeployment ⟨3⟩ (initData sampleCreation Address.zero))
        (initCode sampleDeployment ⟨3⟩ (initData sampleCreation Address.zero)) ∨
      Collides sampleDeployment 160 (create2Input sampleDeployment sampleCreation ⟨3⟩ Address.zero)
        (create2Input sampleDeployment sampleCreation ⟨3⟩ Address.zero) :=
  create2_bound sampleDeployment ⟨by decide, by decide, by decide, by decide⟩
    ⟨by decide, by decide, by decide, by decide⟩ (by decide) (by decide) (by decide) (by decide) rfl

end StrategyBuilder.Contracts.VaultFactory
