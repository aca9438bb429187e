import StrategyBuilder.Contracts.FeeRegistryCustody
import StrategyBuilder.Lib.Js
import StrategyBuilder.Lib.Toggles

/-!
# The accepted tokens

`fee.service.ts`: `getAcceptedTokens` rebuilds the tokens that the fee registry accepts from the logs
`TokenAdded` and `TokenRemoved` of the last 10 000 blocks, and asks every token contract for its name,
symbol and decimals. The chain is the model of the registry; a node keeps every log with its block.

The list mirrors the registry exactly if every accepted token was added once and never removed
(`accepted_tokens_iff`).
-/

set_option autoImplicit false

namespace StrategyBuilder.Backend.FeeService

open StrategyBuilder.Contracts
open StrategyBuilder.Contracts.FeeRegistry
open StrategyBuilder.Lib
open StrategyBuilder.Lib.Toggles
open StrategyBuilder.Lib.Transition

/-! ## The node -/

/-- A log with the block it is in. -/
structure MinedLog where
  blockNumber : Nat
  log : Log

/-- A chain as a node shows it: the state and all logs of the registry. -/
structure Node where
  world : World
  logs : List MinedLog

/-- A step taken in a block. -/
def Node.step (n : Node) (s : Nat × Label) : Node where
  world := FeeRegistry.step n.world s.2
  logs := n.logs ++ (emitted n.world s.2).map fun log => ⟨s.1, log⟩

/-- A node of a world without logs. -/
def Node.start (world : World) : Node := ⟨world, []⟩

/-! ## The service -/

/-- A token of the registry with what the service reads of its contract. -/
structure AcceptedToken where
  address : Address
  symbol : String
  name : String
  decimals : Nat
deriving DecidableEq, Repr

/-- What the token contracts answer; `none` is a call that fails. -/
structure TokenContracts where
  name : Address → Option String
  symbol : Address → Option String
  decimals : Address → Option Nat

/-- The tokens that were read, and until when they are served. -/
structure TokensCache where
  data : List AcceptedToken
  expiresAt : Nat

/-- `CACHE_TTL_MS` -/
def cacheTtlMs : Nat := 60 * 60 * 1000

/-- The block window of the logs that are read. -/
def scannedBlocks : Nat := 10000

/-- `args[0]` of a `TokenAdded`. -/
def tokenAdded? : Log → Option Address
  | .tokenAdded token _ => some token
  | _ => none

/-- `args[0]` of a `TokenRemoved`. -/
def tokenRemoved? : Log → Option Address
  | .tokenRemoved token => some token
  | _ => none

/-- `provider.getLogs` with the topic of one event, from a block on. -/
def getLogs (logs : List MinedLog) (event : Log → Option Address) (fromBlock : Nat) : List MinedLog :=
  logs.filter fun l => fromBlock ≤ l.blockNumber && (event l.log).isSome

/-- The tokens of the logs of one event, each by `iface.parseLog`. -/
def parseTokens (logs : List MinedLog) (event : Log → Option Address) : List Address :=
  logs.filterMap fun l => event l.log

/-- `activeTokenAddresses` -/
def activeTokenAddresses (addedLogs removedLogs : List MinedLog) : List Address :=
  (parseTokens addedLogs tokenAdded?).filter fun tokenAddr =>
    tokenAddr ∉ parseTokens removedLogs tokenRemoved?

/-- One element of the `Promise.all` over the tokens. -/
def readToken (contracts : TokenContracts) (addr : Address) : Option AcceptedToken := do
  let name ← contracts.name addr
  let symbol ← contracts.symbol addr
  let decimals ← contracts.decimals addr
  some { address := addr, symbol := symbol, name := name, decimals := decimals }

/-- `getAcceptedTokens`, with the cache after it; `none` where a read fails. `asked` and `answered` are
the two readings of the clock. -/
def getAcceptedTokens (logs : List MinedLog) (currentBlock : Nat) (contracts : TokenContracts)
    (asked answered : Nat) (tokensCache : Option TokensCache) :
    Option (List AcceptedToken) × Option TokensCache :=
  match tokensCache.filter fun c => asked < c.expiresAt with
  | some cache => (some cache.data, tokensCache)
  | none =>
      let fromBlock := currentBlock - scannedBlocks
      let addedLogs := getLogs logs tokenAdded? fromBlock
      let removedLogs := getLogs logs tokenRemoved? fromBlock
      match (activeTokenAddresses addedLogs removedLogs).mapM (readToken contracts) with
      -- one token that cannot be read fails them all, and nothing is cached
      | none => (none, tokensCache)
      | some tokens => (some tokens, some ⟨tokens, answered + cacheTtlMs⟩)

/-! ## The logs of the accepted tokens -/

/-- What a log changes about the accepted tokens. -/
def tokenChange : Log → Option (Address × Bool)
  | .tokenAdded token _ => some (token, true)
  | .tokenRemoved token => some (token, false)
  | _ => none

/-- The changes of the accepted tokens, in the order of the logs. -/
def changes (logs : List MinedLog) : List (Address × Bool) :=
  logs.filterMap fun l => tokenChange l.log

theorem changes_append (logs logs' : List MinedLog) :
    changes (logs ++ logs') = changes logs ++ changes logs' :=
  List.filterMap_append

theorem changes_mined (blockNumber : Nat) (logs : List Log) :
    changes (logs.map fun log => ⟨blockNumber, log⟩) = logs.filterMap tokenChange := by
  rw [changes, List.filterMap_map]
  rfl

/-- What a step does to the accepted tokens: nothing, or one change that it logs. -/
inductive TokenStep (w w' : World) (logs : List Log) : Prop where
  | same (hlogs : logs.filterMap tokenChange = [])
      (htokens : w'.registry.tokens = w.registry.tokens) : TokenStep w w' logs
  | change (token : Address) (on : Bool) (hlogs : logs.filterMap tokenChange = [(token, on)])
      (htokens : ∀ t, isAcceptedToken t w'.registry =
        if token = t then on else isAcceptedToken t w.registry) : TokenStep w w' logs

theorem isAcceptedToken_setToken (w : World) (token t : Address) (cfg : TokenConfig) :
    isAcceptedToken t (w.setToken token cfg).registry =
      if token = t then cfg.enabled else isAcceptedToken t w.registry := by
  by_cases h : token = t
  · subst h
    simp [isAcceptedToken, World.setToken]
  · simp [isAcceptedToken, World.setToken, h, Function.update_of_ne (Ne.symm h)]

/-- A step that appends logs without a change and keeps the tokens. -/
theorem TokenStep.of_logs {w w' : World} {logs : List Log} (h : w'.logs = w.logs ++ logs)
    (hlogs : logs.filterMap tokenChange = []) (htokens : w'.registry.tokens = w.registry.tokens) :
    TokenStep w w' (w'.logs.drop w.logs.length) := by
  refine .same ?_ htokens
  rw [h, List.drop_left, hlogs]

/-- A step that appends one log with a change. -/
theorem TokenStep.of_change {w w' : World} {log : Log} {token : Address} {on : Bool}
    (h : w'.logs = w.logs ++ [log]) (hlog : tokenChange log = some (token, on))
    (htokens : ∀ t, isAcceptedToken t w'.registry =
      if token = t then on else isAcceptedToken t w.registry) :
    TokenStep w w' (w'.logs.drop w.logs.length) := by
  refine .change token on ?_ htokens
  rw [h, List.drop_left, List.filterMap_cons, hlog]
  rfl

/-- A call that configures nothing logs a payment after its transfer, or nothing. -/
theorem effect_tokenStep {msg : Msg} {w w' : World} {op : Op} (h : Effect msg w op w')
    (hop : ¬ op.IsConfig) : TokenStep w w' (w'.logs.drop w.logs.length) := by
  cases h with
  | config hconfig _ _ => exact (hop hconfig).elim
  | withdrawFees _ _ => exact .of_logs (List.append_assoc _ [_] [_]) rfl rfl
  | depositFor _ _ => exact .of_logs (List.append_assoc _ [_] [_]) rfl rfl
  | withdrawDeposit _ _ => exact .of_logs (List.append_assoc _ [_] [_]) rfl rfl
  | collectFee _ => exact .of_logs (List.append_assoc _ [_] [_]) rfl rfl
  | deductGasComp _ _ => exact .of_logs (List.append_assoc _ [_] [_]) rfl rfl
  | nothing => exact .of_logs (List.append_nil _).symm rfl rfl

/-- A call changes the entries of tokens as its events say. -/
theorem call_tokenStep {msg : Msg} {w w' : World} {op : Op} (h : call msg w op = .ok w') :
    TokenStep w w' (w'.logs.drop w.logs.length) := by
  cases op with
  | addAcceptedToken token decimals =>
    simp only [call, addAcceptedToken, onlyOwner, bind_eq_ok, revertIf_eq_ok, pure_eq_ok] at h
    obtain ⟨-, -, -, -, rfl⟩ := h
    exact .of_change rfl rfl fun t => isAcceptedToken_setToken w token t _
  | removeAcceptedToken token =>
    simp only [call, removeAcceptedToken, onlyOwner, bind_eq_ok, revertIf_eq_ok, pure_eq_ok] at h
    obtain ⟨-, -, rfl⟩ := h
    exact .of_change rfl rfl fun t => isAcceptedToken_setToken w token t _
  | setDepositFeeBps bps =>
    simp only [call, setDepositFeeBps, onlyOwner, bind_eq_ok, revertIf_eq_ok, pure_eq_ok] at h
    obtain ⟨-, -, -, -, rfl⟩ := h
    exact .of_logs rfl rfl rfl
  | setWithdrawFeeBps bps =>
    simp only [call, setWithdrawFeeBps, onlyOwner, bind_eq_ok, revertIf_eq_ok, pure_eq_ok] at h
    obtain ⟨-, -, -, -, rfl⟩ := h
    exact .of_logs rfl rfl rfl
  | setGasConfig priceOracle nativeToken executorMarkupBps overhead maxGasPrice =>
    simp only [call, setGasConfig, onlyOwner, bind_eq_ok, revertIf_eq_ok, pure_eq_ok] at h
    obtain ⟨-, -, rfl⟩ := h
    exact .of_logs rfl rfl rfl
  | transferOwnership newOwner =>
    simp only [call, transferOwnership, onlyOwner, bind_eq_ok, revertIf_eq_ok, pure_eq_ok] at h
    obtain ⟨-, -, -, -, rfl⟩ := h
    exact .of_logs rfl rfl rfl
  | renounceOwnership =>
    simp only [call, renounceOwnership, onlyOwner, bind_eq_ok, revertIf_eq_ok, pure_eq_ok] at h
    obtain ⟨-, -, rfl⟩ := h
    exact .of_logs rfl rfl rfl
  -- what moves money keeps the tokens
  | withdrawFees token => exact effect_tokenStep (call_effect h) id
  | depositFor vault token n => exact effect_tokenStep (call_effect h) id
  | withdrawDeposit token amount => exact effect_tokenStep (call_effect h) id
  | collectFee token n => exact effect_tokenStep (call_effect h) id
  | deductGasComp token executor gasUsed => exact effect_tokenStep (call_effect h) id

/-- A step changes the entries of tokens as its events say. -/
theorem step_tokenStep (w : World) (l : Label) :
    TokenStep w (FeeRegistry.step w l) (emitted w l) := by
  rw [emitted]
  cases l with
  | call msg op =>
    rw [FeeRegistry.step, applyCall]
    split
    · rename_i w' h
      exact call_tokenStep h
    -- a call that reverts logs nothing
    · exact .of_logs (List.append_nil _).symm rfl rfl
  | transfer token sender recipient amount =>
    rw [FeeRegistry.step]
    split
    · exact .of_logs rfl rfl rfl
    · exact .of_logs (List.append_nil _).symm rfl rfl
  | approve token owner spender amount => exact .of_logs (List.append_nil _).symm rfl rfl
  | mint token recipient amount => exact .of_logs rfl rfl rfl

/-! ## The registry and its logs -/

/-- The registry accepts the tokens that its logs put in last. -/
def Node.Logged (n : Node) : Prop :=
  ∀ t, isAcceptedToken t n.world.registry = true ↔ Present t (changes n.logs)

theorem start_logged {w : World} {deployer : Address} (h : w.registry = Registry.deployed deployer) :
    (Node.start w).Logged := by
  intro t
  rw [Node.start, h]
  exact ⟨nofun, nofun⟩

/-- The logs of a node are those of its blocks. -/
theorem Node.step_logged {n : Node} (s : Nat × Label) (h : n.Logged) : (n.step s).Logged := by
  intro t
  rw [Node.step, changes_append, changes_mined]
  cases step_tokenStep n.world s.2 with
  | same hlogs htokens =>
    rw [hlogs, List.append_nil, isAcceptedToken, htokens]
    exact h t
  | change token on hlogs htokens =>
    -- one more event, which decides about its own token only
    rw [hlogs, present_concat, htokens t]
    by_cases heq : token = t
    · rw [if_pos heq, if_pos heq]
    · rw [if_neg heq, if_neg heq]
      exact h t

/-- After every run. -/
theorem run_logged {w : World} {deployer : Address} (h : w.registry = Registry.deployed deployer)
    (steps : List (Nat × Label)) : (run Node.step (.start w) steps).Logged :=
  run_invariant (fun _ s hn _ => Node.step_logged s hn) (start_logged h)
    (admitted_true Node.step _ steps)

/-! ## The list -/

/-- All logs about accepted tokens are in the window that is read. -/
def InWindow (currentBlock : Nat) (logs : List MinedLog) : Prop :=
  ∀ l ∈ logs, (tokenChange l.log).isSome → currentBlock - scannedBlocks ≤ l.blockNumber

/-- Of logs in the window every one is read. -/
theorem parseTokens_getLogs {event : Log → Option Address} {fromBlock : Nat} {logs : List MinedLog}
    (h : ∀ l ∈ logs, (event l.log).isSome → fromBlock ≤ l.blockNumber) :
    parseTokens (getLogs logs event fromBlock) event = parseTokens logs event := by
  induction logs with
  | nil => rfl
  | cons l logs ih =>
    have hrest := ih fun l' hl' => h l' (List.mem_cons_of_mem l hl')
    rw [parseTokens, getLogs] at hrest ⊢
    cases hl : event l.log with
    | none =>
      simp only [List.filter_cons, hl, Option.isSome_none, Bool.and_false, Bool.false_eq_true,
        if_false, parseTokens, List.filterMap_cons]
      exact hrest
    | some token =>
      have hblock := h l (List.mem_cons_self ..) (by rw [hl]; rfl)
      simp only [List.filter_cons, hl, Option.isSome_some, hblock, decide_true, Bool.and_true,
        if_true, parseTokens, List.filterMap_cons, List.cons.injEq, true_and]
      exact hrest

/-- The logs of one event are the changes of one kind. -/
theorem parseTokens_eq {event : Log → Option Address} {on : Bool}
    (hevent : ∀ l, event l = (tokenChange l).bind fun c => if c.2 = on then some c.1 else none)
    (logs : List MinedLog) : parseTokens logs event = having on (changes logs) := by
  induction logs with
  | nil => rfl
  | cons l logs ih =>
    rw [parseTokens, having, changes] at ih ⊢
    rw [List.filterMap_cons, List.filterMap_cons, hevent, ih]
    cases tokenChange l.log with
    | none => rfl
    | some c =>
      by_cases hc : c.2 = on
      · simp [hc]
      · simp [hc]

theorem tokenAdded?_eq (l : Log) :
    tokenAdded? l = (tokenChange l).bind fun c => if c.2 = true then some c.1 else none := by
  cases l <;> rfl

theorem tokenRemoved?_eq (l : Log) :
    tokenRemoved? l = (tokenChange l).bind fun c => if c.2 = false then some c.1 else none := by
  cases l <;> rfl

/-- The addresses that are asked for their metadata. -/
theorem activeTokenAddresses_eq {currentBlock : Nat} {logs : List MinedLog}
    (h : InWindow currentBlock logs) :
    activeTokenAddresses (getLogs logs tokenAdded? (currentBlock - scannedBlocks))
        (getLogs logs tokenRemoved? (currentBlock - scannedBlocks)) = listed (changes logs) := by
  have hadded : parseTokens (getLogs logs tokenAdded? (currentBlock - scannedBlocks)) tokenAdded? =
      having true (changes logs) := by
    rw [parseTokens_getLogs, parseTokens_eq tokenAdded?_eq]
    intro l hl hsome
    apply h l hl
    rw [tokenAdded?_eq] at hsome
    exact Option.isSome_of_isSome_bind hsome
  have hremoved : parseTokens (getLogs logs tokenRemoved? (currentBlock - scannedBlocks))
      tokenRemoved? = having false (changes logs) := by
    rw [parseTokens_getLogs, parseTokens_eq tokenRemoved?_eq]
    intro l hl hsome
    apply h l hl
    rw [tokenRemoved?_eq] at hsome
    exact Option.isSome_of_isSome_bind hsome
  rw [activeTokenAddresses, hadded, hremoved, listed]

/-! ## Reading the tokens -/

/-- The contract of a token answers all three calls. -/
def TokenContracts.Answers (contracts : TokenContracts) (addr : Address) : Prop :=
  (readToken contracts addr).isSome

theorem readToken_address {contracts : TokenContracts} {addr : Address} {token : AcceptedToken}
    (h : readToken contracts addr = some token) : token.address = addr := by
  rw [readToken] at h
  obtain ⟨name, -, h⟩ := Option.bind_eq_some_iff.1 h
  obtain ⟨symbol, -, h⟩ := Option.bind_eq_some_iff.1 h
  obtain ⟨decimals, -, h⟩ := Option.bind_eq_some_iff.1 h
  cases h
  rfl

/-- The answer has one token for each address, and every contract answered. -/
theorem of_readTokens {contracts : TokenContracts} {addrs : List Address} {tokens : List AcceptedToken}
    (h : addrs.mapM (readToken contracts) = some tokens) :
    tokens.map AcceptedToken.address = addrs ∧ ∀ addr ∈ addrs, contracts.Answers addr := by
  have hread := Js.mapM_eq_some.1 h
  constructor
  · have haddrs : List.Forall₂ (fun addr token => addr = token.address) addrs tokens :=
      hread.imp fun addr token h => (readToken_address h).symm
    rw [← List.forall₂_map_right_iff, List.forall₂_eq_eq_eq] at haddrs
    exact haddrs.symm
  · intro addr hmem
    obtain ⟨token, -, htoken⟩ := Js.forall₂_left hread hmem
    exact Option.isSome_iff_exists.2 ⟨token, htoken⟩

/-- Where every contract answers there is an answer. -/
theorem readTokens {contracts : TokenContracts} {addrs : List Address}
    (h : ∀ addr ∈ addrs, contracts.Answers addr) :
    ∃ tokens, addrs.mapM (readToken contracts) = some tokens :=
  Js.mapM_isSome.2 fun addr hmem => Option.isSome_iff_exists.1 (h addr hmem)

/-- Without a cached answer the list is read from the logs. -/
theorem getAcceptedTokens_eq {currentBlock asked : Nat} {logs : List MinedLog}
    {tokensCache : Option TokensCache} (hwindow : InWindow currentBlock logs)
    (hcache : ∀ c ∈ tokensCache, c.expiresAt ≤ asked) (contracts : TokenContracts) (answered : Nat) :
    (getAcceptedTokens logs currentBlock contracts asked answered tokensCache).1 =
      (listed (changes logs)).mapM (readToken contracts) := by
  have hnone : (tokensCache.filter fun c => asked < c.expiresAt) = none := by
    rw [Option.filter_eq_none_iff]
    intro c hc
    simpa using hcache c hc
  simp only [getAcceptedTokens, hnone, activeTokenAddresses_eq hwindow]
  cases (listed (changes logs)).mapM (readToken contracts) with
  | none => rfl
  | some tokens => rfl

/-- The answer lists the tokens that the registry accepts, each once, and no other. -/
def Mirrors (answer : Option (List AcceptedToken)) (r : Registry) : Prop :=
  ∃ tokens, answer = some tokens ∧ (tokens.map AcceptedToken.address).Nodup ∧
    ∀ t, t ∈ tokens.map AcceptedToken.address ↔ isAcceptedToken t r = true

/-- **The list mirrors the registry**, after every run whose logs are in the window, exactly if every
accepted token was added once, was never removed and answers for its metadata. -/
theorem accepted_tokens_iff {w : World} {deployer : Address}
    (hdeployed : w.registry = Registry.deployed deployer) (steps : List (Nat × Label))
    (currentBlock : Nat) (hwindow : InWindow currentBlock (run Node.step (.start w) steps).logs)
    (contracts : TokenContracts) (asked answered : Nat) (tokensCache : Option TokensCache)
    (hcache : ∀ c ∈ tokensCache, c.expiresAt ≤ asked) :
    Mirrors (getAcceptedTokens (run Node.step (.start w) steps).logs currentBlock contracts asked
        answered tokensCache).1 (run Node.step (.start w) steps).world.registry ↔
      ∀ t, isAcceptedToken t (run Node.step (.start w) steps).world.registry = true →
        history t (changes (run Node.step (.start w) steps).logs) = [true] ∧ contracts.Answers t := by
  have hlogged := run_logged hdeployed steps
  -- from here on only the last state and its logs matter
  generalize run Node.step (.start w) steps = n at hwindow hlogged ⊢
  rw [getAcceptedTokens_eq hwindow hcache]
  have hlisted := listed_iff (changes n.logs)
  constructor
  -- an answer has the addresses of the list, so the list is the set of the logs
  · rintro ⟨tokens, htokens, hnodup, hiff⟩ t ht
    obtain ⟨haddrs, hanswers⟩ := of_readTokens htokens
    rw [haddrs] at hnodup hiff
    exact ⟨hlisted.1 ⟨hnodup, fun a => (hiff a).trans (hlogged a)⟩ t ((hlogged t).1 ht),
      hanswers t ((hiff t).2 ht)⟩
  · intro h
    obtain ⟨hnodup, hiff⟩ := hlisted.2 fun a ha => (h a ((hlogged a).2 ha)).1
    have hanswers : ∀ a ∈ listed (changes n.logs), contracts.Answers a :=
      fun a ha => (h a ((hlogged a).2 ((hiff a).1 ha))).2
    obtain ⟨tokens, htokens⟩ := readTokens hanswers
    have haddrs := (of_readTokens htokens).1
    refine ⟨tokens, htokens, ?_, fun a => ?_⟩
    · rw [haddrs]
      exact hnodup
    · rw [haddrs, hiff, hlogged]

section Sample

/-- One token contract that answers. -/
def sampleContracts : TokenContracts where
  name t := if t = ⟨4⟩ then some "Tether USD" else none
  symbol t := if t = ⟨4⟩ then some "USDT" else none
  decimals t := if t = ⟨4⟩ then some 6 else none

/-- The owner adds the token 4 in block 90. -/
def sampleAdd : List (Nat × Label) := [(90, .call (sampleMsg 2) (.addAcceptedToken ⟨4⟩ 6))]

/-- The owner removes the token 4 in block 91 and adds it again in block 92. -/
def sampleReadd : List (Nat × Label) :=
  sampleAdd ++ [(91, .call (sampleMsg 2) (.removeAcceptedToken ⟨4⟩)),
    (92, .call (sampleMsg 2) (.addAcceptedToken ⟨4⟩ 6))]

end Sample

/-- A token that was added once. -/
theorem accepted_tokens_sample :
    Mirrors (getAcceptedTokens (run Node.step (.start sampleWorld) sampleAdd).logs 100 sampleContracts
      0 1 none).1 (run Node.step (.start sampleWorld) sampleAdd).world.registry := by
  have hdeployed : sampleWorld.registry = Registry.deployed ⟨2⟩ := rfl
  refine (accepted_tokens_iff hdeployed sampleAdd 100 ?_ sampleContracts 0 1 none nofun).2 ?_
  · exact fun l _ _ => (show 100 - scannedBlocks = 0 by decide) ▸ Nat.zero_le _
  · intro t ht
    change isAcceptedToken t (sampleWorld.setToken ⟨4⟩ ⟨true, 6⟩).registry = true at ht
    rw [isAcceptedToken_setToken] at ht
    split at ht
    · rename_i heq
      subst heq
      exact ⟨by decide, rfl⟩
    · cases ht

/-- A token that was removed and added again is accepted and not listed. -/
theorem readded_token_missing :
    InWindow 100 (run Node.step (.start sampleWorld) sampleReadd).logs ∧
      isAcceptedToken ⟨4⟩ (run Node.step (.start sampleWorld) sampleReadd).world.registry = true ∧
      ¬ Mirrors (getAcceptedTokens (run Node.step (.start sampleWorld) sampleReadd).logs 100
        sampleContracts 0 1 none).1
        (run Node.step (.start sampleWorld) sampleReadd).world.registry := by
  refine ⟨fun l _ _ => (show 100 - scannedBlocks = 0 by decide) ▸ Nat.zero_le _, by decide, ?_⟩
  rintro ⟨tokens, htokens, -, hiff⟩
  have hempty : (getAcceptedTokens (run Node.step (.start sampleWorld) sampleReadd).logs 100
      sampleContracts 0 1 none).1 = some [] := by decide
  rw [hempty] at htokens
  cases htokens
  exact absurd ((hiff ⟨4⟩).2 (by decide)) (List.not_mem_nil)

end StrategyBuilder.Backend.FeeService
