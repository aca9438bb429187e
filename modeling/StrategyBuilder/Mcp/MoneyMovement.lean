import StrategyBuilder.Lib.Double
import StrategyBuilder.Mcp.PolicyGate
import StrategyBuilder.Shared.AmountRoundTrip

/-!
# Moving money

The tools `deposit` and `withdraw` of `money-movement.ts`, with the checks of `token-utils.ts` and what
`config.ts` makes of the environment variables. The amount is checked, shown and converted apart, each
time from its text; the allowlist and the maxima are read in lower case, which is that of ASCII here:
what the tools take for an address has no other letters.

`money_within_policy`: whatever is answered, the chain is only called for a vault of the owner, with an
approval that shows the amount, for exactly that amount and at most the maximum of the token, and a
withdrawal only to an allowed recipient.
-/

set_option autoImplicit false

namespace StrategyBuilder.Mcp.MoneyMovement

open StrategyBuilder.Lib
open StrategyBuilder.Lib.Js
open StrategyBuilder.Shared

/-! ## The configuration -/

/-- The environment variables that the tools depend on. -/
structure MoneyEnv where
  readOnly : Option String
  addressAllowlist : Option String
  maxAmountPerToken : Option String

/-- What stands in the variable before, between and behind the commas. -/
def entriesOf (value : Option String) : List (List Char) := (value.getD "").toList.splitOn ','

/-- An entry `address:amount`. -/
def tokenAmount (entry : List Char) : Option (String × String) :=
  match (entry.splitOn ':').map trim with
  | addr :: amount :: _ =>
      if addr ≠ [] ∧ amount ≠ [] then some (String.ofList addr, String.ofList amount) else none
  | _ => none

/-- The entries of the variable that have a token and an amount. -/
def tokenAmounts (value : Option String) : List (String × String) :=
  (entriesOf value).filterMap tokenAmount

/-- `parseTokenAmounts`: the last entry of a token counts. -/
def parseTokenAmounts (value : Option String) : Map String String :=
  Map.ofEntries ((tokenAmounts value).map fun e => (e.1.toLower, e.2))

/-- `parseList`: the entries, trimmed; empty ones are left out. -/
def parseList (value : Option String) : List String :=
  (((entriesOf value).map trim).filter fun s => 0 < s.length).map String.ofList

/-- Who may receive, and how much of a token may be moved. -/
structure MoneyConfig where
  /-- Lower case. -/
  addressAllowlist : List String
  /-- By the address in lower case. -/
  maxPerToken : Map String String

/-- The configuration of the tools; the owner may always receive. -/
def moneyConfig (env : MoneyEnv) (ownerAddress : String) : MoneyConfig where
  addressAllowlist :=
    ownerAddress.toLower :: (parseList env.addressAllowlist).map String.toLower
  maxPerToken := parseTokenAmounts env.maxAmountPerToken

/-- The configuration of the gate. -/
def policyConfig (env : MoneyEnv) : PolicyConfig where
  readOnly := env.readOnly = some "true"

/-! ## The checks -/

/-- `new Error(message)` -/
def failure {α : Type} (message : String) : Except Thrown α := .error (.error "Error" message)

/-- The entry of the token, or what the table inherits under its name. -/
def decimalsOf (tokenDecimals : Record JsNumber) (token : String) :
    Except Thrown (Property JsNumber) :=
  match tokenDecimals.get token.toLower with
  | .undefined => failure ("Nicht-kuratierter Token " ++ token ++
      " (unbekannte Decimals) — bitte einen akzeptierten Token wählen.")
  | d => .ok d

/-- `toBaseUnits` with its check of the decimals. -/
def baseUnits (value token : String) (decimals : Property JsNumber) : Except Thrown String :=
  match decimals with
  | .own x =>
      match x.integer? with
      | some n =>
          if n < 0 then
            failure ("decimals must be a non-negative integer, got: " ++ numberToString x)
          else (Shared.toBaseUnits value n.toNat).mapError (Thrown.error "Error")
      | none => failure ("decimals must be a non-negative integer, got: " ++ numberToString x)
  | _ => failure ("decimals must be a non-negative integer, got: " ++ Record.inheritedText token.toLower)

/-- `BigInt(s)` -/
def bigInt (s : String) : Except Thrown Int :=
  match stringToBigInt s with
  | some n => .ok n
  | none => .error (.error "SyntaxError" ("Cannot convert " ++ s ++ " to a BigInt"))

/-- `checkMax`: both amounts in base units; a token without an entry has no bound. -/
def checkMax (maxPerToken : Map String String) (token amount : String)
    (decimals : Property JsNumber) : Except Thrown Unit :=
  match maxPerToken token.toLower with
  | none => .ok ()
  | some max => do
      let base ← baseUnits amount token decimals
      let n ← bigInt base
      let limitBase ← baseUnits max token decimals
      let limit ← bigInt limitBase
      -- the limit itself is allowed
      if limit < n then
        failure ("Betrag " ++ amount ++ " übersteigt das konfigurierte Max-Limit " ++ max ++
          " für diesen Token — abgelehnt (separate Freigabe nötig).")
      else .ok ()

/-! ## The tools -/

/-- The arguments of the deposit on the chain. -/
structure DepositArgs where
  vault : String
  token : String
  amountBase : String
deriving DecidableEq, Repr

/-- The arguments of the withdrawal on the chain. -/
structure WithdrawArgs where
  vault : String
  token : String
  amountBase : String
  recipient : String
deriving DecidableEq, Repr

/-- The awaits of the tools. -/
inductive MoneyCall where
  | assertVault (vault : String)
  /-- `backend.get('/fees')` -/
  | getFees
  | record (entry : AuditEntry)
  | requestApproval (req : ConfirmationRequest)
  | depositOnChain (a : DepositArgs)
  | withdrawOnChain (a : WithdrawArgs)

/-- The fees are what the answer is as JSON; a transaction returns its hash. -/
abbrev MoneyCall.Reply : MoneyCall → Type
  | .getFees => JsValue
  | .requestApproval _ => Bool
  | .depositOnChain _ => String
  | .withdrawOnChain _ => String
  | _ => Unit

/-- A tool that moves money, with its calls. -/
abbrev MoneyProgram := Program MoneyCall MoneyCall.Reply Thrown

/-- The calls of a tool with their answers. -/
abbrev MoneyHistory := List (Answered MoneyCall MoneyCall.Reply Thrown)

/-- What the tools are given. -/
structure MoneyDeps where
  policy : PolicyConfig
  /-- By the address in lower case. -/
  tokenDecimals : Record JsNumber
  config : MoneyConfig

/-- What the server gives the tools. -/
def moneyDepsBase (env : MoneyEnv) (ownerAddress : String) (tokenDecimals : Record JsNumber) :
    MoneyDeps where
  policy := policyConfig env
  tokenDecimals := tokenDecimals
  config := moneyConfig env ownerAddress

/-- The answer of the tools. -/
structure TxResult where
  txHash : String
deriving DecidableEq, Repr

/-- The gate in front of the tools. -/
def gate (policy : PolicyConfig) : PolicyGate MoneyCall MoneyCall.Reply where
  config := policy
  requestApproval req := Program.call (MoneyCall.requestApproval req)
  record entry := Program.call (MoneyCall.record entry)

/-- `value[name]`, for a name that nothing inherits. -/
def property (value : JsValue) (name : String) : Except Thrown JsValue :=
  match value with
  | .undefined => .error (.error "TypeError"
      ("Cannot read properties of undefined (reading '" ++ name ++ "')"))
  | .null => .error (.error "TypeError"
      ("Cannot read properties of null (reading '" ++ name ++ "')"))
  | .object fields => .ok ((Record.own? fields name).getD .undefined)
  | _ => .ok .undefined

/-- Which of the two fees. -/
inductive FeeKind where
  | deposit
  | withdraw
deriving DecidableEq, Repr

/-- The field of the answer that has the fee. -/
def FeeKind.field : FeeKind → String
  | .deposit => "depositFeeBps"
  | .withdraw => "withdrawFeeBps"

/-- The line of the fee, which no failure stops. -/
def feeLine (kind : FeeKind) : MoneyProgram String :=
  tryCatch (do
    let fees ← Program.call MoneyCall.getFees
    let bps ← Program.done (property fees kind.field)
    return "Gebühr " ++ valueToString bps ++ " BPS (" ++
      ((doubleNumber bps).div (.ofInt 100)).toFixed 2 ++ " %)") fun _ => pure "Gebühr unbekannt"

/-- The arguments of the tool. -/
structure DepositParams where
  vault : String
  token : String
  amount : String

/-- The arguments of the tool. -/
structure WithdrawParams where
  vault : String
  token : String
  amount : String
  recipient : String

/-- The action that a deposit passes to the gate. -/
def depositAction (params : DepositParams) (fee : String) : GuardedAction where
  tool := "deposit"
  sensitive := true
  summary := "Einzahlung: " ++ params.amount ++ " (Token " ++ params.token ++ ") in Vault " ++
    params.vault ++ ". " ++
    "Kann eine einmalige ERC20-Freigabe (bis maxUint256) an den Vault auslösen. " ++ fee ++ "."
  details := [("vault", .str params.vault), ("token", .str params.token),
    ("amount", .str params.amount)]

/-- The withdrawal that has to be approved. -/
def withdrawAction (params : WithdrawParams) (fee : String) : GuardedAction where
  tool := "withdraw"
  sensitive := true
  summary := "Auszahlung: " ++ params.amount ++ " (Token " ++ params.token ++ ") → " ++
    params.recipient ++ " aus Vault " ++ params.vault ++ ". " ++ fee ++ "."
  details := [("vault", .str params.vault), ("token", .str params.token),
    ("amount", .str params.amount), ("recipient", .str params.recipient)]

/-- What the gate runs. -/
def sent (send : MoneyProgram String) : MoneyProgram (GuardExecuteResult TxResult) := do
  let txHash ← send
  return { result := ⟨txHash⟩, txHash := some txHash }

/-- `deposit`: the vault, the decimals and the bound are checked before the gate. -/
def deposit (deps : MoneyDeps) (params : DepositParams) : MoneyProgram TxResult := do
  Program.call (MoneyCall.assertVault params.vault)
  let decimals ← Program.done (decimalsOf deps.tokenDecimals params.token)
  Program.done (checkMax deps.config.maxPerToken params.token params.amount decimals)
  let amountBase ← Program.done (baseUnits params.amount params.token decimals)
  let fee ← feeLine .deposit
  (gate deps.policy).guard (depositAction params fee)
    (sent (Program.call (MoneyCall.depositOnChain ⟨params.vault, params.token, amountBase⟩)))

/-- The check of the recipient. -/
def checkRecipient (config : MoneyConfig) (recipient : String) : Except Thrown Unit :=
  if recipient.toLower ∈ config.addressAllowlist then .ok ()
  else failure ("Withdraw-Empfänger " ++ recipient ++
    " ist nicht in der Adress-Allowlist — abgelehnt.")

/-- `withdraw`: the recipient is checked as well. -/
def withdraw (deps : MoneyDeps) (params : WithdrawParams) : MoneyProgram TxResult := do
  Program.call (MoneyCall.assertVault params.vault)
  let decimals ← Program.done (decimalsOf deps.tokenDecimals params.token)
  Program.done (checkMax deps.config.maxPerToken params.token params.amount decimals)
  Program.done (checkRecipient deps.config params.recipient)
  let amountBase ← Program.done (baseUnits params.amount params.token decimals)
  let fee ← feeLine .withdraw
  (gate deps.policy).guard (withdrawAction params fee)
    (sent (Program.call
      (MoneyCall.withdrawOnChain ⟨params.vault, params.token, amountBase, params.recipient⟩)))

/-! ## What is promised -/

/-- Spelled alike but for the case. -/
def SameAddress (a b : String) : Prop := a.toLower = b.toLower

instance (a b : String) : Decidable (SameAddress a b) :=
  inferInstanceAs (Decidable (a.toLower = b.toLower))

/-- The maximum that the variable gives the token; of several entries the last one. -/
def configuredMax (env : MoneyEnv) (token : String) : Option String :=
  (((tokenAmounts env.maxAmountPerToken).filter fun e => SameAddress e.1 token).getLast?).map Prod.snd

/-- The owner, or one of the list. -/
def OnAllowlist (env : MoneyEnv) (ownerAddress recipient : String) : Prop :=
  SameAddress recipient ownerAddress ∨ ∃ entry ∈ parseList env.addressAllowlist,
    SameAddress recipient entry

/-- The base units `n` of a text that denotes `a`, within the maximum of the token. -/
structure ExactAmount (deps : MoneyDeps) (token amount amountBase : String) (decimals n : Nat)
    (a : DecimalText) : Prop where
  known : deps.tokenDecimals.get token.toLower = .own (.ofInt decimals)
  shown : a.Trims amount
  base : amountBase = toString n
  units : (n : Rat) = a.value * 10 ^ decimals
  within : ∀ max, deps.config.maxPerToken token.toLower = some max →
    ∃ m : DecimalText, m.Trims max ∧ a.value ≤ m.value

/-- What holds of an amount that goes to the chain, where `h` are the answers before. -/
structure Cleared (deps : MoneyDeps) (vault token amount amountBase : String)
    (action : String → GuardedAction) (h : MoneyHistory) : Prop where
  owned : ⟨.assertVault vault, .ok ()⟩ ∈ h
  writable : deps.policy.readOnly = false
  approved : ∃ fee, ⟨.requestApproval (action fee).request, .ok true⟩ ∈ h
  amount : ∃ decimals n a, ExactAmount deps token amount amountBase decimals n a

/-- What the calls of `deposit` keep to. -/
def DepositKeeps (deps : MoneyDeps) (params : DepositParams) (h : MoneyHistory) : MoneyCall → Prop
  | .depositOnChain a => a.vault = params.vault ∧ a.token = params.token ∧
      Cleared deps params.vault params.token params.amount a.amountBase (depositAction params) h
  | .withdrawOnChain _ => False
  | _ => True

/-- What the calls of `withdraw` keep to. -/
def WithdrawKeeps (deps : MoneyDeps) (params : WithdrawParams) (h : MoneyHistory) : MoneyCall → Prop
  | .withdrawOnChain a => a.vault = params.vault ∧ a.token = params.token ∧
      a.recipient = params.recipient ∧ params.recipient.toLower ∈ deps.config.addressAllowlist ∧
      Cleared deps params.vault params.token params.amount a.amountBase (withdrawAction params) h
  | .depositOnChain _ => False
  | _ => True

/-! ## The configuration is read without regard to case -/

/-- The bound is the one of the environment. -/
theorem maxPerToken_eq (env : MoneyEnv) (ownerAddress token : String) :
    (moneyConfig env ownerAddress).maxPerToken token.toLower = configuredMax env token := by
  change Map.ofEntries _ _ = _
  rw [Map.ofEntries_apply, List.filter_map, List.getLast?_map, Option.map_map]
  rfl

/-- The list has the owner and the addresses of the environment. -/
theorem mem_addressAllowlist {env : MoneyEnv} {ownerAddress recipient : String} :
    recipient.toLower ∈ (moneyConfig env ownerAddress).addressAllowlist ↔
      OnAllowlist env ownerAddress recipient := by
  change recipient.toLower ∈ _ :: _ ↔ _
  rw [List.mem_cons, List.mem_map]
  constructor
  · rintro (howner | ⟨entry, hentry, heq⟩)
    · exact Or.inl howner
    · exact Or.inr ⟨entry, hentry, heq.symm⟩
  · rintro (howner | ⟨entry, hentry, heq⟩)
    · exact Or.inl howner
    · exact Or.inr ⟨entry, hentry, heq.symm⟩

/-! ## The checks -/

section Checks

variable {deps : MoneyDeps} {token amount base : String} {d : Property JsNumber}

theorem mapError_ok {ε ε' α : Type} {f : ε → ε'} {r : Except ε α} {x : α}
    (h : r.mapError f = .ok x) : r = .ok x := by
  cases r with
  | ok y => exact congrArg Except.ok (Except.ok.inj h)
  | error e => cases h

/-- What converts has decimals, and is a decimal text with its value in base units. -/
theorem baseUnits_ok (h : baseUnits amount token d = .ok base) :
    ∃ decimals n : Nat, ∃ a : DecimalText, d = .own (.ofInt decimals) ∧ a.Trims amount ∧
      base = toString n ∧ (n : Rat) = a.value * 10 ^ decimals := by
  cases d with
  | inherited => cases h
  | undefined => cases h
  | own x =>
    cases hx : x.integer? with
    | none =>
      simp only [baseUnits, hx] at h
      cases h
    | some k =>
      simp only [baseUnits, hx] at h
      split at h
      · cases h
      · -- only a natural number of decimals converts
        rename_i hnonneg
        have hk : (k.toNat : Int) = k := Int.toNat_of_nonneg (Int.not_lt.1 hnonneg)
        obtain ⟨a, ha, -, n, hn, hvalue⟩ := DecimalText.toBaseUnits_ok_iff.1 (mapError_ok h)
        refine ⟨k.toNat, n, a, ?_, ha, hn, hvalue⟩
        rw [hk, ← JsNumber.eq_ofInt hx]

theorem baseUnits_eq {decimals : Nat}
    (h : Shared.toBaseUnits amount decimals = .ok base) :
    baseUnits amount token (.own (.ofInt decimals)) = .ok base := by
  simp only [baseUnits, JsNumber.integer?_ofInt, Int.toNat_natCast, h]
  exact if_neg (Int.not_lt.2 (Int.natCast_nonneg decimals))

theorem bigInt_toString (n : Nat) : bigInt (toString n) = .ok n := by
  rw [bigInt, stringToBigInt_toString]

theorem own_ofInt_injective {m n : Nat}
    (h : Property.own (JsNumber.ofInt m) = Property.own (JsNumber.ofInt n)) : m = n :=
  Int.natCast_inj.1 (JsNumber.ofInt_injective (Property.own.inj h))

/-- The comparison of the base units is that of the values. -/
theorem value_le_of_units_le {a m : DecimalText} {decimals n k : Nat}
    (hn : (n : Rat) = a.value * 10 ^ decimals) (hk : (k : Rat) = m.value * 10 ^ decimals)
    (hle : n ≤ k) : a.value ≤ m.value := by
  have hpow : (0 : Rat) < 10 ^ decimals := by positivity
  have hunits : (n : Rat) ≤ k := Nat.cast_le.2 hle
  rw [hn, hk] at hunits
  exact le_of_mul_le_mul_right hunits hpow

/-- The check compares the base units. -/
theorem checkMax_ok_iff {maxPerToken : Map String String} {max : String} {n limit : Nat}
    (hmax : maxPerToken token.toLower = some max) (hbase : baseUnits amount token d = .ok (toString n))
    (hlimit : baseUnits max token d = .ok (toString limit)) :
    checkMax maxPerToken token amount d = .ok () ↔ n ≤ limit := by
  simp only [checkMax, hmax, hbase, hlimit, bind, Except.bind, bigInt_toString]
  split
  · rename_i hlt
    constructor
    · intro h
      cases h
    · intro hle
      exact absurd (Int.ofNat_le.2 hle) (Int.not_le.2 hlt)
  · rename_i hle
    exact ⟨fun _ => Int.ofNat_le.1 (Int.not_lt.1 hle), fun _ => rfl⟩

/-- What passes the check and converts is at most the maximum of the token. -/
theorem checkMax_within {maxPerToken : Map String String} {max : String} {decimals n : Nat}
    {a : DecimalText} (hmax : maxPerToken token.toLower = some max)
    (hbase : baseUnits amount token (.own (.ofInt decimals)) = .ok (toString n))
    (hvalue : (n : Rat) = a.value * 10 ^ decimals)
    (h : checkMax maxPerToken token amount (.own (.ofInt decimals)) = .ok ()) :
    ∃ m : DecimalText, m.Trims max ∧ a.value ≤ m.value := by
  cases hlimit : baseUnits max token (.own (.ofInt decimals)) with
  | error e =>
    -- a maximum that does not convert refuses every amount
    simp only [checkMax, hmax, hbase, hlimit, bind, Except.bind, bigInt_toString] at h
    cases h
  | ok limit =>
    obtain ⟨decimals', k, m, hdecimals, hm, rfl, hk⟩ := baseUnits_ok hlimit
    obtain rfl : decimals = decimals' := own_ofInt_injective hdecimals
    have hle : n ≤ k := (checkMax_ok_iff hmax hbase hlimit).1 h
    exact ⟨m, hm, value_le_of_units_le hvalue hk hle⟩

/-- The decimals are those of the token in lower case. -/
theorem decimalsOf_ok (h : decimalsOf deps.tokenDecimals token = .ok d) :
    deps.tokenDecimals.get token.toLower = d := by
  unfold decimalsOf at h
  split at h
  · cases h
  · exact Except.ok.inj h

/-- The checks of both tools make the amount exact. -/
theorem exactAmount (hd : decimalsOf deps.tokenDecimals token = .ok d)
    (hmax : checkMax deps.config.maxPerToken token amount d = .ok ())
    (hbase : baseUnits amount token d = .ok base) :
    ∃ decimals n a, ExactAmount deps token amount base decimals n a := by
  obtain ⟨decimals, n, a, rfl, ha, rfl, hvalue⟩ := baseUnits_ok hbase
  exact ⟨decimals, n, a, {
    known := decimalsOf_ok hd
    shown := ha
    base := rfl
    units := hvalue
    within := fun max h => checkMax_within h hbase hvalue hmax }⟩

end Checks

/-! ## The programs -/

section Programs

variable {P : MoneyHistory → MoneyCall → Prop} {deps : MoneyDeps} {vault : String}

/-- The vault is known to be one of the owner. -/
def Owned (vault : String) (h : MoneyHistory) : Prop := ⟨.assertVault vault, .ok ()⟩ ∈ h

/-- The fee line never throws, whatever the backend answers. -/
theorem feeLine_keeps (hfees : ∀ h, P h .getFees) (kind : FeeKind) {h : MoneyHistory}
    (howned : Owned vault h) :
    (feeLine kind).Always P (fun h' r => Owned vault h' ∧ ∃ fee, r = .ok fee) h := by
  apply Program.Always.tryCatch (S := fun h' _ => Owned vault h')
  · apply Program.Always.call_bind (hfees h)
    · intro fees
      have howned' : Owned vault (h ++ [⟨.getFees, .ok fees⟩]) := List.mem_append_left _ howned
      apply Program.Always.done_bind
      · intro bps _
        exact Program.Always.pure howned'
      · intro e _
        exact howned'
    · intro e
      exact List.mem_append_left _ howned
  · intro h' line howned'
    exact ⟨howned', line, rfl⟩
  · intro h' e howned'
    exact Program.Always.pure ⟨howned', _, rfl⟩

/-- Behind the gate there is an approval of the action. -/
theorem guard_keeps (hrecord : ∀ h entry, P h (.record entry))
    (happroval : ∀ h req, P h (.requestApproval req)) {action : GuardedAction}
    (hsensitive : action.sensitive = true) {send : MoneyProgram String}
    (hsend : ∀ h, Owned vault h → deps.policy.readOnly = false →
      ⟨.requestApproval action.request, .ok true⟩ ∈ h → send.Always P (fun _ _ => True) h)
    {h : MoneyHistory} (howned : Owned vault h) :
    ((gate deps.policy).guard action (sent send)).Always P (fun _ _ => True) h := by
  apply Always.guard (Owned vault) (fun h => ⟨.requestApproval action.request, .ok true⟩ ∈ h)
  -- an audit entry before the action takes nothing back
  · intro entry h _ howned
    apply Program.Always.call (hrecord h entry)
    intro r
    exact ⟨List.mem_append_left _ howned, List.mem_append_left _⟩
  · intro h howned
    apply Program.Always.call (happroval h _)
    intro r
    refine ⟨List.mem_append_left _ howned, ?_⟩
    -- an approval that is granted is the last answer so far
    rintro rfl
    exact List.mem_append_right _ (List.mem_singleton_self _)
  · intro h howned hwritable hgranted
    apply Program.Always.bind (hsend h howned hwritable (hgranted hsensitive))
    · intro h' txHash _
      trivial
    · intro h' e _
      trivial
  · intro entry h
    exact Program.Always.call (hrecord h entry) fun _ => trivial
  · exact howned

/-- What both tools end with: the fee is read, and the gate passed. -/
theorem approval_keeps (hfees : ∀ h, P h .getFees) (hrecord : ∀ h entry, P h (.record entry))
    (happroval : ∀ h req, P h (.requestApproval req)) (kind : FeeKind)
    {action : String → GuardedAction} (hsensitive : ∀ fee, (action fee).sensitive = true)
    {send : MoneyProgram String}
    (hsend : ∀ h, Owned vault h → deps.policy.readOnly = false →
      (∃ fee, ⟨.requestApproval (action fee).request, .ok true⟩ ∈ h) →
        send.Always P (fun _ _ => True) h)
    {h : MoneyHistory} (howned : Owned vault h) :
    (feeLine kind >>= fun fee => (gate deps.policy).guard (action fee) (sent send)).Always P
      (fun _ _ => True) h := by
  apply Program.Always.bind (feeLine_keeps hfees kind howned)
  · rintro h' fee ⟨howned', -⟩
    exact guard_keeps hrecord happroval (hsensitive fee)
      (fun h'' howned'' hwritable hgranted => hsend h'' howned'' hwritable ⟨fee, hgranted⟩) howned'
  · intro h' e _
    trivial

/-- What a deposit calls, and when. -/
theorem deposit_keeps (deps : MoneyDeps) (params : DepositParams) :
    (deposit deps params).Always (DepositKeeps deps params) (fun _ _ => True) [] := by
  apply Program.Always.call_bind (c := MoneyCall.assertVault params.vault) trivial
  · intro u
    -- a check that throws ends the run before anything else is called
    refine Program.Always.done_bind (fun d hd => ?_) fun e _ => trivial
    refine Program.Always.done_bind (fun _ hmax => ?_) fun e _ => trivial
    refine Program.Always.done_bind (fun base hbase => ?_) fun e _ => trivial
    have howned : Owned params.vault [⟨.assertVault params.vault, .ok u⟩] := List.mem_singleton_self _
    refine approval_keeps (fun _ => trivial) (fun _ _ => trivial) (fun _ _ => trivial) .deposit
      (fun _ => rfl) ?_ howned
    intro h howned' hwritable happroved
    have hcleared : DepositKeeps deps params h (.depositOnChain ⟨params.vault, params.token, base⟩) :=
      ⟨rfl, rfl, howned', hwritable, happroved, exactAmount hd hmax hbase⟩
    exact Program.Always.call hcleared fun _ => trivial
  · intro e
    trivial

/-- A recipient that passes is on the list. -/
theorem checkRecipient_ok {config : MoneyConfig} {recipient : String} {u : Unit}
    (h : checkRecipient config recipient = .ok u) : recipient.toLower ∈ config.addressAllowlist := by
  unfold checkRecipient at h
  split at h
  · assumption
  · cases h

/-- What a withdrawal calls, and when. -/
theorem withdraw_keeps (deps : MoneyDeps) (params : WithdrawParams) :
    (withdraw deps params).Always (WithdrawKeeps deps params) (fun _ _ => True) [] := by
  apply Program.Always.call_bind (c := MoneyCall.assertVault params.vault) trivial
  · intro u
    refine Program.Always.done_bind (fun d hd => ?_) fun e _ => trivial
    refine Program.Always.done_bind (fun _ hmax => ?_) fun e _ => trivial
    -- the recipient is checked before the amount is converted
    refine Program.Always.done_bind (fun _ hrecipient => ?_) fun e _ => trivial
    refine Program.Always.done_bind (fun base hbase => ?_) fun e _ => trivial
    have howned : Owned params.vault [⟨.assertVault params.vault, .ok u⟩] := List.mem_singleton_self _
    refine approval_keeps (fun _ => trivial) (fun _ _ => trivial) (fun _ _ => trivial) .withdraw
      (fun _ => rfl) ?_ howned
    intro h howned' hwritable happroved
    have hcleared : WithdrawKeeps deps params h
        (.withdrawOnChain ⟨params.vault, params.token, base, params.recipient⟩) :=
      ⟨rfl, rfl, rfl, checkRecipient_ok hrecipient, howned', hwritable, happroved,
        exactAmount hd hmax hbase⟩
    exact Program.Always.call hcleared fun _ => trivial
  · intro e
    trivial

end Programs

/-- How the calls are answered, each at its moment. -/
abbrev MoneyAnswers := Nat → (c : MoneyCall) → Except Thrown c.Reply

/-- **Money moves within the policy.** Whatever is answered, a call to the chain comes from the tool it
belongs to, after the checks of the vault, the amount and the recipient and the approval; what is
configured is read without regard to case. -/
theorem money_within_policy :
    (∀ (deps : MoneyDeps) (params : DepositParams) (ω : MoneyAnswers) before a after,
      ((deposit deps params).run ω 0).1 = before ++ a :: after →
        DepositKeeps deps params before a.call) ∧
    (∀ (deps : MoneyDeps) (params : WithdrawParams) (ω : MoneyAnswers) before a after,
      ((withdraw deps params).run ω 0).1 = before ++ a :: after →
        WithdrawKeeps deps params before a.call) ∧
    ∀ (env : MoneyEnv) (ownerAddress : String),
      (∀ token, (moneyConfig env ownerAddress).maxPerToken token.toLower = configuredMax env token) ∧
      ∀ recipient, recipient.toLower ∈ (moneyConfig env ownerAddress).addressAllowlist ↔
        OnAllowlist env ownerAddress recipient := by
  refine ⟨?_, ?_, fun env ownerAddress =>
    ⟨fun token => maxPerToken_eq env ownerAddress token, fun recipient => mem_addressAllowlist⟩⟩
  · intro deps params ω before a after hrun
    exact (deposit_keeps deps params).run_calls ω 0 hrun
  · intro deps params ω before a after hrun
    exact (withdraw_keeps deps params).run_calls ω 0 hrun

/-! ## A deposit and a withdrawal of the maximum -/

/-- The backend is down, everything else is answered. -/
def approving : MoneyAnswers := fun _ c =>
  match c with
  | .assertVault _ => .ok ()
  | .getFees => .error (.error "TypeError" "fetch failed")
  | .record _ => .ok ()
  | .requestApproval _ => .ok true
  | .depositOnChain _ => .ok "0xdep"
  | .withdrawOnChain _ => .ok "0xwd"

/-- A deposit that passes the checks goes to the chain, once the vault and the approval are answered. -/
theorem deposit_calls {deps : MoneyDeps} {params : DepositParams} {d : Property JsNumber} {base : String}
    (hwritable : deps.policy.readOnly = false)
    (hd : decimalsOf deps.tokenDecimals params.token = .ok d)
    (hmax : checkMax deps.config.maxPerToken params.token params.amount d = .ok ())
    (hbase : baseUnits params.amount params.token d = .ok base) :
    ((deposit deps params).run approving 0).1[5]? =
      some ⟨.depositOnChain ⟨params.vault, params.token, base⟩, .ok "0xdep"⟩ := by
  simp only [deposit, hd, hmax, hbase, Program.done_ok_bind, PolicyGate.guard, PolicyGate.permit, gate,
    hwritable]
  rfl

/-- A withdrawal that passes all checks gets to the chain. -/
theorem withdraw_calls {deps : MoneyDeps} {params : WithdrawParams} {d : Property JsNumber}
    {base : String} (hwritable : deps.policy.readOnly = false)
    (hd : decimalsOf deps.tokenDecimals params.token = .ok d)
    (hmax : checkMax deps.config.maxPerToken params.token params.amount d = .ok ())
    (hrecipient : checkRecipient deps.config params.recipient = .ok ())
    (hbase : baseUnits params.amount params.token d = .ok base) :
    ((withdraw deps params).run approving 0).1[5]? =
      some ⟨.withdrawOnChain ⟨params.vault, params.token, base, params.recipient⟩, .ok "0xwd"⟩ := by
  simp only [withdraw, hd, hmax, hrecipient, hbase, Program.done_ok_bind, PolicyGate.guard,
    PolicyGate.permit, gate, hwritable]
  rfl

/-- A maximum of 1.50, under an address in capitals. -/
def sampleEnv : MoneyEnv where
  readOnly := none
  addressAllowlist := none
  maxAmountPerToken := some "0X55D398326F99059FF775485246999027B3197955 : 1.50"

/-- The wallet of the server. -/
def sampleOwner : String := "0xf39Fd6e51aad88F6F4ce6aB8827279cffFb92266"

/-- The tools with one token of 18 decimals. -/
def sampleDeps : MoneyDeps :=
  moneyDepsBase sampleEnv sampleOwner [("0x55d398326f99059ff775485246999027b3197955", .ofInt 18)]

/-- A deposit whose amount is written with a space and a zero. -/
def sampleDeposit : DepositParams where
  vault := "0x1111111111111111111111111111111111111111"
  token := "0x55d398326f99059fF775485246999027B3197955"
  amount := " 01.5"

/-- To the owner. -/
def sampleWithdraw : WithdrawParams where
  vault := "0x1111111111111111111111111111111111111111"
  token := "0x55d398326f99059fF775485246999027B3197955"
  amount := " 01.5"
  recipient := "0xF39FD6E51AAD88F6F4CE6AB8827279CFFFB92266"

/-- What the sample spells out: the token, its decimals and its maximum, the amounts, the recipient. -/
theorem sample_spelled :
    sampleDeposit.token.toLower = "0x55d398326f99059ff775485246999027b3197955" ∧
    sampleDeps.tokenDecimals.get "0x55d398326f99059ff775485246999027b3197955" = .own (.ofInt 18) ∧
    tokenAmounts sampleEnv.maxAmountPerToken =
      [("0X55D398326F99059FF775485246999027B3197955", "1.50")] ∧
    Shared.toBaseUnits " 01.5" 18 = .ok (toString 1500000000000000000) ∧
    Shared.toBaseUnits "1.50" 18 = .ok (toString 1500000000000000000) ∧
    sampleWithdraw.recipient.toLower = "0xf39fd6e51aad88f6f4ce6ab8827279cfffb92266" ∧
    sampleOwner.toLower = "0xf39fd6e51aad88f6f4ce6ab8827279cfffb92266" :=
  ⟨by decide +kernel, by decide +kernel, by decide +kernel, by decide +kernel, by decide +kernel,
    by decide +kernel, by decide +kernel⟩

theorem sample_token :
    sampleDeposit.token.toLower = "0x55d398326f99059ff775485246999027b3197955" := sample_spelled.1

theorem sample_decimals :
    decimalsOf sampleDeps.tokenDecimals sampleDeposit.token = .ok (.own (.ofInt 18)) := by
  have hget : sampleDeps.tokenDecimals.get sampleDeposit.token.toLower = .own (.ofInt 18) := by
    rw [sample_token]
    exact sample_spelled.2.1
  rw [decimalsOf, hget]

theorem sample_configuredMax : configuredMax sampleEnv sampleDeposit.token = some "1.50" := by
  have hentries : tokenAmounts sampleEnv.maxAmountPerToken =
      [("0X55D398326F99059FF775485246999027B3197955", "1.50")] := sample_spelled.2.2.1
  have hsame : SameAddress "0X55D398326F99059FF775485246999027B3197955" sampleDeposit.token := by
    rw [SameAddress, sample_token]
    decide +kernel
  simp [configuredMax, hentries, hsame]

theorem sample_units (token : String) :
    baseUnits " 01.5" token (.own (.ofInt 18)) = .ok (toString 1500000000000000000) := by
  exact baseUnits_eq sample_spelled.2.2.2.1

theorem sample_checkMax :
    checkMax sampleDeps.config.maxPerToken sampleDeposit.token " 01.5" (.own (.ofInt 18)) =
      .ok () := by
  have hmax : sampleDeps.config.maxPerToken sampleDeposit.token.toLower = some "1.50" :=
    (maxPerToken_eq sampleEnv _ _).trans sample_configuredMax
  have h := sample_spelled.2.2.2.2.1
  exact (checkMax_ok_iff hmax (sample_units _) (baseUnits_eq h)).2 (Nat.le_refl _)

theorem sample_recipient : checkRecipient sampleDeps.config sampleWithdraw.recipient = .ok () := by
  obtain ⟨hrecipient, howner⟩ := sample_spelled.2.2.2.2.2
  have hallowed : OnAllowlist sampleEnv sampleOwner sampleWithdraw.recipient :=
    Or.inl (hrecipient.trans howner.symm)
  exact if_pos (mem_addressAllowlist.2 hallowed)

theorem exists_split {α : Type} {l : List α} {i : Nat} {x : α} (h : l[i]? = some x) :
    ∃ before after, l = before ++ x :: after :=
  List.append_of_mem (List.mem_of_getElem? h)

/-- The amounts are the maximum, spelled otherwise, and the owner is always on the allowlist. -/
theorem money_within_policy_sample :
    (∃ before after a, ((deposit sampleDeps sampleDeposit).run approving 0).1 = before ++ a :: after ∧
      a.call = .depositOnChain
        ⟨sampleDeposit.vault, sampleDeposit.token, toString 1500000000000000000⟩ ∧
      DepositKeeps sampleDeps sampleDeposit before a.call) ∧
    (∃ before after a, ((withdraw sampleDeps sampleWithdraw).run approving 0).1 =
        before ++ a :: after ∧
      a.call = .withdrawOnChain ⟨sampleWithdraw.vault, sampleWithdraw.token,
        toString 1500000000000000000, sampleWithdraw.recipient⟩ ∧
      WithdrawKeeps sampleDeps sampleWithdraw before a.call) ∧
    sampleDeps.config.maxPerToken sampleDeposit.token.toLower = some "1.50" := by
  obtain ⟨hdeposit, hwithdraw, hconfig⟩ := money_within_policy
  have hdepositCall : ((deposit sampleDeps sampleDeposit).run approving 0).1[5]? = _ :=
    deposit_calls rfl sample_decimals sample_checkMax (sample_units _)
  have hwithdrawCall : ((withdraw sampleDeps sampleWithdraw).run approving 0).1[5]? = _ :=
    withdraw_calls rfl sample_decimals sample_checkMax sample_recipient (sample_units _)
  obtain ⟨before, after, hrun⟩ := exists_split hdepositCall
  obtain ⟨before', after', hrun'⟩ := exists_split hwithdrawCall
  exact ⟨⟨before, after, _, hrun, rfl, hdeposit _ _ _ _ _ _ hrun⟩,
    ⟨before', after', _, hrun', rfl, hwithdraw _ _ _ _ _ _ hrun'⟩,
    ((hconfig sampleEnv _).1 _).trans sample_configuredMax⟩

end StrategyBuilder.Mcp.MoneyMovement
