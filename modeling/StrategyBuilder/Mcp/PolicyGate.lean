import StrategyBuilder.Lib.Js
import StrategyBuilder.Lib.Program

/-!
# The policy gate

`PolicyGate.guard` of `policy-gate.ts`: every signing tool passes it. It awaits the audit log, the
confirmation and at last the action itself, and each of these may fail.

The record of a success is written in the `try` block of the action: where this write fails, a completed
action is recorded as an error, and its caller is told that it failed. `guard_law_iff` shows that
nothing else goes wrong in the gate.
-/

set_option autoImplicit false

namespace StrategyBuilder.Mcp

open StrategyBuilder.Lib
open StrategyBuilder.Lib.Js

/-! ## The gate -/

/-- What is thrown: an `Error`, or any other value. -/
inductive Thrown where
  | error (name message : String)
  | value (v : JsValue)

/-- `err instanceof Error ? err.message : 'unknown error'` -/
def Thrown.detail : Thrown → String
  | .error _ message => message
  | .value _ => "unknown error"

/-- `new PolicyError(message)` -/
def policyError (message : String) : Thrown := .error "PolicyError" message

/-- What goes through the gate. -/
structure GuardedAction where
  tool : String
  sensitive : Bool
  summary : String
  details : Record JsValue

/-- What the human is asked. -/
structure ConfirmationRequest where
  tool : String
  summary : String
  details : Record JsValue

/-- What became of an action. -/
inductive AuditOutcome where
  | requested
  | approved
  | denied
  | timeout
  | rejected
  | success
  | error
deriving DecidableEq, Repr

/-- An `AuditEntry` without its time stamp. -/
structure AuditEntry where
  tool : String
  params : Record JsValue
  summary : Option String
  txHash : Option String
  outcome : AuditOutcome
  detail : Option String

/-- The configuration of the gate. -/
structure PolicyConfig where
  readOnly : Bool

/-- What an action gives back, with its transaction. -/
structure GuardExecuteResult (T : Type) where
  result : T
  txHash : Option String

/-- The gate: its configuration, the human, and the audit log. -/
structure PolicyGate (Call : Type) (Reply : Call → Type) where
  config : PolicyConfig
  /-- `confirmation.requestApproval` -/
  requestApproval : ConfirmationRequest → Program Call Reply Thrown Bool
  /-- `audit.record` -/
  record : AuditEntry → Program Call Reply Thrown Unit

/-- The entry of an action with an outcome: `{ ...base, outcome }` -/
def GuardedAction.entry (action : GuardedAction) (outcome : AuditOutcome) : AuditEntry :=
  { tool := action.tool, params := action.details, summary := some action.summary,
    txHash := none, outcome := outcome, detail := none }

/-- What the human is asked of an action. -/
def GuardedAction.request (action : GuardedAction) : ConfirmationRequest :=
  { tool := action.tool, summary := action.summary, details := action.details }

section Guard

variable {Call : Type} {Reply : Call → Type} {T : Type}

/-- Ask for the approval: the inner `try` block of `guard`. -/
def PolicyGate.ask (gate : PolicyGate Call Reply) (action : GuardedAction) :
    Program Call Reply Thrown Bool :=
  tryCatch (gate.requestApproval action.request) fun _ => do
    gate.record { action.entry .timeout with detail := some "no confirmation / timeout" }
    throw (policyError
      "Keine Bestätigung erhalten (Timeout/keine Möglichkeit) — es wurde nicht signiert.")

/-- What `guard` does before it runs the action. -/
def PolicyGate.permit (gate : PolicyGate Call Reply) (action : GuardedAction) :
    Program Call Reply Thrown Unit := do
  if gate.config.readOnly then
    gate.record { action.entry .rejected with detail := some "read-only mode" }
    throw (policyError "Read-only-Modus aktiv: schreibende Aktionen sind deaktiviert.")
  if action.sensitive then
    gate.record (action.entry .requested)
    let approved ← gate.ask action
    if !approved then
      gate.record (action.entry .denied)
      throw (policyError "Aktion abgelehnt — es wurde nicht signiert.")
    gate.record (action.entry .approved)

/-- The last `try` block of `guard`. -/
def PolicyGate.attempt (gate : PolicyGate Call Reply) (action : GuardedAction)
    (execute : Program Call Reply Thrown (GuardExecuteResult T)) : Program Call Reply Thrown T := do
  let r ← execute
  gate.record { action.entry .success with txHash := r.txHash }
  return r.result

/-- Its `catch` block. -/
def PolicyGate.fail (gate : PolicyGate Call Reply) (action : GuardedAction) (err : Thrown) :
    Program Call Reply Thrown T := do
  gate.record { action.entry .error with detail := some err.detail }
  throw err

/-- `guard`: the action is attempted where it is permitted, and an exception is recorded. -/
def PolicyGate.guard (gate : PolicyGate Call Reply) (action : GuardedAction)
    (execute : Program Call Reply Thrown (GuardExecuteResult T)) : Program Call Reply Thrown T := do
  gate.permit action
  tryCatch (gate.attempt action execute) (gate.fail action)

/-! ## What the gate keeps to -/

variable {P : List (Answered Call Reply Thrown) → Call → Prop}
variable {gate : PolicyGate Call Reply} {action : GuardedAction}

/-- The outcomes that are recorded before the action is run. -/
def AuditOutcome.IsEarly : AuditOutcome → Prop
  | .success | .error => False
  | _ => True

section Rules

variable {idle granted : List (Answered Call Reply Thrown) → Prop}

/-- The rule of the question: only an approval goes on. -/
theorem Always.ask
    (hrecord : ∀ entry h, entry.outcome.IsEarly → idle h →
      (gate.record entry).Always P (fun h' _ => idle h' ∧ (granted h → granted h')) h)
    (happroval : ∀ h, idle h → (gate.requestApproval action.request).Always P
      (fun h' r => idle h' ∧ (r = .ok true → granted h')) h)
    {h : List (Answered Call Reply Thrown)} (hidle : idle h) :
    (gate.ask action).Always P (fun h' r => idle h' ∧ (r = .ok true → granted h')) h := by
  apply Program.Always.tryCatch (happroval h hidle)
  · intro h' a hh'
    exact hh'
  · intro h' _ hh'
    apply Program.Always.bind (hrecord _ h' (by trivial) hh'.1)
    · intro h'' _ hh''
      exact ⟨hh''.1, nofun⟩
    · intro h'' e hh''
      exact ⟨hh''.1, nofun⟩

/-- The rule for `permit`: `idle` is what holds before the action is run, `granted` what an approval
establishes. -/
theorem Always.permit (gate : PolicyGate Call Reply)
    (idle granted : List (Answered Call Reply Thrown) → Prop)
    (hrecord : ∀ entry h, entry.outcome.IsEarly → idle h →
      (gate.record entry).Always P (fun h' _ => idle h' ∧ (granted h → granted h')) h)
    (happroval : ∀ h, idle h → (gate.requestApproval action.request).Always P
      (fun h' r => idle h' ∧ (r = .ok true → granted h')) h)
    {h : List (Answered Call Reply Thrown)} (hidle : idle h) :
    (gate.permit action).Always P (fun h' r => idle h' ∧ (∀ u, r = .ok u →
      gate.config.readOnly = false ∧ (action.sensitive = true → granted h'))) h := by
  -- a gate that throws has granted nothing
  have hthrow : ∀ (h : List (Answered Call Reply Thrown)) (e : Thrown), idle h →
      idle h ∧ ∀ u : Unit, Except.error e = .ok u →
        gate.config.readOnly = false ∧ (action.sensitive = true → granted h) := by
    intro h e hh
    exact ⟨hh, fun u hu => by cases hu⟩
  simp only [PolicyGate.permit]
  split
  · apply Program.Always.bind (hrecord _ h (by trivial) hidle)
    · intro h' _ hh'
      exact hthrow h' _ hh'.1
    · intro h' e hh'
      exact hthrow h' e hh'.1
  next hro =>
  rw [Bool.not_eq_true] at hro
  split
  · apply Program.Always.bind (hrecord _ h (by trivial) hidle)
    · intro h₁ _ hh₁
      apply Program.Always.bind (Always.ask hrecord happroval hh₁.1)
      · intro h₂ approved hh₂
        cases approved with
        | false =>
          apply Program.Always.bind (hrecord _ h₂ (by trivial) hh₂.1)
          · intro h' _ hh'
            exact hthrow h' _ hh'.1
          · intro h' e hh'
            exact hthrow h' e hh'.1
        | true =>
          apply (hrecord _ h₂ (by trivial) hh₂.1).imp
          intro h' r hh'
          -- the record of the approval keeps what the approval has granted
          exact ⟨hh'.1, fun _ _ => ⟨hro, fun _ => hh'.2 (hh₂.2 rfl)⟩⟩
      · intro h' e hh'
        exact hthrow h' e hh'.1
    · intro h' e hh'
      exact hthrow h' e hh'.1
  · next hs =>
    exact ⟨hidle, fun _ _ => ⟨hro, fun h => absurd h hs⟩⟩

/-- The rule for `guard`, for what holds of the calls alone. -/
theorem Always.guard (idle granted : List (Answered Call Reply Thrown) → Prop)
    {execute : Program Call Reply Thrown (GuardExecuteResult T)}
    (hrecord : ∀ entry h, entry.outcome.IsEarly → idle h →
      (gate.record entry).Always P (fun h' _ => idle h' ∧ (granted h → granted h')) h)
    (happroval : ∀ h, idle h → (gate.requestApproval action.request).Always P
      (fun h' r => idle h' ∧ (r = .ok true → granted h')) h)
    (hexecute : ∀ h, idle h → gate.config.readOnly = false →
      (action.sensitive = true → granted h) → execute.Always P (fun _ _ => True) h)
    (hlate : ∀ entry h, (gate.record entry).Always P (fun _ _ => True) h)
    {h : List (Answered Call Reply Thrown)} (hidle : idle h) :
    (gate.guard action execute).Always P (fun _ _ => True) h := by
  apply Program.Always.bind (Always.permit gate idle granted hrecord happroval hidle)
  · rintro h' u ⟨hidle', hpermitted⟩
    obtain ⟨hro, hgranted⟩ := hpermitted u rfl
    -- from here on the action is run, so the records are late ones
    apply Program.Always.tryCatch (S := fun _ _ => True)
    · apply Program.Always.bind (hexecute h' hidle' hro hgranted)
      · intro h'' r _
        apply Program.Always.bind (hlate _ h'')
        · intro _ _ _
          trivial
        · intro _ _ _
          trivial
      · intro h'' e _
        trivial
    · intro h'' a _
      trivial
    · intro h'' e _
      apply Program.Always.bind (hlate _ h'')
      · intro _ _ _
        trivial
      · intro _ _ _
        trivial
  · intro h' e _
    trivial

end Rules

end Guard

/-! ## The gate on its own -/

/-- What the gate awaits. -/
inductive GateCall where
  | record (entry : AuditEntry)
  | requestApproval (req : ConfirmationRequest)
  | execute

/-- What the calls return. -/
abbrev GateCall.Reply (T : Type) : GateCall → Type
  | .record _ => Unit
  | .requestApproval _ => Bool
  | .execute => GuardExecuteResult T

variable {T : Type}

/-- The gate whose provider and log are outside. -/
def outerGate (T : Type) (config : PolicyConfig) : PolicyGate GateCall (GateCall.Reply T) where
  config := config
  requestApproval req := Program.call (GateCall.requestApproval req)
  record entry := Program.call (GateCall.record entry)

/-- How the calls are answered, each at its moment. -/
abbrev Answers (T : Type) := Nat → (c : GateCall) → Except Thrown (c.Reply T)

/-- The calls and their answers in one call of `guard`, and its end. -/
def guardRun (config : PolicyConfig) (action : GuardedAction) (ω : Answers T) :
    List (Answered GateCall (GateCall.Reply T) Thrown) × Except Thrown T :=
  ((outerGate T config).guard action (Program.call GateCall.execute)).run ω 0

/-- The call is the action itself. -/
def GateCall.IsExecute : GateCall → Prop
  | .execute => True
  | _ => False

/-- The call records this outcome. -/
def GateCall.Records (outcome : AuditOutcome) : GateCall → Prop
  | .record entry => entry.outcome = outcome
  | _ => False

instance : DecidablePred GateCall.IsExecute
  | .record _ => isFalse id
  | .requestApproval _ => isFalse id
  | .execute => isTrue trivial

instance (outcome : AuditOutcome) : DecidablePred (GateCall.Records outcome)
  | .record entry => inferInstanceAs (Decidable (entry.outcome = outcome))
  | .requestApproval _ => isFalse id
  | .execute => isFalse id

/-- What the gate promises of one call. -/
structure GuardLaw (config : PolicyConfig) (action : GuardedAction)
    (run : List (Answered GateCall (GateCall.Reply T) Thrown) × Except Thrown T) : Prop where
  once : run.1.countP (fun a => decide a.call.IsExecute) ≤ 1
  permitted : ∀ before a after, run.1 = before ++ a :: after → a.call.IsExecute →
    config.readOnly = false ∧
      (action.sensitive = true → ⟨.requestApproval action.request, .ok true⟩ ∈ before)
  /-- No success of an action that threw. -/
  success : ∀ e, ⟨.execute, .error e⟩ ∈ run.1 → ∀ a ∈ run.1, ¬ a.call.Records .success
  /-- No error of an action that returned. -/
  error : ∀ r, ⟨.execute, .ok r⟩ ∈ run.1 → ∀ a ∈ run.1, ¬ a.call.Records .error
  /-- A failure is reported only of an action that did not complete. -/
  reported : ∀ e, run.2 = .error e → ∀ r, ⟨.execute, .ok r⟩ ∉ run.1

/-- The moment at which the action is run. -/
def executeMoment (action : GuardedAction) : Nat := if action.sensitive then 3 else 0

/-- The gate lets the action through. -/
def Permits (config : PolicyConfig) (action : GuardedAction) (ω : Answers T) : Prop :=
  config.readOnly = false ∧
    (action.sensitive = true →
      (∃ u, ω 0 (.record (action.entry .requested)) = .ok u) ∧
        ω 1 (.requestApproval action.request) = .ok true ∧
        ∃ u, ω 2 (.record (action.entry .approved)) = .ok u)

/-- The action is let through and returns, and the write of its success fails. -/
def SuccessUnrecorded (config : PolicyConfig) (action : GuardedAction) (ω : Answers T) : Prop :=
  Permits config action ω ∧ ∃ r : GuardExecuteResult T, ω (executeMoment action) .execute = .ok r ∧
    ∃ e, ω (executeMoment action + 1)
      (.record { action.entry .success with txHash := r.txHash }) = .error e


/-! ### Runs of the gate -/

section Runs

variable {config : PolicyConfig} {action : GuardedAction} {ω : Answers T}

/-- The human has answered. -/
theorem ask_run_ok (config : PolicyConfig) {n : Nat} {approved : Bool}
    (h : ω n (.requestApproval action.request) = .ok approved) :
    ((outerGate T config).ask action).run ω n =
      ([⟨.requestApproval action.request, .ok approved⟩], .ok approved) := by
  rw [PolicyGate.ask, Program.run_tryCatch_ok (a := approved)]
  · simp only [outerGate, Program.run_call, h]
  · exact h

/-- No answer is a refusal. -/
theorem ask_run_error (config : PolicyConfig) {n : Nat} {e : Thrown}
    (h : ω n (.requestApproval action.request) = .error e) :
    ∃ e', (((outerGate T config).ask action).run ω n).2 = .error e' := by
  rw [PolicyGate.ask, Program.run_tryCatch_error (e := e)]
  · apply Program.run_bind_throws
    intro _ m
    exact ⟨_, rfl⟩
  · exact h

/-- A permitted action comes to its execution. -/
theorem permit_run_permitted (h : Permits config action ω) :
    (((outerGate T config).permit action).run ω 0).2 = .ok () ∧
      (((outerGate T config).permit action).run ω 0).1.length = executeMoment action := by
  obtain ⟨hro, hs⟩ := h
  simp only [PolicyGate.permit, outerGate, hro, Bool.false_eq_true, if_false]
  split
  · next hsensitive =>
    obtain ⟨⟨u, h0⟩, h1, u', h2⟩ := hs hsensitive
    rw [Program.run_call_bind_ok h0]
    have hask := ask_run_ok config h1
    rw [Program.run_bind_ok ω 1 _ _ (by exact congrArg Prod.snd hask)]
    simp [outerGate] at hask
    simp [executeMoment, hsensitive, hask, h2]
  · next hsensitive =>
    simp only [executeMoment, hsensitive]
    exact ⟨rfl, rfl⟩

/-- An action that is not permitted ends at the gate. -/
theorem permit_run_refused (h : ¬ Permits config action ω) :
    ∃ e, (((outerGate T config).permit action).run ω 0).2 = .error e := by
  simp only [PolicyGate.permit]
  split
  · apply Program.run_bind_throws
    intro _ m
    exact ⟨_, rfl⟩
  next hro =>
  rw [Bool.not_eq_true] at hro
  split
  · next hs =>
    -- record, ask, record: the first of the three that fails throws
    cases h0 : ω 0 (.record (action.entry .requested)) with
    | error e =>
      refine ⟨e, ?_⟩
      rw [Program.run_bind_error]
      exact h0
    | ok u =>
      rw [Program.run_bind_ok ω 0 _ _ (by exact h0)]
      cases h1 : ω 1 (.requestApproval action.request) with
      | error e =>
        obtain ⟨e', hask⟩ := ask_run_error config h1
        refine ⟨e', ?_⟩
        exact congrArg Prod.snd (Program.run_bind_error ω 1 _ _ hask)
      | ok approved =>
        have hask := congrArg Prod.snd (ask_run_ok config h1)
        show ∃ e, (Program.run ω 1 ((outerGate T config).ask action >>= _)).2 = .error e
        rw [Program.run_bind_ok ω 1 _ _ (by exact hask)]
        cases approved with
        | false =>
          simp only [Bool.not_false, if_true]
          apply Program.run_bind_throws
          intro _ m
          exact ⟨_, rfl⟩
        | true =>
          simp only [Bool.not_true, Bool.false_eq_true, if_false]
          cases h2 : ω 2 (.record (action.entry .approved)) with
          | ok u' => exact absurd ⟨hro, fun _ => ⟨⟨u, h0⟩, h1, u', h2⟩⟩ h
          | error e =>
            refine ⟨e, ?_⟩
            rw [← h2, ask_run_ok config h1]
            rfl
  · next hs =>
    exact absurd ⟨hro, fun h' => absurd h' hs⟩ h

/-- The calls that `permit` makes. -/
def GateCall.IsEarly : GateCall → Prop
  | .record entry => entry.outcome.IsEarly
  | .requestApproval _ => True
  | .execute => False

theorem GateCall.IsEarly.not_execute {c : GateCall} (h : c.IsEarly) : ¬ c.IsExecute := by
  cases c with
  | record entry => exact id
  | requestApproval req => exact id
  | execute => exact h.elim

theorem GateCall.IsEarly.not_records {c : GateCall} (h : c.IsEarly) {outcome : AuditOutcome}
    (hlate : ¬ outcome.IsEarly) : ¬ c.Records outcome := by
  cases c with
  | record entry =>
    intro hentry
    apply hlate
    rw [← hentry]
    exact h
  | requestApproval req => exact id
  | execute => exact id

/-- Before the execution only early outcomes are recorded. -/
theorem permit_keeps (config : PolicyConfig) (action : GuardedAction) :
    ((outerGate T config).permit action).Always (fun _ c => c.IsEarly)
      (fun h r => True ∧ (∀ u, r = .ok u → config.readOnly = false ∧
        (action.sensitive = true → ⟨.requestApproval action.request, .ok true⟩ ∈ h))) [] := by
  refine Always.permit (outerGate T config) (fun _ => True)
    (fun h => ⟨.requestApproval action.request, .ok true⟩ ∈ h) ?_ ?_ trivial
  · intro entry h hearly _
    refine ⟨hearly, ?_⟩
    intro r
    exact ⟨trivial, List.mem_append_left _⟩
  · intro h _
    refine ⟨trivial, ?_⟩
    intro r
    refine ⟨trivial, ?_⟩
    rintro rfl
    exact List.mem_append_right _ (List.mem_singleton_self _)

theorem permit_early {a : Answered GateCall (GateCall.Reply T) Thrown}
    (ha : a ∈ (((outerGate T config).permit action).run ω 0).1) : a.call.IsEarly := by
  obtain ⟨before, after, hrun⟩ := List.append_of_mem ha
  exact (permit_keeps config action).run_calls ω 0 hrun

/-- A failure is recorded, and thrown again. -/
theorem fail_run (config : PolicyConfig) (action : GuardedAction) {ω : Answers T} (err : Thrown)
    (n : Nat) : ∃ entry r e', entry.outcome = .error ∧
    ((outerGate T config).fail action err : Program GateCall (GateCall.Reply T) Thrown T).run ω n =
      ([⟨.record entry, r⟩], .error e') := by
  cases h : ω n (.record { action.entry .error with detail := some err.detail }) with
  | ok u => exact ⟨_, _, _, rfl, Program.run_call_bind_ok h _⟩
  | error e => exact ⟨_, _, _, rfl, Program.run_call_bind_error h _⟩

/-- The part of a run that comes after `permit`. -/
abbrev finish (config : PolicyConfig) (action : GuardedAction) (ω : Answers T) (n : Nat) :
    List (Answered GateCall (GateCall.Reply T) Thrown) × Except Thrown T :=
  (tryCatch ((outerGate T config).attempt action (Program.call GateCall.execute))
    ((outerGate T config).fail action)).run ω n

/-- An execution that throws is recorded as an error. -/
theorem finish_threw (config : PolicyConfig) (action : GuardedAction) {n : Nat} {e : Thrown}
    (h : ω n .execute = .error e) :
    ∃ entry r e', entry.outcome = .error ∧
      finish config action ω n = ([⟨.execute, .error e⟩, ⟨.record entry, r⟩], .error e') := by
  have hattempt : ((outerGate T config).attempt action (Program.call GateCall.execute)).run ω n =
      ([⟨.execute, .error e⟩], .error e) := Program.run_call_bind_error h _
  obtain ⟨entry, r, e', hentry, hfail⟩ := fail_run config action
    (ω := ω) e (n + 1)
  refine ⟨entry, r, e', hentry, ?_⟩
  rw [finish, Program.run_tryCatch_error ω n _ _ (congrArg Prod.snd hattempt), hattempt]
  simp [hfail]

/-- An execution that succeeds is recorded as a success. -/
theorem attempt_run (config : PolicyConfig) (action : GuardedAction) {n : Nat}
    {r : GuardExecuteResult T} (h : ω n .execute = .ok r) :
    ((outerGate T config).attempt action (Program.call GateCall.execute)).run ω n =
      let record := GateCall.record { action.entry .success with txHash := r.txHash }
      ([⟨.execute, .ok r⟩, ⟨record, ω (n + 1) record⟩],
        (ω (n + 1) record).map fun _ => r.result) := by
  refine (Program.run_call_bind_ok h _).trans ?_
  cases hrecord : ω (n + 1) (.record { action.entry .success with txHash := r.txHash }) with
  | ok u =>
    rw [Program.run_bind_ok ω (n + 1) _ _ (by exact hrecord)]
    simp only [outerGate, Program.run_call, hrecord]
    rfl
  | error e =>
    rw [Program.run_bind_error ω (n + 1) _ _ (by exact hrecord)]
    simp only [outerGate, Program.run_call, hrecord]
    rfl

/-- The result is given back after the record. -/
theorem finish_recorded {n : Nat} {r : GuardExecuteResult T} {u : Unit}
    (h : ω n .execute = .ok r)
    (hrecord : ω (n + 1) (.record { action.entry .success with txHash := r.txHash }) = .ok u) :
    finish config action ω n =
      ([⟨.execute, .ok r⟩, ⟨.record { action.entry .success with txHash := r.txHash }, .ok u⟩],
        .ok r.result) := by
  have hattempt := attempt_run config action h
  simp only [hrecord] at hattempt
  rw [finish, Program.run_tryCatch_ok ω n _ _ (congrArg Prod.snd hattempt), hattempt]

/-- A record that fails makes an error of the success. -/
theorem finish_unrecorded (config : PolicyConfig) (action : GuardedAction) {n : Nat}
    {r : GuardExecuteResult T} {e : Thrown}
    (h : ω n .execute = .ok r)
    (hrecord : ω (n + 1) (.record { action.entry .success with txHash := r.txHash }) = .error e) :
    ∃ entry r' e', entry.outcome = .error ∧ finish config action ω n =
      ([⟨.execute, .ok r⟩, ⟨.record { action.entry .success with txHash := r.txHash }, .error e⟩,
        ⟨.record entry, r'⟩], .error e') := by
  have hattempt := attempt_run config action h
  simp only [hrecord] at hattempt
  obtain ⟨entry, r', e', hentry, hfail⟩ := fail_run config action
    (ω := ω) e (n + 2)
  refine ⟨entry, r', e', hentry, ?_⟩
  rw [finish, Program.run_tryCatch_error ω n _ _ (congrArg Prod.snd hattempt), hattempt]
  simp [hfail]

/-- The run of a permitted action. -/
theorem guardRun_permitted (h : Permits config action ω) :
    guardRun config action ω =
      ((((outerGate T config).permit action).run ω 0).1 ++
          (finish config action ω (executeMoment action)).1,
        (finish config action ω (executeMoment action)).2) := by
  obtain ⟨hok, hlength⟩ := permit_run_permitted h
  have hbind := Program.run_bind_ok ω 0 _ (fun _ => tryCatch
    ((outerGate T config).attempt action (Program.call GateCall.execute))
    ((outerGate T config).fail action)) hok
  rw [hlength, Nat.zero_add] at hbind
  exact hbind

/-- The run of an action that is not permitted. -/
theorem guardRun_refused (h : ¬ Permits config action ω) :
    ∃ e, guardRun config action ω =
      ((((outerGate T config).permit action).run ω 0).1, .error e) := by
  obtain ⟨e, he⟩ := permit_run_refused h
  exact ⟨e, Program.run_bind_error ω 0 _ _ he⟩

/-! ### The law -/

theorem countP_early {trace : List (Answered GateCall (GateCall.Reply T) Thrown)}
    (h : ∀ a ∈ trace, a.call.IsEarly) :
    trace.countP (fun a => decide a.call.IsExecute) = 0 := by
  rw [List.countP_eq_zero]
  intro a ha
  simp [(h a ha).not_execute]

/-- A run that ends at the gate keeps the law. -/
theorem law_of_early {trace : List (Answered GateCall (GateCall.Reply T) Thrown)} {e : Thrown}
    (h : ∀ a ∈ trace, a.call.IsEarly) : GuardLaw config action (trace, .error e) where
  once := by simp [countP_early h]
  permitted := by
    rintro before a after rfl hexecute
    exact absurd hexecute (h a (by simp)).not_execute
  success e he := absurd trivial (h _ he).not_execute
  error r hr := absurd trivial (h _ hr).not_execute
  reported _ _ r hr := absurd trivial (h _ hr).not_execute

/-- The law of a run that passes `permit` is the law of what comes after. -/
theorem law_append {early late : List (Answered GateCall (GateCall.Reply T) Thrown)}
    {result : Except Thrown T} (hearly : ∀ a ∈ early, a.call.IsEarly)
    (hro : config.readOnly = false)
    (happroved : action.sensitive = true → ⟨.requestApproval action.request, .ok true⟩ ∈ early)
    (honce : late.countP (fun a => decide a.call.IsExecute) ≤ 1)
    (hsuccess : ∀ e, ⟨.execute, .error e⟩ ∈ late → ∀ a ∈ late, ¬ a.call.Records .success)
    (herror : ∀ r, ⟨.execute, .ok r⟩ ∈ late → ∀ a ∈ late, ¬ a.call.Records .error)
    (hreported : ∀ e, result = .error e → ∀ r, ⟨.execute, .ok r⟩ ∉ late) :
    GuardLaw config action (early ++ late, result) := by
  have hlate : ∀ r : Except Thrown (GuardExecuteResult T),
      ⟨.execute, r⟩ ∈ early ++ late → ⟨.execute, r⟩ ∈ late := by
    intro r hr
    rcases List.mem_append.1 hr with hr | hr
    · exact absurd trivial (hearly _ hr).not_execute
    · exact hr
  refine ⟨?_, ?_, ?_, ?_, ?_⟩
  · rw [List.countP_append, countP_early hearly, Nat.zero_add]
    exact honce
  · intro before a after heq hexecute
    refine ⟨hro, fun hs => ?_⟩
    -- The action is not run in the early part, so all of this part is before it.
    rcases List.append_eq_append_iff.1 heq with ⟨mid, rfl, -⟩ | ⟨mid, rfl, hmid⟩
    · exact List.mem_append_left _ (happroved hs)
    · cases mid with
      | nil =>
        rw [List.append_nil] at happroved
        exact happroved hs
      | cons b mid =>
        obtain ⟨rfl, -⟩ := List.cons.inj hmid
        exact absurd hexecute (hearly a (by simp)).not_execute
  · intro e he a ha
    rcases List.mem_append.1 ha with ha | ha
    · exact (hearly a ha).not_records id
    · exact hsuccess e (hlate _ he) a ha
  · intro r hr a ha
    rcases List.mem_append.1 ha with ha | ha
    · exact (hearly a ha).not_records id
    · exact herror r (hlate _ hr) a ha
  · intro e he r hr
    exact hreported e he r (hlate _ hr)

end Runs

/-- The gate keeps its promise in exactly the calls in which the success of an action that returned is
recorded. -/
theorem guard_law_iff (config : PolicyConfig) (action : GuardedAction) (ω : Answers T) :
    GuardLaw config action (guardRun config action ω) ↔ ¬ SuccessUnrecorded config action ω := by
  by_cases hpermits : Permits config action ω
  · have hearly : ∀ a ∈ (((outerGate T config).permit action).run ω 0).1, a.call.IsEarly :=
      fun a ha => permit_early ha
    obtain ⟨hro, happroved⟩ :=
      ((permit_keeps config action).run ω 0).2 () (permit_run_permitted hpermits).1
    rw [guardRun_permitted hpermits]
    cases hexecute : ω (executeMoment action) .execute with
    | error e =>
      -- the failure is recorded, and the caller gets it
      obtain ⟨entry, r, e', hentry, hfinish⟩ := finish_threw config action hexecute
      rw [hfinish]
      refine iff_of_true (law_append hearly hro happroved ?_ ?_ ?_ ?_) ?_
      · exact Nat.le_refl 1
      · simp [GateCall.Records, hentry]
      · simp
      · simp
      · rintro ⟨-, r', hr', -⟩
        rw [hexecute] at hr'
        cases hr'
    | ok r =>
      cases hrecord : ω (executeMoment action + 1)
          (.record { action.entry .success with txHash := r.txHash }) with
      | ok u =>
        rw [finish_recorded hexecute hrecord]
        refine iff_of_true (law_append hearly hro happroved ?_ ?_ ?_ ?_) ?_
        · exact Nat.le_refl 1
        · simp
        · simp [GateCall.Records, GuardedAction.entry]
        · simp
        · rintro ⟨-, r', hr', e, he⟩
          rw [hexecute] at hr'
          cases hr'
          rw [hrecord] at he
          cases he
      | error e =>
        -- the action returned, yet an error is reported
        obtain ⟨entry, r', e', hentry, hfinish⟩ := finish_unrecorded config action hexecute hrecord
        rw [hfinish]
        refine iff_of_false ?_ (not_not.2 ⟨hpermits, r, hexecute, e, hrecord⟩)
        intro hlaw
        exact hlaw.reported e' rfl r (by simp)
  · obtain ⟨e, he⟩ := guardRun_refused hpermits
    rw [he]
    exact iff_of_true (law_of_early fun a ha => permit_early ha) fun h => hpermits h.1

/-- A vault is to be created. -/
def sampleAction : GuardedAction where
  tool := "create_vault"
  sensitive := true
  summary := "Vault erstellen (Deposit-Token 0x55)"
  details := [("depositToken", .str "0x55")]

/-- The user approves and the vault is created; then the disk is full for a moment. -/
def sampleAnswers : Answers String
  | 4, .record _ => .error (.error "Error" "ENOSPC: no space left on device, write")
  | _, .record _ => .ok ()
  | _, .requestApproval _ => .ok true
  | _, .execute => .ok { result := "0x0a", txHash := some "0xf1" }

/-- The vault exists, the log has an error, and the caller is told that the tool failed. -/
theorem completed_action_fails :
    ¬ GuardLaw ⟨false⟩ sampleAction (guardRun ⟨false⟩ sampleAction sampleAnswers) ∧
      ((guardRun ⟨false⟩ sampleAction sampleAnswers).1.getLast?.map fun a =>
        decide (a.call.Records .error)) = some true := by
  refine ⟨?_, rfl⟩
  intro h
  apply h.reported (.error "Error" "ENOSPC: no space left on device, write") rfl
    { result := "0x0a", txHash := some "0xf1" }
  exact List.mem_of_getElem? (i := 3) rfl

end StrategyBuilder.Mcp
