import StrategyBuilder.Lib.Double
import StrategyBuilder.Mcp.SummaryDecoder

/-!
# The cross-check of intents

`crossCheckIntent` of `intent-check.ts`: what an agent says that its graph does is compared with what
the server decodes. The actions are compared one by one, in the order in which the graph lists its
nodes; what only one side names is not compared.
-/

set_option autoImplicit false

namespace StrategyBuilder.Mcp

open StrategyBuilder.Automation
open StrategyBuilder.Lib.Js
open StrategyBuilder.Shared

/-- `x !== y` of numbers. -/
def differs (x y : JsNumber) : Bool := x ≠ y || x.isNaN

/-- An action that the user has asked for. -/
structure IntentAction where
  token : Option String
  /-- A string or a number. -/
  direction : Option JsValue
  amount : Option String

/-- What the user has asked for. -/
structure FlatIntent where
  execution : ExecutionMode
  /-- `trigger?.periodSeconds` -/
  periodSeconds : Option JsNumber
  actions : List IntentAction

/-- Whether the graph is what was asked for, and where it is not. -/
structure CrossCheckResult where
  ok : Bool
  diffs : List String
  warnings : List String

/-- The name of a mode in a message. -/
def ExecutionMode.name : ExecutionMode → String
  | .publicMode => "public"
  | .ownerMode => "owner"

/-- `ownerOnly ? 'owner' : 'public'` -/
def executionOf (ownerOnly : Bool) : ExecutionMode := if ownerOnly then .ownerMode else .publicMode

/-- Who executes the automation is not as asked for. -/
def executionDiffs (intent : FlatIntent) (ownerOnly : Bool) : List String :=
  if intent.execution ≠ executionOf ownerOnly then
    ["execution: Intent „" ++ intent.execution.name ++ "\" ≠ abgeleitete Topologie „" ++
      (executionOf ownerOnly).name ++ "\"."]
  else []

/-- The difference in one property, if both sides have it. -/
def propertyDiff {α β : Type} (label : String) (want : Option α) (got : Option β)
    (same : α → β → Bool) (showWant : α → String) (showGot : β → String) : List String :=
  match want, got with
  | some w, some g =>
      if same w g then [] else [label ++ ": Intent " ++ showWant w ++ " ≠ Graph " ++ showGot g ++ "."]
  | _, _ => []

/-- One round of `actions.forEach`. -/
def actionDiffs (i : Nat) (want : IntentAction) (step : DecodedStep) : List String :=
  let label := "Action " ++ toString (i + 1)
  propertyDiff (label ++ " Token") want.token step.token (fun w g => w.toLower = g.toLower) id id ++
  propertyDiff (label ++ " Betrag") want.amount step.amount (fun w g => w = g) id id ++
  propertyDiff (label ++ " Richtung") want.direction step.direction
    (fun w g => valueToString w = valueToString g) valueToString valueToString

/-- `decoded.steps.filter((s) => s.category === 'ACTION')` -/
def decodedActions (decoded : DecodedSummary) : List DecodedStep :=
  decoded.steps.filter fun s => s.category = .action

/-- The actions are not those asked for, in number or one by one. -/
def actionsDiffs (intent : FlatIntent) (decoded : DecodedSummary) : List String :=
  let actions := decodedActions decoded
  if actions.length ≠ intent.actions.length then
    ["Action-Anzahl: Intent " ++ toString intent.actions.length ++ " ≠ Graph " ++
      toString actions.length ++ "."]
  else
    ((intent.actions.zip actions).zipIdx).flatMap fun ((want, step), i) => actionDiffs i want step

/-- The period is not the one asked for; where one of the two is unknown, nothing is said. -/
def triggerDiffs (intent : FlatIntent) (triggerSeconds : Option JsNumber) : List String :=
  match intent.periodSeconds, triggerSeconds with
  | some want, some got =>
      if differs want got then
        ["Trigger-Periode: Intent " ++ numberToString want ++ "s ≠ Graph " ++ numberToString got ++
          "s."]
      else []
  | _, _ => []

/-- The warning for a graph with branches. -/
def branchedWarning : String :=
  "Verzweigter Graph — nicht voll cross-checkbar; im Confirm-Gate besonders prüfen."

/-- `crossCheckIntent`: all differences, and the warnings of the decoder. -/
def crossCheckIntent (intent : FlatIntent) (decoded : DecodedSummary) (ownerOnly : Bool)
    (triggerSeconds : Option JsNumber) (branched : Bool) : CrossCheckResult :=
  let diffs := executionDiffs intent ownerOnly ++ actionsDiffs intent decoded ++
    triggerDiffs intent triggerSeconds
  { ok := diffs.length = 0
    diffs := diffs
    warnings := (if branched then [branchedWarning] else []) ++
      decoded.warnings.map DecodeWarning.text }

/-- `isBranched` of `graph-utils.ts` -/
def isBranched (rawGraph : EditorGraph) : Bool :=
  rawGraph.nodes.any fun node =>
    rawGraph.edges.any (fun e => e.source = node.id && e.sourceHandle = .true) &&
      rawGraph.edges.any fun e => e.source = node.id && e.sourceHandle = .false

/-- The period of a condition: its first duration that is set. -/
def nodeTriggerSeconds (catalog : DecoderCatalog) (node : EditorNode) : Option JsNumber :=
  match node.type, Record.own? catalog node.stepTypeId with
  | .condition, some step =>
      step.fields.findSome? fun f =>
        if f.2.widget = some .duration then (defined? (param node.params f.1)).map doubleNumber else none
  | _, _ => none

/-- The period of the first condition that has one. -/
def extractTriggerSeconds (rawGraph : EditorGraph) (catalog : DecoderCatalog) : Option JsNumber :=
  rawGraph.nodes.findSome? (nodeTriggerSeconds catalog)

/-! ## What is accepted -/

/-- Both sides have the property, and it is the same. -/
def Agree {α β : Type} (same : α → β → Bool) (want : Option α) (got : Option β) : Prop :=
  ∀ w g, want = some w → got = some g → same w g = true

/-- An action is what the agent says. -/
structure IntentAction.Agrees (want : IntentAction) (step : DecodedStep) : Prop where
  token : Agree (fun w g => w.toLower = g.toLower) want.token step.token
  amount : Agree (fun w g => w = g) want.amount step.amount
  direction : Agree (fun w g => valueToString w = valueToString g) want.direction step.direction

/-- A property makes no difference if it agrees, or one of the two is unknown. -/
theorem propertyDiff_eq_nil {α β : Type} {label : String} {want : Option α} {got : Option β}
    {same : α → β → Bool} {showWant : α → String} {showGot : β → String} :
    propertyDiff label want got same showWant showGot = [] ↔ Agree same want got := by
  cases want with
  | none => simp [propertyDiff, Agree]
  | some w =>
    cases got with
    | none => simp [propertyDiff, Agree]
    | some g => simp [propertyDiff, Agree]

/-- An action makes no difference if it agrees. -/
theorem actionDiffs_eq_nil {i : Nat} {want : IntentAction} {step : DecodedStep} :
    actionDiffs i want step = [] ↔ want.Agrees step := by
  simp only [actionDiffs, List.append_eq_nil_iff, propertyDiff_eq_nil]
  constructor
  · rintro ⟨⟨htoken, hamount⟩, hdirection⟩
    exact ⟨htoken, hamount, hdirection⟩
  · intro h
    exact ⟨⟨h.token, h.amount⟩, h.direction⟩

/-- The actions make no difference if they agree one by one. -/
theorem actionsDiffs_eq_nil {intent : FlatIntent} {decoded : DecodedSummary} :
    actionsDiffs intent decoded = [] ↔
      List.Forall₂ IntentAction.Agrees intent.actions (decodedActions decoded) := by
  rw [actionsDiffs]
  split
  · next hlength =>
    refine iff_of_false (by simp) ?_
    intro h
    exact hlength h.length_eq.symm
  · next hlength =>
    rw [Decidable.not_not] at hlength
    rw [List.flatMap_eq_nil_iff, List.forall₂_iff_zip]
    constructor
    · intro h
      refine ⟨hlength.symm, fun {want step} hmem => ?_⟩
      obtain ⟨i, hi⟩ := List.mem_iff_getElem?.1 hmem
      exact actionDiffs_eq_nil.1 (h ((want, step), i) (List.mem_zipIdx_iff_getElem?.2 hi))
    · rintro ⟨-, h⟩ ⟨⟨want, step⟩, i⟩ hmem
      exact actionDiffs_eq_nil.2 (h (List.mem_of_getElem? (List.mem_zipIdx_iff_getElem?.1 hmem)))

theorem differs_eq_false {x y : JsNumber} : differs x y = false ↔ x = y ∧ x ≠ .nan := by
  simp [differs, JsNumber.isNaN]

/-- An intent has no difference exactly if its mode, its actions and its period agree with what is
decoded. -/
theorem crossCheckIntent_ok_iff {intent : FlatIntent} {decoded : DecodedSummary} {ownerOnly : Bool}
    {triggerSeconds : Option JsNumber} {branched : Bool} :
    (crossCheckIntent intent decoded ownerOnly triggerSeconds branched).ok = true ↔
      intent.execution = executionOf ownerOnly ∧
      List.Forall₂ IntentAction.Agrees intent.actions (decodedActions decoded) ∧
      ∀ want got, intent.periodSeconds = some want → triggerSeconds = some got →
        want = got ∧ want ≠ .nan := by
  have htrigger : triggerDiffs intent triggerSeconds = [] ↔
      ∀ want got, intent.periodSeconds = some want → triggerSeconds = some got →
        want = got ∧ want ≠ .nan := by
    cases hwant : intent.periodSeconds with
    | none => simp [triggerDiffs, hwant]
    | some want =>
      cases triggerSeconds with
      | none => simp [triggerDiffs, hwant]
      | some got => simp [triggerDiffs, hwant, ← differs_eq_false]
  have hexecution : executionDiffs intent ownerOnly = [] ↔
      intent.execution = executionOf ownerOnly := by
    simp [executionDiffs]
  simp only [crossCheckIntent, decide_eq_true_eq, List.length_eq_zero_iff, List.append_eq_nil_iff,
    hexecution, actionsDiffs_eq_nil, htrigger, and_assoc]

end StrategyBuilder.Mcp
