import StrategyBuilder.Shared.EncodeBoundary

/-!
# The roles of fields

`step-roles.ts`: which field of a step holds a token, an amount, a recipient of money or a direction.
A role is explicit, or follows from the widget. `findUnannotatedRecipients` looks for fields that the
chain pays to and the schema does not mark.
-/

set_option autoImplicit false

namespace StrategyBuilder.Shared

open StrategyBuilder.Lib.Js

/-- What a field is for. -/
inductive FieldRole where
  | token
  | amount
  | recipient
  | direction
deriving DecidableEq, Repr

/-- A field with its `x-ui-role`. -/
structure RoleField extends FieldSchema where
  role : JsValue

/-- The schema, the fragment and the name of a step in the catalog. -/
structure CatalogStep where
  name : String
  /-- `paramSchema`, with the roles. -/
  properties : Option (Record RoleField)
  required : List String
  abiFragment : Option (List AbiComponent)

/-- `isFieldRole` -/
def fieldRole? : JsValue → Option FieldRole
  | .str "token" => some .token
  | .str "amount" => some .amount
  | .str "recipient" => some .recipient
  | .str "direction" => some .direction
  | _ => none

/-- `WIDGET_ROLE` -/
def widgetRole : Widget → Option FieldRole
  | .tokenSelector => some .token
  | .tokenAmount => some .amount
  | .aaveAmountMode => some .direction
  | _ => none

/-- The explicit role before that of the widget. -/
def resolveFieldRole (field : Option RoleField) : Option FieldRole :=
  field.bind fun f => (fieldRole? f.role).or (f.widget.bind widgetRole)

namespace CatalogStep

variable (step : CatalogStep)

/-- `step.paramSchema?.properties ?? {}` -/
def fields : Record RoleField := step.properties.getD []

/-- The step as the encode boundary sees it. -/
def stepSchema : StepSchema where
  paramSchema := step.properties.map fun properties =>
    ⟨properties.map fun p => (p.1, p.2.toFieldSchema), step.required⟩
  abiFragment := step.abiFragment

end CatalogStep

/-- A field that looks like a recipient and is not marked as one. -/
structure AnnotationGap where
  step : String
  field : String

/-- `RECIPIENT_FIELD_NAMES` -/
def recipientFieldNames : List String := ["recipient", "to", "receiver", "destination"]

/-- A component that the chain pays to without a recipient's role. -/
def isGap (step : CatalogStep) (c : AbiComponent) : Bool :=
  c.type = .address && recipientFieldNames.contains c.name.toLower &&
    resolveFieldRole (Record.own? step.fields c.name) ≠ some .recipient

/-- `findUnannotatedRecipients`: the gaps of all steps. -/
def findUnannotatedRecipients (steps : List CatalogStep) : List AnnotationGap :=
  steps.flatMap fun step =>
    ((step.abiFragment.getD []).filter (isGap step)).map fun c => ⟨step.name, c.name⟩

theorem mem_findUnannotatedRecipients {steps : List CatalogStep} {gap : AnnotationGap} :
    gap ∈ findUnannotatedRecipients steps ↔
      ∃ step ∈ steps, ∃ c ∈ step.abiFragment.getD [], isGap step c = true ∧
        gap = ⟨step.name, c.name⟩ := by
  simp only [findUnannotatedRecipients, List.mem_flatMap, List.mem_map, List.mem_filter]
  constructor
  · rintro ⟨step, hstep, c, ⟨hc, hgap⟩, rfl⟩
    exact ⟨step, hstep, c, hc, hgap, rfl⟩
  · rintro ⟨step, hstep, c, hc, hgap, rfl⟩
    exact ⟨step, hstep, c, ⟨hc, hgap⟩, rfl⟩

end StrategyBuilder.Shared
