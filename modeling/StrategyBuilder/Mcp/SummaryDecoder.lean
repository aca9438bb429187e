import StrategyBuilder.Shared.Amount
import StrategyBuilder.Shared.StepRoles

/-!
# The confirmation summary

`decodeRawGraph` of `summary-decoder.ts`: what the user reads before signing. A decoded step has one
place each for a token, an amount, a recipient and a direction, and a schema may have any number of
fields with these roles.

`summary_tells_iff` says when nothing is hidden: the amounts are numbers, and every step is named in a
warning or fits into its places, that is, fields with one role hold one value.
-/

set_option autoImplicit false

namespace StrategyBuilder.Mcp

open StrategyBuilder.Automation
open StrategyBuilder.Lib.Js
open StrategyBuilder.Shared

/-! ## The decoder -/

/-- The step types, by their ids. -/
abbrev DecoderCatalog := Record CatalogStep

/-- A step as it is shown. -/
structure DecodedStep where
  stepType : String
  category : StepCategory
  token : Option String
  amount : Option String
  amountRaw : Option String
  recipient : Option String
  direction : Option JsValue

/-- What could not be read. -/
inductive DecodeWarning where
  | unknownStepType (stepTypeId : String)
  | unknownDecimals (step : String) (token : JsValue)
  | unannotatedRecipient (gap : AnnotationGap)

namespace DecodeWarning

/-- The text of a warning. -/
def text : DecodeWarning → String
  | unknownStepType stepTypeId =>
      "Unbekannte Step-Type-ID \"" ++ stepTypeId ++ "\" — nicht decodierbar."
  | unknownDecimals step token =>
      step ++ ": Betrag nicht decodierbar — unbekannte Decimals für Token " ++
        valueToString token ++ "."
  | unannotatedRecipient gap =>
      gap.step ++ ": Empfänger-Feld \"" ++ gap.field ++
        "\" ohne recipient-Rolle — für Decoder/Allowlist unsichtbar."

/-- The step that a warning names. -/
def step? : DecodeWarning → Option String
  | unknownStepType _ => none
  | unknownDecimals step _ => some step
  | unannotatedRecipient gap => some gap.step

end DecodeWarning

/-- Who executes the automation. -/
inductive ExecutionMode where
  | publicMode
  | ownerMode
deriving DecidableEq, Repr

/-- What the user is shown of a graph. -/
structure DecodedSummary where
  steps : List DecodedStep
  execution : Option ExecutionMode
  warnings : List DecodeWarning

/-- `v !== undefined` -/
def defined? : JsValue → Option JsValue
  | .undefined => none
  | v => some v

/-- What the loop over the fields of a step has found. -/
structure RoleSlots where
  firstTokenValue : Option String
  recipient : Option String
  direction : Option JsValue
  amountField : Option (String × RoleField)

/-- One round of the loop. -/
def readField (params : Record JsValue) (slots : RoleSlots) (f : String × RoleField) : RoleSlots :=
  match resolveFieldRole (some f.2), defined? (param params f.1) with
  | some .token, some raw =>
      { slots with firstTokenValue := slots.firstTokenValue.or (some (valueToString raw)) }
  | some .recipient, some raw => { slots with recipient := some (valueToString raw) }
  | some .direction, some raw => { slots with direction := some raw }
  | some .amount, _ => { slots with amountField := some f }
  | _, _ => slots

/-- The fields by their roles: the first token, and the last one of every other role. -/
def readFields (params : Record JsValue) (fields : Record RoleField) : RoleSlots :=
  fields.foldl (readField params) ⟨none, none, none, none⟩

/-- `tokenField ? params[tokenField] : firstTokenValue` -/
def amountToken (params : Record JsValue) (firstTokenValue : Option String) (schema : RoleField) :
    JsValue :=
  match reference schema.amountTokenField with
  | some tokenField => param params tokenField
  | none => (firstTokenValue.map JsValue.str).getD .undefined

/-- `typeof tokenAddr === 'string' ? tokenDecimals[tokenAddr.toLowerCase()] : undefined` -/
def decimalsOf (tokenDecimals : Record Nat) : JsValue → Property Nat
  | .str tokenAddr => tokenDecimals.get tokenAddr.toLower
  | _ => .undefined

/-- One node whose step is in the catalog. -/
def decodeNode (tokenDecimals : Record Nat) (step : CatalogStep) (node : EditorNode) :
    Mapped (DecodedStep × List DecodeWarning) :=
  let slots := readFields node.params step.fields
  let decoded : DecodedStep :=
    { stepType := step.name, category := node.type, token := slots.firstTokenValue, amount := none,
      amountRaw := none, recipient := slots.recipient, direction := slots.direction }
  match slots.amountField with
  | none => .ok (decoded, [])
  | some (field, schema) =>
      let tokenAddr := amountToken node.params slots.firstTokenValue schema
      let decoded := { decoded with
        token := ((defined? tokenAddr).map valueToString).or slots.firstTokenValue }
      match defined? (param node.params field) with
      | none => .ok (decoded, [])
      | some rawAmount =>
          let decoded := { decoded with amountRaw := some (valueToString rawAmount) }
          match decimalsOf tokenDecimals tokenAddr with
          | .undefined => .ok (decoded, [.unknownDecimals step.name tokenAddr])
          -- `fromBaseUnits` of a function as decimals
          | .inherited => .error ("decimals must be a non-negative integer, got: " ++
              Record.inheritedText (valueToString tokenAddr).toLower)
          | .own dec => do
              let amount ← fromBaseUnits (valueToString rawAmount) dec
              return ({ decoded with amount := some amount }, [])

/-- The name of what a table answers for a name of its prototype: a function, or for `__proto__` an
object without a name. -/
def inheritedName (stepTypeId : String) : String :=
  if stepTypeId = "constructor" then "Object"
  else if stepTypeId = "__proto__" then "" else stepTypeId

/-- One round of the loop over the nodes. -/
def decodeEntry (catalog : DecoderCatalog) (tokenDecimals : Record Nat) (node : EditorNode) :
    Mapped (Option DecodedStep × List DecodeWarning) :=
  match catalog.get node.stepTypeId with
  | .undefined => .ok (none, [.unknownStepType node.stepTypeId])
  | .inherited =>
      .ok (some ⟨inheritedName node.stepTypeId, node.type, none, none, none, none, none⟩, [])
  | .own step => do
      let (decoded, warnings) ← decodeNode tokenDecimals step node
      return (some decoded, warnings)

/-- The steps of the nodes that are in the catalog. -/
def referencedSteps (graph : EditorGraph) (catalog : DecoderCatalog) : List CatalogStep :=
  graph.nodes.filterMap fun n => Record.own? catalog n.stepTypeId

/-- `decodeRawGraph`: a step for each known node, and all warnings. -/
def decodeRawGraph (graph : EditorGraph) (catalog : DecoderCatalog) (tokenDecimals : Record Nat)
    (execution : Option ExecutionMode) : Mapped DecodedSummary := do
  let entries ← graph.nodes.mapM (decodeEntry catalog tokenDecimals)
  return {
    steps := entries.filterMap Prod.fst
    execution := execution
    warnings := entries.flatMap Prod.snd ++
      (findUnannotatedRecipients (referencedSteps graph catalog)).map .unannotatedRecipient }

/-! ## What the loop over the fields finds -/

section Fields

variable (params : Record JsValue) (fields : Record RoleField)

/-- The fields with a role. -/
def fieldsOf (role : FieldRole) : Record RoleField :=
  fields.filter fun f => resolveFieldRole (some f.2) = some role

/-- The values that are set in the fields with a role. -/
def valuesOf (role : FieldRole) : List JsValue :=
  (fieldsOf fields role).filterMap fun f => defined? (param params f.1)

/-- The first field that has the role of the token. -/
def firstToken : Option String := (valuesOf params fields .token).head?.map valueToString

theorem fieldsOf_append_singleton (role : FieldRole) (f : String × RoleField) :
    fieldsOf (fields ++ [f]) role =
      fieldsOf fields role ++ if resolveFieldRole (some f.2) = some role then [f] else [] := by
  rw [fieldsOf, List.filter_append, List.filter_singleton, Bool.cond_decide]
  rfl

theorem valuesOf_append_singleton (role : FieldRole) (f : String × RoleField) :
    valuesOf params (fields ++ [f]) role =
      valuesOf params fields role ++
        if resolveFieldRole (some f.2) = some role then (defined? (param params f.1)).toList
        else [] := by
  rw [valuesOf, fieldsOf_append_singleton, List.filterMap_append]
  split
  · cases h : defined? (param params f.1) <;> simp [valuesOf, h]
  · rfl

/-- The first token, and the last recipient, direction and amount. -/
theorem readFields_eq :
    readFields params fields =
      ⟨firstToken params fields, (valuesOf params fields .recipient).getLast?.map valueToString,
        (valuesOf params fields .direction).getLast?, (fieldsOf fields .amount).getLast?⟩ := by
  induction fields using List.reverseRecOn with
  | nil => rfl
  | append_singleton fields f ih =>
    have hfold : readFields params (fields ++ [f]) = readField params (readFields params fields) f :=
      List.foldl_concat ..
    rw [hfold, ih]
    simp only [firstToken, fieldsOf_append_singleton, valuesOf_append_singleton, readField]
    cases hrole : resolveFieldRole (some f.2) with
    | none => simp
    | some role =>
      cases role <;> cases hvalue : defined? (param params f.1) <;>
        simp [List.head?_append]

/-- The token of an amount field. -/
def ownToken (schema : RoleField) : JsValue :=
  amountToken params (firstToken params fields) schema

/-- The value of the last amount field and its token, if that field is set. -/
def amountRead : Option (JsValue × JsValue) :=
  (fieldsOf fields .amount).getLast?.bind fun f =>
    (defined? (param params f.1)).map fun raw => (raw, ownToken params fields f.2)

/-- The token of the last amount field. -/
def amountTokenRead : Option JsValue :=
  (fieldsOf fields .amount).getLast?.bind fun f => defined? (ownToken params fields f.2)

/-- The token of the last amount field if it is set, and else the first token. -/
def tokenRead : Option String :=
  ((amountTokenRead params fields).map valueToString).or (firstToken params fields)

/-- A value in the base units of a token, and how many decimals the token has. -/
def unitsOf (tokenDecimals : Record Nat) (raw token : JsValue) : Option (Int × Nat) :=
  (stringToBigInt (valueToString raw)).bind fun n =>
    (decimalsOf tokenDecimals token).own?.map fun dec => (n, dec)

end Fields

/-- The warnings of one node. -/
def nodeWarnings (tokenDecimals : Record Nat) (step : CatalogStep) (node : EditorNode) :
    List DecodeWarning :=
  match amountRead node.params step.fields with
  | none => []
  | some (_, token) =>
      match decimalsOf tokenDecimals token with
      | .undefined => [.unknownDecimals step.name token]
      | _ => []

/-- The amount of one node. -/
def nodeAmount (tokenDecimals : Record Nat) (step : CatalogStep) (node : EditorNode) :
    Mapped (Option String) :=
  match amountRead node.params step.fields with
  | none => .ok none
  | some (raw, token) =>
      match decimalsOf tokenDecimals token with
      | .undefined => .ok none
      | .inherited => .error ("decimals must be a non-negative integer, got: " ++
          Record.inheritedText (valueToString token).toLower)
      | .own dec => (fromBaseUnits (valueToString raw) dec).map some

/-- What a node is decoded to. -/
theorem decodeNode_eq (tokenDecimals : Record Nat) (step : CatalogStep) (node : EditorNode) :
    decodeNode tokenDecimals step node =
      (nodeAmount tokenDecimals step node).map fun amount =>
        ({ stepType := step.name, category := node.type,
           token := tokenRead node.params step.fields, amount := amount,
           amountRaw := (amountRead node.params step.fields).map fun p => valueToString p.1,
           recipient := (valuesOf node.params step.fields .recipient).getLast?.map valueToString,
           direction := (valuesOf node.params step.fields .direction).getLast? },
          nodeWarnings tokenDecimals step node) := by
  rw [decodeNode, readFields_eq]
  cases hfield : (fieldsOf step.fields .amount).getLast? with
  | none => simp [nodeAmount, nodeWarnings, amountRead, tokenRead, amountTokenRead, hfield, Except.map]
  | some f =>
    cases hraw : defined? (param node.params f.1) with
    | none => simp [nodeAmount, nodeWarnings, amountRead, tokenRead, amountTokenRead, ownToken,
          hfield, hraw, Except.map]
    | some raw =>
      cases hdec : decimalsOf tokenDecimals (ownToken node.params step.fields f.2) with
      | undefined | inherited =>
        rw [ownToken] at hdec
        simp [nodeAmount, nodeWarnings, amountRead, tokenRead, amountTokenRead, ownToken,
          hfield, hraw, hdec, Except.map]
      | own dec =>
        rw [ownToken] at hdec
        cases hunits : fromBaseUnits (valueToString raw) dec <;>
          simp [nodeAmount, nodeWarnings, amountRead, tokenRead, amountTokenRead, ownToken,
          hfield, hraw, hdec, hunits,
            Except.map, bind, Except.bind, pure, Except.pure]

/-! ## What a summary tells -/

/-- There is a warning of this step. -/
def Warned (warnings : List DecodeWarning) (name : String) : Prop :=
  ∃ w ∈ warnings, w.step? = some name

/-- Every token, amount and recipient of a node is shown, or a warning names the step. -/
structure StepTold (tokenDecimals : Record Nat) (warnings : List DecodeWarning) (step : CatalogStep)
    (node : EditorNode) (decoded : DecodedStep) : Prop where
  token : ∀ v ∈ valuesOf node.params step.fields .token,
    decoded.token = some (valueToString v) ∨ Warned warnings step.name
  recipient : ∀ v ∈ valuesOf node.params step.fields .recipient,
    decoded.recipient = some (valueToString v) ∨ Warned warnings step.name
  amount : ∀ f ∈ fieldsOf step.fields .amount, ∀ v, defined? (param node.params f.1) = some v →
    (∃ text n dec, decoded.amount = some text ∧
      unitsOf tokenDecimals v (ownToken node.params step.fields f.2) = some (n, dec) ∧
      DenotesUnits text n dec) ∨ Warned warnings step.name

/-- Whether a node has a decoded step. -/
def isDecoded (catalog : DecoderCatalog) (node : EditorNode) : Bool :=
  match catalog.get node.stepTypeId with
  | .undefined => false
  | _ => true

/-- A summary tells everything about the nodes of a graph. -/
def Tells (graph : EditorGraph) (catalog : DecoderCatalog) (tokenDecimals : Record Nat)
    (summary : DecodedSummary) : Prop :=
  List.Forall₂ (fun node decoded => ∀ step, Record.own? catalog node.stepTypeId = some step →
      StepTold tokenDecimals summary.warnings step node decoded)
    (graph.nodes.filter (isDecoded catalog)) summary.steps

/-! ## When it tells everything -/

/-- The amount that is read has no known decimals, or it is a whole number whose token has an entry of
its own in the table. -/
def Readable (tokenDecimals : Record Nat) (step : CatalogStep) (node : EditorNode) : Prop :=
  ∀ raw token, amountRead node.params step.fields = some (raw, token) →
    decimalsOf tokenDecimals token ≠ .undefined →
      ∃ n dec, unitsOf tokenDecimals raw token = some (n, dec)

/-- The amount of a node has no known decimals. -/
def Undecodable (tokenDecimals : Record Nat) (step : CatalogStep) (node : EditorNode) : Prop :=
  ∃ raw token, amountRead node.params step.fields = some (raw, token) ∧
    decimalsOf tokenDecimals token = .undefined

/-- Some step of this name has an amount without decimals or a recipient without the role. -/
def Flagged (graph : EditorGraph) (catalog : DecoderCatalog) (tokenDecimals : Record Nat)
    (name : String) : Prop :=
  ∃ node ∈ graph.nodes, ∃ step, Record.own? catalog node.stepTypeId = some step ∧
    step.name = name ∧
    (Undecodable tokenDecimals step node ∨ ∃ c ∈ step.abiFragment.getD [], isGap step c = true)

/-- The values of a node fit into the places of a decoded step. -/
structure Fits (tokenDecimals : Record Nat) (step : CatalogStep) (node : EditorNode) : Prop where
  token : ∀ v ∈ valuesOf node.params step.fields .token,
    ∀ w ∈ valuesOf node.params step.fields .token, valueToString v = valueToString w
  amountToken : ∀ t, amountTokenRead node.params step.fields = some t →
    ∀ v ∈ valuesOf node.params step.fields .token, valueToString v = valueToString t
  recipient : ∀ v ∈ valuesOf node.params step.fields .recipient,
    ∀ w ∈ valuesOf node.params step.fields .recipient, valueToString v = valueToString w
  amount : ∀ f ∈ fieldsOf step.fields .amount, ∀ v, defined? (param node.params f.1) = some v →
    ∃ n dec, unitsOf tokenDecimals v (ownToken node.params step.fields f.2) = some (n, dec) ∧
    ∃ raw token m dec', amountRead node.params step.fields = some (raw, token) ∧
      unitsOf tokenDecimals raw token = some (m, dec') ∧ SignFits m dec' ∧
      mkRat n (10 ^ dec) = mkRat m (10 ^ dec')

/-- An amount of base units has a number and known decimals. -/
theorem unitsOf_eq_some {tokenDecimals : Record Nat} {raw token : JsValue} {n : Int} {dec : Nat} :
    unitsOf tokenDecimals raw token = some (n, dec) ↔
      stringToBigInt (valueToString raw) = some n ∧ decimalsOf tokenDecimals token = .own dec := by
  simp [unitsOf, Option.bind_eq_some_iff, Property.own?_eq_some]

/-- A text is made of every integer. -/
theorem fromBaseUnits_isOk {base : String} {dec : Nat} :
    (∃ text, fromBaseUnits base dec = .ok text) ↔ ∃ n, stringToBigInt base = some n := by
  cases h : stringToBigInt base with
  | none => simp [fromBaseUnits, h]
  | some n =>
    obtain ⟨text, hok, -⟩ := fromBaseUnits_value h dec
    exact iff_of_true ⟨text, hok⟩ ⟨n, rfl⟩

section Node

variable {tokenDecimals : Record Nat} {step : CatalogStep} {node : EditorNode}

/-- When the amount of a node can be read. -/
theorem nodeAmount_isOk :
    (∃ amount, nodeAmount tokenDecimals step node = .ok amount) ↔
      Readable tokenDecimals step node := by
  rw [nodeAmount, Readable]
  cases hread : amountRead node.params step.fields with
  | none => simp
  | some p =>
    obtain ⟨raw, token⟩ := p
    cases hdec : decimalsOf tokenDecimals token with
    | undefined =>
      refine iff_of_true ⟨none, by simp [hdec]⟩ ?_
      rintro raw' token' ⟨⟩ hdec'
      exact absurd hdec hdec'
    | inherited =>
      -- inherited decimals throw
      refine iff_of_false (by simp [hdec]) fun h => ?_
      obtain ⟨n, dec, hunits⟩ := h raw token rfl (by simp [hdec])
      rw [unitsOf_eq_some, hdec] at hunits
      cases hunits.2
    | own dec =>
      have hmap : (∃ amount, (fromBaseUnits (valueToString raw) dec).map some = .ok amount) ↔
          ∃ text, fromBaseUnits (valueToString raw) dec = .ok text := by
        cases fromBaseUnits (valueToString raw) dec <;> simp [Except.map]
      simp only [hdec, hmap, fromBaseUnits_isOk, Option.some.injEq, Prod.mk.injEq]
      constructor
      · rintro ⟨n, hn⟩ raw' token' ⟨rfl, rfl⟩ -
        exact ⟨n, dec, unitsOf_eq_some.2 ⟨hn, hdec⟩⟩
      · intro h
        obtain ⟨n, dec', hunits⟩ := h raw token ⟨rfl, rfl⟩ (by simp [hdec])
        exact ⟨n, (unitsOf_eq_some.1 hunits).1⟩

/-- An amount that is shown is the amount that is read, and its sign fits. -/
theorem nodeAmount_denotes {amount : Option String} (h : nodeAmount tokenDecimals step node = .ok amount)
    {n : Int} {dec : Nat} :
    (∃ text, amount = some text ∧ DenotesUnits text n dec) ↔
      ∃ raw token m dec', amountRead node.params step.fields = some (raw, token) ∧
        unitsOf tokenDecimals raw token = some (m, dec') ∧ SignFits m dec' ∧
        mkRat n (10 ^ dec) = mkRat m (10 ^ dec') := by
  rw [nodeAmount] at h
  cases hread : amountRead node.params step.fields with
  | none =>
    rw [hread] at h
    cases h
    simp
  | some p =>
    obtain ⟨raw, token⟩ := p
    simp only [hread] at h
    cases hdec : decimalsOf tokenDecimals token with
    | undefined =>
      simp only [hdec] at h
      cases h
      simp [unitsOf_eq_some, hdec]
    | inherited =>
      simp only [hdec] at h
      cases h
    -- only a token with decimals of its own has a text
    | own d =>
      simp only [hdec] at h
      cases hunits : fromBaseUnits (valueToString raw) d with
      | error e =>
        rw [hunits] at h
        cases h
      | ok text =>
        rw [hunits] at h
        cases h
        obtain ⟨m, hm⟩ := fromBaseUnits_isOk.1 ⟨text, hunits⟩
        obtain ⟨text', htext', hvalue⟩ := fromBaseUnits_value hm d
        rw [hunits] at htext'
        cases htext'
        constructor
        · rintro ⟨_, ⟨⟩, hdenotes⟩
          -- a sign that does not fit ends up inside the text, which is then no number
          rcases hvalue with ⟨hfits, hvalue⟩ | ⟨-, hvalue⟩
          · rw [DenotesUnits, hvalue] at hdenotes
            have heq := (JsNumber.finite.inj hdenotes).symm
            exact ⟨raw, token, m, d, rfl, unitsOf_eq_some.2 ⟨hm, hdec⟩, hfits, heq⟩
          · rw [DenotesUnits, hvalue] at hdenotes
            cases hdenotes
        · rintro ⟨_, _, m', d', ⟨⟩, hunits', hfits, heq⟩
          obtain ⟨hm', hd'⟩ := unitsOf_eq_some.1 hunits'
          rw [hm] at hm'
          rw [hdec] at hd'
          cases hm'
          cases hd'
          rcases hvalue with ⟨-, hvalue⟩ | ⟨hnot, -⟩
          · exact ⟨text, rfl, by rw [DenotesUnits, heq, hvalue]⟩
          · exact absurd hfits hnot

theorem forall_head {α : Type} {g : α → String} {l : List α} :
    (∀ v ∈ l, l.head?.map g = some (g v)) ↔ ∀ v ∈ l, ∀ w ∈ l, g v = g w := by
  cases l with
  | nil => simp
  | cons x l =>
    simp only [List.head?_cons, Option.map_some, Option.some.injEq]
    constructor
    · intro h v hv w hw
      rw [← h v hv, ← h w hw]
    · intro h v hv
      exact h x (List.mem_cons_self ..) v hv

theorem forall_getLast {α : Type} {g : α → String} {l : List α} :
    (∀ v ∈ l, l.getLast?.map g = some (g v)) ↔ ∀ v ∈ l, ∀ w ∈ l, g v = g w := by
  rw [← List.head?_reverse]
  simpa using forall_head (g := g) (l := l.reverse)

/-- The token that is shown is every token of the node. -/
theorem forall_tokenRead (params : Record JsValue) (fields : Record RoleField) :
    (∀ v ∈ valuesOf params fields .token, tokenRead params fields = some (valueToString v)) ↔
      (∀ v ∈ valuesOf params fields .token, ∀ w ∈ valuesOf params fields .token,
        valueToString v = valueToString w) ∧
      ∀ t, amountTokenRead params fields = some t →
        ∀ v ∈ valuesOf params fields .token, valueToString v = valueToString t := by
  rw [tokenRead]
  cases htoken : amountTokenRead params fields with
  | none =>
    rw [Option.map_none, Option.none_or, firstToken, forall_head]
    exact ⟨fun h => ⟨h, nofun⟩, And.left⟩
  | some t =>
    simp only [Option.map_some, Option.some_or, Option.some.injEq]
    constructor
    · intro h
      refine ⟨fun v hv w hw => (h v hv).symm.trans (h w hw), ?_⟩
      rintro t' rfl v hv
      exact (h v hv).symm
    · rintro ⟨-, h⟩ v hv
      exact (h t rfl v hv).symm

/-- A node whose step no warning names is told exactly if its values fit. -/
theorem stepTold_iff {decoded : DecodedStep} {ws warnings : List DecodeWarning}
    (h : decodeNode tokenDecimals step node = .ok (decoded, ws)) :
    StepTold tokenDecimals warnings step node decoded ↔
      Warned warnings step.name ∨ Fits tokenDecimals step node := by
  rw [decodeNode_eq] at h
  cases hamount : nodeAmount tokenDecimals step node with
  | error e =>
    rw [hamount] at h
    cases h
  | ok amount =>
    rw [hamount] at h
    cases h
    constructor
    · intro htold
      -- where no warning names the step, each of its values has to be told
      by_cases hwarned : Warned warnings step.name
      · exact Or.inl hwarned
      · have htoken := (forall_tokenRead node.params step.fields).1 fun v hv =>
          (htold.token v hv).resolve_right hwarned
        refine Or.inr ⟨htoken.1, htoken.2, ?_, ?_⟩
        · exact forall_getLast.1 fun v hv => (htold.recipient v hv).resolve_right hwarned
        · intro f hf v hv
          obtain ⟨text, n, dec, hshown, hunits, hdenotes⟩ :=
            (htold.amount f hf v hv).resolve_right hwarned
          exact ⟨n, dec, hunits, (nodeAmount_denotes hamount).1 ⟨text, hshown, hdenotes⟩⟩
    · rintro (hwarned | hfits)
      · exact ⟨fun _ _ => Or.inr hwarned, fun _ _ => Or.inr hwarned, fun _ _ _ _ => Or.inr hwarned⟩
      · refine ⟨fun v hv => Or.inl ?_, fun v hv => Or.inl ?_, fun f hf v hv => Or.inl ?_⟩
        · exact (forall_tokenRead node.params step.fields).2 ⟨hfits.token, hfits.amountToken⟩ v hv
        · exact forall_getLast.2 hfits.recipient v hv
        · obtain ⟨n, dec, hunits, hread⟩ := hfits.amount f hf v hv
          obtain ⟨text, hshown, hdenotes⟩ := (nodeAmount_denotes hamount).2 hread
          exact ⟨text, n, dec, hshown, hunits, hdenotes⟩

/-- The warning of a node is that of its amount's token. -/
theorem mem_nodeWarnings {w : DecodeWarning} :
    (w ∈ nodeWarnings tokenDecimals step node) ↔
      ∃ raw token, amountRead node.params step.fields = some (raw, token) ∧
        decimalsOf tokenDecimals token = .undefined ∧ w = .unknownDecimals step.name token := by
  rw [nodeWarnings]
  cases hread : amountRead node.params step.fields with
  | none => simp
  | some p =>
    obtain ⟨raw, token⟩ := p
    cases hdec : decimalsOf tokenDecimals token with
    | undefined => simp [hdec]
    | inherited => simp [hdec]
    | own dec => simp [hdec]

end Node

/-! ## All nodes -/

section Graph

variable {graph : EditorGraph} {catalog : DecoderCatalog} {tokenDecimals : Record Nat}

/-- A node of a known step type is decoded. -/
theorem decodeEntry_own {node : EditorNode} {step : CatalogStep}
    (h : Record.own? catalog node.stepTypeId = some step) :
    decodeEntry catalog tokenDecimals node =
      (decodeNode tokenDecimals step node).map fun p => (some p.1, p.2) := by
  have hget := Record.get_eq_own.2 h
  simp only [decodeEntry, hget]
  cases decodeNode tokenDecimals step node <;> rfl

/-- An entry with a step is that of its node. -/
theorem decodeNode_of_entry {node : EditorNode} {step : CatalogStep} {decoded : DecodedStep}
    {ws : List DecodeWarning} (hown : Record.own? catalog node.stepTypeId = some step)
    (h : decodeEntry catalog tokenDecimals node = .ok (some decoded, ws)) :
    decodeNode tokenDecimals step node = .ok (decoded, ws) := by
  rw [decodeEntry_own hown] at h
  cases hnode : decodeNode tokenDecimals step node with
  | error e =>
    rw [hnode] at h
    cases h
  | ok p =>
    rw [hnode] at h
    cases h
    rfl

/-- When a node is decoded. -/
theorem decodeEntry_isOk (node : EditorNode) :
    (∃ entry, decodeEntry catalog tokenDecimals node = .ok entry) ↔
      ∀ step, Record.own? catalog node.stepTypeId = some step →
        Readable tokenDecimals step node := by
  cases hget : catalog.get node.stepTypeId with
  | own step =>
    have hown := Record.get_eq_own.1 hget
    rw [decodeEntry_own hown, decodeNode_eq]
    constructor
    · rintro ⟨entry, hentry⟩ step' hstep'
      -- a catalog has one step of an id
      rw [hown] at hstep'
      cases hstep'
      apply nodeAmount_isOk.1
      cases hamount : nodeAmount tokenDecimals step node with
      | error e =>
        rw [hamount] at hentry
        cases hentry
      | ok amount => exact ⟨amount, rfl⟩
    · intro h
      obtain ⟨amount, hamount⟩ := nodeAmount_isOk.2 (h step hown)
      rw [hamount]
      exact ⟨_, rfl⟩
  | inherited =>
    refine iff_of_true ⟨_, by simp only [decodeEntry, hget]; rfl⟩ fun step hstep => ?_
    rw [Record.get_eq_own.2 hstep] at hget
    cases hget
  | undefined =>
    refine iff_of_true ⟨_, by simp only [decodeEntry, hget]; rfl⟩ fun step hstep => ?_
    rw [Record.get_eq_own.2 hstep] at hget
    cases hget

/-- A node has a decoded step exactly if its entry does. -/
theorem decodeEntry_isDecoded {node : EditorNode} {entry : Option DecodedStep × List DecodeWarning}
    (h : decodeEntry catalog tokenDecimals node = .ok entry) :
    entry.1.isSome = isDecoded catalog node := by
  rw [isDecoded]
  cases hget : catalog.get node.stepTypeId with
  | own step =>
    rw [decodeEntry_own (Record.get_eq_own.1 hget)] at h
    cases hnode : decodeNode tokenDecimals step node with
    | error e =>
      rw [hnode] at h
      cases h
    | ok p =>
      rw [hnode] at h
      cases h
      rfl
  | inherited =>
    simp only [decodeEntry, hget] at h
    cases h
    rfl
  | undefined =>
    simp only [decodeEntry, hget] at h
    cases h
    rfl

/-- The steps that are shown are those of the known nodes, in order. -/
theorem decodedEntries {nodes : List EditorNode}
    {entries : List (Option DecodedStep × List DecodeWarning)}
    (h : List.Forall₂ (fun node entry => decodeEntry catalog tokenDecimals node = .ok entry) nodes
      entries) :
    List.Forall₂ (fun node decoded => ∃ ws,
        decodeEntry catalog tokenDecimals node = .ok (some decoded, ws))
      (nodes.filter (isDecoded catalog)) (entries.filterMap Prod.fst) := by
  induction h with
  | nil => exact .nil
  | @cons node entry nodes entries hentry _ ih =>
    have hdecoded := decodeEntry_isDecoded hentry
    obtain ⟨_ | decoded, ws⟩ := entry
    · rw [List.filter_cons_of_neg (by simp [← hdecoded])]
      exact ih
    · rw [List.filter_cons_of_pos hdecoded.symm]
      exact .cons ⟨ws, hentry⟩ ih

/-- A summary consists of the entries of all nodes. -/
theorem decodeRawGraph_ok {execution : Option ExecutionMode} {summary : DecodedSummary}
    (h : decodeRawGraph graph catalog tokenDecimals execution = .ok summary) :
    ∃ entries,
      List.Forall₂ (fun node entry => decodeEntry catalog tokenDecimals node = .ok entry) graph.nodes
        entries ∧
      summary.steps = entries.filterMap Prod.fst ∧
      summary.warnings = entries.flatMap Prod.snd ++
        (findUnannotatedRecipients (referencedSteps graph catalog)).map .unannotatedRecipient := by
  rw [decodeRawGraph] at h
  cases hentries : graph.nodes.mapM (decodeEntry catalog tokenDecimals) with
  | error e =>
    rw [hentries] at h
    cases h
  | ok entries =>
    rw [hentries] at h
    cases h
    exact ⟨entries, mapM_forall₂ hentries, rfl, rfl⟩

/-- What throws is an amount that is no whole number, or whose decimals are what the table inherits. -/
theorem decodeRawGraph_isOk {execution : Option ExecutionMode} :
    (∃ summary, decodeRawGraph graph catalog tokenDecimals execution = .ok summary) ↔
      ∀ node ∈ graph.nodes, ∀ step, Record.own? catalog node.stepTypeId = some step →
        Readable tokenDecimals step node := by
  have hmap : (∃ summary, decodeRawGraph graph catalog tokenDecimals execution = .ok summary) ↔
      ∃ entries, graph.nodes.mapM (decodeEntry catalog tokenDecimals) = .ok entries := by
    rw [decodeRawGraph]
    cases graph.nodes.mapM (decodeEntry catalog tokenDecimals) with
    | error e => exact ⟨nofun, nofun⟩
    | ok entries => exact ⟨fun _ => ⟨entries, rfl⟩, fun _ => ⟨_, rfl⟩⟩
  rw [hmap, mapM_isOk]
  exact forall₂_congr fun node _ => decodeEntry_isOk node

/-- The steps that warnings name. -/
theorem warned_iff {execution : Option ExecutionMode} {summary : DecodedSummary}
    (h : decodeRawGraph graph catalog tokenDecimals execution = .ok summary) (name : String) :
    Warned summary.warnings name ↔ Flagged graph catalog tokenDecimals name := by
  obtain ⟨entries, hentries, -, hwarnings⟩ := decodeRawGraph_ok h
  rw [Warned, hwarnings]
  constructor
  · rintro ⟨w, hw, hname⟩
    -- a warning of the decoder itself, or one of the recipient check
    rcases List.mem_append.1 hw with hw | hw
    · obtain ⟨entry, hentry, hw⟩ := List.mem_flatMap.1 hw
      obtain ⟨node, hnode, hok⟩ := forall₂_right hentries hentry
      cases hget : catalog.get node.stepTypeId with
      | own step =>
        have hown := Record.get_eq_own.1 hget
        rw [decodeEntry_own hown, decodeNode_eq] at hok
        cases hamount : nodeAmount tokenDecimals step node with
        | error e =>
          rw [hamount] at hok
          cases hok
        | ok amount =>
          rw [hamount] at hok
          cases hok
          obtain ⟨raw, token, hread, hdec, rfl⟩ := mem_nodeWarnings.1 hw
          exact ⟨node, hnode, step, hown, Option.some.inj hname, Or.inl ⟨raw, token, hread, hdec⟩⟩
      | inherited =>
        simp only [decodeEntry, hget] at hok
        cases hok
        cases hw
      | undefined =>
        simp only [decodeEntry, hget] at hok
        cases hok
        rw [List.mem_singleton.1 hw] at hname
        cases hname
    · obtain ⟨gap, hgap, rfl⟩ := List.mem_map.1 hw
      obtain ⟨step, hstep, c, hc, hisGap, rfl⟩ := mem_findUnannotatedRecipients.1 hgap
      obtain ⟨node, hnode, hown⟩ := List.mem_filterMap.1 hstep
      exact ⟨node, hnode, step, hown, Option.some.inj hname, Or.inr ⟨c, hc, hisGap⟩⟩
  · rintro ⟨node, hnode, step, hown, rfl, ⟨raw, token, hread, hdec⟩ | ⟨c, hc, hisGap⟩⟩
    · obtain ⟨entry, hentry, hok⟩ := forall₂_left hentries hnode
      refine ⟨.unknownDecimals step.name token, List.mem_append_left _ ?_, rfl⟩
      apply List.mem_flatMap.2
      refine ⟨entry, hentry, ?_⟩
      rw [decodeEntry_own hown, decodeNode_eq] at hok
      -- a step that is warned of shows no amount
      have hamount : nodeAmount tokenDecimals step node = .ok none := by
        simp only [nodeAmount, hread, hdec]
      rw [hamount] at hok
      cases hok
      exact mem_nodeWarnings.2 ⟨raw, token, hread, hdec, rfl⟩
    · refine ⟨.unannotatedRecipient ⟨step.name, c.name⟩, List.mem_append_right _ ?_, rfl⟩
      apply List.mem_map_of_mem
      apply mem_findUnannotatedRecipients.2
      exact ⟨step, List.mem_filterMap.2 ⟨node, hnode, hown⟩, c, hc, hisGap, rfl⟩

theorem isDecoded_of_own {node : EditorNode} {step : CatalogStep}
    (h : Record.own? catalog node.stepTypeId = some step) : isDecoded catalog node = true := by
  simp only [isDecoded, Record.get_eq_own.2 h]

/-- A summary tells everything exactly if every amount that it reads is a number of a token with an
entry of its own, or of a token without decimals, and every step is named by a warning or has values
that fit. -/
theorem summary_tells_iff (graph : EditorGraph) (catalog : DecoderCatalog)
    (tokenDecimals : Record Nat) (execution : Option ExecutionMode) :
    (∃ summary, decodeRawGraph graph catalog tokenDecimals execution = .ok summary ∧
      Tells graph catalog tokenDecimals summary) ↔
    ∀ node ∈ graph.nodes, ∀ step, Record.own? catalog node.stepTypeId = some step →
      Readable tokenDecimals step node ∧
        (Flagged graph catalog tokenDecimals step.name ∨ Fits tokenDecimals step node) := by
  constructor
  · rintro ⟨summary, hsummary, htells⟩ node hnode step hown
    obtain ⟨entries, hentries, hsteps, -⟩ := decodeRawGraph_ok hsummary
    have hdecoded := decodedEntries hentries
    rw [← hsteps] at hdecoded
    have hmem := List.mem_filter.2 ⟨hnode, isDecoded_of_own hown⟩
    -- each decoded step is told, beside the node that it comes from
    have hboth := hdecoded.mp (fun _ _ hok htold => And.intro hok htold) htells
    obtain ⟨decoded, -, ⟨ws, hok⟩, htold⟩ := forall₂_left hboth hmem
    refine ⟨decodeRawGraph_isOk.1 ⟨summary, hsummary⟩ node hnode step hown, ?_⟩
    rw [← warned_iff hsummary]
    exact (stepTold_iff (decodeNode_of_entry hown hok)).1 (htold step hown)
  · intro h
    obtain ⟨summary, hsummary⟩ := decodeRawGraph_isOk.2 fun node hnode step hown =>
      (h node hnode step hown).1
    obtain ⟨entries, hentries, hsteps, -⟩ := decodeRawGraph_ok hsummary
    refine ⟨summary, hsummary, ?_⟩
    rw [Tells, hsteps]
    apply forall₂_of_mem (decodedEntries hentries)
    rintro node hnode decoded ⟨ws, hok⟩ step hown
    apply (stepTold_iff (decodeNode_of_entry hown hok)).2
    rw [warned_iff hsummary]
    exact (h node (List.mem_filter.1 hnode).1 step hown).2

end Graph

/-! ## A swap -/

/-- A field of the swap of the seed with only its widget and the token field of its amount. -/
def swapField (widget : Widget) (amountTokenField : Option String) : RoleField where
  title := none
  default := .undefined
  widget := some widget
  slotAccess := none
  timeSlotField := none
  zeroToggle := none
  amountTokenField := amountTokenField
  targetHfField := none
  tickLowerField := none
  tickUpperField := none
  role := .undefined

/-- The tokens and the amount of the swap of the seed. -/
def swapStep : CatalogStep where
  name := "PancakeSwap V3 Swap"
  properties := some [
    ("tokenIn", swapField .tokenSelector none),
    ("tokenOut", swapField .tokenSelector none),
    ("amountIn", swapField .tokenAmount (some "tokenIn"))]
  required := ["tokenIn", "tokenOut", "amountIn"]
  abiFragment := some [⟨"tokenIn", .address⟩, ⟨"tokenOut", .address⟩, ⟨"amountIn", .uint256⟩]

/-- A swap with an amount in base units. -/
def swapNode : EditorNode where
  id := "n1"
  type := .action
  stepTypeId := "swap"
  params := [("tokenIn", .str "0x11"), ("tokenOut", .str "0x22"), ("amountIn", .str "15")]

/-- The graph of the swap. -/
def swapGraph : EditorGraph := ⟨[swapNode], []⟩

/-- The catalog with the swap. -/
def swapCatalog : DecoderCatalog := [("swap", swapStep)]

/-- What is shown of it. -/
def swapSummary : DecodedSummary where
  steps := [⟨"PancakeSwap V3 Swap", .action, some "0x11", some "1.5", some "15", none, none⟩]
  execution := none
  warnings := []

theorem toLower_eq {s t : String} (h : s.toList.map Char.toLower = t.toList) : s.toLower = t := by
  apply String.toList_inj.1
  change (s.map Char.toLower).toList = t.toList
  rw [String.toList_map, h]

theorem swap_annotated : findUnannotatedRecipients [swapStep] = [] := by
  have htokenIn : ("tokenIn" : String).toLower = "tokenin" := toLower_eq (by decide)
  have htokenOut : ("tokenOut" : String).toLower = "tokenout" := toLower_eq (by decide)
  simp [findUnannotatedRecipients, swapStep, isGap, htokenIn, htokenOut, recipientFieldNames]

theorem decodeNode_swap :
    decodeNode [("0x11", 1)] swapStep swapNode =
      .ok (⟨"PancakeSwap V3 Swap", .action, some "0x11", some "1.5", some "15", none, none⟩, []) := by
  have hlower : ("0x11" : String).toLower = "0x11" := toLower_eq (by decide)
  have hread : amountRead swapNode.params swapStep.fields = some (.str "15", .str "0x11") := rfl
  have hdec : decimalsOf [("0x11", 1)] (.str "0x11") = .own 1 := by
    rw [decimalsOf, hlower]
    rfl
  have hamount : nodeAmount [("0x11", 1)] swapStep swapNode = .ok (some "1.5") := by
    simp only [nodeAmount, hread, hdec]
    rfl
  have hwarnings : nodeWarnings [("0x11", 1)] swapStep swapNode = [] := by
    simp only [nodeWarnings, hread, hdec]
  rw [decodeNode_eq, hamount, hwarnings]
  rfl

/-- The token that a swap buys is not in the summary, and no warning says so. -/
theorem swap_hides_tokenOut :
    decodeRawGraph swapGraph swapCatalog [("0x11", 1)] none = .ok swapSummary ∧
      ¬ Tells swapGraph swapCatalog [("0x11", 1)] swapSummary := by
  constructor
  · have hentry : decodeEntry swapCatalog [("0x11", 1)] swapNode = _ := decodeEntry_own rfl
    have hsteps : referencedSteps swapGraph swapCatalog = [swapStep] := rfl
    rw [decodeNode_swap] at hentry
    rw [decodeRawGraph, hsteps, swap_annotated, swapGraph, List.mapM_cons, hentry]
    rfl
  · intro htells
    cases htells with
    | cons hnode _ =>
      have hmem : JsValue.str "0x22" ∈ valuesOf swapNode.params swapStep.fields .token :=
        List.mem_cons_of_mem _ (List.mem_cons_self ..)
      rcases (hnode swapStep rfl).token _ hmem with hshown | ⟨w, hw, -⟩
      · exact absurd hshown (by decide)
      · cases hw

end StrategyBuilder.Mcp
