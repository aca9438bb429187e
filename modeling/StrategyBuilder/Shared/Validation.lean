import StrategyBuilder.Lib.Js

/-!
# Parameter schemas and their validation

`validation.ts`, which frontend and backend share: the schema of a step's parameters, and the table
of rules that checks parameters against it. The frontend checks the friendly values that the editor
holds, the backend the raw values that it encodes.

Of a field's schema only what some function here or in the editor and the encoder reads is kept.
`number` is how a rule reads a value with `Number`: without the rounding of literals, unless it is given.
-/

set_option autoImplicit false

namespace StrategyBuilder.Shared

open StrategyBuilder.Lib.Js

/-! ## Schemas -/

/-- `x-ui-widget` -/
inductive Widget where
  | contextSlot
  | startTime
  | duration
  | tokenSelector
  | tokenAmount
  | accountSelector
  | healthFactor
  | aaveAmountMode
  | feeTier
  | tickRange
  | rangePercent
  | percent
  | amount
deriving DecidableEq, Repr

/-- `x-ui-slot-access` -/
inductive SlotAccess where
  | read
  | write
  | readWrite
deriving DecidableEq, Repr

/-- What the rules use of a field. -/
structure FieldSchema where
  title : Option String
  default : JsValue
  widget : Option Widget
  slotAccess : Option SlotAccess
  /-- `x-ui-time-slot-field` -/
  timeSlotField : Option String
  /-- `x-ui-zero-toggle`, with its own default. -/
  zeroToggle : Option (Option Bool)
  /-- `x-ui-amount-token-field` -/
  amountTokenField : Option String
  /-- `x-ui-target-hf-field` -/
  targetHfField : Option String
  /-- `x-ui-tick-lower-field` -/
  tickLowerField : Option String
  /-- `x-ui-tick-upper-field` -/
  tickUpperField : Option String

/-- The fields of a step type, and which are required. -/
structure ParamSchema where
  properties : Record FieldSchema
  required : List String

/-- The types of parameters in the catalog. -/
inductive AbiType where
  | address
  | bool
  | uint8
  | uint16
  | uint24
  | uint32
  | uint256
  | int24
deriving DecidableEq, Repr

/-- A component of the parameters. -/
structure AbiComponent where
  name : String
  type : AbiType
deriving DecidableEq, Repr

/-- What the user enters, or what is encoded. -/
inductive ValidationMode where
  | friendly
  | raw
deriving DecidableEq, Repr

/-- A violation, and its field. -/
structure ParamValidationError where
  field : String
  message : String
deriving DecidableEq, Repr

/-- `params[name]` -/
def param (params : Record JsValue) (name : String) : JsValue :=
  (Record.own? params name).getD .undefined

/-- A name that a schema refers to; the empty name refers to nothing. -/
def reference (name : Option String) : Option String := name.filter (· ≠ "")

/-- The title of a field, or its name. -/
def fieldLabel (schema : FieldSchema) (field : String) : String := schema.title.getD field

/-- A value that counts as not given. -/
def isEmpty : JsValue → Bool
  | .undefined => true
  | .null => true
  | .str s => s = ""
  | _ => false

/-- The two properties of a `Duration`. -/
def isDuration : JsValue → Option (JsValue × JsValue)
  | .object fields =>
      match Record.own? fields "value", Record.own? fields "unit" with
      | some value, some unit => some (value, unit)
      | _, _ => none
  | _ => none

/-- The field of a toggle. -/
def zeroToggleField (field : String) : String := field ++ "_useZero"

/-- The amount is meant to be 0. -/
def isZeroToggleOn (field : String) (schema : FieldSchema) (params : Record JsValue) : Bool :=
  schema.zeroToggle.isSome &&
    match param params (zeroToggleField field) with
    | .bool b => b
    | _ => false

/-! ## The rules -/

/-- `/^\d+(\.\d+)?$/`, with the digits before and after the point. -/
def amountParts (cs : List Char) : Option (List Char × List Char) :=
  match mantissa cs with
  | (whole, fraction, rest) =>
      if whole ≠ [] ∧ rest = [] ∧ (fraction ≠ [] ∨ cs = whole) then some (whole, fraction) else none

/-- `tokenDecimals?.[tokenAddr.toLowerCase()]` of the token that an amount is in. -/
def amountDecimals (schema : FieldSchema) (params : Record JsValue)
    (tokenDecimals : Option (Record Nat)) : Property Nat :=
  match (reference schema.amountTokenField).map (param params), tokenDecimals with
  | some (.str tokenAddr), some decimals => decimals.get tokenAddr.toLower
  | _, _ => .undefined

/-- The rule of an amount: a whole number of base units, or a decimal number with no more places than
the token has. -/
def validateTokenAmount (field : String) (schema : FieldSchema) (value : JsValue)
    (mode : ValidationMode) (params : Record JsValue) (tokenDecimals : Option (Record Nat)) :
    List ParamValidationError :=
  let label := fieldLabel schema field
  match mode with
  | .raw =>
      match stringToBigInt (valueToString value) with
      | none => [⟨field, label ++ " must be a whole number of base units"⟩]
      | some n =>
          if n < 0 then [⟨field, label ++ " must be at least 0"⟩]
          else if 2 ^ 256 ≤ n then [⟨field, label ++ " is too large"⟩]
          else []
  | .friendly =>
      if isZeroToggleOn field schema params then []
      else if isEmpty value then [⟨field, label ++ " is required"⟩]
      else match amountParts (trim (valueToString value).toList) with
        | none => [⟨field, label ++ " must be a valid amount"⟩]
        | some (whole, fraction) =>
            if schema.zeroToggle.isSome && (whole ++ fraction).all (· = '0') then
              [⟨field, label ++ " must be greater than 0"⟩]
            else match amountDecimals schema params tokenDecimals with
              | .own decimals =>
                  if decimals < fraction.length then
                    [⟨field, label ++ " allows at most " ++ toString decimals ++
                      " decimal places"⟩]
                  else []
              -- no number of places is larger than an inherited function
              | .inherited => []
              | .undefined => []

/-- `ADDRESS_RE` -/
def isAddress (cs : List Char) : Bool :=
  cs.length = 42 && cs.take 2 = ['0', 'x'] && (cs.drop 2).all fun c => (digit? 16 c).isSome

/-- The rule of a token, for the raw value only. -/
def validateTokenSelector (field : String) (schema : FieldSchema) (value : JsValue)
    (mode : ValidationMode) : List ParamValidationError :=
  match mode with
  | .friendly => []
  | .raw =>
      let label := fieldLabel schema field
      let str := match value with
        | .str s => s
        | _ => ""
      if isAddress str.toList = false then [⟨field, label ++ " must be a valid token address"⟩]
      else if (str.toList.drop 2).all (· = '0') then
        [⟨field, label ++ " must not be the zero address"⟩]
      else []

/-- `MIN_TARGET_HF_WAD` -/
def minTargetHfWad : Int := 1050000000000000000

/-- The rule of the mode with a target, which has to be above the least one. -/
def validateAaveAmountMode (schema : FieldSchema) (value : JsValue) (mode : ValidationMode)
    (params : Record JsValue) (number : JsValue → JsNumber := toNumber) :
    List ParamValidationError :=
  if number value ≠ .finite 3 then []
  else match reference schema.targetHfField with
    | none => []
    | some hfField =>
        let hf := param params hfField
        let tooLow : List ParamValidationError :=
          -- the error names the field of the target, not the mode
          [⟨hfField, "Target health factor must be greater than 1.05"⟩]
        match mode with
        | .raw =>
            match stringToBigInt (valueToString hf) with
            | none => tooLow
            | some n => if n ≤ minTargetHfWad then tooLow else []
        | .friendly =>
            match number hf with
            | .finite q => if q ≤ mkRat 105 100 then tooLow else []
            | _ => tooLow

/-- The rule of a range with ticks: the lower one is below the upper one. -/
def validateTickRange (schema : FieldSchema) (value : JsValue) (params : Record JsValue)
    (number : JsValue → JsNumber := toNumber) : List ParamValidationError :=
  if number value ≠ .finite 0 then []
  else match reference schema.tickLowerField, reference schema.tickUpperField with
    | some lowerField, some upperField =>
        match number (param params lowerField), number (param params upperField) with
        | .finite lower, .finite upper =>
            if upper ≤ lower then
              [⟨upperField, "The upper price must be greater than the lower price"⟩]
            else []
        | _, _ => [⟨upperField, "The upper price must be greater than the lower price"⟩]
    | _, _ => []

/-- The rule of a fee tier, for the raw value only. -/
def validateFeeTier (field : String) (schema : FieldSchema) (value : JsValue)
    (mode : ValidationMode) (number : JsValue → JsNumber := toNumber) : List ParamValidationError :=
  match mode with
  | .friendly => []
  | .raw =>
      if (number value).integer? ∈ [some 100, some 500, some 2500, some 10000] then []
      else [⟨field, fieldLabel schema field ++ " must be one of 100, 500, 2500, 10000"⟩]

/-- The rule of a percentage, the same for both modes. -/
def validatePercent (field : String) (schema : FieldSchema) (value : JsValue)
    (number : JsValue → JsNumber := toNumber) : List ParamValidationError :=
  let wrong : List ParamValidationError :=
    [⟨field, fieldLabel schema field ++ " must be a whole number between 1 and 100"⟩]
  match (number value).integer? with
  | some n => if n < 1 ∨ 100 < n then wrong else []
  | none => wrong

/-- `DURATION_UNITS` -/
def durationUnits : List String := ["minutes", "hours", "days", "weeks"]

/-- The rule of a duration: a positive number of a unit, or whole seconds. -/
def validateDuration (field : String) (schema : FieldSchema) (value : JsValue)
    (mode : ValidationMode) (number : JsValue → JsNumber := toNumber) : List ParamValidationError :=
  let label := fieldLabel schema field
  match mode with
  | .friendly =>
      match isDuration value with
      | none => [⟨field, label ++ " must be a duration"⟩]
      | some (.num (.finite amount), unit) =>
          if amount ≤ 0 then [⟨field, label ++ " must be greater than 0"⟩]
          else match unit with
            | .str unit =>
                if unit ∈ durationUnits then [] else [⟨field, label ++ " has an invalid unit"⟩]
            | _ => [⟨field, label ++ " has an invalid unit"⟩]
      -- a text is refused, also one that reads as a number
      | some _ => [⟨field, label ++ " must be a number"⟩]
  | .raw =>
      match (number value).integer? with
      | none => [⟨field, label ++ " must be a whole number of seconds"⟩]
      | some seconds =>
          if seconds ≤ 0 then [⟨field, label ++ " must be greater than 0"⟩] else []

/-- The rule of a field's widget. -/
def validateWidget (field : String) (schema : FieldSchema) (value : JsValue) (mode : ValidationMode)
    (params : Record JsValue) (tokenDecimals : Option (Record Nat))
    (number : JsValue → JsNumber := toNumber) : List ParamValidationError :=
  match schema.widget with
  | some .aaveAmountMode => validateAaveAmountMode schema value mode params number
  | some .feeTier => validateFeeTier field schema value mode number
  | some .tickRange => validateTickRange schema value params number
  | some .percent => validatePercent field schema value number
  | some .duration => validateDuration field schema value mode number
  | some .tokenSelector => validateTokenSelector field schema value mode
  | some .tokenAmount => validateTokenAmount field schema value mode params tokenDecimals
  | _ => []

/-- One round of the loop in `validateParams`. -/
def validateField (schema : ParamSchema) (params : Record JsValue) (mode : ValidationMode)
    (tokenDecimals : Option (Record Nat)) (field : String) (fieldSchema : FieldSchema)
    (number : JsValue → JsNumber := toNumber) : List ParamValidationError :=
  let value := param params field
  let isAutoManaged : Bool := fieldSchema.widget = some .contextSlot
  let zeroToggled : Bool := fieldSchema.widget = some .tokenAmount && fieldSchema.zeroToggle.isSome
  if field ∈ schema.required ∧ isAutoManaged = false ∧ zeroToggled = false ∧ isEmpty value = true
  then [⟨field, fieldLabel fieldSchema field ++ " is required"⟩]
  else if isEmpty value = true ∧ zeroToggled = false then []
  else validateWidget field fieldSchema value mode params tokenDecimals number

/-- `validateParams`: the violations of all fields. -/
def validateParams (schema : ParamSchema) (params : Record JsValue) (mode : ValidationMode)
    (tokenDecimals : Option (Record Nat)) (number : JsValue → JsNumber := toNumber) :
    List ParamValidationError :=
  schema.properties.flatMap fun (field, fieldSchema) =>
    validateField schema params mode tokenDecimals field fieldSchema number

end StrategyBuilder.Shared
