import StrategyBuilder.Automation.Graph
import StrategyBuilder.Lib.Abi
import StrategyBuilder.Lib.Double
import StrategyBuilder.Shared.Validation

/-!
# The encode boundary

`encode-boundary.ts` with `duration.ts`, `amount.ts` and `timestamp.ts`: what the editor holds is
mapped to raw values right before it is sent to the encoder. Only fields of the ABI fragment are sent;
a start time travels as an override of the context slot that it seeds.

Data strings are the bytes they denote; `none` is a string that denotes none.
-/

set_option autoImplicit false

namespace StrategyBuilder.Shared

open StrategyBuilder.Automation
open StrategyBuilder.Lib.Abi
open StrategyBuilder.Lib.Js

/-- A hex data string; `none` is a value that is no such string, which the ABI encoder rejects. -/
abbrev HexData := Option Bytes

/-- What the functions here throw: an `Error` with a message. -/
abbrev Mapped := Except String

/-- What the mapping uses of a step type. -/
structure StepSchema where
  paramSchema : Option ParamSchema
  abiFragment : Option (List AbiComponent)

/-! ## Durations, amounts and timestamps -/

/-- `SECONDS_PER_UNIT` -/
def secondsPerUnit : String → Option Nat
  | "minutes" => some 60
  | "hours" => some (60 * 60)
  | "days" => some (60 * 60 * 24)
  | "weeks" => some (60 * 60 * 24 * 7)
  | _ => none

/-- A duration in seconds: the product of two doubles, rounded to a double. -/
def toSeconds (value unit : JsValue) : Mapped JsNumber :=
  match secondsPerUnit (valueToString unit) with
  | none => .error ("Unknown duration unit: " ++ valueToString unit)
  | some perUnit =>
      match value with
      | .num (.finite q) => .ok ((toDouble q).mul (.ofInt perUnit))
      | _ => .error ("Duration value must be a finite number, got: " ++ valueToString value)

/-- 2.05 minutes are a little less than 123 seconds. -/
example : toSeconds (.num (.finite 2.05)) (.str "minutes") = .ok (.finite (123 - 1 / 2 ^ 46)) := by
  decide +kernel

/-- An amount that matches `AMOUNT_RE`, in base units. -/
def toBaseUnits (value : String) (decimals : Nat) : Mapped String :=
  match amountParts (trim value.toList) with
  | none => .error ("Invalid token amount: " ++ value)
  | some (whole, fraction) =>
      if decimals < fraction.length then
        .error ("Token amount \"" ++ value ++ "\" has more than " ++ toString decimals ++
          " decimal places")
      else
        let padded := fraction ++ List.replicate (decimals - fraction.length) '0'
        -- `padEnd`, and the zeros in front are dropped
        let stripped := (whole ++ padded).dropWhile (· = '0')
        let combined := String.ofList (if stripped = [] then ['0'] else stripped)
        match stringToBigInt combined with
        | none => .error ("Cannot convert " ++ combined ++ " to a BigInt")
        | some n => .ok (toString n)

/-- The bytes of `'0x' + n.toString(16).padStart(64, '0')`: a word, or as many bytes as a longer even
number of digits spells. -/
def timestampData (n : Nat) : HexData :=
  if n < 2 ^ 256 then some (encodeWord n)
  else
    let digits := (Nat.toDigits 16 n).length
    if digits % 2 = 0 then some (toBytes (digits / 2) n) else none

/-- `encodeTimestamp`: a word with the seconds. -/
def encodeTimestamp (unixSeconds : JsNumber) : Mapped HexData :=
  match unixSeconds.integer? with
  | none => .error ("Timestamp must be an integer number of seconds, got: " ++
      numberToString unixSeconds)
  | some n =>
      if n < 0 then .error ("Timestamp must be non-negative, got: " ++ numberToString unixSeconds)
      else .ok (timestampData n.toNat)

/-! ## Parameters -/

/-- The conversion of one field; `token-amount` and `health-factor` values become base units. -/
def mapFieldToRaw (field : String) (fieldSchema : Option FieldSchema) (value : JsValue)
    (params : Record JsValue) (tokenDecimals : Option (Record Nat)) : Mapped JsValue :=
  match fieldSchema with
  | none => .ok value
  | some schema =>
      match schema.widget with
      | some .duration =>
          match isDuration value with
          | some (amount, unit) => do
              let seconds ← toSeconds amount unit
              return .str (numberToString seconds)
          | none => .ok value
      | some .healthFactor => do
          let base ← toBaseUnits (if isEmpty value then "0" else valueToString value) 18
          return .str base
      | some .tokenAmount =>
          if isZeroToggleOn field schema params then .ok (.str "0")
          else
            let tokenAddr :=
              valueToString (((reference schema.amountTokenField).map (param params)).getD .undefined)
            match amountDecimals schema params tokenDecimals with
            | .undefined => .error ("Cannot convert amount: unknown decimals for token " ++ tokenAddr ++
                ". Select an accepted token.")
            -- a name of the prototype is found, but is no number of decimals
            | .inherited => .error ("decimals must be a non-negative integer, got: " ++
                Record.inheritedText tokenAddr.toLower)
            | .own decimals => do
                let base ← toBaseUnits (valueToString value) decimals
                return .str base
      | _ => .ok value

/-- Whether a field is sent: it is set, or its zero-toggle is on. -/
def isSent (field : String) (fieldSchema : Option FieldSchema) (params : Record JsValue) : Bool :=
  match param params field with
  | .undefined =>
      match fieldSchema with
      | some schema => schema.widget = some .tokenAmount && isZeroToggleOn field schema params
      | none => false
  | _ => true

/-- One round of the loop in `mapParamsToRaw`. -/
def mapComponent (properties : Record FieldSchema) (params : Record JsValue)
    (tokenDecimals : Option (Record Nat)) (raw : Record JsValue) (c : AbiComponent) :
    Mapped (Record JsValue) :=
  let fieldSchema := Record.own? properties c.name
  if isSent c.name fieldSchema params then do
    let value ← mapFieldToRaw c.name fieldSchema (param params c.name) params tokenDecimals
    return raw.insert c.name value
  else .ok raw

/-- The components of an unknown step type, or of one without a fragment, are none. -/
def mapParamsToRaw (params : Record JsValue) (schema : Option StepSchema)
    (tokenDecimals : Option (Record Nat)) : Mapped (Record JsValue) :=
  let components := (schema.bind StepSchema.abiFragment).getD []
  let properties := ((schema.bind StepSchema.paramSchema).map ParamSchema.properties).getD []
  components.foldlM (mapComponent properties params tokenDecimals) []

/-- The node with raw values. -/
def mapNodeToRaw (stepSchemas : Record StepSchema) (tokenDecimals : Option (Record Nat))
    (n : EditorNode) : Mapped EditorNode := do
  let params ← mapParamsToRaw n.params (Record.own? stepSchemas n.stepTypeId) tokenDecimals
  return { n with params := params }

/-- `mapGraphToRaw`: the graph with raw values; what cannot be mapped throws. -/
def mapGraphToRaw (graph : EditorGraph) (stepSchemas : Record StepSchema)
    (tokenDecimals : Option (Record Nat)) : Mapped EditorGraph := do
  let nodes ← graph.nodes.mapM (mapNodeToRaw stepSchemas tokenDecimals)
  return { graph with nodes := nodes }

/-- One round keeps a context variable that is already sent. -/
theorem mapComponent_kept {properties : Record FieldSchema} {params raw raw' : Record JsValue}
    {tokenDecimals : Option (Record Nat)} {c : AbiComponent} {name s : String}
    {fieldSchema : FieldSchema} (hfield : properties.own? name = some fieldSchema)
    (hwidget : fieldSchema.widget = some .contextSlot) (hparam : param params name = .str s)
    (h : mapComponent properties params tokenDecimals raw c = .ok raw')
    (hraw : raw.own? name = some (.str s) ∨ c.name = name) : raw'.own? name = some (.str s) := by
  unfold mapComponent at h
  by_cases hc : c.name = name
  · subst hc
    have hsent : isSent c.name (properties.own? c.name) params = true := by
      simp [isSent, hparam]
    -- the variable's own round sends its text
    have hmap : mapFieldToRaw c.name (properties.own? c.name) (.str s) params tokenDecimals =
        .ok (.str s) := by
      simp [mapFieldToRaw, hfield, hwidget]
    simp only [hsent, if_true, hparam, hmap] at h
    cases h
    exact Record.own?_insert_self raw c.name _
  -- any other round writes under another name
  · have hraw := hraw.resolve_right hc
    by_cases hsent : isSent c.name (properties.own? c.name) params = true
    · simp only [hsent, if_true] at h
      cases hmap : mapFieldToRaw c.name (properties.own? c.name) (param params c.name) params
          tokenDecimals with
      | error e =>
        simp only [hmap] at h
        cases h
      | ok value =>
        simp only [hmap] at h
        cases h
        rw [Record.own?_insert_of_ne raw value (fun heq => hc heq.symm), hraw]
    · simp only [hsent] at h
      cases h
      exact hraw

/-- Context variables are sent as they are. -/
theorem mapParamsToRaw_contextSlot {params raw : Record JsValue} {schema : ParamSchema}
    {components : List AbiComponent} {tokenDecimals : Option (Record Nat)} {c : AbiComponent}
    {fieldSchema : FieldSchema} {s : String}
    (h : mapParamsToRaw params (some ⟨some schema, some components⟩) tokenDecimals = .ok raw)
    (hc : c ∈ components) (hfield : schema.properties.own? c.name = some fieldSchema)
    (hwidget : fieldSchema.widget = some .contextSlot) (hparam : param params c.name = .str s) :
    param raw c.name = .str s := by
  suffices hsuff : ∀ (cs : List AbiComponent) (acc : Record JsValue),
      cs.foldlM (mapComponent schema.properties params tokenDecimals) acc = .ok raw →
      acc.own? c.name = some (.str s) ∨ c ∈ cs → raw.own? c.name = some (.str s) by
    rw [param, hsuff components [] h (Or.inr hc)]
    rfl
  intro cs
  -- the variable is sent already, or its component is still ahead
  induction cs with
  | nil =>
    rintro acc hfold (hacc | hmem)
    · cases hfold
      exact hacc
    · cases hmem
  | cons x cs ih =>
    intro acc hfold hacc
    rw [List.foldlM_cons] at hfold
    cases hx : mapComponent schema.properties params tokenDecimals acc x with
    | error e =>
      rw [hx] at hfold
      cases hfold
    | ok acc' =>
      rw [hx] at hfold
      refine ih acc' hfold ?_
      rcases hacc with hacc | hmem
      · exact Or.inl (mapComponent_kept hfield hwidget hparam hx (Or.inl hacc))
      · rcases List.mem_cons.1 hmem with rfl | hmem
        · exact Or.inl (mapComponent_kept hfield hwidget hparam hx (Or.inr rfl))
        · exact Or.inr hmem

/-- A raw node differs from its node in the parameters only. -/
theorem mapNodeToRaw_ok {n n' : EditorNode} {stepSchemas : Record StepSchema}
    {tokenDecimals : Option (Record Nat)} (h : mapNodeToRaw stepSchemas tokenDecimals n = .ok n') :
    ∃ params, mapParamsToRaw n.params (stepSchemas.own? n.stepTypeId) tokenDecimals = .ok params ∧
      n' = { n with params := params } := by
  unfold mapNodeToRaw at h
  cases hparams : mapParamsToRaw n.params (stepSchemas.own? n.stepTypeId) tokenDecimals with
  | error e =>
    rw [hparams] at h
    cases h
  | ok params =>
    rw [hparams] at h
    cases h
    exact ⟨params, rfl, rfl⟩

theorem mapGraphToRaw_ok {graph raw : EditorGraph} {stepSchemas : Record StepSchema}
    {tokenDecimals : Option (Record Nat)}
    (h : mapGraphToRaw graph stepSchemas tokenDecimals = .ok raw) :
    graph.nodes.mapM (mapNodeToRaw stepSchemas tokenDecimals) = .ok raw.nodes := by
  unfold mapGraphToRaw at h
  cases hnodes : graph.nodes.mapM (mapNodeToRaw stepSchemas tokenDecimals) with
  | error e =>
    rw [hnodes] at h
    cases h
  | ok nodes =>
    rw [hnodes] at h
    cases h
    rfl

/-- The raw nodes stand where the nodes stand. -/
theorem mapGraphToRaw_node {graph raw : EditorGraph} {stepSchemas : Record StepSchema}
    {tokenDecimals : Option (Record Nat)} (h : mapGraphToRaw graph stepSchemas tokenDecimals = .ok raw)
    {i : Nat} {n : EditorNode} (hn : graph.nodes[i]? = some n) :
    ∃ params, mapParamsToRaw n.params (stepSchemas.own? n.stepTypeId) tokenDecimals = .ok params ∧
      raw.nodes[i]? = some { n with params := params } := by
  obtain ⟨n', hn', hmap⟩ := (mapM_ok (mapGraphToRaw_ok h)).2 i n hn
  obtain ⟨params, hparams, rfl⟩ := mapNodeToRaw_ok hmap
  exact ⟨params, hparams, hn'⟩

/-! ## Context overrides -/

/-- The slot that a `start-time` field of a node seeds, with the start time. -/
def seedOf (params : Record JsValue) (field : String) (fieldSchema : FieldSchema) :
    Option (String × JsValue) :=
  if fieldSchema.widget = some .startTime then
    match reference fieldSchema.timeSlotField with
    | none => none
    | some slotField =>
        match param params slotField with
        | .str slotName =>
            if slotName = "" ∨ isEmpty (param params field) = true then none
            else some (slotName, param params field)
        | _ => none
  else none

/-- The seeds of a graph, in the order in which the nested loops meet them. -/
def seeds (nodes : List EditorNode) (stepSchemas : Record StepSchema) : List (String × JsValue) :=
  nodes.flatMap fun node =>
    match (Record.own? stepSchemas node.stepTypeId).bind StepSchema.paramSchema with
    | none => []
    | some schema => schema.properties.filterMap fun (field, fieldSchema) =>
        seedOf node.params field fieldSchema

/-- The name-keyed overrides: a later seed of a slot replaces an earlier one. -/
def buildContextOverrides (nodes : List EditorNode) (stepSchemas : Record StepSchema) :
    Mapped (Record HexData) :=
  (seeds nodes stepSchemas).foldlM
    (fun overrides (slotName, startTime) => do
      let data ← encodeTimestamp (toNumber startTime)
      return overrides.set slotName data) []

/-- The seeds that a table holds: one for its prototype is lost. -/
def startTimes (nodes : List EditorNode) (stepSchemas : Record StepSchema) :
    List (String × JsValue) :=
  (seeds nodes stepSchemas).filter fun seed => seed.1 ≠ "__proto__"

/-- The start time for each slot: that of the last node that gives one. -/
def startTimeFor (nodes : List EditorNode) (stepSchemas : Record StepSchema) : Map String JsValue :=
  Map.ofEntries (startTimes nodes stepSchemas)

/-- The overrides are the encoded start times. -/
structure EncodedTimes (times : Map String JsValue) (overrides : Record HexData) : Prop where
  nodup : (overrides.map Prod.fst).Nodup
  unset : ∀ name, times name = none → overrides.own? name = none
  encoded : ∀ name startTime, times name = some startTime →
    ∃ data, encodeTimestamp (toNumber startTime) = .ok data ∧ overrides.own? name = some data

theorem EncodedTimes.set {times : Map String JsValue} {overrides : Record HexData}
    (h : EncodedTimes times overrides) {name : String} {startTime : JsValue} {data : HexData}
    (hdata : encodeTimestamp (toNumber startTime) = .ok data) (hproto : name ≠ "__proto__") :
    EncodedTimes (times.set name startTime) (overrides.set name data) := by
  refine ⟨Record.nodup_keys_set h.nodup name data, ?_, ?_⟩
  · intro other hother
    by_cases hname : other = name
    · subst hname
      rw [Map.set_self] at hother
      cases hother
    · rw [Map.set_of_ne times startTime hname] at hother
      rw [Record.own?_set_of_ne overrides data hname, h.unset other hother]
  · intro other t hother
    by_cases hname : other = name
    · subst hname
      rw [Map.set_self, Option.some.injEq] at hother
      subst hother
      exact ⟨data, hdata, Record.own?_set_self overrides data hproto⟩
    · rw [Map.set_of_ne times startTime hname] at hother
      rw [Record.own?_set_of_ne overrides data hname]
      exact h.encoded other t hother

theorem buildContextOverrides_ok {nodes : List EditorNode} {stepSchemas : Record StepSchema}
    {overrides : Record HexData} (h : buildContextOverrides nodes stepSchemas = .ok overrides) :
    EncodedTimes (startTimeFor nodes stepSchemas) overrides := by
  -- the loop, from the table that is built so far
  have hloop (l : List (String × JsValue)) (times : Map String JsValue) (table : Record HexData)
      (htable : EncodedTimes times table)
      (hfold : l.foldlM (fun overrides (slotName, startTime) => do
        let data ← encodeTimestamp (toNumber startTime)
        return overrides.set slotName data) table = .ok overrides) :
      EncodedTimes ((l.filter fun seed => seed.1 ≠ "__proto__").foldl
        (fun m e => m.set e.1 e.2) times) overrides := by
    induction l generalizing times table with
    | nil =>
      cases hfold
      exact htable
    | cons seed l ih =>
      obtain ⟨name, startTime⟩ := seed
      rw [List.foldlM_cons] at hfold
      cases hdata : encodeTimestamp (toNumber startTime) with
      | error e =>
        simp only [hdata] at hfold
        cases hfold
      | ok data =>
        simp only [hdata] at hfold
        -- a seed for the prototype sets no key
        by_cases hproto : name = "__proto__"
        · have hsame : table.set name data = table := if_pos hproto
          rw [List.filter_cons_of_neg (by simpa using hproto)]
          exact ih times table htable (hsame ▸ hfold)
        · rw [List.filter_cons_of_pos (by simpa using hproto), List.foldl_cons]
          exact ih _ _ (htable.set hdata hproto) hfold
  refine hloop _ Map.empty [] ⟨List.nodup_nil, ?_, ?_⟩ h
  · intro name _
    rfl
  · intro name startTime hempty
    cases hempty

end StrategyBuilder.Shared
