import StrategyBuilder.Backend.SeedCatalog
import StrategyBuilder.Lib.Decimal
import StrategyBuilder.Lib.Double

/-!
# Numbers in parameters

A number in a request is read twice. The rules of `validateRawParams` read it with `Number`, or a token
amount with `BigInt`; `encodeParams` reads a `uint32` with `parseInt` and leaves the others to the ABI
coder, which reads them with `BigInt`. `encodesChecked_iff` says for which spellings both read the same
integer: plain digits are such a spelling (`textAlike_digits`), `0x708` is not.

The ABI coder is that of `ethers`: a static value is a word, and what is no value of its type throws.
-/

set_option autoImplicit false

namespace StrategyBuilder.Backend

open StrategyBuilder.Automation
open StrategyBuilder.Lib.Abi
open StrategyBuilder.Lib.Js
open StrategyBuilder.Shared

/-! ## The coder -/

/-- `getBigInt`; `none` is thrown. -/
def getBigInt : JsValue → Option Int
  -- a safe integer
  | .num x => x.integer?.filter fun n => n.natAbs < 2 ^ 53
  | .str s =>
      match s.toList with
      | [] => none
      | '-' :: '-' :: _ => stringToBigInt s
      | '-' :: cs => (stringToBigInt (String.ofList cs)).map fun n => -n
      | _ => stringToBigInt s
  | _ => none

/-- The truth of a value in a condition of JavaScript. -/
def truthy : JsValue → Bool
  | .undefined => false
  | .null => false
  | .bool b => b
  | .num x => x ≠ .nan && x ≠ .finite 0
  | .str s => s ≠ ""
  | .object _ => true

/-- The bits of a type. -/
def width : AbiType → Nat
  | .address => 160
  | .bool => 1
  | .uint8 => 8
  | .uint16 => 16
  | .uint24 => 24
  | .uint32 => 32
  | .uint256 => 256
  | .int24 => 24

/-- The integers of a type. -/
def Fits (type : AbiType) (n : Int) : Prop :=
  if type = .int24 then -2 ^ 23 ≤ n ∧ n < 2 ^ 23 else 0 ≤ n ∧ n < 2 ^ width type

instance (type : AbiType) : DecidablePred (Fits type) := fun n =>
  inferInstanceAs
    (Decidable (if type = .int24 then -2 ^ 23 ≤ n ∧ n < 2 ^ 23 else 0 ≤ n ∧ n < 2 ^ width type))

/-- The integer of a value for the coder of a type; `address` reads the text of an address. -/
def coderNumber (address : String → Option Nat) (type : AbiType) (value : JsValue) : Option Int :=
  let n : Option Int := match type, value with
    | .bool, value => some (if truthy value then 1 else 0)
    | .address, .str s => (address s).map fun a => (a : Int)
    | .address, _ => none
    | _, value => getBigInt value
  n.filter fun n => Fits type n

/-- The word of an integer, in two's complement. -/
def intWord (n : Int) : Bytes := encodeWord (n % 2 ^ 256).toNat

/-- A coder that encodes static values as their words. -/
structure EthersCoder (svc : Services) (address : String → Option Nat) : Prop where
  encode : ∀ types values, types.length = values.length →
    svc.abiEncode types values =
      ((types.zip values).mapM fun e => coderNumber address e.1 e.2).map fun ns => ns.flatMap intWord
  zero : address "0x0000000000000000000000000000000000000000" = some 0

/-! ## What is checked -/

/-- The widgets whose rules read a number in the field. -/
def numberWidgets : List Widget := [.duration, .tokenAmount, .percent, .feeTier, .aaveAmountMode]

/-- The integer that the rule of a field reads in its value. -/
def checkedInteger (fieldSchema : FieldSchema) (value : JsValue) : Option Int :=
  if fieldSchema.widget = some .tokenAmount then stringToBigInt (valueToString value)
  else (doubleNumber value).integer?

/-- The validator reads a number in a field: an unset one is skipped, unless it is an amount with a
zero toggle. -/
structure CheckedField (st : StepType) (params : Record JsValue) (i : Nat) (c : AbiComponent)
    (fieldSchema : FieldSchema) : Prop where
  component : st.abiFragment[i]? = some c
  schema : ∃ schema, st.paramSchema = some schema ∧ schema.properties.own? c.name = some fieldSchema
  widget : ∃ w ∈ numberWidgets, fieldSchema.widget = some w
  json : (∃ x, param params c.name = .num x) ∨ ∃ s, param params c.name = .str s
  checked : isEmpty (param params c.name) = false ∨
    fieldSchema.widget = some .tokenAmount ∧ fieldSchema.zeroToggle.isSome = true

/-- `encodeParams` throws, or it encodes the integers that were checked. -/
def EncodesChecked (svc : Services) (st : StepType) (params : Record JsValue)
    (slotMapping : Record Nat) : Prop :=
  ∀ data, encodeParams svc params st.abiFragment slotMapping st.paramSchema = .ok data →
    ∀ i c fieldSchema, CheckedField st params i c fieldSchema →
      ∃ n, checkedInteger fieldSchema (param params c.name) = some n ∧ Fits c.type n ∧
        At data (32 * i) (intWord n)

/-! ## What is encoded -/

/-- `paramSchema?.properties?.[name]?.default` -/
def schemaDefault (paramSchema : Option ParamSchema) (name : String) : JsValue :=
  match (paramSchema.bind fun s => Record.own? s.properties name).map FieldSchema.default with
  | some value => value
  | none => .undefined

/-- What stands for a component: the index of a slot, or the default of an unset value. -/
def givenValue (params : Record JsValue) (slotMapping : Record Nat) (paramSchema : Option ParamSchema)
    (c : AbiComponent) : JsValue :=
  let val := resolveSlot slotMapping c.type (param params c.name)
  if isEmpty val then
    match schemaDefault paramSchema c.name with
    | .undefined => (typeDefault c.type).getD val
    | value => value
  else val

/-- The integer that encoder and coder read in a value. -/
def valueNumber (address : String → Option Nat) (type : AbiType) (value : JsValue) : Option Int :=
  match type, value with
  | .uint32, .num x => getBigInt (.num x)
  | .uint32, value => parseInt (valueToString value)
  | .bool, .str s => some (if s = "true" then 1 else 0)
  | .bool, value => some (if truthy value then 1 else 0)
  | .address, .str s => (address s).map fun a => (a : Int)
  | .address, _ => none
  | _, value => getBigInt value

/-- No integer of the component's type is given for it. -/
def Unreadable (address : String → Option Nat) (params : Record JsValue) (slotMapping : Record Nat)
    (paramSchema : Option ParamSchema) (c : AbiComponent) : Prop :=
  ∀ n, valueNumber address c.type (givenValue params slotMapping paramSchema c) = some n →
    ¬ Fits c.type n

/-- A text in which rule and encoder read the same integer. For a `uint32` it is a decimal numeral that
stops at its leading digits: no radix but in front of zeros, no digit after the point that a double
tells from 0, no exponent that moves the point. For the integers that the coder reads itself it is
that of a double. -/
def TextAlike (address : String → Option Nat) (fieldSchema : FieldSchema) (type : AbiType)
    (s : String) : Prop :=
  match type with
  | .uint32 => checkedInteger fieldSchema (.str s) = parseInt s
  | .bool => checkedInteger fieldSchema (.str s) = some (if s = "true" then 1 else 0)
  | .address => checkedInteger fieldSchema (.str s) = (address s).map fun a => (a : Int)
  | _ => fieldSchema.widget = some .tokenAmount ∨
      ∃ n, stringToBigInt s = some n ∧ toDouble n = .ofInt n

/-- A value in which rule and encoder read the same integer. -/
def ReadAlike (address : String → Option Nat) (slotMapping : Record Nat) (c : AbiComponent)
    (fieldSchema : FieldSchema) : JsValue → Prop
  | .num x => c.type = .bool →
      checkedInteger fieldSchema (.num x) = some (if truthy (.num x) then 1 else 0)
  | .str s =>
      match c.type, slotMapping.own? s with
      | .uint32, some idx => checkedInteger fieldSchema (.str s) = some (idx : Int)
      | type, _ =>
          -- an amount with a zero toggle, which is checked as 0
          if s = "" then fieldSchema.default = .undefined ∨
            valueNumber address type fieldSchema.default = some 0
          else TextAlike address fieldSchema type s
  | _ => True

/-! ## Words -/

/-- Integers have one word if they are equal modulo `2 ^ 256`. -/
theorem intWord_eq_iff {m n : Int} : intWord m = intWord n ↔ m % 2 ^ 256 = n % 2 ^ 256 := by
  constructor
  · intro h
    have hlt (k : Int) : (k % 2 ^ 256).toNat < 256 ^ 32 := by
      omega
    have hword := congrArg ofBytes h
    rw [intWord, intWord, encodeWord, encodeWord, ofBytes_toBytes, ofBytes_toBytes,
      Nat.mod_eq_of_lt (hlt m), Nat.mod_eq_of_lt (hlt n)] at hword
    omega
  · intro h
    rw [intWord, intWord, h]

/-- The integers of a type have different words. -/
theorem intWord_injective {type : AbiType} {m n : Int} (hm : Fits type m) (hn : Fits type n)
    (h : intWord m = intWord n) : m = n := by
  have hmod := intWord_eq_iff.1 h
  cases type <;> simp [Fits, width] at hm hn <;> omega

/-- Words that stand one behind the other are equal one by one. -/
theorem flatMap_intWord_eq_iff {ms ns : List Int} :
    ms.flatMap intWord = ns.flatMap intWord ↔
      List.Forall₂ (fun m n => m % 2 ^ 256 = n % 2 ^ 256) ms ns := by
  have hlen (k : Int) : (intWord k).length = 32 := length_encodeWord _
  have hne (k : Int) (rest : Bytes) : intWord k ++ rest ≠ [] := by
    intro h
    have hzero := congrArg List.length h
    rw [List.length_append, hlen, List.length_nil] at hzero
    omega
  induction ms generalizing ns with
  | nil =>
    rw [List.forall₂_nil_left_iff]
    cases ns with
    | nil => simp
    | cons n ns => simp [(hne n _).symm]
  | cons m ms ih =>
    cases ns with
    | nil => simp [hne m]
    | cons n ns =>
      rw [List.flatMap_cons, List.flatMap_cons, List.forall₂_cons, ← intWord_eq_iff]
      constructor
      · intro h
        -- words have one length, so equal lists are cut at the same places
        obtain ⟨hword, hrest⟩ := List.append_inj h ((hlen m).trans (hlen n).symm)
        exact ⟨hword, ih.1 hrest⟩
      · rintro ⟨hword, hrest⟩
        rw [hword, ih.2 hrest]

/-- The words stand one behind the other. -/
theorem at_flatMap_intWord {ns : List Int} {i : Nat} {n : Int} (h : ns[i]? = some n) :
    At (ns.flatMap intWord) (32 * i) (intWord n) := by
  induction ns generalizing i with
  | nil => simp at h
  | cons m ns ih =>
    cases i with
    | zero =>
      simp only [List.getElem?_cons_zero, Option.some.injEq] at h
      subst h
      exact (at_append.1 (at_zero _)).1
    | succ i =>
      have hlen : (intWord m).length = 32 := length_encodeWord _
      obtain ⟨rest, hrest⟩ := ih h
      refine ⟨rest, ?_⟩
      rw [hrest, List.flatMap_cons, Nat.mul_succ, Nat.add_comm, ← List.drop_drop, ← hlen,
        List.drop_left]

/-! ## Components -/

/-- The type defaults are not converted. -/
theorem convertParam_typeDefault {c : AbiComponent} {value : JsValue}
    (h : typeDefault c.type = some value) : convertParam c value = .ok value := by
  unfold typeDefault at h
  split at h <;> cases h <;> rename_i htype <;> simp only [convertParam, htype]

/-- A component is the given value, converted. -/
theorem encodeParam_eq (params : Record JsValue) (slotMapping : Record Nat)
    (paramSchema : Option ParamSchema) (c : AbiComponent) :
    encodeParam params slotMapping paramSchema c =
      convertParam c (givenValue params slotMapping paramSchema c) := by
  simp only [encodeParam, givenValue, schemaDefault]
  generalize resolveSlot slotMapping c.type (param params c.name) = val
  generalize (paramSchema.bind fun s => Record.own? s.properties c.name).map
    FieldSchema.default = default
  split
  · cases hdefault : typeDefault c.type with
    | none =>
      cases default with
      | none => rfl
      | some value =>
        cases value with
        | _ => rfl
    | some value =>
      -- the default of the type converts to what the schema's gives
      have hconvert := convertParam_typeDefault hdefault
      cases default with
      | none => exact hconvert.symm
      | some value =>
        cases value with
        | undefined => exact hconvert.symm
        | _ => rfl
  · rfl

/-- The coder takes a `uint32` that `parseInt` read. -/
theorem coderNumber_parseInt (address : String → Option Nat) {m n : Int} :
    coderNumber address .uint32 (.num (.ofInt m)) = some n ↔ m = n ∧ Fits .uint32 n := by
  have hsafe : Fits .uint32 m → m.natAbs < 2 ^ 53 := by
    simp only [Fits, width, reduceCtorEq, if_false]
    omega
  simp only [coderNumber, getBigInt, JsNumber.integer?_ofInt, Option.filter_eq_some_iff,
    Option.some.injEq, decide_eq_true_eq]
  constructor
  · rintro ⟨⟨rfl, -⟩, hfits⟩
    exact ⟨rfl, hfits⟩
  · rintro ⟨rfl, hfits⟩
    exact ⟨⟨rfl, hsafe hfits⟩, hfits⟩

/-- What conversion and coder make of a value. -/
theorem coderNumber_convertParam (address : String → Option Nat) (c : AbiComponent) (val : JsValue)
    (n : Int) :
    (∃ value, convertParam c val = .ok value ∧ coderNumber address c.type value = some n) ↔
      valueNumber address c.type val = some n ∧ Fits c.type n := by
  obtain ⟨name, type⟩ := c
  -- a value that the coder is given as it is read
  have hplain {value : JsValue} (hconvert : convertParam ⟨name, type⟩ val = .ok value)
      (hnumber : coderNumber address type value =
        (valueNumber address type val).filter fun n => Fits type n) :
      (∃ value, convertParam ⟨name, type⟩ val = .ok value ∧ coderNumber address type value = some n) ↔
        valueNumber address type val = some n ∧ Fits type n := by
    rw [hconvert]
    simp only [Except.ok.injEq, exists_eq_left', hnumber, Option.filter_eq_some_iff,
      decide_eq_true_eq]
  cases type with
  | uint32 =>
    cases val with
    | num x => exact hplain rfl rfl
    | _ =>
      simp only [convertParam, valueNumber]
      split
      · rename_i m hm
        simp only [Except.ok.injEq, exists_eq_left', coderNumber_parseInt, hm, Option.some.injEq]
      · rename_i hnone
        simp only [hnone, reduceCtorEq, false_and, exists_false]
  | bool =>
    cases val with
    | str s =>
      apply hplain rfl
      by_cases htrue : s = "true"
      · simp [coderNumber, valueNumber, truthy, htrue]
      · simp [coderNumber, valueNumber, truthy, htrue]
    | _ => exact hplain rfl rfl
  | address =>
    cases val with
    | _ => exact hplain rfl rfl
  | _ => exact hplain rfl rfl

section

variable {svc : Services} {address : String → Option Nat} {st : StepType} {params : Record JsValue}
  {slotMapping : Record Nat}

/-- The integer of a component. -/
def componentNumber (address : String → Option Nat) (params : Record JsValue)
    (slotMapping : Record Nat) (paramSchema : Option ParamSchema) (c : AbiComponent) : Option Int :=
  (valueNumber address c.type (givenValue params slotMapping paramSchema c)).filter fun n =>
    Fits c.type n

theorem componentNumber_eq_some {paramSchema : Option ParamSchema} {c : AbiComponent} {n : Int} :
    componentNumber address params slotMapping paramSchema c = some n ↔
      valueNumber address c.type (givenValue params slotMapping paramSchema c) = some n ∧
        Fits c.type n := by
  rw [componentNumber, Option.filter_eq_some_iff, decide_eq_true_eq]

/-- Of a component that is set, neither the schema nor its defaults are read. -/
theorem componentNumber_of_set {paramSchema : Option ParamSchema} {c : AbiComponent}
    (h : isEmpty (resolveSlot slotMapping c.type (param params c.name)) = false) :
    componentNumber address params slotMapping paramSchema c =
      (valueNumber address c.type (resolveSlot slotMapping c.type (param params c.name))).filter
        fun n => Fits c.type n := by
  simp only [componentNumber, givenValue, h, Bool.false_eq_true, if_false]

theorem unreadable_iff {paramSchema : Option ParamSchema} {c : AbiComponent} :
    Unreadable address params slotMapping paramSchema c ↔
      ¬ ∃ n, componentNumber address params slotMapping paramSchema c = some n := by
  simp only [Unreadable, componentNumber_eq_some, not_exists, not_and]

/-- **The encoding is a word for the integer of each component.** -/
theorem encodeParams_eq_ok (coder : EthersCoder svc address) {data : Bytes} :
    encodeParams svc params st.abiFragment slotMapping st.paramSchema = .ok data ↔
      ∃ ns, List.Forall₂ (fun c n =>
        componentNumber address params slotMapping st.paramSchema c = some n) st.abiFragment ns ∧
          data = ns.flatMap intWord := by
  -- the coder's integers of the values are those of the components
  have hnumbers {values : List JsValue} (ns : List Int) (hvalues : st.abiFragment.mapM
      (encodeParam params slotMapping st.paramSchema) = .ok values) :
      ((st.abiFragment.map AbiComponent.type).zip values).mapM
          (fun e => coderNumber address e.1 e.2) = some ns ↔
        List.Forall₂ (fun c n =>
          componentNumber address params slotMapping st.paramSchema c = some n)
          st.abiFragment ns := by
    rw [mapM_eq_some]
    apply forall₂_zip (mapM_forall₂ hvalues)
    intro c value n hvalue
    rw [encodeParam_eq] at hvalue
    rw [componentNumber_eq_some, ← coderNumber_convertParam, hvalue]
    simp only [Except.ok.injEq, exists_eq_left']
  have hlength {values : List JsValue} (hvalues : st.abiFragment.mapM
      (encodeParam params slotMapping st.paramSchema) = .ok values) :
      (st.abiFragment.map AbiComponent.type).length = values.length := by
    rw [List.length_map, (mapM_ok hvalues).1]
  constructor
  · intro h
    rw [encodeParams] at h
    cases hvalues : st.abiFragment.mapM (encodeParam params slotMapping st.paramSchema) with
    | error e =>
      rw [hvalues] at h
      cases h
    | ok values =>
      rw [hvalues] at h
      simp only [bind, Except.bind, coder.encode _ _ (hlength hvalues)] at h
      cases hns : ((st.abiFragment.map AbiComponent.type).zip values).mapM
          fun e => coderNumber address e.1 e.2 with
      | none =>
        rw [hns] at h
        cases h
      | some ns =>
        rw [hns] at h
        cases h
        exact ⟨ns, (hnumbers ns hvalues).1 hns, rfl⟩
  · rintro ⟨ns, hns, rfl⟩
    have hall : ∀ c ∈ st.abiFragment, ∃ value,
        encodeParam params slotMapping st.paramSchema c = .ok value := by
      intro c hc
      obtain ⟨n, -, hn⟩ := forall₂_left hns hc
      rw [componentNumber_eq_some, ← coderNumber_convertParam] at hn
      obtain ⟨value, hvalue, -⟩ := hn
      exact ⟨value, by rw [encodeParam_eq, hvalue]⟩
    obtain ⟨values, hvalues⟩ := mapM_isOk.2 hall
    rw [encodeParams, hvalues]
    simp only [bind, Except.bind, coder.encode _ _ (hlength hvalues), (hnumbers ns hvalues).2 hns,
      Option.map_some]

/-- Two rows encode to the same data exactly if they have as many components, and what each of them is
given is read as the same integer, in two's complement. -/
theorem encodeParams_same_iff {svc' : Services} {st' : StepType} {slotMapping' : Record Nat}
    (coder : EthersCoder svc address) (coder' : EthersCoder svc' address) {data data' : Bytes}
    (h : encodeParams svc params st.abiFragment slotMapping st.paramSchema = .ok data)
    (h' : encodeParams svc' params st'.abiFragment slotMapping' st'.paramSchema = .ok data') :
    data = data' ↔ List.Forall₂ (fun c c' =>
      (componentNumber address params slotMapping st.paramSchema c).map (· % 2 ^ 256) =
        (componentNumber address params slotMapping' st'.paramSchema c').map (· % 2 ^ 256))
      st.abiFragment st'.abiFragment := by
  obtain ⟨ns, hns, rfl⟩ := (encodeParams_eq_ok coder).1 h
  obtain ⟨ns', hns', rfl⟩ := (encodeParams_eq_ok coder').1 h'
  rw [flatMap_intWord_eq_iff]
  refine (forall₂_mapped hns hns' fun c n c' n' hn hn' => ?_).symm
  rw [hn, hn', Option.map_some, Option.map_some, Option.some.injEq]

end

/-! ## Spellings -/

/-- What `BigInt` reads, the coder reads too. -/
theorem getBigInt_of_stringToBigInt {s : String} {n : Int} (hne : s ≠ "")
    (h : stringToBigInt s = some n) : getBigInt (.str s) = some n := by
  simp only [getBigInt]
  split
  · rename_i hnil
    exact absurd (String.toList_eq_nil_iff.1 hnil) hne
  · exact h
  · rename_i cs _ hcs
    have hs : s = String.ofList ('-' :: cs) := by rw [← hcs, String.ofList_toList]
    rw [hs] at h
    rw [stringToBigInt_minus h, Option.map_some, neg_neg]
  · exact h

/-- What only the coder reads is no number to the rules. -/
theorem stringToBigInt_of_getBigInt {s : String} {n : Int} (h : getBigInt (.str s) = some n) :
    stringToBigInt s = some n ∨ stringToBigInt s = none ∧ stringToNumber s = .nan := by
  cases hbig : stringToBigInt s with
  | some m =>
    have hne : s ≠ "" := by
      rintro rfl
      cases h
    rw [getBigInt_of_stringToBigInt hne hbig] at h
    exact Or.inl h
  | none =>
    right
    simp only [getBigInt] at h
    split at h
    · cases h
    · rw [hbig] at h
      cases h
    · rename_i cs _ hcs
      obtain ⟨k, hk, -⟩ := Option.map_eq_some_iff.1 h
      have hs : s = String.ofList ('-' :: cs) := by rw [← hcs, String.ofList_toList]
      rw [hs] at hbig ⊢
      exact ⟨rfl, stringToNumber_minus hbig hk⟩
    · rw [hbig] at h
      cases h

theorem doubleNumber_of_bigInt {s : String} {n : Int} (h : stringToBigInt s = some n) :
    doubleNumber (.str s) = toDouble n := by
  rw [doubleNumber, stringToNumber_of_bigInt h]
  rfl

/-- `Number` reads the integer of a text where it is that of a double. -/
theorem doubleNumber_iff {s : String} {n : Int} (h : getBigInt (.str s) = some n) :
    (doubleNumber (.str s)).integer? = some n ↔
      ∃ m, stringToBigInt s = some m ∧ toDouble m = .ofInt m := by
  rcases stringToBigInt_of_getBigInt h with hbig | ⟨hbig, hnan⟩
  · rw [doubleNumber_of_bigInt hbig, hbig]
    constructor
    · intro hn
      exact ⟨n, rfl, JsNumber.eq_ofInt hn⟩
    · rintro ⟨m, hm, hdouble⟩
      cases hm
      rw [hdouble, JsNumber.integer?_ofInt]
  · rw [doubleNumber, hnan, hbig]
    constructor
    · intro hn
      cases hn
    · rintro ⟨m, hm, -⟩
      cases hm

/-! ## Fields -/

section

variable {svc : Services} {graph : EditorGraph} {n : EditorNode} {st : StepType} {i : Nat}
  {c : AbiComponent} {fieldSchema : FieldSchema}

/-- The rule of its widget is applied to a checked field. -/
theorem CheckedField.validateField_eq (hfield : CheckedField st n.params i c fieldSchema)
    (schema : ParamSchema) :
    validateField schema n.params .raw none c.name fieldSchema doubleNumber =
      validateWidget c.name fieldSchema (param n.params c.name) .raw n.params none doubleNumber := by
  have hchecked : ¬ (isEmpty (param n.params c.name) = true ∧
      (decide (fieldSchema.widget = some .tokenAmount) && fieldSchema.zeroToggle.isSome) = false) := by
    rintro ⟨hempty, htoggle⟩
    rcases hfield.checked with hfilled | ⟨hamount, hzero⟩
    · rw [hfilled] at hempty
      cases hempty
    · rw [hamount, hzero] at htoggle
      cases htoggle
  rw [validateField, if_neg fun h => hchecked ⟨h.2.2.2, h.2.2.1⟩, if_neg hchecked]

/-- An accepted amount is an integer to `BigInt`. -/
theorem CheckedField.amount (hfield : CheckedField st n.params i c fieldSchema)
    (haccept : validateRawParams svc graph doubleNumber = .ok ()) (hn : n ∈ graph.nodes)
    (hst : svc.stepTypeMap n.stepTypeId = some st)
    (hamount : fieldSchema.widget = some .tokenAmount) :
    ∃ m, stringToBigInt (valueToString (param n.params c.name)) = some m := by
  obtain ⟨schema, hschema, hown⟩ := hfield.schema
  by_contra hnot
  have hnone : stringToBigInt (valueToString (param n.params c.name)) = none := by
    rw [← Option.not_isSome_iff_eq_none, Option.isSome_iff_exists]
    exact hnot
  -- otherwise there is a violation
  obtain ⟨e, he⟩ : ∃ e, e ∈ validateWidget c.name fieldSchema (param n.params c.name) .raw n.params
      none doubleNumber := by
    simp only [validateWidget, hamount, validateTokenAmount, hnone]
    exact ⟨_, List.mem_singleton_self _⟩
  have herror : e ∈ validateParams schema n.params .raw none doubleNumber := by
    refine List.mem_flatMap.2 ⟨(c.name, fieldSchema), Record.mem_of_own? hown, ?_⟩
    simp only [hfield.validateField_eq]
    exact he
  have hviolation : n.id ++ "." ++ e.field ++ ": " ++ e.message ∈
      rawViolations svc graph doubleNumber := by
    refine List.mem_flatMap.2 ⟨n, hn, ?_⟩
    simp only [hst, Option.bind_some, hschema]
    exact List.mem_map.2 ⟨e, herror, rfl⟩
  simp only [validateRawParams, if_pos (List.length_pos_of_mem hviolation)] at haccept
  cases haccept

variable {address : String → Option Nat} {slotMapping : Record Nat} {k : Int}

/-- A number is read alike, unless it stands for a truth value. -/
theorem readAlike_num {x : JsNumber} (hvalue : param n.params c.name = .num x)
    (hk : valueNumber address c.type (givenValue n.params slotMapping st.paramSchema c) = some k) :
    checkedInteger fieldSchema (.num x) = some k ↔
      ReadAlike address slotMapping c fieldSchema (.num x) := by
  have hgiven : givenValue n.params slotMapping st.paramSchema c = .num x := by
    rw [givenValue, hvalue]
    cases c.type with
    | _ => rfl
  rw [hgiven] at hk
  -- an integer that the coder takes is the same in every reading
  have hinteger (h : getBigInt (.num x) = some k) : checkedInteger fieldSchema (.num x) = some k := by
    simp only [getBigInt, Option.filter_eq_some_iff, decide_eq_true_eq] at h
    have hx := JsNumber.eq_ofInt h.1
    rw [checkedInteger]
    split
    · rw [valueToString, hx, stringToBigInt_numberToString (Nat.lt_trans h.2 (by decide))]
    · exact h.1
  cases htype : c.type with
  | bool =>
    rw [htype] at hk
    have hbool : some (if truthy (.num x) then 1 else 0) = some k := hk
    rw [← hbool, ReadAlike, htype]
    exact ⟨fun h _ => h, fun h => h rfl⟩
  | address =>
    rw [htype] at hk
    cases hk
  | _ =>
    rw [htype] at hk
    refine iff_of_true (hinteger hk) fun h => ?_
    rw [htype] at h
    cases h

/-- The type defaults are 0, and without one the empty text is refused. -/
theorem valueNumber_typeDefault
    (hzero : address "0x0000000000000000000000000000000000000000" = some 0) {type : AbiType}
    (hk : valueNumber address type ((typeDefault type).getD (.str "")) = some k) : k = 0 := by
  cases type with
  | address =>
    have haddress : (address "0x0000000000000000000000000000000000000000").map (fun a => (a : Int)) =
        some k := hk
    rw [hzero] at haddress
    exact (Option.some.inj haddress).symm
  | bool => exact (Option.some.inj hk).symm
  | uint32 => exact (Option.some.inj hk).symm
  | uint256 => exact (Option.some.inj hk).symm
  | _ => cases hk

/-- The default of an unset amount has to be 0. -/
theorem readAlike_default (hzero : address "0x0000000000000000000000000000000000000000" = some 0)
    (hval : resolveSlot slotMapping c.type (param n.params c.name) = .str "")
    (hdefault : schemaDefault st.paramSchema c.name = fieldSchema.default)
    (hk : valueNumber address c.type (givenValue n.params slotMapping st.paramSchema c) = some k) :
    0 = k ↔ fieldSchema.default = .undefined ∨
      valueNumber address c.type fieldSchema.default = some 0 := by
  have hempty : isEmpty (.str "") = true := rfl
  simp only [givenValue, hval, hempty, if_true, hdefault] at hk
  split at hk
  · rename_i hundefined
    exact iff_of_true (valueNumber_typeDefault hzero hk).symm (Or.inl hundefined)
  · rename_i hdefined
    rw [hk, Option.some.injEq, or_iff_right hdefined, eq_comm]

/-- A text is read alike where it is spelt so. -/
theorem readAlike_text {s : String} (hne : s ≠ "") (hk : valueNumber address c.type (.str s) = some k)
    (hamount : fieldSchema.widget = some .tokenAmount → ∃ m, stringToBigInt s = some m) :
    checkedInteger fieldSchema (.str s) = some k ↔ TextAlike address fieldSchema c.type s := by
  -- an integer that is left to the coder
  have hcoder (h : getBigInt (.str s) = some k) : checkedInteger fieldSchema (.str s) = some k ↔
      fieldSchema.widget = some .tokenAmount ∨
        ∃ m, stringToBigInt s = some m ∧ toDouble m = .ofInt m := by
    rw [checkedInteger]
    split
    · rename_i hwidget
      obtain ⟨m, hm⟩ := hamount hwidget
      rw [getBigInt_of_stringToBigInt hne hm] at h
      exact iff_of_true (hm.trans h) (Or.inl hwidget)
    · rename_i hwidget
      rw [doubleNumber_iff h, or_iff_right hwidget]
  cases htype : c.type with
  | uint32 =>
    rw [htype] at hk
    have hparse : parseInt s = some k := hk
    rw [TextAlike, hparse]
  | bool =>
    rw [htype] at hk
    have hbool : some (if s = "true" then 1 else 0) = some k := hk
    rw [TextAlike, hbool]
  | address =>
    rw [htype] at hk
    have haddress : (address s).map (fun a => (a : Int)) = some k := hk
    rw [TextAlike, haddress]
  | _ =>
    rw [htype] at hk
    exact hcoder hk

/-- A text that names no slot is not resolved, unless it is a name that every object answers. -/
theorem resolveSlot_text {s : String} (hvalue : param n.params c.name = .str s)
    (hslot : c.type = .uint32 → slotMapping.own? s = none)
    (hk : valueNumber address c.type (givenValue n.params slotMapping st.paramSchema c) = some k) :
    resolveSlot slotMapping c.type (param n.params c.name) = .str s := by
  by_cases htype : c.type = .uint32
  · cases hget : slotMapping.get s with
    | own idx =>
      rw [Record.get_eq_own, hslot htype] at hget
      cases hget
    | inherited =>
      have hobject : givenValue n.params slotMapping st.paramSchema c = .object [] := by
        simp only [givenValue, hvalue, htype, resolveSlot, hget]
        rfl
      rw [hobject, htype] at hk
      cases hk
    | undefined => simp only [hvalue, htype, resolveSlot, hget]
  · rw [resolveSlot]
    · exact hvalue
    · intro _ hu
      exact (htype hu).elim

/-- **When rule and encoder read the same integer in a checked field.** -/
theorem CheckedField.readAlike_iff (hfield : CheckedField st n.params i c fieldSchema)
    (hzero : address "0x0000000000000000000000000000000000000000" = some 0)
    (hamount : fieldSchema.widget = some .tokenAmount →
      ∃ m, stringToBigInt (valueToString (param n.params c.name)) = some m)
    (hk : valueNumber address c.type (givenValue n.params slotMapping st.paramSchema c) = some k) :
    checkedInteger fieldSchema (param n.params c.name) = some k ↔
      ReadAlike address slotMapping c fieldSchema (param n.params c.name) := by
  rcases hfield.json with ⟨x, hvalue⟩ | ⟨s, hvalue⟩
  · rw [hvalue]
    exact readAlike_num hvalue hk
  -- a text without a slot of its own
  have htext (hslot : c.type = .uint32 → slotMapping.own? s = none) :
      checkedInteger fieldSchema (.str s) = some k ↔
        if s = "" then fieldSchema.default = .undefined ∨
          valueNumber address c.type fieldSchema.default = some 0
        else TextAlike address fieldSchema c.type s := by
    have hresolve := resolveSlot_text hvalue hslot hk
    by_cases hempty : s = ""
    · subst hempty
      rw [if_pos rfl]
      obtain ⟨schema, hschema, hown⟩ := hfield.schema
      have hdefault : schemaDefault st.paramSchema c.name = fieldSchema.default := by
        rw [schemaDefault, hschema, Option.bind_some, hown]
        rfl
      have hchecked : checkedInteger fieldSchema (.str "") = some 0 := by
        rcases hfield.checked with hfilled | ⟨hwidget, -⟩
        · rw [hvalue] at hfilled
          cases hfilled
        · rw [checkedInteger, if_pos hwidget]
          rfl
      rw [hchecked, Option.some.injEq]
      exact readAlike_default hzero hresolve hdefault hk
    · rw [if_neg hempty]
      have hgiven : givenValue n.params slotMapping st.paramSchema c = .str s := by
        have hfilled : isEmpty (.str s) = false := decide_eq_false hempty
        simp only [givenValue, hresolve, hfilled]
        rfl
      rw [hgiven] at hk
      rw [hvalue] at hamount
      exact readAlike_text hempty hk hamount
  rw [hvalue]
  simp only [ReadAlike]
  split
  · rename_i idx htype hidx
    have hgiven : givenValue n.params slotMapping st.paramSchema c = .num (.ofInt idx) := by
      simp only [givenValue, hvalue, htype, resolveSlot, Record.get_eq_own.2 hidx]
      rfl
    rw [hgiven, htype] at hk
    have hnumber : getBigInt (.num (.ofInt idx)) = some k := hk
    simp only [getBigInt, JsNumber.integer?_ofInt, Option.filter_eq_some_iff,
      Option.some.injEq] at hnumber
    rw [hnumber.1]
  · rename_i hslot
    apply htext
    intro htype
    by_contra hown
    obtain ⟨idx, hidx⟩ := Option.ne_none_iff_exists'.1 hown
    exact hslot idx htype hidx

/-- **Rule and encoder read the same integers** of an accepted node if and only if one of its parameters
is refused, or every checked field is spelt so that they do. -/
theorem encodesChecked_iff (coder : EthersCoder svc address)
    (haccept : validateRawParams svc graph doubleNumber = .ok ()) (hn : n ∈ graph.nodes)
    (hst : svc.stepTypeMap n.stepTypeId = some st) :
    EncodesChecked svc st n.params slotMapping ↔
      (∃ c ∈ st.abiFragment, Unreadable address n.params slotMapping st.paramSchema c) ∨
        ∀ i c fieldSchema, CheckedField st n.params i c fieldSchema →
          ReadAlike address slotMapping c fieldSchema (param n.params c.name) := by
  have halike {i : Nat} {c : AbiComponent} {fieldSchema : FieldSchema} {k : Int}
      (hfield : CheckedField st n.params i c fieldSchema)
      (hk : componentNumber address n.params slotMapping st.paramSchema c = some k) :=
    hfield.readAlike_iff coder.zero (hfield.amount haccept hn hst) (componentNumber_eq_some.1 hk).1
  constructor
  · intro hencodes
    rw [or_iff_not_imp_left]
    intro hreadable i c fieldSchema hfield
    -- every component is readable, so that there is data
    have hall : ∀ c ∈ st.abiFragment, ∃ k,
        componentNumber address n.params slotMapping st.paramSchema c = some k := by
      intro c hc
      by_contra hnot
      exact hreadable ⟨c, hc, unreadable_iff.2 hnot⟩
    obtain ⟨ns, hns⟩ := mapM_isSome.2 hall
    have hnumbers := mapM_eq_some.1 hns
    obtain ⟨m, hm, hfits, hat⟩ := hencodes _ ((encodeParams_eq_ok coder).2 ⟨ns, hnumbers, rfl⟩) i c
      fieldSchema hfield
    obtain ⟨k, hik, hk⟩ := forall₂_getElem? hnumbers hfield.component
    have hwords := hat.eq_of_length (at_flatMap_intWord hik) (by simp [intWord])
    rw [intWord_injective hfits (componentNumber_eq_some.1 hk).2 hwords] at hm
    exact (halike hfield hk).1 hm
  · rintro (⟨c, hc, hunreadable⟩ | hfields) data hdata i c' fieldSchema hfield
    · obtain ⟨ns, hnumbers, -⟩ := (encodeParams_eq_ok coder).1 hdata
      obtain ⟨k, -, hk⟩ := forall₂_left hnumbers hc
      exact (unreadable_iff.1 hunreadable ⟨k, hk⟩).elim
    · obtain ⟨ns, hnumbers, rfl⟩ := (encodeParams_eq_ok coder).1 hdata
      obtain ⟨k, hik, hk⟩ := forall₂_getElem? hnumbers hfield.component
      exact ⟨k, (halike hfield hk).2 (hfields i c' fieldSchema hfield),
        (componentNumber_eq_some.1 hk).2, at_flatMap_intWord hik⟩

end

/-! ## Spellings that are read alike, and one that is not -/

/-- **Plain digits** are read alike, up to the integers that doubles tell apart. -/
theorem textAlike_digits (address : String → Option Nat) (fieldSchema : FieldSchema) {type : AbiType}
    (hbool : type ≠ .bool) (haddress : type ≠ .address) {cs : List Char} (hne : cs ≠ [])
    (hdigits : ∀ c ∈ cs, isDigit c = true) (hle : digitsValue 10 cs ≤ 2 ^ 53) :
    TextAlike address fieldSchema type (String.ofList cs) := by
  have hbig := stringToBigInt_of_digits hne hdigits
  have hdouble : toDouble (digitsValue 10 cs : Int) = .ofInt (digitsValue 10 cs) :=
    toDouble_intCast (n := digitsValue 10 cs) hle
  have hchecked : checkedInteger fieldSchema (.str (String.ofList cs)) =
      some (digitsValue 10 cs : Int) := by
    rw [checkedInteger]
    split
    · exact hbig
    · rw [doubleNumber_of_bigInt hbig, hdouble, JsNumber.integer?_ofInt]
  cases type with
  | bool => exact (hbool rfl).elim
  | address => exact (haddress rfl).elim
  | uint32 => exact hchecked.trans (parseInt_of_digits hne hdigits).symm
  | _ => exact Or.inr ⟨_, hbig, hdouble⟩

/-- The services of a catalog with the coder. -/
def ethersServices (stepTypes : List StepType) (address : String → Option Nat) : Services where
  stepTypes := stepTypes
  abiEncode := fun types values =>
    if types.length = values.length then
      ((types.zip values).mapM fun e => coderNumber address e.1 e.2).map fun ns => ns.flatMap intWord
    else none

theorem ethersCoder {stepTypes : List StepType} {address : String → Option Nat}
    (hzero : address "0x0000000000000000000000000000000000000000" = some 0) :
    EthersCoder (ethersServices stepTypes address) address :=
  ⟨fun _ _ hlen => if_pos hlen, hzero⟩

/-- A window of half an hour, unless another is given. -/
def twapWindowSchema : FieldSchema :=
  { plainField "TWAP Window" .duration with
    default := .object [("value", .num (.finite 30)), ("unit", .str "minutes")] }

/-- The row of the rebalance trigger in the catalog. -/
def wickWaitStepType : StepType where
  id := "Wick & Wait Rebalance"
  contractAddress := ⟨7⟩
  selector := Contracts.checkSelector
  abiFragment := [⟨"tokenIdSlot", .uint32⟩, ⟨"twapWindow", .uint32⟩, ⟨"cooldown", .uint256⟩,
    ⟨"lastRebalanceSlot", .uint32⟩]
  paramSchema := some {
    properties := [
      ("tokenIdSlot", { plainField "Position Token-Id Slot" .contextSlot with
        slotAccess := some .read }),
      ("twapWindow", twapWindowSchema),
      ("cooldown", { plainField "Rebalance Cooldown" .duration with
        default := .object [("value", .num (.finite 3)), ("unit", .str "days")] }),
      ("lastRebalanceSlot", { plainField "Last-Rebalance Slot" .contextSlot with
        slotAccess := some .readWrite })]
    required := ["tokenIdSlot", "twapWindow", "cooldown", "lastRebalanceSlot"] }

/-- The texts of addresses, without their checksum. -/
def plainAddress (s : String) : Option Nat :=
  if isAddress s.toList then some (digitsValue 16 (s.toList.drop 2)) else none

/-- The catalog with the one row, and the coder. -/
def wickWaitServices : Services := ethersServices [wickWaitStepType] plainAddress

/-- The trigger with a window as it is spelt. -/
def wickWaitNode (window : String) : EditorNode where
  id := "node-1"
  type := .condition
  stepTypeId := "Wick & Wait Rebalance"
  params := [("tokenIdSlot", .num (.ofInt 0)), ("twapWindow", .str window),
    ("cooldown", .str "259200"), ("lastRebalanceSlot", .num (.ofInt 1))]

theorem wickWait_accepted :
    validateRawParams wickWaitServices ⟨[wickWaitNode "0x708"], []⟩ doubleNumber = .ok () := by
  decide +kernel

theorem wickWait_window : CheckedField wickWaitStepType (wickWaitNode "0x708").params 1
    ⟨"twapWindow", .uint32⟩ twapWindowSchema where
  component := rfl
  schema := ⟨_, rfl, rfl⟩
  widget := ⟨.duration, by decide, rfl⟩
  json := Or.inr ⟨"0x708", rfl⟩
  checked := Or.inl rfl

/-- A window of `0x708` seconds is checked as 1800 seconds and encoded as 0. -/
theorem hexadecimal_window :
    validateRawParams wickWaitServices ⟨[wickWaitNode "0x708"], []⟩ doubleNumber = .ok () ∧
      (∃ data, encodeParams wickWaitServices (wickWaitNode "0x708").params
        wickWaitStepType.abiFragment [] wickWaitStepType.paramSchema = .ok data ∧
          wordAt data 32 = some 0) ∧
      ¬ EncodesChecked wickWaitServices wickWaitStepType (wickWaitNode "0x708").params [] := by
  have hdata : encodeParams wickWaitServices (wickWaitNode "0x708").params
      wickWaitStepType.abiFragment [] wickWaitStepType.paramSchema =
        .ok ([0, 0, 259200, 1].flatMap intWord) := by
    decide +kernel
  have hword : wordAt ([0, 0, 259200, 1].flatMap intWord) 32 = some 0 := by
    decide +kernel
  refine ⟨wickWait_accepted, ⟨_, hdata, hword⟩, fun hencodes => ?_⟩
  obtain ⟨n, hn, -, hat⟩ := hencodes _ hdata 1 _ _ wickWait_window
  have hchecked : checkedInteger twapWindowSchema (.str "0x708") = some 1800 := by
    decide +kernel
  have hn1800 : n = 1800 := Option.some.inj (hn.symm.trans hchecked)
  rw [hn1800] at hat
  have hread := wordAt_eq (n := 1800) hat (by decide)
  rw [hword] at hread
  cases hread

/-- The theorem at an accepted window. -/
theorem encodesChecked_iff_hexadecimal :
    EncodesChecked wickWaitServices wickWaitStepType (wickWaitNode "0x708").params [] ↔
      (∃ c ∈ wickWaitStepType.abiFragment, Unreadable plainAddress (wickWaitNode "0x708").params []
        wickWaitStepType.paramSchema c) ∨
        ∀ i c fieldSchema, CheckedField wickWaitStepType (wickWaitNode "0x708").params i c fieldSchema →
          ReadAlike plainAddress [] c fieldSchema (param (wickWaitNode "0x708").params c.name) :=
  encodesChecked_iff (ethersCoder (by decide)) wickWait_accepted (List.mem_singleton_self _) rfl

end StrategyBuilder.Backend
