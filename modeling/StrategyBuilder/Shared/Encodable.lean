import Mathlib.Algebra.Order.Field.Basic
import Mathlib.Algebra.Order.Ring.Rat
import Mathlib.Data.Nat.Cast.Order.Ring
import StrategyBuilder.Lib.Decimal
import StrategyBuilder.Shared.EncodeBoundary

/-!
# From friendly to raw parameters

Friendly parameters are checked by `validateParams`, mapped by `mapParamsToRaw` and checked again in
the backend. The three agree where a schema and its fragment go together (`Coherent`) and every
converted value is one that its component can hold (`Representable`): then friendly parameters that
pass can be encoded exactly when what only the encoder checks is right as well, the addresses, the fee
tiers and the decimals of the tokens (`encodes_iff_chosen`).
-/

set_option autoImplicit false

namespace StrategyBuilder.Shared

open StrategyBuilder.Lib.Js

/-! ## What can be encoded -/

/-- The width of an unsigned type. -/
def AbiType.unsignedBits : AbiType → Option Nat
  | .uint8 => some 8
  | .uint16 => some 16
  | .uint24 => some 24
  | .uint32 => some 32
  | .uint256 => some 256
  | .address | .bool | .int24 => none

/-- The number fits the unsigned type. -/
def AbiType.Fits (t : AbiType) (n : Nat) : Prop := ∃ bits, t.unsignedBits = some bits ∧ n < 2 ^ bits

/-- The value is the decimal text of a number that fits. -/
def AbiType.Holds (t : AbiType) (v : JsValue) : Prop := ∃ n : Nat, v = .str (toString n) ∧ t.Fits n

/-- The field's values are converted to decimal texts. -/
def FieldSchema.converts (schema : FieldSchema) : Bool :=
  schema.widget = some .duration || schema.widget = some .tokenAmount ||
    schema.widget = some .healthFactor

/-- The rule of the field runs without a value as well. -/
def FieldSchema.zeroToggled (schema : FieldSchema) : Bool :=
  schema.widget = some .tokenAmount && schema.zeroToggle.isSome

/-- The text of a number denotes it, as that of every number of the language does. -/
def Exact (x : JsNumber) : Prop := stringToNumber (numberToString x) = x

section Encoding

variable (schema : ParamSchema) (fragment : Option (List AbiComponent)) (params : Record JsValue)
  (tokenDecimals : Option (Record Nat))

/-- A component of the fragment and the schema of its field. -/
structure Sends (c : AbiComponent) (fieldSchema : FieldSchema) : Prop where
  component : c ∈ fragment.getD []
  property : (c.name, fieldSchema) ∈ schema.properties

/-- The parameters are mapped, the backend accepts the raw ones, and every converted value that is not
empty is a decimal text that its component holds. -/
def Encodes : Prop :=
  ∃ raw, mapParamsToRaw params (some ⟨some schema, fragment⟩) tokenDecimals = .ok raw ∧
    validateParams schema raw .raw none = [] ∧
    ∀ c fieldSchema, Sends schema fragment c fieldSchema → fieldSchema.converts = true →
      ∀ v, raw.own? c.name = some v → isEmpty v = false → c.type.Holds v

/-- The field must have a value, or its rule runs without one. -/
def MustHave (field : String) (fieldSchema : FieldSchema) : Prop :=
  (field ∈ schema.required ∧ fieldSchema.widget ≠ some .contextSlot) ∨ fieldSchema.zeroToggled = true

/-- A schema and a fragment that go together. -/
structure Coherent : Prop where
  /-- An object has every key once. -/
  keys : (schema.properties.map Prod.fst).Nodup
  /-- A field that must have a value is sent. -/
  required : ∀ field fieldSchema, (field, fieldSchema) ∈ schema.properties →
    MustHave schema field fieldSchema → ∃ c ∈ fragment.getD [], c.name = field
  /-- Converted values are unsigned. -/
  unsigned : ∀ c fieldSchema, Sends schema fragment c fieldSchema → fieldSchema.converts = true →
    c.type.Fits 0
  /-- The target of an amount mode is a health factor that is sent. -/
  targetHf : ∀ c fieldSchema hfField, Sends schema fragment c fieldSchema →
    fieldSchema.widget = some .aaveAmountMode → reference fieldSchema.targetHfField = some hfField →
    ∃ hf hfSchema, hf.name = hfField ∧ Sends schema fragment hf hfSchema ∧
      hfSchema.widget = some .healthFactor
  /-- The ticks of a range are sent as they are. -/
  ticks : ∀ c fieldSchema tickField, Sends schema fragment c fieldSchema →
    fieldSchema.widget = some .tickRange → reference fieldSchema.tickLowerField = some tickField ∨
      reference fieldSchema.tickUpperField = some tickField →
    (∃ tick ∈ fragment.getD [], tick.name = tickField) ∧
      ∀ tickSchema, (tickField, tickSchema) ∈ schema.properties → tickSchema.converts = false

/-- Every converted value is one that its component can hold. -/
structure Representable : Prop where
  /-- A duration is a positive whole number of seconds, as JavaScript multiplies its value and its unit,
  that `String` writes without an exponent. -/
  durations : ∀ c fieldSchema, Sends schema fragment c fieldSchema →
    fieldSchema.widget = some .duration → ∀ amount unit perUnit,
    isDuration (param params c.name) = some (.num (.finite amount), .str unit) →
    secondsPerUnit unit = some perUnit →
    ∃ n : Nat, (toDouble amount).mul (.ofInt perUnit) = .ofInt n ∧ 0 < n ∧ n < 10 ^ 21 ∧ c.type.Fits n
  /-- An amount that is sent is not empty, and its base units fit. -/
  amounts : ∀ c fieldSchema, Sends schema fragment c fieldSchema →
    fieldSchema.widget = some .tokenAmount → isSent c.name (some fieldSchema) params = true →
    isZeroToggleOn c.name fieldSchema params = false →
    isEmpty (param params c.name) = false ∧ ∀ decimals whole fraction,
      amountDecimals fieldSchema params tokenDecimals = .own decimals →
      amountParts (trim (valueToString (param params c.name)).toList) = some (whole, fraction) →
      c.type.Fits (digitsValue 10 (whole ++ fraction) * 10 ^ (decimals - fraction.length))
  /-- A health factor is an amount with at most 18 decimals, and its base units fit. -/
  healthFactors : ∀ c fieldSchema, Sends schema fragment c fieldSchema →
    fieldSchema.widget = some .healthFactor → isEmpty (param params c.name) = false →
    (∀ x, param params c.name = .num x → Exact x) ∧ ∃ whole fraction,
      amountParts (trim (valueToString (param params c.name)).toList) = some (whole, fraction) ∧
      fraction.length ≤ 18 ∧
      c.type.Fits (digitsValue 10 (whole ++ fraction) * 10 ^ (18 - fraction.length))

/-- What the friendly rules leave to the encoder: the decimals of a token, and the rules that check raw
values only. -/
structure Chosen : Prop where
  tokens : ∀ c fieldSchema, Sends schema fragment c fieldSchema →
    fieldSchema.widget = some .tokenAmount → isSent c.name (some fieldSchema) params = true →
    isZeroToggleOn c.name fieldSchema params = false →
    ∃ decimals, amountDecimals fieldSchema params tokenDecimals = .own decimals
  selectors : ∀ c fieldSchema, Sends schema fragment c fieldSchema →
    fieldSchema.widget = some .tokenSelector → isEmpty (param params c.name) = false →
    validateTokenSelector c.name fieldSchema (param params c.name) .raw = []
  feeTiers : ∀ c fieldSchema, Sends schema fragment c fieldSchema →
    fieldSchema.widget = some .feeTier → isEmpty (param params c.name) = false →
    validateFeeTier c.name fieldSchema (param params c.name) .raw = []

end Encoding

/-! ## Texts of amounts -/

/-- An amount is read as a decimal literal. -/
theorem mantissa_of_amountParts {cs whole fraction : List Char}
    (h : amountParts cs = some (whole, fraction)) :
    mantissa cs = (whole, fraction, []) ∧ whole ≠ [] := by
  rw [amountParts] at h
  rcases hmantissa : mantissa cs with ⟨w, f, rest⟩
  simp only [hmantissa] at h
  split_ifs at h with hparts
  simp only [Option.some.injEq, Prod.mk.injEq] at h
  obtain ⟨rfl, rfl⟩ := h
  obtain ⟨hne, rfl, -⟩ := hparts
  exact ⟨rfl, hne⟩

/-- `BigInt` reads the same number once the leading zeros are stripped. -/
theorem stringToBigInt_stripped {cs : List Char} (h : ∀ c ∈ cs, isDigit c = true) :
    let stripped := cs.dropWhile (· = '0')
    stringToBigInt (String.ofList (if stripped = [] then ['0'] else stripped)) =
      some (digitsValue 10 cs : Int) := by
  intro stripped
  obtain ⟨k, hk⟩ : ∃ k, cs = List.replicate k '0' ++ stripped := by
    refine ⟨(cs.takeWhile (· = '0')).length, ?_⟩
    have hzeros : cs.takeWhile (· = '0') = List.replicate (cs.takeWhile (· = '0')).length '0' := by
      apply List.eq_replicate_of_mem
      intro c hc
      simpa using List.mem_takeWhile_imp hc
    rw [← hzeros]
    exact List.takeWhile_append_dropWhile.symm
  rw [hk, digitsValue_zeros_append]
  split
  -- all zeros: one of them stays
  · next hnil =>
    rw [hnil]
    apply stringToBigInt_of_digits (List.cons_ne_nil '0' [])
    intro c hc
    rw [List.mem_singleton.1 hc]
    rfl
  · next hne =>
    apply stringToBigInt_of_digits hne
    intro c hc
    apply h
    rw [hk]
    exact List.mem_append_right _ hc

/-- An amount with enough decimals has base units. -/
theorem toBaseUnits_eq {value : String} {decimals : Nat} {whole fraction : List Char}
    (h : amountParts (trim value.toList) = some (whole, fraction))
    (hle : fraction.length ≤ decimals) :
    toBaseUnits value decimals = .ok
      (toString (digitsValue 10 (whole ++ fraction) * 10 ^ (decimals - fraction.length))) := by
  obtain ⟨hwhole, hfraction, -⟩ := mantissa_parts (mantissa_of_amountParts h).1
  have hdigits : ∀ c ∈ whole ++ (fraction ++ List.replicate (decimals - fraction.length) '0'),
      isDigit c = true := by
    intro c hc
    rcases List.mem_append.1 hc with hc | hc
    · exact hwhole c hc
    · rcases List.mem_append.1 hc with hc | hc
      · exact hfraction c hc
      · rw [List.eq_of_mem_replicate hc]
        decide
  simp only [toBaseUnits, h, if_neg (Nat.not_lt.2 hle), stringToBigInt_stripped hdigits]
  rw [← List.append_assoc, digitsValue_append_zeros]
  rfl

theorem fits_lt {t : AbiType} {n : Nat} (h : t.Fits n) : n < 2 ^ 256 := by
  obtain ⟨bits, hbits, hn⟩ := h
  have hle : bits ≤ 256 := by
    cases t with
    | uint8 => cases hbits; decide
    | uint16 => cases hbits; decide
    | uint24 => cases hbits; decide
    | uint32 => cases hbits; decide
    | uint256 => cases hbits; decide
    | address => cases hbits
    | bool => cases hbits
    | int24 => cases hbits
  exact Nat.lt_of_lt_of_le hn (Nat.pow_le_pow_right (by decide) hle)

/-! ## What is mapped -/

section Mapping

variable {properties : Record FieldSchema} {params : Record JsValue}
  {tokenDecimals : Option (Record Nat)}

/-- What the mapper makes of a component that is sent. -/
def rawValue? (properties : Record FieldSchema) (params : Record JsValue)
    (tokenDecimals : Option (Record Nat)) (name : String) : Option (Mapped JsValue) :=
  if isSent name (properties.own? name) params then
    some (mapFieldToRaw name (properties.own? name) (param params name) params tokenDecimals)
  else none

/-- A component is mapped to its raw value, where it has one. -/
theorem mapComponent_eq (raw : Record JsValue) (c : AbiComponent) :
    mapComponent properties params tokenDecimals raw c =
      match rawValue? properties params tokenDecimals c.name with
      | none => .ok raw
      | some (.ok v) => .ok (raw.insert c.name v)
      | some (.error e) => .error e := by
  unfold mapComponent rawValue?
  simp only
  split_ifs
  · cases mapFieldToRaw c.name (properties.own? c.name) (param params c.name) params tokenDecimals with
    | ok v => rfl
    | error e => rfl
  · rfl

/-- The mapper succeeds where it does on every component. -/
theorem mapComponents_ok {components : List AbiComponent}
    (h : ∀ c ∈ components, ∀ r, rawValue? properties params tokenDecimals c.name = some r →
      ∃ v, r = .ok v) (acc : Record JsValue) :
    ∃ raw, components.foldlM (mapComponent properties params tokenDecimals) acc = .ok raw := by
  induction components generalizing acc with
  | nil => exact ⟨acc, rfl⟩
  | cons c components ih =>
    have hrest := ih fun d hd => h d (List.mem_cons_of_mem c hd)
    rw [List.foldlM_cons, mapComponent_eq]
    cases hc : rawValue? properties params tokenDecimals c.name with
    | none => exact hrest acc
    | some r =>
      obtain ⟨v, rfl⟩ := h c List.mem_cons_self r hc
      exact hrest (acc.insert c.name v)

/-- The raw parameters are what the components are mapped to. -/
theorem mapComponents_own? {components : List AbiComponent} {acc raw : Record JsValue}
    (h : components.foldlM (mapComponent properties params tokenDecimals) acc = .ok raw) :
    (∀ c ∈ components, ∀ r, rawValue? properties params tokenDecimals c.name = some r →
      ∃ v, r = .ok v ∧ raw.own? c.name = some v) ∧
    (∀ name v, raw.own? name = some v → acc.own? name = some v ∨
      (∃ c ∈ components, c.name = name) ∧
        rawValue? properties params tokenDecimals name = some (.ok v)) ∧
    (∀ name v, acc.own? name = some v →
      rawValue? properties params tokenDecimals name = some (.ok v) → raw.own? name = some v) := by
  induction components generalizing acc with
  | nil =>
    cases h
    exact ⟨fun c hc => (List.not_mem_nil hc).elim, fun name v hv => Or.inl hv, fun name v hv _ => hv⟩
  | cons c components ih =>
    rw [List.foldlM_cons, mapComponent_eq] at h
    cases hc : rawValue? properties params tokenDecimals c.name with
    | none =>
      rw [hc] at h
      obtain ⟨hmapped, hsource, hkept⟩ := ih h
      refine ⟨fun d hd r hr => ?_, fun name v hv => ?_, hkept⟩
      · rcases List.mem_cons.1 hd with rfl | hd
        · rw [hc] at hr
          cases hr
        · exact hmapped d hd r hr
      · rcases hsource name v hv with hacc | ⟨⟨d, hd, hname⟩, hr⟩
        · exact Or.inl hacc
        · exact Or.inr ⟨⟨d, List.mem_cons_of_mem c hd, hname⟩, hr⟩
    | some r =>
      rw [hc] at h
      cases r with
      | error e => cases h
      | ok v =>
        obtain ⟨hmapped, hsource, hkept⟩ := ih h
        refine ⟨fun d hd r hr => ?_, fun name w hw => ?_, fun name w hw hr => ?_⟩
        · rcases List.mem_cons.1 hd with rfl | hd
          -- a later component of the same name writes the same value again
          · rw [hc] at hr
            cases hr
            exact ⟨v, rfl, hkept _ v (Record.own?_insert_self acc _ v) hc⟩
          · exact hmapped d hd r hr
        · rcases hsource name w hw with hacc | ⟨⟨d, hd, hname⟩, hr⟩
          · by_cases hname : name = c.name
            · subst hname
              rw [Record.own?_insert_self] at hacc
              cases hacc
              exact Or.inr ⟨⟨c, List.mem_cons_self, rfl⟩, hc⟩
            · rw [Record.own?_insert_of_ne acc v hname] at hacc
              exact Or.inl hacc
          · exact Or.inr ⟨⟨d, List.mem_cons_of_mem c hd, hname⟩, hr⟩
        · apply hkept name w _ hr
          by_cases hname : name = c.name
          · subst hname
            rw [hc] at hr
            cases hr
            exact Record.own?_insert_self acc _ _
          · rwa [Record.own?_insert_of_ne acc v hname]

end Mapping

/-! ## The rules of converted fields -/

section Rules

variable {field : String} {fieldSchema : FieldSchema} {value : JsValue} {params : Record JsValue}
  {tokenDecimals : Option (Record Nat)}

/-- A duration that passes is a positive number of a known unit. -/
theorem validateDuration_friendly (h : validateDuration field fieldSchema value .friendly = []) :
    ∃ amount unit, isDuration value = some (.num (.finite amount), .str unit) ∧ 0 < amount ∧
      unit ∈ durationUnits := by
  unfold validateDuration at h
  simp only at h
  split at h
  · cases h
  · rename_i amount unit hduration
    split_ifs at h with hamount
    cases unit with
    | str unit =>
      simp only at h
      split_ifs at h with hunit
      exact ⟨amount, unit, hduration, not_le.1 hamount, hunit⟩
    | undefined => cases h
    | null => cases h
    | bool b => cases h
    | num x => cases h
    | object fields => cases h
  · cases h

/-- Each unit has its seconds. -/
theorem secondsPerUnit_of_mem {unit : String} (h : unit ∈ durationUnits) :
    ∃ perUnit, secondsPerUnit unit = some perUnit := by
  simp only [durationUnits, List.mem_cons, List.not_mem_nil, or_false] at h
  rcases h with rfl | rfl | rfl | rfl
  · exact ⟨60, rfl⟩
  · exact ⟨60 * 60, rfl⟩
  · exact ⟨60 * 60 * 24, rfl⟩
  · exact ⟨60 * 60 * 24 * 7, rfl⟩

/-- A text of a positive number is a raw duration. -/
theorem validateDuration_raw {n : Nat} (hn : 0 < n) :
    validateDuration field fieldSchema (.str (toString n)) .raw = [] := by
  have hpos : ¬ ((n : Int) ≤ 0) := by omega
  simp only [validateDuration, toNumber, stringToNumber_toString, JsNumber.integer?_ofInt, hpos,
    if_false]

/-- A whole duration is mapped to the text of its seconds. -/
theorem mapFieldToRaw_duration (hwidget : fieldSchema.widget = some .duration) {amount : Rat}
    {unit : String} {perUnit n : Nat}
    (hduration : isDuration value = some (.num (.finite amount), .str unit))
    (hunit : secondsPerUnit unit = some perUnit)
    (hseconds : (toDouble amount).mul (.ofInt perUnit) = .ofInt n) (hpos : 0 < n) (hn : n < 10 ^ 21) :
    mapFieldToRaw field (some fieldSchema) value params tokenDecimals = .ok (.str (toString n)) := by
  have htext : numberToString (.ofInt n) = toString n := numberToString_natCast hpos hn
  simp only [mapFieldToRaw, hwidget, hduration, toSeconds, valueToString, hunit, bind, Except.bind,
    hseconds, htext, pure, Except.pure]

theorem validateTokenAmount_friendly
    (h : validateTokenAmount field fieldSchema value .friendly params tokenDecimals = [])
    (htoggle : isZeroToggleOn field fieldSchema params = false) (hempty : isEmpty value = false) :
    ∃ whole fraction, amountParts (trim (valueToString value).toList) = some (whole, fraction) ∧
      ∀ decimals, amountDecimals fieldSchema params tokenDecimals = .own decimals →
        fraction.length ≤ decimals := by
  simp only [validateTokenAmount, htoggle, hempty, Bool.false_eq_true, if_false] at h
  split at h
  · cases h
  · rename_i whole fraction hparts
    refine ⟨whole, fraction, hparts, fun decimals hdecimals => ?_⟩
    simp only [hdecimals] at h
    split_ifs at h with hzero hlength
    exact Nat.le_of_not_lt hlength

/-- The text of a number below `2 ^ 256` is a raw amount. -/
theorem validateTokenAmount_raw {n : Nat} (hn : n < 2 ^ 256) :
    validateTokenAmount field fieldSchema (.str (toString n)) .raw params tokenDecimals = [] := by
  have hneg : ¬ ((n : Int) < 0) := by omega
  have hlarge : ¬ ((2 : Int) ^ 256 ≤ n) := by
    have hcast : ((2 ^ 256 : Nat) : Int) = (2 : Int) ^ 256 := by norm_cast
    omega
  simp only [validateTokenAmount, valueToString, stringToBigInt_toString, hneg, hlarge, if_false]

/-- Base units of a health factor above the floor are above the floor. -/
theorem targetHf_floor {whole fraction : List Char} (hle : fraction.length ≤ 18)
    (h : mkRat 105 100 < mkRat (digitsValue 10 (whole ++ fraction)) (10 ^ fraction.length)) :
    minTargetHfWad <
      ((digitsValue 10 (whole ++ fraction) * 10 ^ (18 - fraction.length) : Nat) : Int) := by
  generalize digitsValue 10 (whole ++ fraction) = digits at h ⊢
  have hdigits : 105 * 10 ^ fraction.length < digits * 100 := by
    have hden : (0 : Rat) < ((10 ^ fraction.length : Nat) : Rat) :=
      Nat.cast_pos.2 (Nat.pow_pos (by decide))
    rw [Rat.mkRat_eq_div, Rat.mkRat_eq_div, div_lt_div_iff₀ (by decide) hden] at h
    exact_mod_cast h
  have hscale : 0 < 10 ^ (18 - fraction.length) := Nat.pow_pos (by decide)
  have hunits := Nat.mul_lt_mul_of_pos_right hdigits hscale
  -- both sides are scaled to 18 decimals
  have hpow : (10 : Nat) ^ fraction.length * 10 ^ (18 - fraction.length) = 10 ^ 18 := by
    rw [← pow_add, Nat.add_sub_cancel' hle]
  rw [Nat.mul_assoc, hpow, Nat.mul_right_comm] at hunits
  have hfloor : minTargetHfWad = ((105 * 10 ^ 16 : Nat) : Int) := by decide
  rw [hfloor, Int.ofNat_lt]
  omega

/-- What a field's check asks: a value where one is required, and the rule of the widget where there is
a value or the rule runs without one. -/
theorem validateField_eq_nil {schema : ParamSchema} {mode : ValidationMode} :
    validateField schema params mode tokenDecimals field fieldSchema = [] ↔
      (MustHave schema field fieldSchema → isEmpty (param params field) = false ∨
        fieldSchema.zeroToggled = true) ∧
      (isEmpty (param params field) = false ∨ fieldSchema.zeroToggled = true →
        validateWidget field fieldSchema (param params field) mode params tokenDecimals = []) := by
  have hzero : (fieldSchema.widget = some .tokenAmount && fieldSchema.zeroToggle.isSome : Bool) =
      fieldSchema.zeroToggled := rfl
  simp only [validateField, hzero, MustHave]
  cases fieldSchema.zeroToggled with
  | true => simp
  | false =>
    cases isEmpty (param params field) with
    | false => simp
    | true =>
      by_cases hrequired : field ∈ schema.required ∧ fieldSchema.widget ≠ some .contextSlot
      · simp [hrequired.1, hrequired.2]
      · simp only [ne_eq] at hrequired
        simp [hrequired]

theorem isEmpty_text (n : Nat) : isEmpty (.str (toString n)) = false := by
  have hne : toString n ≠ "" := Nat.repr_ne_empty
  simp only [isEmpty, hne, decide_false]

/-- What the mapper makes of a value: it keeps it, or writes a number. -/
inductive RawOf (c : AbiComponent) (fieldSchema : FieldSchema) (value : JsValue) :
    JsValue → Prop where
  | kept : fieldSchema.converts = false → RawOf c fieldSchema value value
  | unset : fieldSchema.widget = some .duration → isEmpty value = true →
      RawOf c fieldSchema value value
  | text (n : Nat) : fieldSchema.converts = true → c.type.Fits n →
      (fieldSchema.widget = some .duration → 0 < n) → RawOf c fieldSchema value (.str (toString n))

/-- A number for a field other than a duration, where zero is allowed. -/
theorem RawOf.number {c : AbiComponent} {n : Nat} (hconverts : fieldSchema.converts = true)
    (hfits : c.type.Fits n) (hwidget : fieldSchema.widget ≠ some .duration) :
    RawOf c fieldSchema value (.str (toString n)) :=
  RawOf.text n hconverts hfits fun hduration => absurd hduration hwidget

/-- A number that the mapper writes passes the raw rule. -/
theorem validateWidget_text {t : AbiType} {n : Nat} (hconverts : fieldSchema.converts = true)
    (hfits : t.Fits n) (hpos : fieldSchema.widget = some .duration → 0 < n) :
    validateWidget field fieldSchema (.str (toString n)) .raw params tokenDecimals = [] := by
  simp only [FieldSchema.converts, Bool.or_eq_true, decide_eq_true_eq] at hconverts
  rcases hconverts with (hwidget | hwidget) | hwidget
  · simp only [validateWidget, hwidget]
    exact validateDuration_raw (hpos hwidget)
  · simp only [validateWidget, hwidget]
    exact validateTokenAmount_raw (fits_lt hfits)
  · simp only [validateWidget, hwidget]

end Rules

/-! ## Friendly parameters that are mapped -/

section Encoding

variable {schema : ParamSchema} {fragment : Option (List AbiComponent)} {params raw : Record JsValue}
  {tokenDecimals : Option (Record Nat)} {c : AbiComponent} {fieldSchema : FieldSchema}

theorem validateParams_eq_nil {mode : ValidationMode} :
    validateParams schema params mode tokenDecimals = [] ↔
      ∀ field fieldSchema, (field, fieldSchema) ∈ schema.properties →
        validateField schema params mode tokenDecimals field fieldSchema = [] := by
  simp only [validateParams, List.flatMap_eq_nil_iff, Prod.forall]

theorem Sends.own? (h : Sends schema fragment c fieldSchema)
    (hkeys : (schema.properties.map Prod.fst).Nodup) :
    schema.properties.own? c.name = some fieldSchema := Record.own?_of_mem hkeys h.property

/-- A friendly duration that is sent. -/
theorem rawOf_duration (hrep : Representable schema fragment params tokenDecimals)
    (hc : Sends schema fragment c fieldSchema) (hwidget : fieldSchema.widget = some .duration)
    (hrule : isEmpty (param params c.name) = false →
      validateDuration c.name fieldSchema (param params c.name) .friendly = []) :
    ∃ v, mapFieldToRaw c.name (some fieldSchema) (param params c.name) params tokenDecimals = .ok v ∧
      RawOf c fieldSchema (param params c.name) v := by
  have hconverts : fieldSchema.converts = true := by simp [FieldSchema.converts, hwidget]
  cases hempty : isEmpty (param params c.name) with
  | true =>
    -- what is empty is no duration, and is kept
    have hnone : isDuration (param params c.name) = none := by
      cases hvalue : param params c.name with
      | object fields =>
        rw [hvalue] at hempty
        cases hempty
      | undefined => rfl
      | null => rfl
      | bool b => rfl
      | num x => rfl
      | str s => rfl
    refine ⟨param params c.name, ?_, RawOf.unset hwidget hempty⟩
    simp only [mapFieldToRaw, hwidget, hnone]
  | false =>
    obtain ⟨amount, unit, hduration, -, hunit⟩ := validateDuration_friendly (hrule hempty)
    obtain ⟨perUnit, hper⟩ := secondsPerUnit_of_mem hunit
    obtain ⟨n, hseconds, hnpos, hn, hfits⟩ := hrep.durations c fieldSchema hc hwidget amount unit
      perUnit hduration hper
    refine ⟨.str (toString n), ?_, RawOf.text n hconverts hfits fun _ => hnpos⟩
    exact mapFieldToRaw_duration hwidget hduration hper hseconds hnpos hn

/-- A friendly amount that is sent. -/
theorem rawOf_tokenAmount (hschema : Coherent schema fragment)
    (hrep : Representable schema fragment params tokenDecimals)
    (hchosen : Chosen schema fragment params tokenDecimals)
    (hc : Sends schema fragment c fieldSchema) (hwidget : fieldSchema.widget = some .tokenAmount)
    (hsent : isSent c.name (some fieldSchema) params = true)
    (hrule : isEmpty (param params c.name) = false →
      validateTokenAmount c.name fieldSchema (param params c.name) .friendly params tokenDecimals =
        []) :
    ∃ v, mapFieldToRaw c.name (some fieldSchema) (param params c.name) params tokenDecimals = .ok v ∧
      RawOf c fieldSchema (param params c.name) v := by
  have hconverts : fieldSchema.converts = true := by simp [FieldSchema.converts, hwidget]
  have hnotime : fieldSchema.widget ≠ some .duration := by
    rw [hwidget]
    decide
  cases htoggle : isZeroToggleOn c.name fieldSchema params with
  | true =>
    have hfits := hschema.unsigned c fieldSchema hc hconverts
    refine ⟨.str (toString 0), ?_, RawOf.number hconverts hfits hnotime⟩
    simp only [mapFieldToRaw, hwidget, htoggle, if_true]
    rfl
  | false =>
    -- without the toggle the text has an amount, and its token decimals
    obtain ⟨hempty, hfits⟩ := hrep.amounts c fieldSchema hc hwidget hsent htoggle
    obtain ⟨whole, fraction, hparts, hplaces⟩ :=
      validateTokenAmount_friendly (hrule hempty) htoggle hempty
    obtain ⟨decimals, hdecimals⟩ := hchosen.tokens c fieldSchema hc hwidget hsent htoggle
    have hbase := toBaseUnits_eq hparts (hplaces decimals hdecimals)
    have hunits := hfits decimals whole fraction hdecimals hparts
    refine ⟨_, ?_, RawOf.number hconverts hunits hnotime⟩
    simp only [mapFieldToRaw, hwidget, htoggle, Bool.false_eq_true, if_false, hdecimals, hbase]
    rfl

theorem mapFieldToRaw_healthFactor (hwidget : fieldSchema.widget = some .healthFactor) {field : String}
    {value : JsValue} (hempty : isEmpty value = false) {whole fraction : List Char}
    (hparts : amountParts (trim (valueToString value).toList) = some (whole, fraction))
    (hplaces : fraction.length ≤ 18) :
    mapFieldToRaw field (some fieldSchema) value params tokenDecimals =
      .ok (.str (toString (digitsValue 10 (whole ++ fraction) * 10 ^ (18 - fraction.length)))) := by
  simp only [mapFieldToRaw, hwidget, hempty, Bool.false_eq_true, if_false,
    toBaseUnits_eq hparts hplaces]
  rfl

/-- A friendly health factor that is sent. -/
theorem rawOf_healthFactor (hschema : Coherent schema fragment)
    (hrep : Representable schema fragment params tokenDecimals)
    (hc : Sends schema fragment c fieldSchema) (hwidget : fieldSchema.widget = some .healthFactor) :
    ∃ v, mapFieldToRaw c.name (some fieldSchema) (param params c.name) params tokenDecimals = .ok v ∧
      RawOf c fieldSchema (param params c.name) v := by
  have hconverts : fieldSchema.converts = true := by simp [FieldSchema.converts, hwidget]
  have hnotime : fieldSchema.widget ≠ some .duration := by
    rw [hwidget]
    decide
  cases hempty : isEmpty (param params c.name) with
  | true =>
    have hfits := hschema.unsigned c fieldSchema hc hconverts
    refine ⟨.str (toString 0), ?_, RawOf.number hconverts hfits hnotime⟩
    simp only [mapFieldToRaw, hwidget, hempty, if_true]
    rfl
  | false =>
    obtain ⟨-, whole, fraction, hparts, hplaces, hfits⟩ :=
      hrep.healthFactors c fieldSchema hc hwidget hempty
    exact ⟨_, mapFieldToRaw_healthFactor hwidget hempty hparts hplaces,
      RawOf.number hconverts hfits hnotime⟩

theorem friendly_field (hfriendly : validateParams schema params .friendly tokenDecimals = [])
    {field : String} (hfield : (field, fieldSchema) ∈ schema.properties) :
    (MustHave schema field fieldSchema → isEmpty (param params field) = false ∨
      fieldSchema.zeroToggled = true) ∧
    (isEmpty (param params field) = false ∨ fieldSchema.zeroToggled = true →
      validateWidget field fieldSchema (param params field) .friendly params tokenDecimals = []) :=
  validateField_eq_nil.1 (validateParams_eq_nil.1 hfriendly field fieldSchema hfield)

/-- A field that is not converted is sent as it is. -/
theorem mapFieldToRaw_kept {field : String} {value : JsValue} (h : fieldSchema.converts = false) :
    mapFieldToRaw field (some fieldSchema) value params tokenDecimals = .ok value := by
  simp only [FieldSchema.converts, Bool.or_eq_false_iff, decide_eq_false_iff_not] at h
  obtain ⟨⟨hduration, hamount⟩, hfactor⟩ := h
  cases hwidget : fieldSchema.widget with
  | none => simp only [mapFieldToRaw, hwidget]
  | some widget =>
    cases widget with
    | duration => exact absurd hwidget hduration
    | tokenAmount => exact absurd hwidget hamount
    | healthFactor => exact absurd hwidget hfactor
    | contextSlot => simp only [mapFieldToRaw, hwidget]
    | startTime => simp only [mapFieldToRaw, hwidget]
    | tokenSelector => simp only [mapFieldToRaw, hwidget]
    | accountSelector => simp only [mapFieldToRaw, hwidget]
    | aaveAmountMode => simp only [mapFieldToRaw, hwidget]
    | feeTier => simp only [mapFieldToRaw, hwidget]
    | tickRange => simp only [mapFieldToRaw, hwidget]
    | rangePercent => simp only [mapFieldToRaw, hwidget]
    | percent => simp only [mapFieldToRaw, hwidget]
    | amount => simp only [mapFieldToRaw, hwidget]

/-- **One field.** What friendly parameters send is mapped. -/
theorem rawOf_sent (hschema : Coherent schema fragment)
    (hfriendly : validateParams schema params .friendly tokenDecimals = [])
    (hrep : Representable schema fragment params tokenDecimals)
    (hchosen : Chosen schema fragment params tokenDecimals)
    (hc : Sends schema fragment c fieldSchema)
    (hsent : isSent c.name (some fieldSchema) params = true) :
    ∃ v, mapFieldToRaw c.name (some fieldSchema) (param params c.name) params tokenDecimals = .ok v ∧
      RawOf c fieldSchema (param params c.name) v := by
  have hrule := (friendly_field hfriendly hc.property).2
  -- three widgets are converted, each by its own function; all others are kept
  cases hconverts : fieldSchema.converts with
  | true =>
    simp only [FieldSchema.converts, Bool.or_eq_true, decide_eq_true_eq] at hconverts
    rcases hconverts with (hwidget | hwidget) | hwidget
    · simp only [validateWidget, hwidget] at hrule
      exact rawOf_duration hrep hc hwidget fun hempty => hrule (Or.inl hempty)
    · simp only [validateWidget, hwidget] at hrule
      exact rawOf_tokenAmount hschema hrep hchosen hc hwidget hsent fun hempty => hrule (Or.inl hempty)
    · exact rawOf_healthFactor hschema hrep hc hwidget
  | false => exact ⟨param params c.name, mapFieldToRaw_kept hconverts, RawOf.kept hconverts⟩

/-- A value that is set is sent. -/
theorem isSent_of_value {field : String} {schema? : Option FieldSchema}
    (h : param params field ≠ .undefined) : isSent field schema? params = true := by
  unfold isSent
  split
  · rename_i hundefined
    exact absurd hundefined h
  · rfl

theorem value_of_nonempty {v : JsValue} (h : isEmpty v = false) : v ≠ .undefined := by
  rintro rfl
  cases h

theorem zeroToggled_widget (h : fieldSchema.zeroToggled = true) :
    fieldSchema.widget = some .tokenAmount := by
  simp only [FieldSchema.zeroToggled, Bool.and_eq_true, decide_eq_true_eq] at h
  exact h.1

/-- An amount that passes without a value has its toggle on, and is sent. -/
theorem isSent_of_zeroToggled {field : String} (hwidget : fieldSchema.widget = some .tokenAmount)
    (hrule :
      validateWidget field fieldSchema (param params field) .friendly params tokenDecimals = []) :
    isSent field (some fieldSchema) params = true := by
  cases hvalue : param params field with
  | undefined =>
    simp only [validateWidget, hwidget, validateTokenAmount, hvalue, isEmpty, if_true] at hrule
    split_ifs at hrule with htoggle
    simp only [isSent, hvalue, hwidget, htoggle, decide_true, Bool.and_self]
  | null => simp only [isSent, hvalue]
  | bool b => simp only [isSent, hvalue]
  | num x => simp only [isSent, hvalue]
  | str s => simp only [isSent, hvalue]
  | object fields => simp only [isSent, hvalue]

/-- The raw parameters of a mapped object, field by field. -/
structure Mapping (schema : ParamSchema) (fragment : Option (List AbiComponent))
    (params raw : Record JsValue) (tokenDecimals : Option (Record Nat)) : Prop where
  sent : ∀ c ∈ fragment.getD [], ∀ r,
    rawValue? schema.properties params tokenDecimals c.name = some r →
    ∃ v, r = .ok v ∧ raw.own? c.name = some v
  source : ∀ field v, raw.own? field = some v → (∃ c ∈ fragment.getD [], c.name = field) ∧
    rawValue? schema.properties params tokenDecimals field = some (.ok v)

theorem mapParamsToRaw_mapping
    (h : mapParamsToRaw params (some ⟨some schema, fragment⟩) tokenDecimals = .ok raw) :
    Mapping schema fragment params raw tokenDecimals := by
  obtain ⟨hsent, hsource, -⟩ := mapComponents_own? h
  refine ⟨hsent, fun field v hv => ?_⟩
  rcases hsource field v hv with hnone | hr
  · cases hnone
  · exact hr

/-- What is sent and not converted arrives as it is. -/
theorem Mapping.param_kept (hmap : Mapping schema fragment params raw tokenDecimals) {field : String}
    (hcomponent : ∃ c ∈ fragment.getD [], c.name = field)
    (hkept : ∀ fs, (field, fs) ∈ schema.properties → fs.converts = false) :
    param raw field = param params field := by
  obtain ⟨c, hc, rfl⟩ := hcomponent
  by_cases hsent : isSent c.name (schema.properties.own? c.name) params = true
  · have hvalue : rawValue? schema.properties params tokenDecimals c.name =
        some (.ok (param params c.name)) := by
      rw [rawValue?]
      rw [if_pos hsent]
      cases hfield : schema.properties.own? c.name with
      | none => rfl
      | some fs => rw [mapFieldToRaw_kept (hkept fs (Record.mem_of_own? hfield))]
    obtain ⟨v, hv, hraw⟩ := hmap.sent c hc _ hvalue
    cases hv
    rw [param, hraw]
    rfl
  · -- only what is undefined is not sent
    have hundefined : param params c.name = .undefined := by
      by_contra hne
      exact hsent (isSent_of_value hne)
    cases hraw : raw.own? c.name with
    | none =>
      rw [param, hraw, hundefined]
      rfl
    | some v =>
      have hsource := (hmap.source c.name v hraw).2
      rw [rawValue?, if_neg hsent] at hsource
      cases hsource

theorem Mapping.own?_mapped (hmap : Mapping schema fragment params raw tokenDecimals)
    (hkeys : (schema.properties.map Prod.fst).Nodup) (hc : Sends schema fragment c fieldSchema)
    (hsent : isSent c.name (some fieldSchema) params = true) {v : JsValue}
    (hv : mapFieldToRaw c.name (some fieldSchema) (param params c.name) params tokenDecimals = .ok v) :
    raw.own? c.name = some v := by
  have hvalue : rawValue? schema.properties params tokenDecimals c.name = some (.ok v) := by
    rw [rawValue?, hc.own? hkeys, if_pos hsent, hv]
  obtain ⟨w, hw, hown⟩ := hmap.sent c hc.component _ hvalue
  cases hw
  exact hown

/-- The ticks of a range are the friendly ones. -/
theorem Mapping.tickRange_rule (hmap : Mapping schema fragment params raw tokenDecimals)
    (hschema : Coherent schema fragment) (hc : Sends schema fragment c fieldSchema)
    (hwidget : fieldSchema.widget = some .tickRange) {value : JsValue}
    (hrule : validateTickRange fieldSchema value params = []) :
    validateTickRange fieldSchema value raw = [] := by
  rw [← hrule]
  unfold validateTickRange
  cases hlower : reference fieldSchema.tickLowerField with
  | none => rfl
  | some lower =>
    cases hupper : reference fieldSchema.tickUpperField with
    | none => rfl
    | some upper =>
      obtain ⟨hlowersent, hlowerkept⟩ := hschema.ticks c fieldSchema lower hc hwidget (Or.inl hlower)
      obtain ⟨huppersent, hupperkept⟩ := hschema.ticks c fieldSchema upper hc hwidget (Or.inr hupper)
      simp only [hmap.param_kept hlowersent hlowerkept, hmap.param_kept huppersent hupperkept]

/-- A health factor denotes the number that its text does. -/
theorem toNumber_of_parts {value : JsValue} (hempty : isEmpty value = false)
    (hexact : ∀ x, value = .num x → Exact x) {whole fraction : List Char}
    (hparts : amountParts (trim (valueToString value).toList) = some (whole, fraction)) :
    toNumber value = .finite (mkRat (digitsValue 10 (whole ++ fraction)) (10 ^ fraction.length)) := by
  obtain ⟨hmantissa, hwhole⟩ := mantissa_of_amountParts hparts
  have htext := stringToNumber_of_mantissa hmantissa hwhole
  cases value with
  | undefined => cases hempty
  | null => cases hempty
  | bool b =>
    have hnone : amountParts (trim (valueToString (.bool b)).toList) = none := by
      cases b with
      | true => decide
      | false => decide
    rw [hnone] at hparts
    cases hparts
  | num x =>
    rw [← htext]
    exact (hexact x rfl).symm
  | str s => exact htext
  | object fields =>
    have hnone : amountParts (trim "[object Object]".toList) = none := by decide
    rw [valueToString, hnone] at hparts
    cases hparts

/-- Nothing is at most the floor. -/
theorem le_of_empty {value : JsValue} {q : Rat} (hempty : isEmpty value = true)
    (hvalue : toNumber value = .finite q) : q ≤ mkRat 105 100 := by
  have hzero : q = 0 := by
    cases value with
    | undefined => cases hvalue
    | null =>
      cases hvalue
      rfl
    | str s =>
      have hs : s = "" := of_decide_eq_true hempty
      subst hs
      cases hvalue
      rfl
    | bool b => cases hempty
    | num x => cases hempty
    | object fields => cases hempty
  rw [hzero]
  decide

/-- A health factor above the floor is above it in base units. -/
theorem Mapping.aaveAmountMode_rule (hmap : Mapping schema fragment params raw tokenDecimals)
    (hschema : Coherent schema fragment) (hrep : Representable schema fragment params tokenDecimals)
    (hc : Sends schema fragment c fieldSchema)
    (hwidget : fieldSchema.widget = some .aaveAmountMode) {value : JsValue}
    (hrule : validateAaveAmountMode fieldSchema value .friendly params = []) :
    validateAaveAmountMode fieldSchema value .raw raw = [] := by
  rw [validateAaveAmountMode] at hrule ⊢
  split_ifs with hmode
  · rfl
  rw [if_neg hmode] at hrule
  cases hreference : reference fieldSchema.targetHfField with
  | none => rfl
  | some hfField =>
    rw [hreference] at hrule
    simp only at hrule ⊢
    obtain ⟨hf, hfSchema, rfl, hsends, hhf⟩ :=
      hschema.targetHf c fieldSchema hfField hc hwidget hreference
    cases hvalue : toNumber (param params hf.name) with
    | nan =>
      rw [hvalue] at hrule
      cases hrule
    | infinity negative =>
      rw [hvalue] at hrule
      cases hrule
    | finite q =>
      rw [hvalue] at hrule
      simp only at hrule
      split_ifs at hrule with hfloor
      -- above the floor there is a value, so its text has base units
      have hempty : isEmpty (param params hf.name) = false := by
        by_contra hempty
        rw [Bool.not_eq_false] at hempty
        exact hfloor (le_of_empty hempty hvalue)
      obtain ⟨hexact, whole, fraction, hparts, hplaces, -⟩ :=
        hrep.healthFactors hf hfSchema hsends hhf hempty
      have hnumber := toNumber_of_parts hempty hexact hparts
      rw [hvalue, JsNumber.finite.injEq] at hnumber
      rw [not_le, hnumber] at hfloor
      have hsent : isSent hf.name (some hfSchema) params = true :=
        isSent_of_value (value_of_nonempty hempty)
      have hown := hmap.own?_mapped hschema.keys hsends hsent
        (mapFieldToRaw_healthFactor hhf hempty hparts hplaces)
      have hraw : param raw hf.name =
          .str (toString (digitsValue 10 (whole ++ fraction) * 10 ^ (18 - fraction.length))) := by
        rw [param, hown]
        rfl
      simp only [hraw, valueToString, stringToBigInt_toString,
        if_neg (not_le.2 (targetHf_floor hplaces hfloor))]

section Mapped

variable (hschema : Coherent schema fragment)
  (hfriendly : validateParams schema params .friendly tokenDecimals = [])
  (hrep : Representable schema fragment params tokenDecimals)
  (hchosen : Chosen schema fragment params tokenDecimals)
  (hmap : Mapping schema fragment params raw tokenDecimals)

include hschema hfriendly hrep hchosen hmap

theorem Mapping.sent_rawOf (hc : Sends schema fragment c fieldSchema)
    (hsent : isSent c.name (some fieldSchema) params = true) :
    ∃ v, raw.own? c.name = some v ∧ RawOf c fieldSchema (param params c.name) v := by
  obtain ⟨v, hv, hraw⟩ := rawOf_sent hschema hfriendly hrep hchosen hc hsent
  exact ⟨v, hmap.own?_mapped hschema.keys hc hsent hv, hraw⟩

/-- Every raw value of a field is one that the mapper makes. -/
theorem Mapping.rawOf_own? (hc : Sends schema fragment c fieldSchema) {v : JsValue}
    (hv : raw.own? c.name = some v) : RawOf c fieldSchema (param params c.name) v := by
  have hvalue := (hmap.source c.name v hv).2
  rw [rawValue?, hc.own? hschema.keys] at hvalue
  split_ifs at hvalue with hsent
  obtain ⟨w, hw, hof⟩ := rawOf_sent hschema hfriendly hrep hchosen hc hsent
  rw [hw] at hvalue
  cases hvalue
  exact hof

/-- The raw rule of a field that is sent as it is. -/
theorem Mapping.kept_rule (hc : Sends schema fragment c fieldSchema)
    (hkept : fieldSchema.converts = false) (hempty : isEmpty (param params c.name) = false) :
    validateWidget c.name fieldSchema (param params c.name) .raw raw none = [] := by
  have hrule := (friendly_field hfriendly hc.property).2 (Or.inl hempty)
  rw [validateWidget] at hrule ⊢
  cases hwidget : fieldSchema.widget with
  | none => rfl
  | some widget =>
    rw [hwidget] at hrule
    cases widget with
    -- the rules by their widgets; those without a rule of their own are empty
    | percent => exact hrule
    | feeTier => exact hchosen.feeTiers c fieldSchema hc hwidget hempty
    | tokenSelector => exact hchosen.selectors c fieldSchema hc hwidget hempty
    | tickRange =>
      exact hmap.tickRange_rule hschema hc hwidget hrule
    | aaveAmountMode =>
      exact hmap.aaveAmountMode_rule hschema hrep hc hwidget hrule
    | duration => simp [FieldSchema.converts, hwidget] at hkept
    | tokenAmount => simp [FieldSchema.converts, hwidget] at hkept
    | healthFactor => rfl
    | contextSlot => rfl
    | startTime => rfl
    | accountSelector => rfl
    | rangePercent => rfl
    | amount => rfl

/-- What the friendly rules accept, the raw rules accept after the mapping. -/
theorem Mapping.raw_valid : validateParams schema raw .raw none = [] := by
  rw [validateParams_eq_nil]
  intro field fs hfield
  obtain ⟨hmust, hrule⟩ := friendly_field hfriendly hfield
  have hraw {v : JsValue} (hv : raw.own? field = some v) : param raw field = v := by
    rw [param, hv]
    rfl
  -- a field whose rule runs without a value is sent, and written as a number
  have hzero (hzero : fs.zeroToggled = true) :
      validateWidget field fs (param raw field) .raw raw none = [] := by
    obtain ⟨c, hc, rfl⟩ := hschema.required field fs hfield (Or.inr hzero)
    have hwidget := zeroToggled_widget hzero
    have hsent := isSent_of_zeroToggled hwidget (hrule (Or.inr hzero))
    obtain ⟨v, hown, hof⟩ :=
      hmap.sent_rawOf hschema hfriendly hrep hchosen ⟨hc, hfield⟩ hsent
    rw [hraw hown]
    cases hof with
    | kept hkept => simp [FieldSchema.converts, hwidget] at hkept
    | unset hduration _ =>
      rw [hwidget] at hduration
      cases hduration
    | text n hconverts hfits hpos => exact validateWidget_text hconverts hfits hpos
  rw [validateField_eq_nil]
  refine ⟨fun hmusthave => ?_, fun hvalue => ?_⟩
  -- a value that is required is sent, and what the mapper makes of it is a value
  · obtain ⟨c, hc, rfl⟩ := hschema.required field fs hfield hmusthave
    refine (hmust hmusthave).imp_left fun hvalue => ?_
    obtain ⟨v, hown, hof⟩ := hmap.sent_rawOf hschema hfriendly hrep hchosen ⟨hc, hfield⟩
      (isSent_of_value (value_of_nonempty hvalue))
    rw [hraw hown]
    cases hof with
    | kept _ => exact hvalue
    | unset _ hempty =>
      rw [hempty] at hvalue
      cases hvalue
    | text n _ _ _ => exact isEmpty_text n
  -- every value there is comes from a component
  · rcases hvalue with hvalue | hvalue
    · cases hown : raw.own? field with
      | none =>
        rw [param, hown] at hvalue
        cases hvalue
      | some v =>
        obtain ⟨⟨c, hc, rfl⟩, -⟩ := hmap.source field v hown
        have hsends : Sends schema fragment c fs := ⟨hc, hfield⟩
        have hof := hmap.rawOf_own? hschema hfriendly hrep hchosen hsends hown
        rw [hraw hown] at hvalue ⊢
        cases hof with
        | kept hkept => exact hmap.kept_rule hschema hfriendly hrep hchosen hsends hkept hvalue
        | unset _ hempty =>
          rw [hempty] at hvalue
          cases hvalue
        | text n hconverts hfits hpos => exact validateWidget_text hconverts hfits hpos
    · exact hzero hvalue

end Mapped

theorem encodes_of_chosen (hschema : Coherent schema fragment)
    (hfriendly : validateParams schema params .friendly tokenDecimals = [])
    (hrep : Representable schema fragment params tokenDecimals)
    (hchosen : Chosen schema fragment params tokenDecimals) :
    Encodes schema fragment params tokenDecimals := by
  have hmapped : ∀ c ∈ fragment.getD [], ∀ r,
      rawValue? schema.properties params tokenDecimals c.name = some r → ∃ v, r = .ok v := by
    intro c hc r hr
    rw [rawValue?] at hr
    split_ifs at hr with hsent
    cases hr
    cases hfield : schema.properties.own? c.name with
    | none => exact ⟨_, rfl⟩
    | some fs =>
      rw [hfield] at hsent
      obtain ⟨v, hv, -⟩ := rawOf_sent hschema hfriendly hrep hchosen
        ⟨hc, Record.mem_of_own? hfield⟩ hsent
      exact ⟨v, hv⟩
  -- every field that is sent converts, so the raw parameters are there
  obtain ⟨raw, hraw⟩ := mapComponents_ok hmapped []
  have hmap := mapParamsToRaw_mapping hraw
  refine ⟨raw, hraw, hmap.raw_valid hschema hfriendly hrep hchosen, ?_⟩
  intro c fs hc hconverts v hv hvalue
  -- a converted field is neither sent as it is nor empty
  cases hmap.rawOf_own? hschema hfriendly hrep hchosen hc hv with
  | kept hkept =>
    rw [hconverts] at hkept
    cases hkept
  | unset _ hempty =>
    rw [hempty] at hvalue
    cases hvalue
  | text n _ hfits _ => exact ⟨n, rfl, hfits⟩

/-- The raw rule of a field that is sent as it is holds of the friendly value. -/
theorem Mapping.rule_kept (hmap : Mapping schema fragment params raw tokenDecimals)
    (hkeys : (schema.properties.map Prod.fst).Nodup)
    (hvalid : validateParams schema raw .raw none = []) (hc : Sends schema fragment c fieldSchema)
    (hkept : fieldSchema.converts = false) (hempty : isEmpty (param params c.name) = false) :
    validateWidget c.name fieldSchema (param params c.name) .raw raw none = [] := by
  have hsame : param raw c.name = param params c.name := by
    refine hmap.param_kept ⟨c, hc.component, rfl⟩ fun fs hfs => ?_
    -- the key is there once
    have hown := Record.own?_of_mem hkeys hfs
    rw [hc.own? hkeys, Option.some.injEq] at hown
    exact hown ▸ hkept
  have hfield := validateParams_eq_nil.1 hvalid c.name fieldSchema hc.property
  have hrule := (validateField_eq_nil.1 hfield).2
  rw [hsame] at hrule
  exact hrule (Or.inl hempty)

theorem chosen_of_encodes (hkeys : (schema.properties.map Prod.fst).Nodup)
    (h : Encodes schema fragment params tokenDecimals) :
    Chosen schema fragment params tokenDecimals := by
  obtain ⟨raw, hraw, hvalid, -⟩ := h
  have hmap := mapParamsToRaw_mapping hraw
  constructor
  -- without decimals the mapper would have thrown
  · intro c fs hc hwidget hsent htoggle
    have hvalue : rawValue? schema.properties params tokenDecimals c.name =
        some (mapFieldToRaw c.name (some fs) (param params c.name) params tokenDecimals) := by
      rw [rawValue?, hc.own? hkeys, if_pos hsent]
    obtain ⟨v, hv, -⟩ := hmap.sent c hc.component _ hvalue
    simp only [mapFieldToRaw, hwidget, htoggle, Bool.false_eq_true, if_false] at hv
    cases hdecimals : amountDecimals fs params tokenDecimals with
    | own decimals => exact ⟨decimals, rfl⟩
    | inherited =>
      rw [hdecimals] at hv
      cases hv
    | undefined =>
      rw [hdecimals] at hv
      cases hv
  · intro c fs hc hwidget hempty
    have hrule := hmap.rule_kept hkeys hvalid hc (by simp [FieldSchema.converts, hwidget]) hempty
    simpa only [validateWidget, hwidget] using hrule
  · intro c fs hc hwidget hempty
    have hrule := hmap.rule_kept hkeys hvalid hc (by simp [FieldSchema.converts, hwidget]) hempty
    simpa only [validateWidget, hwidget] using hrule

/-- **Friendly parameters that pass are encoded** exactly when what the friendly rules leave to the
encoder is right, where schema and fragment go together and the components can hold the values. -/
theorem encodes_iff_chosen (hschema : Coherent schema fragment)
    (hfriendly : validateParams schema params .friendly tokenDecimals = [])
    (hrep : Representable schema fragment params tokenDecimals) :
    Encodes schema fragment params tokenDecimals ↔ Chosen schema fragment params tokenDecimals :=
  ⟨chosen_of_encodes hschema.keys, encodes_of_chosen hschema hfriendly hrep⟩

end Encoding

/-! ## An amount and its token -/

/-- A field with this widget. -/
def sampleField (widget : Widget) (amountTokenField : Option String) : FieldSchema where
  title := none
  default := .undefined
  widget := some widget
  slotAccess := none
  timeSlotField := none
  zeroToggle := none
  amountTokenField := amountTokenField
  targetHfField := none
  tickLowerField := none
  tickUpperField := none

/-- A token, and an amount of it. -/
def sampleSchema : ParamSchema where
  properties := [
    ("token", sampleField .tokenSelector none),
    ("amount", sampleField .tokenAmount (some "token"))]
  required := ["token", "amount"]

/-- The components of both fields. -/
def sampleFragment : List AbiComponent := [⟨"token", .address⟩, ⟨"amount", .uint256⟩]

/-- An amount with a fraction. -/
def sampleParams : Record JsValue :=
  [("token", .str "0x1111111111111111111111111111111111111111"), ("amount", .str "1.5")]

/-- The token has 6 decimals. -/
def sampleDecimals : Record Nat := [("0x1111111111111111111111111111111111111111", 6)]

theorem sampleSends {c : AbiComponent} {fs : FieldSchema}
    (h : Sends sampleSchema (some sampleFragment) c fs) :
    (c = ⟨"token", .address⟩ ∧ fs = sampleField .tokenSelector none) ∨
      (c = ⟨"amount", .uint256⟩ ∧ fs = sampleField .tokenAmount (some "token")) := by
  obtain ⟨hc, hfield⟩ := h
  have hkeys : (sampleSchema.properties.map Prod.fst).Nodup := by decide
  have hown := Record.own?_of_mem hkeys hfield
  rcases List.mem_cons.1 hc with rfl | hc
  · cases hown
    exact Or.inl ⟨rfl, rfl⟩
  · rw [List.mem_singleton] at hc
    subst hc
    cases hown
    exact Or.inr ⟨rfl, rfl⟩

theorem sample_coherent : Coherent sampleSchema (some sampleFragment) where
  keys := by decide
  required := by
    intro field fs hfield _
    rcases List.mem_cons.1 hfield with h | h
    · cases h
      exact ⟨_, List.mem_cons_self, rfl⟩
    · cases List.mem_singleton.1 h
      exact ⟨_, List.mem_cons_of_mem _ (List.mem_singleton_self _), rfl⟩
  unsigned := by
    intro c fs hc hconverts
    rcases sampleSends hc with ⟨rfl, rfl⟩ | ⟨rfl, rfl⟩
    · cases hconverts
    · exact ⟨256, rfl, by decide⟩
  targetHf := by
    intro c fs hfField hc hwidget
    rcases sampleSends hc with ⟨rfl, rfl⟩ | ⟨rfl, rfl⟩
    · cases hwidget
    · cases hwidget
  ticks := by
    intro c fs tickField hc hwidget
    rcases sampleSends hc with ⟨rfl, rfl⟩ | ⟨rfl, rfl⟩
    · cases hwidget
    · cases hwidget

theorem sampleDecimals_eq : amountDecimals (sampleField .tokenAmount (some "token")) sampleParams
    (some sampleDecimals) = .own 6 := by
  decide +kernel

/-- `1.5` of a token with 6 decimals. -/
theorem encodes_iff_chosen_sample :
    Encodes sampleSchema (some sampleFragment) sampleParams (some sampleDecimals) := by
  refine (encodes_iff_chosen sample_coherent (by decide +kernel) ⟨?_, ?_, ?_⟩).2 ⟨?_, ?_, ?_⟩
  · intro c fs hc hwidget
    rcases sampleSends hc with ⟨rfl, rfl⟩ | ⟨rfl, rfl⟩
    · cases hwidget
    · cases hwidget
  · intro c fs hc hwidget _ _
    rcases sampleSends hc with ⟨rfl, rfl⟩ | ⟨rfl, rfl⟩
    · cases hwidget
    · refine ⟨rfl, fun decimals whole fraction hdecimals hparts => ?_⟩
      rw [sampleDecimals_eq, Property.own.injEq] at hdecimals
      subst hdecimals
      -- the amount is the only field with a rule of its own
      have htext : amountParts (trim (valueToString (param sampleParams "amount")).toList) =
          some (['1'], ['5']) := by decide
      rw [htext, Option.some.injEq, Prod.mk.injEq] at hparts
      obtain ⟨rfl, rfl⟩ := hparts
      exact ⟨256, rfl, by decide⟩
  · intro c fs hc hwidget
    rcases sampleSends hc with ⟨rfl, rfl⟩ | ⟨rfl, rfl⟩
    · cases hwidget
    · cases hwidget
  · intro c fs hc hwidget _ _
    rcases sampleSends hc with ⟨rfl, rfl⟩ | ⟨rfl, rfl⟩
    · cases hwidget
    · exact ⟨6, sampleDecimals_eq⟩
  · intro c fs hc hwidget _
    rcases sampleSends hc with ⟨rfl, rfl⟩ | ⟨rfl, rfl⟩
    · decide
    · cases hwidget
  · intro c fs hc hwidget
    rcases sampleSends hc with ⟨rfl, rfl⟩ | ⟨rfl, rfl⟩
    · cases hwidget
    · cases hwidget

/-- The mapper refuses an amount of a token whose decimals are not known, which the friendly rules let
pass. -/
theorem unknown_decimals_refused : validateParams sampleSchema sampleParams .friendly none = [] ∧
    mapParamsToRaw sampleParams (some ⟨some sampleSchema, some sampleFragment⟩) none = .error
      ("Cannot convert amount: unknown decimals for token " ++
        "0x1111111111111111111111111111111111111111. Select an accepted token.") := by
  refine ⟨by decide, ?_⟩
  rfl

end StrategyBuilder.Shared
