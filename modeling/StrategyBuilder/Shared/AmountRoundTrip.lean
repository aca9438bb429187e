import Mathlib.Tactic.FieldSimp
import StrategyBuilder.Shared.Amount
import StrategyBuilder.Shared.Encodable

/-!
# Amounts and base units

`toBaseUnits` and `fromBaseUnits` of `amount.ts` convert exactly: an amount with at most as many decimals
as the token is its value in base units, and base units are shown as the shortest text of that value
(`baseUnits_exact`). The texts are records of their digits (`DecimalText`); two of them with one value
differ in zeros at the two ends only (`DecimalText.aligned`), so that a text without such zeros is the
shortest (`DecimalText.Stripped.shortest`).
-/

set_option autoImplicit false

namespace StrategyBuilder.Shared

open StrategyBuilder.Lib.Js

/-- A decimal text: the digits before the point, of which there is one, and those after it; without
these there is no point. -/
@[ext] structure DecimalText where
  whole : List Char
  fraction : List Char
  whole_ne : whole ≠ []
  whole_digits : ∀ c ∈ whole, isDigit c = true
  fraction_digits : ∀ c ∈ fraction, isDigit c = true

namespace DecimalText

/-- The text with these digits. -/
def text (a : DecimalText) : String := decimalText a.whole a.fraction

/-- The number that the text denotes. -/
def value (a : DecimalText) : Rat :=
  mkRat (digitsValue 10 (a.whole ++ a.fraction)) (10 ^ a.fraction.length)

/-- The string is the text, up to space around it. -/
def Trims (a : DecimalText) (s : String) : Prop := trim s.toList = a.text.toList

/-- No zero can be left out. -/
structure Stripped (a : DecimalText) : Prop where
  leading : ∀ ds, a.whole = '0' :: ds → ds = []
  trailing : ∀ ds, a.fraction ≠ ds ++ ['0']

variable {a b : DecimalText} {s : String}

theorem toList_text (a : DecimalText) :
    a.text.toList = if a.fraction = [] then a.whole else a.whole ++ '.' :: a.fraction :=
  String.toList_ofList

theorem value_eq_div (a : DecimalText) :
    a.value = (digitsValue 10 (a.whole ++ a.fraction) : Rat) / 10 ^ a.fraction.length := by
  rw [value, Rat.mkRat_eq_div]
  push_cast
  rfl

theorem digits (a : DecimalText) : ∀ c ∈ a.whole ++ a.fraction, isDigit c = true := by
  intro c hc
  rcases List.mem_append.1 hc with hc | hc
  · exact a.whole_digits c hc
  · exact a.fraction_digits c hc

/-! ## Reading -/

/-- The parts of a text are the digits that it has. -/
theorem Trims.amountParts (h : a.Trims s) :
    amountParts (trim s.toList) = some (a.whole, a.fraction) := by
  have hmantissa := mantissa_digits a.whole_digits a.fraction_digits
  rw [Trims, toList_text] at h
  rw [h, Shared.amountParts, hmantissa]
  have hparts : a.fraction ≠ [] ∨
      (if a.fraction = [] then a.whole else a.whole ++ '.' :: a.fraction) = a.whole := by
    by_cases hnil : a.fraction = []
    · exact Or.inr (if_pos hnil)
    · exact Or.inl hnil
  exact if_pos ⟨a.whole_ne, rfl, hparts⟩

/-- What the pattern accepts is a decimal text. -/
theorem exists_trims {whole fraction : List Char}
    (h : Shared.amountParts (trim s.toList) = some (whole, fraction)) :
    ∃ a : DecimalText, a.Trims s ∧ a.whole = whole ∧ a.fraction = fraction := by
  obtain ⟨hmantissa, hne⟩ := mantissa_of_amountParts h
  obtain ⟨hwhole, hfraction, hcs⟩ := mantissa_parts hmantissa
  refine ⟨⟨whole, fraction, hne, hwhole, hfraction⟩, ?_, rfl, rfl⟩
  rw [Trims, toList_text]
  rcases hcs with ⟨hcs, hnil⟩ | hcs
  · exact hcs.trans (if_pos hnil).symm
  · have hpoint : fraction ≠ [] := by
      -- a point without digits behind it is refused
      rintro rfl
      rw [Shared.amountParts, hmantissa] at h
      rw [hcs] at h
      simp at h
    exact hcs.trans (if_neg hpoint).symm

/-- A text has one number. -/
theorem Trims.unique (ha : a.Trims s) (hb : b.Trims s) : a = b := by
  have h := ha.amountParts.symm.trans hb.amountParts
  simp only [Option.some.injEq, Prod.mk.injEq] at h
  exact DecimalText.ext h.1 h.2

theorem trims_text (a : DecimalText) : a.Trims a.text := by
  have htrim := trim_decimalText a.whole_digits a.fraction_digits [] (by simp)
  rw [List.nil_append] at htrim
  rw [Trims, toList_text, htrim]

/-! ## Base units -/

/-- The value in base units. -/
theorem units_eq (a : DecimalText) {decimals : Nat} (hle : a.fraction.length ≤ decimals) :
    ((digitsValue 10 (a.whole ++ a.fraction) * 10 ^ (decimals - a.fraction.length) : Nat) : Rat) =
      a.value * 10 ^ decimals := by
  obtain ⟨k, rfl⟩ := Nat.exists_eq_add_of_le hle
  rw [value_eq_div, Nat.add_sub_cancel_left]
  push_cast
  rw [pow_add]
  field_simp

/-- **What converts**: the texts with at most as many decimals, to their values. -/
theorem toBaseUnits_ok_iff {decimals : Nat} {base : String} :
    toBaseUnits s decimals = .ok base ↔
      ∃ a : DecimalText, a.Trims s ∧ a.fraction.length ≤ decimals ∧
        ∃ n : Nat, base = toString n ∧ (n : Rat) = a.value * 10 ^ decimals := by
  constructor
  · intro h
    cases hparts : Shared.amountParts (trim s.toList) with
    | none =>
      rw [toBaseUnits, hparts] at h
      cases h
    | some parts =>
      obtain ⟨whole, fraction⟩ := parts
      obtain ⟨a, ha, rfl, rfl⟩ := exists_trims hparts
      by_cases hle : a.fraction.length ≤ decimals
      · rw [toBaseUnits_eq hparts hle] at h
        exact ⟨a, ha, hle, _, (Except.ok.inj h).symm, a.units_eq hle⟩
      · simp only [toBaseUnits, hparts, Nat.lt_of_not_le hle, if_true] at h
        cases h
  · rintro ⟨a, ha, hle, n, rfl, hn⟩
    rw [toBaseUnits_eq ha.amountParts hle]
    have hunits := (a.units_eq hle).trans hn.symm
    rw [Nat.cast_injective hunits]

/-- The base units of a text that converts. -/
theorem Trims.toBaseUnits (ha : a.Trims s) {decimals n : Nat} (hle : a.fraction.length ≤ decimals)
    (hn : (n : Rat) = a.value * 10 ^ decimals) : toBaseUnits s decimals = .ok (toString n) :=
  toBaseUnits_ok_iff.2 ⟨a, ha, hle, n, rfl, hn⟩

/-- Digits of which the last are cut off as the fraction, without its zeros at the end. -/
theorem exists_cut {digits : List Char} {decimals : Nat} (hall : ∀ c ∈ digits, isDigit c = true)
    (hlong : decimals < digits.length)
    (hleading : ∀ ds, digits.take (digits.length - decimals) = '0' :: ds → ds = []) :
    ∃ a : DecimalText, a.whole = digits.take (digits.length - decimals) ∧
      a.fraction = (digits.drop (digits.length - decimals)).rdropWhile (· = '0') ∧
      a.Stripped ∧ a.fraction.length ≤ decimals ∧
      a.value * 10 ^ decimals = digitsValue 10 digits := by
  obtain ⟨k, hparts, hk⟩ := fraction_zeros digits decimals (by rw [List.length_take]; omega) rfl
  have hne : digits.take (digits.length - decimals) ≠ [] := by
    intro hnil
    have hlength := congrArg List.length hnil
    rw [List.length_take, List.length_nil] at hlength
    omega
  let a : DecimalText :=
    { whole := digits.take (digits.length - decimals)
      fraction := (digits.drop (digits.length - decimals)).rdropWhile (· = '0')
      whole_ne := hne
      whole_digits := fun c hc => hall c (List.mem_of_mem_take hc)
      fraction_digits := fun c hc =>
        hall c (List.mem_of_mem_drop ((List.rdropWhile_prefix _ _).subset hc)) }
  -- the zeros at the end are gone, and the value is the same without them
  have htrailing : ∀ ds, a.fraction ≠ ds ++ ['0'] := by
    intro ds hds
    have hnot := List.rdropWhile_last_not (fun c : Char => decide (c = '0'))
      (digits.drop (digits.length - decimals))
    change ∀ hl : a.fraction ≠ [], ¬ decide (a.fraction.getLast hl = '0') = true at hnot
    simp [hds] at hnot
  refine ⟨a, rfl, rfl, ⟨hleading, htrailing⟩, ?_, ?_⟩
  · rw [← hk]
    exact Nat.le_add_right ..
  · have hvalue : a.value = mkRat (digitsValue 10 digits) (10 ^ decimals) := mkRat_digits hparts hk
    rw [hvalue, Rat.mkRat_eq_div]
    push_cast
    field_simp

/-- Base units are shown as a text without superfluous zeros. -/
theorem exists_fromBaseUnits (n decimals : Nat) :
    ∃ a : DecimalText, fromBaseUnits (toString n) decimals = .ok a.text ∧ a.Stripped ∧
      a.fraction.length ≤ decimals ∧ (n : Rat) = a.value * 10 ^ decimals := by
  have hall : ∀ c ∈ (toString n).toList, isDigit c = true := fun _ => isDigit_of_mem_toString
  by_cases hzero : decimals = 0
  · subst hzero
    refine ⟨⟨(toString n).toList, [], toString_ne_nil n, hall, by simp⟩, ?_, ⟨?_, by simp⟩,
      Nat.le_refl 0, ?_⟩
    · rw [fromBaseUnits, stringToBigInt_toString]
      refine congrArg Except.ok (String.toList_inj.1 ?_)
      rw [toList_text, if_pos rfl]
      rfl
    · exact fun ds => toString_leading
    · rw [value_eq_div, List.append_nil, digitsValue_toString]
      simp
  · let digits := (toString n).toList.leftpad (decimals + 1) '0'
    have hdigits : digits =
        List.replicate (decimals + 1 - (toString n).toList.length) '0' ++ (toString n).toList := rfl
    have hmem : ∀ c ∈ digits, isDigit c = true := by
      intro c hc
      rw [hdigits] at hc
      rcases List.mem_append.1 hc with hc | hc
      · rw [List.eq_of_mem_replicate hc]
        decide
      · exact hall c hc
    have hlength : digits.length = max (decimals + 1) (toString n).toList.length :=
      List.length_leftpad ..
    have hleading : ∀ ds, digits.take (digits.length - decimals) = '0' :: ds → ds = [] := by
      intro ds hds
      by_cases hpad : (toString n).toList.length ≤ decimals
      -- the number is padded to one digit before the point
      · have hcount := congrArg List.length hds
        rw [List.length_take, List.length_cons] at hcount
        exact List.length_eq_zero_iff.1 (by omega)
      · have hsame : digits = (toString n).toList := by
          rw [hdigits, Nat.sub_eq_zero_of_le (by omega)]
          rfl
        have hcons : (toString n).toList = '0' :: (ds ++ digits.drop (digits.length - decimals)) := by
          rw [← List.cons_append, ← hds, List.take_append_drop, hsame]
        exact (List.append_eq_nil_iff.1 (toString_leading hcons)).1
    obtain ⟨a, hwhole, hfraction, hstripped, hle, hvalue⟩ := exists_cut hmem (by omega) hleading
    refine ⟨a, ?_, hstripped, hle, ?_⟩
    · rw [fromBaseUnits, stringToBigInt_toString, text, hwhole, hfraction]
      simp only [hzero, if_false]
      rfl
    · rw [hvalue, hdigits, digitsValue_zeros_append, digitsValue_toString]

/-! ## The shortest text -/

/-- Texts of one value agree once zeros are added at both ends. -/
theorem aligned (h : a.value = b.value) :
    List.replicate (b.whole.length - a.whole.length) '0' ++ a.whole =
        List.replicate (a.whole.length - b.whole.length) '0' ++ b.whole ∧
      a.fraction ++ List.replicate (b.fraction.length - a.fraction.length) '0' =
        b.fraction ++ List.replicate (a.fraction.length - b.fraction.length) '0' := by
  -- zeros make both texts as long as the longer one on either side of the point
  let padded (c d : DecimalText) : List Char :=
    (List.replicate (d.whole.length - c.whole.length) '0' ++ c.whole) ++
      (c.fraction ++ List.replicate (d.fraction.length - c.fraction.length) '0')
  have hpadded (c d : DecimalText) : ∀ x ∈ padded c d, isDigit x = true := by
    intro x hx
    simp only [padded, List.mem_append] at hx
    rcases hx with (hx | hx) | hx | hx
    · rw [List.eq_of_mem_replicate hx]
      decide
    · exact c.whole_digits x hx
    · exact c.fraction_digits x hx
    · rw [List.eq_of_mem_replicate hx]
      decide
  have hvalue (c d : DecimalText) : (digitsValue 10 (padded c d) : Rat) =
      c.value * 10 ^ max c.fraction.length d.fraction.length := by
    rw [← c.units_eq (Nat.le_max_left ..)]
    simp only [padded]
    rw [List.append_assoc, digitsValue_zeros_append, ← List.append_assoc, digitsValue_append_zeros]
    congr 3
    omega
  -- two digit lists of one length and one value are equal
  have hsame : padded a b = padded b a := by
    apply eq_of_digitsValue (hpadded a b) (hpadded b a)
    · simp only [padded, List.length_append, List.length_replicate]
      omega
    · have hcast := hvalue a b
      rw [h, Nat.max_comm, ← hvalue b a] at hcast
      exact Nat.cast_injective hcast
  apply List.append_inj hsame
  simp only [List.length_append, List.length_replicate]
  omega

/-- **A text without superfluous zeros** is the shortest of its value. -/
theorem Stripped.shortest (hb : b.Stripped) (h : a.value = b.value) :
    a = b ∨ b.text.length < a.text.length := by
  obtain ⟨hwhole, hfraction⟩ := aligned h
  -- if `b` were longer, the zeros of `aligned` would stand in `b` itself
  have hlongWhole : b.whole.length ≤ a.whole.length := by
    by_contra hlt
    obtain ⟨i, hi⟩ : ∃ i, b.whole.length - a.whole.length = i + 1 :=
      Nat.exists_eq_succ_of_ne_zero (by omega)
    rw [hi, Nat.sub_eq_zero_of_le (by omega), List.replicate_succ, List.cons_append] at hwhole
    have hnil := hb.leading _ hwhole.symm
    exact a.whole_ne (List.append_eq_nil_iff.1 hnil).2
  have hlongFraction : b.fraction.length ≤ a.fraction.length := by
    by_contra hlt
    obtain ⟨i, hi⟩ : ∃ i, b.fraction.length - a.fraction.length = i + 1 :=
      Nat.exists_eq_succ_of_ne_zero (by omega)
    rw [hi, Nat.sub_eq_zero_of_le (by omega), List.replicate_succ', ← List.append_assoc,
      List.replicate_zero, List.append_nil] at hfraction
    exact hb.trailing _ hfraction.symm
  rw [Nat.sub_eq_zero_of_le hlongWhole, List.replicate_zero, List.nil_append] at hwhole
  rw [Nat.sub_eq_zero_of_le hlongFraction, List.replicate_zero, List.append_nil] at hfraction
  by_cases hlength : a.whole.length = b.whole.length ∧ a.fraction.length = b.fraction.length
  · rw [hlength.1, Nat.sub_self, List.replicate_zero, List.nil_append] at hwhole
    rw [hlength.2, Nat.sub_self, List.replicate_zero, List.append_nil] at hfraction
    exact Or.inl (DecimalText.ext hwhole hfraction)
  · right
    rw [← String.length_toList, ← String.length_toList, toList_text, toList_text]
    by_cases hbnil : b.fraction = []
    · by_cases hanil : a.fraction = []
      · rw [hanil, hbnil] at hlength
        rw [if_pos hanil, if_pos hbnil]
        omega
      · rw [if_neg hanil, if_pos hbnil, List.length_append, List.length_cons]
        omega
    · have hanil : a.fraction ≠ [] := by
        intro hnil
        rw [hnil, List.length_nil, Nat.le_zero] at hlongFraction
        exact hbnil (List.length_eq_zero_iff.1 hlongFraction)
      rw [if_neg hanil, if_neg hbnil, List.length_append, List.length_append, List.length_cons,
        List.length_cons]
      omega

end DecimalText

/-! ## Both ways -/

/-- **Amounts convert exactly**, both ways. -/
theorem baseUnits_exact (decimals : Nat) :
    (∀ s base, toBaseUnits s decimals = .ok base ↔
      ∃ a : DecimalText, a.Trims s ∧ a.fraction.length ≤ decimals ∧
        ∃ n : Nat, base = toString n ∧ (n : Rat) = a.value * 10 ^ decimals) ∧
    (∀ n : Nat, ∃ a : DecimalText, fromBaseUnits (toString n) decimals = .ok a.text ∧
      a.fraction.length ≤ decimals ∧ toBaseUnits a.text decimals = .ok (toString n)) ∧
    (∀ s base, toBaseUnits s decimals = .ok base → ∃ a b : DecimalText, a.Trims s ∧
      fromBaseUnits base decimals = .ok b.text ∧ b.value = a.value ∧
      ∀ c : DecimalText, c.value = a.value → c = b ∨ b.text.length < c.text.length) ∧
    ∀ s t unitsS unitsT, toBaseUnits s decimals = .ok unitsS → toBaseUnits t decimals = .ok unitsT →
      ∃ a b : DecimalText, a.Trims s ∧ b.Trims t ∧ (unitsS = unitsT ↔ a.value = b.value) := by
  have hpow : (10 ^ decimals : Rat) ≠ 0 := pow_ne_zero _ (by norm_num)
  refine ⟨fun s base => DecimalText.toBaseUnits_ok_iff, ?_, ?_, ?_⟩
  · intro n
    obtain ⟨a, htext, -, hle, hvalue⟩ := DecimalText.exists_fromBaseUnits n decimals
    exact ⟨a, htext, hle, a.trims_text.toBaseUnits hle hvalue⟩
  · intro s base h
    obtain ⟨a, ha, -, n, rfl, hn⟩ := DecimalText.toBaseUnits_ok_iff.1 h
    obtain ⟨b, htext, hstripped, -, hb⟩ := DecimalText.exists_fromBaseUnits n decimals
    have hvalue : b.value = a.value := mul_right_cancel₀ hpow (hb.symm.trans hn)
    exact ⟨a, b, ha, htext, hvalue, fun c hc => hstripped.shortest (hc.trans hvalue.symm)⟩
  · intro s t unitsS unitsT hs ht
    obtain ⟨a, ha, -, n, rfl, hn⟩ := DecimalText.toBaseUnits_ok_iff.1 hs
    obtain ⟨b, hb, -, m, rfl, hm⟩ := DecimalText.toBaseUnits_ok_iff.1 ht
    refine ⟨a, b, ha, hb, ?_, ?_⟩
    · intro h
      -- one text of base units is that of one number
      have hchars := congrArg (fun u => digitsValue 10 u.toList) h
      simp only [digitsValue_toString] at hchars
      rw [hchars] at hn
      exact mul_right_cancel₀ hpow (hn.symm.trans hm)
    · intro h
      rw [h, ← hm] at hn
      rw [Nat.cast_injective hn]

/-- Leading zeros and those behind the last decimal are not shown again. -/
theorem baseUnits_exact_zeros : ∃ a b : DecimalText, a.Trims " 007.50" ∧
    fromBaseUnits "7500" 3 = .ok b.text ∧ b.value = a.value ∧
    ∀ c : DecimalText, c.value = a.value → c = b ∨ b.text.length < c.text.length :=
  (baseUnits_exact 3).2.2.1 " 007.50" "7500" (by decide)

end StrategyBuilder.Shared
