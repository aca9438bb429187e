import Mathlib.Data.List.DropRight
import StrategyBuilder.Lib.Decimal
import StrategyBuilder.Shared.EncodeBoundary

/-!
# Base units as amounts

`fromBaseUnits` of `amount.ts`: how a summary shows an amount in base units. The text is the exact
amount for every number that is not negative, and for a negative one that has as many digits as the
token has decimals (`fromBaseUnits_value`); a shorter negative number is padded before its sign.
-/

set_option autoImplicit false

namespace StrategyBuilder.Shared

open StrategyBuilder.Lib.Js

/-- `frac ? whole.frac : whole` -/
def decimalText (whole fraction : List Char) : String :=
  String.ofList (if fraction = [] then whole else whole ++ '.' :: fraction)

/-- `fromBaseUnits`: the digits with a point, without zeros behind it. -/
def fromBaseUnits (base : String) (decimals : Nat) : Mapped String :=
  match stringToBigInt base with
  | none => .error ("Cannot convert " ++ base ++ " to a BigInt")
  | some n =>
      if decimals = 0 then .ok (toString n)
      else
        let digits := (toString n).toList.leftpad (decimals + 1) '0'
        let whole := digits.take (digits.length - decimals)
        let fraction := (digits.drop (digits.length - decimals)).rdropWhile (· = '0')
        .ok (decimalText whole fraction)

/-- A text denotes a number of base units. -/
def DenotesUnits (text : String) (n : Int) (decimals : Nat) : Prop :=
  stringToNumber text = .finite (mkRat n (10 ^ decimals))

/-! ## Texts of digits -/

/-- Trailing zeros do not change a fraction. -/
theorem exists_zeros (cs : List Char) :
    ∃ k, cs = cs.rdropWhile (· = '0') ++ List.replicate k '0' := by
  refine ⟨(cs.rtakeWhile (· = '0')).length, ?_⟩
  have hzeros : cs.rtakeWhile (· = '0') = List.replicate (cs.rtakeWhile (· = '0')).length '0' := by
    apply List.eq_replicate_of_mem
    intro c hc
    simpa using List.mem_rtakeWhile_imp hc
  rw [← hzeros]
  exact (List.rdropWhile_append_rtakeWhile ..).symm

/-- The digits before and after the point are read back. -/
theorem mantissa_digits {whole fraction : List Char} (hwhole : ∀ c ∈ whole, isDigit c = true)
    (hfraction : ∀ c ∈ fraction, isDigit c = true) :
    mantissa (if fraction = [] then whole else whole ++ '.' :: fraction) = (whole, fraction, []) := by
  split
  · next hnil =>
    subst hnil
    rw [mantissa, List.dropWhile_eq_nil_iff.2 hwhole, List.takeWhile_eq_self_iff.2 hwhole]
  · have hdrop : (whole ++ '.' :: fraction).dropWhile isDigit = '.' :: fraction := by
      rw [List.dropWhile_append_of_pos hwhole]
      exact List.dropWhile_cons_of_neg (by decide)
    have htake : (whole ++ '.' :: fraction).takeWhile isDigit = whole := by
      rw [List.takeWhile_append_of_pos hwhole, List.takeWhile_cons_of_neg (by decide),
        List.append_nil]
    rw [mantissa, hdrop, htake]
    simp only [List.takeWhile_eq_self_iff.2 hfraction, List.dropWhile_eq_nil_iff.2 hfraction]

/-- The value of digits of which the last `decimals` are the fraction. -/
theorem mkRat_digits {whole fraction digits : List Char} {decimals k : Nat}
    (hdigits : digits = whole ++ (fraction ++ List.replicate k '0'))
    (hlength : fraction.length + k = decimals) :
    mkRat (digitsValue 10 (whole ++ fraction)) (10 ^ fraction.length) =
      mkRat (digitsValue 10 digits) (10 ^ decimals) := by
  rw [hdigits, ← List.append_assoc, digitsValue_append_zeros, ← hlength, Nat.pow_add]
  push_cast
  exact (Rat.mkRat_mul_right (Nat.pow_pos (by decide)).ne').symm

/-- The text of a number is not trimmed. -/
theorem trim_decimalText {whole fraction : List Char} (hwhole : ∀ c ∈ whole, isDigit c = true)
    (hfraction : ∀ c ∈ fraction, isDigit c = true) (start : List Char)
    (hstart : ∀ c ∈ start, isSpace c = false) :
    trim (start ++ if fraction = [] then whole else whole ++ '.' :: fraction) =
      start ++ if fraction = [] then whole else whole ++ '.' :: fraction := by
  apply trim_of_noSpace
  intro c hc
  rcases List.mem_append.1 hc with hc | hc
  · exact hstart c hc
  · split at hc
    · exact not_isSpace_of_isDigit (hwhole c hc)
    · rcases List.mem_append.1 hc with hc | hc
      · exact not_isSpace_of_isDigit (hwhole c hc)
      · rcases List.mem_cons.1 hc with rfl | hc
        · decide
        · exact not_isSpace_of_isDigit (hfraction c hc)

/-- A text of digits with a point. -/
theorem denotes_digits {whole fraction : List Char} (hwhole : ∀ c ∈ whole, isDigit c = true)
    (hfraction : ∀ c ∈ fraction, isDigit c = true) (hne : whole ≠ []) :
    stringToNumber (decimalText whole fraction) =
      .finite (mkRat (digitsValue 10 (whole ++ fraction)) (10 ^ fraction.length)) := by
  apply stringToNumber_of_mantissa
  · have htrim := trim_decimalText hwhole hfraction [] (by simp)
    rw [List.nil_append] at htrim
    rw [decimalText, String.toList_ofList, htrim]
    exact mantissa_digits hwhole hfraction
  · exact hne

/-- The same with a sign; here there may be no digit before the point. -/
theorem denotes_negative (whole fraction : List Char) (hwhole : ∀ c ∈ whole, isDigit c = true)
    (hfraction : ∀ c ∈ fraction, isDigit c = true) (hne : whole ≠ [] ∨ fraction ≠ []) :
    stringToNumber (decimalText ('-' :: whole) fraction) =
      .finite (-mkRat (digitsValue 10 (whole ++ fraction)) (10 ^ fraction.length)) := by
  let cs := if fraction = [] then whole else whole ++ '.' :: fraction
  have htext : (decimalText ('-' :: whole) fraction).toList = '-' :: cs := by
    rw [decimalText, String.toList_ofList]
    simp only [cs]
    split <;> rfl
  have hsign : ∀ c ∈ ['-'], isSpace c = false := by
    intro c hc
    rw [List.mem_singleton.1 hc]
    rfl
  have htrim : trim ('-' :: cs) = '-' :: cs := trim_decimalText hwhole hfraction ['-'] hsign
  have hmantissa : mantissa cs = (whole, fraction, []) := mantissa_digits hwhole hfraction
  -- digits and a point are no word
  have hinfinity : cs ≠ "Infinity".toList := by
    intro heq
    rw [heq] at hmantissa
    rcases hne with hne | hne
    · exact hne (congrArg Prod.fst hmantissa).symm
    · exact hne (congrArg (fun p => p.2.1) hmantissa).symm
  have hdecimal : decimal? cs =
      some (mkRat (digitsValue 10 (whole ++ fraction)) (10 ^ fraction.length)) := by
    have hboth : ¬ (whole = [] ∧ fraction = []) := by
      rintro ⟨h, h'⟩
      exact hne.elim (fun hn => hn h) fun hn => hn h'
    simp only [decimal?, hmantissa, hboth, if_false, exponent?, Option.map_some, Option.some.injEq]
    exact scaled_neg _ _
  rw [stringToNumber, htext, htrim]
  simp only [signedLiteral, hinfinity, if_false, hdecimal, if_true]

/-- A sign after the point is no number. -/
theorem denotes_signInside {zeros rest : List Char} (hzeros : ∀ c ∈ zeros, isDigit c = true)
    (hrest : ∀ c ∈ rest, isDigit c = true) :
    stringToNumber (decimalText ['0'] (zeros ++ '-' :: rest)) = .nan := by
  let cs := zeros ++ '-' :: rest
  have hne : cs ≠ [] := by simp [cs]
  have htext : (decimalText ['0'] cs).toList = '0' :: '.' :: cs := by
    rw [decimalText, String.toList_ofList, if_neg hne]
    rfl
  have htrim : trim ('0' :: '.' :: cs) = '0' :: '.' :: cs := by
    apply trim_of_noSpace
    intro c hc
    simp only [cs, List.mem_cons, List.mem_append] at hc
    rcases hc with rfl | rfl | hc | rfl | hc
    · decide
    · decide
    · exact not_isSpace_of_isDigit (hzeros c hc)
    · decide
    · exact not_isSpace_of_isDigit (hrest c hc)
  -- the digits end at the sign, and what is left over is no exponent
  have hmantissa : mantissa ('0' :: '.' :: cs) = (['0'], zeros, '-' :: rest) := by
    have hpoint : ('0' :: '.' :: cs).dropWhile isDigit = '.' :: cs := by
      rw [List.dropWhile_cons_of_pos (by decide), List.dropWhile_cons_of_neg (by decide)]
    have hdigit : ('0' :: '.' :: cs).takeWhile isDigit = ['0'] := by
      rw [List.takeWhile_cons_of_pos (by decide), List.takeWhile_cons_of_neg (by decide)]
    have hsign : isDigit '-' = false := by decide
    rw [mantissa, hpoint, hdigit]
    simp [cs, List.takeWhile_append_of_pos hzeros, List.dropWhile_append_of_pos hzeros, hsign]
  have hdecimal : decimal? ('0' :: '.' :: cs) = none := by
    simp [decimal?, hmantissa, exponent?]
  have hinfinity : '0' :: '.' :: cs ≠ "Infinity".toList := by
    intro heq
    exact absurd (List.cons.inj heq).1 (by decide)
  rw [stringToNumber, htext, htrim]
  show signedLiteral false ('0' :: '.' :: cs) = .nan
  rw [signedLiteral, if_neg hinfinity, hdecimal]

/-! ## Exact amounts -/

theorem rdropWhile_append_cons {p : Char → Bool} {c : Char} (hc : p c = false) (as bs : List Char) :
    (as ++ c :: bs).rdropWhile p = as ++ c :: bs.rdropWhile p := by
  rw [List.rdropWhile, List.reverse_append, List.reverse_cons, List.append_assoc,
    List.dropWhile_append]
  split
  · next hempty =>
    have hnil : bs.reverse.dropWhile p = [] := List.isEmpty_iff.1 hempty
    simp [List.rdropWhile, hnil, hc]
  · simp [List.rdropWhile]

theorem toList_toString_neg (m : Nat) :
    (toString (-((m + 1 : Nat) : Int))).toList = '-' :: (toString (m + 1)).toList := by
  have h : toString (-((m + 1 : Nat) : Int)) = "-" ++ toString (m + 1) := rfl
  rw [h, String.toList_append]
  rfl

/-- The digits of the fraction that is shown, with the zeros that are not. -/
theorem fraction_zeros (digits : List Char) {whole : List Char} (decimals : Nat)
    (hlength : digits.length = whole.length + decimals)
    (hwhole : digits.take (digits.length - decimals) = whole) :
    ∃ k, digits = whole ++
        ((digits.drop (digits.length - decimals)).rdropWhile (· = '0') ++ List.replicate k '0') ∧
      ((digits.drop (digits.length - decimals)).rdropWhile (· = '0')).length + k = decimals := by
  obtain ⟨k, hk⟩ := exists_zeros (digits.drop (digits.length - decimals))
  refine ⟨k, ?_, ?_⟩
  · rw [← hk, ← hwhole, List.take_append_drop]
  · have hdrop := congrArg List.length hk
    rw [List.length_drop, List.length_append, List.length_replicate] at hdrop
    omega

/-- The text of a natural number denotes it. -/
theorem denotes_natCast (m : Nat) {decimals : Nat} (hpos : 0 < decimals) :
    let digits := (toString m).toList.leftpad (decimals + 1) '0'
    DenotesUnits (decimalText (digits.take (digits.length - decimals))
      ((digits.drop (digits.length - decimals)).rdropWhile (· = '0'))) m decimals := by
  intro digits
  have hall : ∀ c ∈ digits, isDigit c = true := by
    intro c hc
    rcases List.mem_append.1 hc with hc | hc
    · rw [List.eq_of_mem_replicate hc]
      decide
    · exact isDigit_of_mem_toString hc
  have hlength : decimals + 1 ≤ digits.length := by
    rw [List.length_leftpad]
    exact Nat.le_max_left ..
  -- zeros in front make no difference
  have hvalue : digitsValue 10 digits = m := by
    simp only [digits, List.leftpad]
    rw [digitsValue_append, digitsValue_zeros, digitsValue_toString, Nat.zero_mul, Nat.zero_add]
  obtain ⟨k, hdigits, hk⟩ := fraction_zeros digits decimals
    (by rw [List.length_take]; omega) rfl
  have hwhole : ∀ c ∈ digits.take (digits.length - decimals), isDigit c = true :=
    fun c hc => hall c (List.mem_of_mem_take hc)
  have hfraction : ∀ c ∈ (digits.drop (digits.length - decimals)).rdropWhile (· = '0'),
      isDigit c = true :=
    fun c hc => hall c (List.mem_of_mem_drop ((List.rdropWhile_prefix _ _).subset hc))
  have hne : digits.take (digits.length - decimals) ≠ [] := by
    intro hnil
    have hlen := congrArg List.length hnil
    rw [List.length_take, List.length_nil] at hlen
    omega
  rw [DenotesUnits, denotes_digits hwhole hfraction hne, mkRat_digits hdigits hk, hvalue]

/-- So does that of a negative number with enough digits. -/
theorem denotes_negSucc (m : Nat) {decimals : Nat} (hpos : 0 < decimals)
    (hlong : decimals ≤ (toString (m + 1)).length) :
    let digits := ('-' :: (toString (m + 1)).toList).leftpad (decimals + 1) '0'
    DenotesUnits (decimalText (digits.take (digits.length - decimals))
      ((digits.drop (digits.length - decimals)).rdropWhile (· = '0'))) (-((m + 1 : Nat) : Int))
        decimals := by
  intro digits
  let ds := (toString (m + 1)).toList
  have hds : ds.length = (toString (m + 1)).length := String.length_toList
  have hdigits : digits = '-' :: ds := by
    simp only [digits, List.leftpad, List.length_cons, ds]
    rw [hds, Nat.sub_eq_zero_of_le (by omega)]
    rfl
  have hcut : ('-' :: ds).length - decimals = (ds.length - decimals) + 1 := by
    rw [List.length_cons]
    omega
  have hall : ∀ c ∈ ds, isDigit c = true := fun c hc => isDigit_of_mem_toString hc
  obtain ⟨k, hparts, hk⟩ := fraction_zeros ds decimals
    (by rw [List.length_take]; omega) rfl
  have hwhole : ∀ c ∈ ds.take (ds.length - decimals), isDigit c = true :=
    fun c hc => hall c (List.mem_of_mem_take hc)
  have hfraction : ∀ c ∈ (ds.drop (ds.length - decimals)).rdropWhile (· = '0'), isDigit c = true :=
    fun c hc => hall c (List.mem_of_mem_drop ((List.rdropWhile_prefix _ _).subset hc))
  -- the digits of a positive number are not all zeros
  have hne : ds.take (ds.length - decimals) ≠ [] ∨
      (ds.drop (ds.length - decimals)).rdropWhile (· = '0') ≠ [] := by
    by_contra h
    rw [not_or, not_not, not_not] at h
    rw [h.1, h.2] at hparts
    have hvalue := digitsValue_toString (m + 1)
    rw [show (toString (m + 1)).toList = ds from rfl, hparts, List.nil_append, List.nil_append,
      digitsValue_zeros] at hvalue
    omega
  rw [DenotesUnits, hdigits, hcut, List.take_succ_cons, List.drop_succ_cons,
    denotes_negative _ _ hwhole hfraction hne, mkRat_digits hparts hk, digitsValue_toString,
    Rat.neg_mkRat]

/-- With too few digits the minus is among the padding, and the text is no number. -/
theorem not_denotes_negSucc (m : Nat) {decimals : Nat}
    (hshort : (toString (m + 1)).length < decimals) :
    let digits := ('-' :: (toString (m + 1)).toList).leftpad (decimals + 1) '0'
    stringToNumber (decimalText (digits.take (digits.length - decimals))
      ((digits.drop (digits.length - decimals)).rdropWhile (· = '0'))) = .nan := by
  intro digits
  let ds := (toString (m + 1)).toList
  have hds : ds.length = (toString (m + 1)).length := String.length_toList
  obtain ⟨k, hk⟩ : ∃ k, decimals = ds.length + (k + 1) := ⟨decimals - ds.length - 1, by omega⟩
  -- the padding goes before the sign
  have hdigits : digits = '0' :: (List.replicate k '0' ++ '-' :: ds) := by
    have hpad : decimals + 1 - (ds.length + 1) = k + 1 := by omega
    simp only [digits, List.leftpad, List.length_cons]
    rw [show (toString (m + 1)).toList = ds from rfl, hpad]
    rfl
  have hcut : digits.length - decimals = 1 := by
    rw [hdigits, List.length_cons, List.length_append, List.length_replicate, List.length_cons]
    omega
  rw [hcut, hdigits, List.take_succ_cons, List.take_zero, List.drop_succ_cons, List.drop_zero,
    rdropWhile_append_cons (by decide)]
  apply denotes_signInside
  · intro c hc
    rw [List.eq_of_mem_replicate hc]
    decide
  · intro c hc
    exact isDigit_of_mem_toString ((List.rdropWhile_prefix _ _).subset hc)

/-- Padding does not push the sign of a number behind other digits. -/
def SignFits (n : Int) (decimals : Nat) : Prop := 0 ≤ n ∨ decimals ≤ (toString n.natAbs).length

/-- What `fromBaseUnits` shows is the amount where its sign fits, and else no number. -/
theorem fromBaseUnits_value {base : String} {n : Int} (h : stringToBigInt base = some n)
    (decimals : Nat) :
    ∃ text, fromBaseUnits base decimals = .ok text ∧
      ((SignFits n decimals ∧ DenotesUnits text n decimals) ∨
        (¬ SignFits n decimals ∧ stringToNumber text = .nan)) := by
  by_cases hzero : decimals = 0
  · subst hzero
    refine ⟨toString n, by simp [fromBaseUnits, h], Or.inl ⟨Or.inr (Nat.zero_le _), ?_⟩⟩
    cases n with
    | ofNat m =>
      have hm : toString (Int.ofNat m) = toString m := rfl
      rw [DenotesUnits, hm, stringToNumber_toString]
      simp [JsNumber.ofInt, Rat.mkRat_one]
    | negSucc m =>
      have htext : toString (Int.negSucc m) = decimalText ('-' :: (toString (m + 1)).toList) [] := by
        apply String.toList_inj.1
        rw [decimalText, String.toList_ofList]
        exact toList_toString_neg m
      have hvalue := denotes_negative (toString (m + 1)).toList []
        (fun c hc => isDigit_of_mem_toString hc) (by simp) (Or.inl (toString_ne_nil _))
      rw [List.append_nil, digitsValue_toString, Rat.neg_mkRat] at hvalue
      rw [DenotesUnits, htext, hvalue]
      rfl
  · have hpos : 0 < decimals := Nat.pos_of_ne_zero hzero
    cases n with
    | ofNat m =>
      refine ⟨_, by simp only [fromBaseUnits, h, hzero, if_false]; rfl, Or.inl ⟨?_, ?_⟩⟩
      · exact Or.inl (Int.natCast_nonneg m)
      · exact denotes_natCast m hpos
    | negSucc m =>
      have htext : (toString (Int.negSucc m)).toList = '-' :: (toString (m + 1)).toList :=
        toList_toString_neg m
      refine ⟨_, by simp only [fromBaseUnits, h, hzero, if_false]; rfl, ?_⟩
      rw [htext]
      -- shorter texts are filled up with zeros before the sign
      by_cases hlong : decimals ≤ (toString (m + 1)).length
      · exact Or.inl ⟨Or.inr hlong, denotes_negSucc m hpos hlong⟩
      · refine Or.inr ⟨?_, not_denotes_negSucc m (Nat.lt_of_not_le hlong)⟩
        rintro (h0 | h0)
        · exact absurd h0 (by simp)
        · exact hlong h0

end StrategyBuilder.Shared
