import Mathlib.Algebra.Field.Rat
import Mathlib.Algebra.Order.Ring.Unbundled.Rat
import Mathlib.Data.List.Induction
import Mathlib.Data.List.TakeWhile
import Mathlib.Tactic.Ring
import StrategyBuilder.Lib.Js

/-!
# Decimal texts

How the conversions between numbers and strings read and write plain decimal texts: digits with at most
one point. The text of a natural number is read back as that number (`stringToBigInt_toString`,
`stringToNumber_toString`), a whole number below `10 ^ 21` is written as its digits
(`numberToString_natCast`), a text with a point denotes its digits over a power of ten
(`stringToNumber_of_mantissa`), and what `BigInt` reads `Number` reads as the same integer
(`stringToNumber_of_bigInt`).
-/

set_option autoImplicit false

namespace StrategyBuilder.Lib.Js

/-! ## Digits -/

theorem digit?_of_isDigit {c : Char} (h : c.isDigit = true) : digit? 10 c = some (c.toNat - 48) := by
  have hc : 48 ≤ c.toNat ∧ c.toNat ≤ 57 := by
    simp only [Char.isDigit, Bool.and_eq_true, decide_eq_true_eq] at h
    exact h
  rw [digit?]
  simp only [hc, and_self, if_true]
  rw [if_pos (by omega)]

theorem isDigit_of_isDigit {c : Char} (h : c.isDigit = true) : isDigit c = true := by
  rw [isDigit, digit?_of_isDigit h]
  rfl

theorem toNat_of_isDigit {c : Char} (h : isDigit c = true) : 48 ≤ c.toNat ∧ c.toNat ≤ 57 := by
  unfold isDigit digit? at h
  by_contra hc
  simp only [hc, if_false] at h
  split_ifs at h
  all_goals first | omega | cases h

theorem not_isSpace_of_isDigit {c : Char} (h : isDigit c = true) : isSpace c = false := by
  have hc := toNat_of_isDigit h
  simp only [isSpace, Bool.or_eq_false_iff, Bool.and_eq_false_iff, decide_eq_false_iff_not]
  omega

/-- Digits before digits count for a power of ten more each. -/
theorem digitsValue_append (cs ds : List Char) :
    digitsValue 10 (cs ++ ds) = digitsValue 10 cs * 10 ^ ds.length + digitsValue 10 ds := by
  induction ds using List.reverseRecOn with
  | nil => simp [digitsValue]
  | append_singleton ds d ih =>
    have hstep (l : List Char) :
        digitsValue 10 (l ++ [d]) = digitsValue 10 l * 10 + (digit? 10 d).getD 0 := by
      simp [digitsValue, List.foldl_append]
    rw [← List.append_assoc, hstep, hstep, ih, List.length_append, List.length_singleton, pow_succ]
    ring

/-- Zeros have no value. -/
theorem digitsValue_zeros (k : Nat) : digitsValue 10 (List.replicate k '0') = 0 := by
  induction k with
  | zero => rfl
  | succ k ih =>
    rw [List.replicate_succ', digitsValue_append, ih]
    rfl

theorem digitsValue_append_zeros (cs : List Char) (k : Nat) :
    digitsValue 10 (cs ++ List.replicate k '0') = digitsValue 10 cs * 10 ^ k := by
  rw [digitsValue_append, digitsValue_zeros, List.length_replicate, Nat.add_zero]

theorem digitsValue_zeros_append (k : Nat) (cs : List Char) :
    digitsValue 10 (List.replicate k '0' ++ cs) = digitsValue 10 cs := by
  rw [digitsValue_append, digitsValue_zeros, Nat.zero_mul, Nat.zero_add]

theorem digitsValue_singleton {c : Char} (h : isDigit c = true) :
    digitsValue 10 [c] = c.toNat - 48 := by
  have hc := toNat_of_isDigit h
  have hdigit : c.isDigit = true := by
    simp only [Char.isDigit, Bool.and_eq_true, decide_eq_true_eq]
    exact hc
  simp [digitsValue, digit?_of_isDigit hdigit]

/-- Digits count for less than the power of ten that has one digit more. -/
theorem digitsValue_lt {cs : List Char} (h : ∀ c ∈ cs, isDigit c = true) :
    digitsValue 10 cs < 10 ^ cs.length := by
  induction cs using List.reverseRecOn with
  | nil => simp [digitsValue]
  | append_singleton cs c ih =>
    have hcs := ih fun x hx => h x (List.mem_append_left _ hx)
    have hc := toNat_of_isDigit (h c (by simp))
    rw [digitsValue_append, digitsValue_singleton (h c (by simp)), List.length_append,
      List.length_singleton, pow_succ]
    omega

/-- As many digits with the same value are the same digits. -/
theorem eq_of_digitsValue {cs ds : List Char} (hcs : ∀ c ∈ cs, isDigit c = true)
    (hds : ∀ c ∈ ds, isDigit c = true) (hlength : cs.length = ds.length)
    (hvalue : digitsValue 10 cs = digitsValue 10 ds) : cs = ds := by
  induction cs using List.reverseRecOn generalizing ds with
  | nil => exact (List.length_eq_zero_iff.1 hlength.symm).symm
  | append_singleton cs c ih =>
    cases ds using List.reverseRecOn with
    | nil => simp at hlength
    | append_singleton ds d =>
      have hc := toNat_of_isDigit (hcs c (by simp))
      have hd := toNat_of_isDigit (hds d (by simp))
      rw [digitsValue_append, digitsValue_append, digitsValue_singleton (hcs c (by simp)),
        digitsValue_singleton (hds d (by simp)), List.length_singleton, List.length_singleton,
        pow_one] at hvalue
      have hinit : cs = ds := by
        apply ih (fun x hx => hcs x (List.mem_append_left _ hx))
          (fun x hx => hds x (List.mem_append_left _ hx))
        · simpa using hlength
        · omega
      have hlast : c = d := by
        apply Char.toNat_inj.1
        omega
      rw [hinit, hlast]

/-! ## The text of a natural number -/

theorem toList_toString (n : Nat) : (toString n).toList = Nat.toDigits 10 n := Nat.toList_repr

theorem isDigit_of_mem_toString {n : Nat} {c : Char} (h : c ∈ (toString n).toList) :
    isDigit c = true := by
  rw [toList_toString] at h
  exact isDigit_of_isDigit (Nat.isDigit_of_mem_toDigits (by decide) (by decide) h)

theorem toString_ne_nil (n : Nat) : (toString n).toList ≠ [] := by
  rw [toList_toString]
  exact Nat.toDigits_ne_nil

/-- The value of digits is that of the core library. -/
theorem digitsValue_eq_ofDigitChars {cs : List Char} (h : ∀ c ∈ cs, c.isDigit = true) (n : Nat) :
    cs.foldl (fun n c => n * 10 + (digit? 10 c).getD 0) n = Nat.ofDigitChars 10 cs n := by
  induction cs generalizing n with
  | nil => rfl
  | cons c cs ih =>
    rw [List.foldl_cons, ih fun d hd => h d (List.mem_cons_of_mem c hd), Nat.ofDigitChars_cons,
      digit?_of_isDigit (h c List.mem_cons_self)]
    congr 1
    rw [Nat.mul_comm]
    rfl

theorem digitsValue_toString (n : Nat) : digitsValue 10 (toString n).toList = n := by
  rw [toList_toString, digitsValue, digitsValue_eq_ofDigitChars, Nat.ofDigitChars_ten_toDigits]
  intro c hc
  exact Nat.isDigit_of_mem_toDigits (by decide) (by decide) hc

/-- Zeros behind the digits multiply by a power of ten. -/
theorem toString_mul_pow {m : Nat} (hm : 0 < m) (k : Nat) :
    (toString (m * 10 ^ k)).toList = (toString m).toList ++ List.replicate k '0' := by
  induction k with
  | zero => simp
  | succ k ih =>
    have hpos : 0 < m * 10 ^ k := Nat.mul_pos hm (Nat.pow_pos (by decide))
    have hmul : m * 10 ^ (k + 1) = 10 * (m * 10 ^ k) + 0 := by
      rw [pow_succ]
      ring
    calc
      (toString (m * 10 ^ (k + 1))).toList
          = Nat.toDigits 10 (10 * (m * 10 ^ k) + 0) := by rw [toList_toString, hmul]
      _ = Nat.toDigits 10 (m * 10 ^ k) ++ ['0'] :=
            (Nat.toDigits_append_toDigits (by decide) hpos (by decide)).symm
      _ = (toString m).toList ++ List.replicate (k + 1) '0' := by
            rw [← toList_toString, ih, List.replicate_succ', List.append_assoc]

/-- The text of a number has no leading zero, unless it is that of zero. -/
theorem toString_leading {n : Nat} {ds : List Char} (h : (toString n).toList = '0' :: ds) :
    ds = [] := by
  by_contra hne
  have hdigits : ∀ c ∈ ds, isDigit c = true := by
    intro c hc
    apply isDigit_of_mem_toString (n := n)
    rw [h]
    exact List.mem_cons_of_mem _ hc
  have hvalue : n = digitsValue 10 ds := by
    rw [← digitsValue_toString n, h]
    exact digitsValue_zeros_append 1 ds
  -- then the digits behind the zero would be enough
  have hlength : (Nat.toDigits 10 n).length ≤ ds.length := by
    rw [Nat.length_toDigits_le_iff (by decide) (List.length_pos_iff.2 hne), hvalue]
    exact digitsValue_lt hdigits
  rw [← toList_toString, h, List.length_cons] at hlength
  omega

/-! ## Reading -/

/-- A text without spaces is not trimmed. -/
theorem trim_of_noSpace {cs : List Char} (h : ∀ c ∈ cs, isSpace c = false) : trim cs = cs := by
  have hdrop {l : List Char} (hl : ∀ c ∈ l, isSpace c = false) : l.dropWhile isSpace = l := by
    cases l with
    | nil => rfl
    | cons c l => exact List.dropWhile_cons_of_neg (by simp [hl c List.mem_cons_self])
  rw [trim, hdrop h, hdrop fun c hc => h c (List.mem_reverse.1 hc), List.reverse_reverse]

theorem trim_toString (n : Nat) : trim (toString n).toList = (toString n).toList :=
  trim_of_noSpace fun _ hc => not_isSpace_of_isDigit (isDigit_of_mem_toString hc)

/-- Digits and points, without a sign or a radix. -/
def Plain (cs : List Char) : Prop := ∀ c ∈ cs, isDigit c = true ∨ c = '.'

theorem plain_toString (n : Nat) : Plain (toString n).toList :=
  fun _ hc => Or.inl (isDigit_of_mem_toString hc)

/-- A plain text has no radix. -/
theorem Plain.second {c d : Char} {cs : List Char} (h : Plain (c :: d :: cs)) :
    isDigit d = true ∨ d = '.' := h d (List.mem_cons_of_mem c List.mem_cons_self)

theorem Plain.first {c : Char} {cs : List Char} (h : Plain (c :: cs)) : isDigit c = true ∨ c = '.' :=
  h c List.mem_cons_self

/-- A plain text is an integer if it is all digits. -/
theorem stringToBigInt_of_plain {s : String} (hne : trim s.toList ≠ []) (h : Plain (trim s.toList)) :
    stringToBigInt s = (allDigits? (trim s.toList)).map fun n => (n : Int) := by
  rw [stringToBigInt]
  split
  · rename_i hnil
    exact absurd hnil hne
  -- the six prefixes of a radix, in either case
  iterate 6
    · rename_i hcs
      rw [hcs] at h
      exact absurd h.second (by decide)
  -- the two signs
  iterate 2
    · rename_i hcs
      rw [hcs] at h
      exact absurd h.first (by decide)
  · rfl

/-- A plain text is a decimal literal. -/
theorem stringToNumber_of_plain {s : String} (hne : trim s.toList ≠ []) (h : Plain (trim s.toList)) :
    stringToNumber s = signedLiteral false (trim s.toList) := by
  rw [stringToNumber]
  split
  · rename_i hnil
    exact absurd hnil hne
  iterate 6
    · rename_i hcs
      rw [hcs] at h
      exact absurd h.second (by decide)
  iterate 2
    · rename_i hcs
      rw [hcs] at h
      exact absurd h.first (by decide)
  · rfl

theorem allDigits?_toString (n : Nat) : allDigits? (toString n).toList = some n := by
  rw [allDigits?, digitsValue_toString, if_pos]
  exact ⟨toString_ne_nil n, List.all_eq_true.2 fun c hc => isDigit_of_mem_toString hc⟩

/-- `BigInt` of digits, which may begin with zeros. -/
theorem stringToBigInt_of_digits {cs : List Char} (hne : cs ≠ [])
    (h : ∀ c ∈ cs, isDigit c = true) :
    stringToBigInt (String.ofList cs) = some (digitsValue 10 cs : Int) := by
  have htrim : trim (String.ofList cs).toList = cs := by
    rw [String.toList_ofList, trim_of_noSpace fun c hc => not_isSpace_of_isDigit (h c hc)]
  have hall : allDigits? cs = some (digitsValue 10 cs) := by
    rw [allDigits?, if_pos ⟨hne, List.all_eq_true.2 h⟩]
  rw [stringToBigInt_of_plain (by rwa [htrim]) (by rw [htrim]; exact fun c hc => Or.inl (h c hc)),
    htrim, hall]
  rfl

/-- `parseInt` of digits, which may begin with zeros. -/
theorem parseInt_of_digits {cs : List Char} (hne : cs ≠ []) (h : ∀ c ∈ cs, isDigit c = true) :
    parseInt (String.ofList cs) = some (digitsValue 10 cs : Int) := by
  have hread : parseInt.digits cs = some (digitsValue 10 cs) := by
    rw [parseInt.digits, List.takeWhile_eq_self_iff.2 h, if_neg hne]
  obtain ⟨c, ds, rfl⟩ := List.exists_cons_of_ne_nil hne
  have hc : isDigit c = true := h c List.mem_cons_self
  have hdrop : (String.ofList (c :: ds)).toList.dropWhile isSpace = c :: ds := by
    rw [String.toList_ofList]
    exact List.dropWhile_cons_of_neg (by simp [not_isSpace_of_isDigit hc])
  rw [parseInt, hdrop]
  split
  -- a digit is no sign
  iterate 2
    · rename_i hsign
      rw [(List.cons.inj hsign).1] at hc
      cases hc
  · rw [hread]
    rfl

/-- `BigInt(String(n))` -/
theorem stringToBigInt_toString (n : Nat) : stringToBigInt (toString n) = some (n : Int) := by
  rw [stringToBigInt_of_plain, trim_toString, allDigits?_toString]
  · rfl
  · rw [trim_toString]
    exact toString_ne_nil n
  · rw [trim_toString]
    exact plain_toString n

/-- The parts of a plain text. -/
theorem mantissa_parts {cs whole fraction : List Char} (h : mantissa cs = (whole, fraction, [])) :
    (∀ c ∈ whole, isDigit c = true) ∧ (∀ c ∈ fraction, isDigit c = true) ∧
      (cs = whole ∧ fraction = [] ∨ cs = whole ++ '.' :: fraction) := by
  have hwhole : ∀ c ∈ cs.takeWhile isDigit, isDigit c = true := fun c hc => List.mem_takeWhile_imp hc
  rw [mantissa] at h
  split at h
  · rename_i rest hrest
    simp only [Prod.mk.injEq] at h
    obtain ⟨rfl, rfl, hend⟩ := h
    refine ⟨hwhole, fun c hc => List.mem_takeWhile_imp hc, Or.inr ?_⟩
    have hfraction : rest.takeWhile isDigit = rest := by
      conv_rhs => rw [← List.takeWhile_append_dropWhile (p := isDigit) (l := rest), hend]
      exact (List.append_nil _).symm
    rw [hfraction, ← hrest, List.takeWhile_append_dropWhile]
  · rename_i rest hrest
    simp only [Prod.mk.injEq] at h
    obtain ⟨rfl, rfl, hend⟩ := h
    refine ⟨hwhole, fun c hc => (List.not_mem_nil hc).elim, Or.inl ⟨?_, rfl⟩⟩
    conv_lhs => rw [← List.takeWhile_append_dropWhile (p := isDigit) (l := cs), hend]
    exact List.append_nil _

theorem scaled_neg (m : Int) (k : Nat) : scaled m (0 - k) = mkRat m (10 ^ k) := by
  rw [scaled]
  cases k with
  | zero => simp
  | succ k =>
    rw [if_neg (by omega)]
    congr 2

/-- **A plain text** denotes its digits over a power of ten. -/
theorem stringToNumber_of_mantissa {s : String} {whole fraction : List Char}
    (h : mantissa (trim s.toList) = (whole, fraction, [])) (hwhole : whole ≠ []) :
    stringToNumber s =
      .finite (mkRat (digitsValue 10 (whole ++ fraction)) (10 ^ fraction.length)) := by
  obtain ⟨hdigits, hfraction, hcs⟩ := mantissa_parts h
  -- without a sign or a radix the text is a literal
  have hplain : Plain (trim s.toList) := by
    intro c hc
    rcases hcs with ⟨hcs, -⟩ | hcs
    · rw [hcs] at hc
      exact Or.inl (hdigits c hc)
    · rw [hcs, List.mem_append, List.mem_cons] at hc
      rcases hc with hc | hc | hc
      · exact Or.inl (hdigits c hc)
      · exact Or.inr hc
      · exact Or.inl (hfraction c hc)
  have hne : trim s.toList ≠ [] := by
    intro hnil
    rw [hnil] at h
    exact hwhole (congrArg Prod.fst h).symm
  have hinfinity : trim s.toList ≠ "Infinity".toList := by
    intro heq
    rw [heq] at hplain
    exact absurd (hplain 'I' (by decide)) (by decide)
  have hdecimal : decimal? (trim s.toList) =
      some (mkRat (digitsValue 10 (whole ++ fraction)) (10 ^ fraction.length)) := by
    simp only [decimal?, h, hwhole, false_and, if_false, exponent?, Option.map_some, Option.some.injEq]
    exact scaled_neg _ _
  rw [stringToNumber_of_plain hne hplain, signedLiteral, if_neg hinfinity, hdecimal]
  rfl

/-- `Number(String(n))` -/
theorem stringToNumber_toString (n : Nat) : stringToNumber (toString n) = .ofInt n := by
  have hdigits : ∀ c ∈ (toString n).toList, isDigit c = true := fun _ => isDigit_of_mem_toString
  have hmantissa : mantissa (trim (toString n).toList) = ((toString n).toList, [], []) := by
    rw [trim_toString, mantissa, List.dropWhile_eq_nil_iff.2 hdigits,
      List.takeWhile_eq_self_iff.2 hdigits]
  rw [stringToNumber_of_mantissa hmantissa (toString_ne_nil n), List.append_nil, digitsValue_toString]
  simp [JsNumber.ofInt, Rat.mkRat_one]

/-! ## `BigInt` and `Number` -/

/-- Digits are a decimal literal. -/
theorem decimal?_of_digits {cs : List Char} {n : Nat} (h : allDigits? cs = some n) :
    decimal? cs = some (n : Rat) := by
  rw [allDigits?] at h
  split at h
  · rename_i hcs
    have hdigits : ∀ c ∈ cs, isDigit c = true := List.all_eq_true.1 hcs.2
    have hmantissa : mantissa cs = (cs, [], []) := by
      rw [mantissa, List.dropWhile_eq_nil_iff.2 hdigits, List.takeWhile_eq_self_iff.2 hdigits]
    have hn : digitsValue 10 cs = n := Option.some.inj h
    simp only [decimal?, hmantissa, hcs.1, false_and, if_false, exponent?, Option.map_some,
      List.append_nil, List.length_nil, hn]
    simp [scaled, Rat.mkRat_one]
  · cases h

theorem signedLiteral_of_digits (negative : Bool) {cs : List Char} {n : Int}
    (h : ((allDigits? cs).map fun k => if negative then -(k : Int) else k) = some n) :
    signedLiteral negative cs = .ofInt n := by
  cases hdigits : allDigits? cs with
  | none =>
    rw [hdigits] at h
    cases h
  | some k =>
    have hinfinity : cs ≠ "Infinity".toList := by
      rintro rfl
      have hnone : allDigits? "Infinity".toList = none := by decide
      rw [hnone] at hdigits
      cases hdigits
    rw [hdigits] at h
    rw [signedLiteral, if_neg hinfinity, decimal?_of_digits hdigits, ← Option.some.inj h]
    cases negative with
    | false => rfl
    | true => simp [JsNumber.ofInt]

/-- What `BigInt` reads, `Number` reads too. -/
theorem stringToNumber_of_bigInt {s : String} {n : Int} (h : stringToBigInt s = some n) :
    stringToNumber s = .ofInt n := by
  rw [stringToBigInt] at h
  rw [stringToNumber]
  split at h
  · exact congrArg JsNumber.ofInt (Option.some.inj h)
  -- the six prefixes of a radix, in either case
  iterate 6
    · exact JsNumber.eq_ofInt h
  · exact signedLiteral_of_digits true h
  · exact signedLiteral_of_digits false h
  · exact signedLiteral_of_digits false h

theorem trim_of_noSpace_head {c : Char} (h : isSpace c = false) (cs : List Char) :
    trim (c :: cs) = ((c :: cs).reverse.dropWhile isSpace).reverse := by
  rw [trim, List.dropWhile_cons_of_neg (by simp [h])]

/-- Behind a minus stands the trimmed rest, or a space. -/
theorem trim_minus (cs : List Char) : ∃ ds, trim ('-' :: cs) = '-' :: ds ∧
    (ds = trim cs ∨ ∃ c es, ds = c :: es ∧ isSpace c = true) := by
  have hminus : isSpace '-' = false := by decide
  have hds : trim ('-' :: cs) = '-' :: (cs.reverse.dropWhile isSpace).reverse := by
    rw [trim_of_noSpace_head hminus, List.reverse_cons, List.dropWhile_append]
    cases cs.reverse.dropWhile isSpace with
    | nil => simp [hminus]
    | cons d ds => simp
  refine ⟨_, hds, ?_⟩
  cases cs with
  | nil => exact Or.inl rfl
  | cons c cs =>
    cases hc : isSpace c with
    | false => exact Or.inl (trim_of_noSpace_head hc cs).symm
    | true =>
      rw [List.reverse_cons, List.dropWhile_append]
      cases hrest : cs.reverse.dropWhile isSpace with
      | nil =>
        -- there is nothing but spaces
        left
        have hspaces : (c :: cs).dropWhile isSpace = [] := by
          rw [List.dropWhile_eq_nil_iff] at hrest ⊢
          intro x hx
          rcases List.mem_cons.1 hx with rfl | hx
          · exact hc
          · exact hrest x (List.mem_reverse.2 hx)
        rw [trim, hspaces]
        simp [hc]
      | cons d ds =>
        right
        exact ⟨c, (d :: ds).reverse, by simp, hc⟩

/-- A minus that `BigInt` does not read as the sign of what follows, `Number` does not read at all. -/
theorem stringToNumber_minus {cs : List Char} {n : Int}
    (hnone : stringToBigInt (String.ofList ('-' :: cs)) = none)
    (hrest : stringToBigInt (String.ofList cs) = some n) :
    stringToNumber (String.ofList ('-' :: cs)) = .nan := by
  obtain ⟨ds, hds, hcases⟩ := trim_minus cs
  rw [stringToBigInt, String.toList_ofList] at hnone hrest
  rw [hds] at hnone
  -- digits after the minus would be a number for `BigInt` too
  have hdigits : allDigits? ds = none := by
    cases h : allDigits? ds with
    | none => rfl
    | some k =>
      simp [h] at hnone
  -- `cs` is nothing, of another base, or signed itself: no decimal follows the minus
  have hdecimal : decimal? ds = none := by
    rcases hcases with rfl | ⟨c, es, rfl, hspace⟩
    · split at hrest
      · rename_i hcs
        rw [hcs]
        rfl
      iterate 6
        · rename_i hcs
          rw [hcs]
          rfl
      iterate 2
        · rename_i hcs
          rw [hcs]
          exact decimal?_cons_eq_none (by decide) (by decide) _
      · rw [hdigits] at hrest
        cases hrest
    · have hc : isDigit c = false := by
        by_contra hc
        rw [not_isSpace_of_isDigit (by simpa using hc)] at hspace
        cases hspace
      refine decimal?_cons_eq_none hc ?_ es
      rintro rfl
      exact absurd hspace (by decide)
  -- nor can it be `Infinity`, which `BigInt` refuses
  have hinfinity : ds ≠ "Infinity".toList := by
    intro heq
    rcases hcases with hcs | ⟨c, es, hcs, hspace⟩
    · rw [← hcs, heq] at hrest
      cases hrest
    · rw [heq] at hcs
      rw [← (List.cons.inj hcs).1] at hspace
      cases hspace
  simp only [stringToNumber, String.toList_ofList, hds, signedLiteral, if_neg hinfinity, hdecimal]


theorem stringToBigInt_of_minus {s : String} {ds : List Char} (h : trim s.toList = '-' :: ds) :
    stringToBigInt s = (allDigits? ds).map fun n => -(n : Int) := by
  simp only [stringToBigInt, h]

/-- A minus before digits is their sign, also to `BigInt`. -/
theorem stringToBigInt_minus {cs : List Char} {n : Int}
    (h : stringToBigInt (String.ofList ('-' :: cs)) = some n) :
    stringToBigInt (String.ofList cs) = some (-n) := by
  obtain ⟨ds, hds, hcases⟩ := trim_minus cs
  rw [← String.toList_ofList (l := '-' :: cs)] at hds
  rw [stringToBigInt_of_minus hds] at h
  cases hdigits : allDigits? ds with
  | none =>
    rw [hdigits] at h
    cases h
  | some k =>
    rw [hdigits] at h
    have hk : -(k : Int) = n := Option.some.inj h
    have hall : ds ≠ [] ∧ ds.all isDigit = true := by
      by_contra hnot
      rw [allDigits?, if_neg hnot] at hdigits
      cases hdigits
    have hdigit : ∀ c ∈ ds, isDigit c = true := List.all_eq_true.1 hall.2
    rcases hcases with rfl | ⟨c, es, rfl, hspace⟩
    · have hplain : Plain (trim cs) := fun c hc => Or.inl (hdigit c hc)
      rw [← String.toList_ofList (l := cs)] at hplain hdigits hall
      rw [stringToBigInt_of_plain hall.1 hplain, hdigits, ← hk, neg_neg]
      rfl
    -- after a minus nothing was trimmed, as a digit is no space
    · rw [not_isSpace_of_isDigit (hdigit c List.mem_cons_self)] at hspace
      cases hspace

/-! ## Writing -/

/-- What `shortest` leaves is the same number. -/
theorem shortest_spec (fuel m : Nat) (e : Int) :
    ∃ k m' : Nat, shortest fuel m e = (m', e + k) ∧ m = m' * 10 ^ k := by
  induction fuel generalizing m e with
  | zero => exact ⟨0, m, by simp [shortest]⟩
  | succ fuel ih =>
    rw [shortest]
    split_ifs with hten
    -- one zero is taken off, and the exponent grows by one
    · obtain ⟨k, m', hshort, hm⟩ := ih (m / 10) (e + 1)
      refine ⟨k + 1, m', ?_, ?_⟩
      · rw [hshort, Prod.mk.injEq]
        refine ⟨rfl, ?_⟩
        push_cast
        ring
      · rw [pow_succ, ← Nat.mul_assoc, ← hm]
        omega
    · exact ⟨0, m, by simp⟩

/-- Below `10 ^ 21` a whole number is written as its digits. -/
theorem numberToString_natCast {n : Nat} (hpos : 0 < n) (hn : n < 10 ^ 21) :
    numberToString (.finite n) = toString n := by
  obtain ⟨k, m, hshort, hm⟩ := shortest_spec n n 0
  have hmpos : 0 < m := by
    rcases Nat.eq_zero_or_pos m with rfl | h
    · rw [Nat.zero_mul] at hm
      omega
    · exact h
  have hdigits := toString_mul_pow hmpos k
  rw [← hm] at hdigits
  -- the digits of `m` with the zeros that were taken off
  have hlength : (toString m).length + k ≤ 21 := by
    have hle := (Nat.length_toDigits_le_iff (n := n) (k := 21) (by decide) (by decide)).2 hn
    rw [← toList_toString, hdigits, List.length_append, List.length_replicate] at hle
    rwa [← String.length_toList]
  have hpositive : positiveToString m k = toString n := by
    rw [positiveToString, if_pos ⟨by omega, by omega⟩, ← String.toList_inj, String.toList_append,
      hdigits]
    have hzeros : (((toString m).length : Int) + k - (toString m).length).toNat = k := by
      omega
    rw [hzeros, String.toList_ofList]
  have hne : (n : Rat) ≠ 0 := Nat.cast_ne_zero.2 hpos.ne'
  have hnonneg : ¬ (n : Rat) < 0 := Rat.not_lt.2 Rat.natCast_nonneg
  have hplaces : decimalPlaces 1 1 0 = 0 := rfl
  have hm : n * (10 ^ 0 / 1) = n := Nat.mul_one n
  simp only [numberToString, hne, hnonneg, if_false, Rat.den_natCast, Rat.num_natCast,
    Int.natAbs_natCast, hplaces, hm, Nat.cast_zero, Int.neg_zero, hshort, Int.zero_add, hpositive,
    String.empty_append]

/-- A negative number has a minus before its text. -/
theorem numberToString_neg {q : Rat} (hpos : 0 < q) :
    numberToString (.finite (-q)) = "-" ++ numberToString (.finite q) := by
  have hne : q ≠ 0 := hpos.ne'
  have hneg : -q < 0 := neg_lt_zero.2 hpos
  have hnot : ¬ q < 0 := not_lt.2 hpos.le
  simp only [numberToString, neg_eq_zero, hne, hneg, hnot, if_true, if_false, Rat.neg_den, Rat.neg_num,
    Int.natAbs_neg, String.empty_append]

/-- `BigInt(String(n))` of an integer that is written as its digits. -/
theorem stringToBigInt_numberToString {n : Int} (h : n.natAbs < 10 ^ 21) :
    stringToBigInt (numberToString (.ofInt n)) = some n := by
  rcases lt_trichotomy n 0 with hneg | rfl | hpos
  · obtain ⟨k, rfl⟩ : ∃ k : Nat, n = -k := ⟨n.natAbs, by omega⟩
    have hk : 0 < k := by omega
    have hofInt : JsNumber.ofInt (-(k : Int)) = .finite (-(k : Rat)) := by simp [JsNumber.ofInt]
    have hchars : ("-" ++ toString k).toList = '-' :: (toString k).toList := String.toList_append
    have htrim : trim ("-" ++ toString k).toList = '-' :: (toString k).toList := by
      rw [hchars]
      apply trim_of_noSpace
      intro c hc
      rcases List.mem_cons.1 hc with rfl | hc
      · decide
      · exact not_isSpace_of_isDigit (isDigit_of_mem_toString hc)
    rw [hofInt, numberToString_neg (Rat.natCast_pos.2 hk), numberToString_natCast hk (by omega),
      stringToBigInt_of_minus htrim, allDigits?_toString]
    rfl
  · decide
  · obtain ⟨k, rfl⟩ := Int.eq_ofNat_of_zero_le hpos.le
    have hk : 0 < k := by omega
    have hofInt : JsNumber.ofInt k = .finite k := rfl
    rw [hofInt, numberToString_natCast hk h, stringToBigInt_toString]

end StrategyBuilder.Lib.Js
