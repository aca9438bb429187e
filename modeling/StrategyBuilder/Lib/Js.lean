import Mathlib.Algebra.Ring.Nat
import Mathlib.Algebra.Ring.Rat
import Mathlib.Data.List.Nodup
import Mathlib.Data.Rat.Defs
import Mathlib.Logic.Function.Basic
import Mathlib.Tactic.Common

/-!
# JavaScript values

Numbers, values, maps and tables of a JavaScript program, with the conversions of the language between
numbers and strings: `Number`, `String` and `parseInt`.

A finite number is the rational it denotes. The rounding of decimal literals and of products to doubles
is left out here (`Lib.Double` has that of literals), and so is the negative zero. Of objects only plain
ones are values here, not arrays.
-/

set_option autoImplicit false

namespace StrategyBuilder.Lib.Js

universe u v

/-! ## Values -/

/-- A number of JavaScript. -/
inductive JsNumber where
  | nan
  | infinity (negative : Bool)
  | finite (q : Rat)
deriving DecidableEq, Repr

namespace JsNumber

/-- `Number.isNaN` -/
def isNaN (x : JsNumber) : Bool := x = .nan

/-- `Number.isInteger`, with the integer. -/
def integer? : JsNumber → Option Int
  | .finite q => if q.den = 1 then some q.num else none
  | _ => none

/-- A whole number. -/
def ofInt (n : Int) : JsNumber := .finite n

@[simp] theorem integer?_ofInt (n : Int) : (ofInt n).integer? = some n := by
  simp [ofInt, integer?]

theorem ofInt_injective {m n : Int} (h : ofInt m = ofInt n) : m = n := by
  have hinteger := congrArg integer? h
  rwa [integer?_ofInt, integer?_ofInt, Option.some.injEq] at hinteger

/-- An integer is the number that it is. -/
theorem eq_ofInt {x : JsNumber} {n : Int} (h : x.integer? = some n) : x = ofInt n := by
  cases x with
  | nan => cases h
  | infinity negative => cases h
  | finite q =>
    by_cases hden : q.den = 1
    · have hnum : q.num = n := by simpa only [integer?, hden, if_true, Option.some.injEq] using h
      rw [ofInt, ← hnum, Rat.den_eq_one_iff q |>.1 hden]
    · simp only [integer?, hden, if_false] at h
      cases h

end JsNumber

/-- A value of JSON, or `undefined`. -/
inductive JsValue where
  | undefined
  | null
  | bool (b : Bool)
  | num (x : JsNumber)
  | str (s : String)
  | object (fields : List (String × JsValue))

/-! ## Strings as numbers -/

/-- White space and line terminators. -/
def isSpace (c : Char) : Bool :=
  let n := c.toNat
  (9 ≤ n && n ≤ 13) || n = 0x20 || n = 0xa0 || n = 0x1680 || (0x2000 ≤ n && n ≤ 0x200a) ||
    n = 0x2028 || n = 0x2029 || n = 0x202f || n = 0x205f || n = 0x3000 || n = 0xfeff

/-- The characters of `s.trim()`. -/
def trim (cs : List Char) : List Char :=
  ((cs.dropWhile isSpace).reverse.dropWhile isSpace).reverse

/-- The digit that a character stands for. -/
def digit? (radix : Nat) (c : Char) : Option Nat :=
  let n := c.toNat
  let d := if 48 ≤ n ∧ n ≤ 57 then n - 48
    else if 97 ≤ n ∧ n ≤ 102 then n - 87
    else if 65 ≤ n ∧ n ≤ 70 then n - 55
    else radix
  if d < radix then some d else none

/-- A decimal digit. -/
def isDigit (c : Char) : Bool := (digit? 10 c).isSome

/-- The value of a run of digits. -/
def digitsValue (radix : Nat) (cs : List Char) : Nat :=
  cs.foldl (fun n c => n * radix + (digit? radix c).getD 0) 0

/-- The digits of a literal with a radix, to its end. -/
def radixLiteral (radix : Nat) (cs : List Char) : JsNumber :=
  if cs ≠ [] ∧ cs.all (fun c => (digit? radix c).isSome) then .finite (digitsValue radix cs)
  else .nan

/-- The exponent of a decimal literal, to its end. -/
def exponent? : List Char → Option Int
  | [] => some 0
  | e :: cs =>
      if e = 'e' ∨ e = 'E' then
        match cs with
        | '-' :: ds =>
            if ds ≠ [] ∧ ds.all isDigit then some (-(digitsValue 10 ds : Int)) else none
        | '+' :: ds => if ds ≠ [] ∧ ds.all isDigit then some (digitsValue 10 ds) else none
        | ds => if ds ≠ [] ∧ ds.all isDigit then some (digitsValue 10 ds) else none
      else none

/-- `m · 10 ^ e` -/
def scaled (m : Int) (e : Int) : Rat :=
  if 0 ≤ e then mkRat (m * 10 ^ e.toNat) 1 else mkRat m (10 ^ (-e).toNat)

/-- The digits before and after the point, and what follows them. -/
def mantissa (cs : List Char) : List Char × List Char × List Char :=
  match cs.dropWhile isDigit with
  | '.' :: rest => (cs.takeWhile isDigit, rest.takeWhile isDigit, rest.dropWhile isDigit)
  | rest => (cs.takeWhile isDigit, [], rest)

/-- A decimal literal without sign. -/
def decimal? (cs : List Char) : Option Rat :=
  match mantissa cs with
  | (whole, fraction, rest) =>
      if whole = [] ∧ fraction = [] then none
      else (exponent? rest).map fun e =>
        scaled (digitsValue 10 (whole ++ fraction)) (e - fraction.length)

/-- A decimal literal or `Infinity`, without sign. -/
def signedLiteral (negative : Bool) (cs : List Char) : JsNumber :=
  if cs = "Infinity".toList then .infinity negative
  else match decimal? cs with
    | some q => .finite (if negative then -q else q)
    | none => .nan

/-- `Number(s)` of a string. -/
def stringToNumber (s : String) : JsNumber :=
  match trim s.toList with
  | [] => .finite 0
  | '0' :: 'x' :: cs => radixLiteral 16 cs
  | '0' :: 'X' :: cs => radixLiteral 16 cs
  | '0' :: 'o' :: cs => radixLiteral 8 cs
  | '0' :: 'O' :: cs => radixLiteral 8 cs
  | '0' :: 'b' :: cs => radixLiteral 2 cs
  | '0' :: 'B' :: cs => radixLiteral 2 cs
  | '-' :: cs => signedLiteral true cs
  | '+' :: cs => signedLiteral false cs
  | cs => signedLiteral false cs

/-- Trimming keeps a first character that is no space. -/
theorem trim_cons {c : Char} (h : isSpace c = false) (cs : List Char) :
    ∃ ds, trim (c :: cs) = c :: ds := by
  refine ⟨(cs.reverse.dropWhile isSpace).reverse, ?_⟩
  have hfront : (c :: cs).dropWhile isSpace = c :: cs := List.dropWhile_cons_of_neg (by simp [h])
  rw [trim, hfront, List.reverse_cons, List.dropWhile_append]
  cases hrest : cs.reverse.dropWhile isSpace with
  | nil => simp [h]
  | cons d ds => simp

/-- A decimal literal starts with a digit or the point. -/
theorem decimal?_cons_eq_none {c : Char} (hdigit : isDigit c = false) (hpoint : c ≠ '.')
    (cs : List Char) : decimal? (c :: cs) = none := by
  have hmantissa : mantissa (c :: cs) = ([], [], c :: cs) := by
    simp [mantissa, List.dropWhile_cons_of_neg, List.takeWhile_cons_of_neg, hdigit, hpoint]
  rw [decimal?, hmantissa]
  rfl

/-- No number starts with an underscore. -/
theorem stringToNumber_underscore (cs : List Char) :
    stringToNumber (String.ofList ('_' :: cs)) = .nan := by
  obtain ⟨ds, hds⟩ := trim_cons (c := '_') (by decide) cs
  have hdecimal : decimal? ('_' :: ds) = none :=
    decimal?_cons_eq_none (by decide) (by decide) ds
  simp [stringToNumber, hds, signedLiteral, hdecimal]

/-- `Number(value)` -/
def toNumber : JsValue → JsNumber
  | .undefined => .nan
  | .null => .finite 0
  | .bool b => .finite (if b then 1 else 0)
  | .num x => x
  | .str s => stringToNumber s
  | .object _ => .nan

/-- `parseInt(s, 10)`; `none` is `NaN`. -/
def parseInt (s : String) : Option Int :=
  match s.toList.dropWhile isSpace with
  | '-' :: cs => (digits cs).map fun n => -(n : Int)
  | '+' :: cs => (digits cs).map fun n => (n : Int)
  | cs => (digits cs).map fun n => (n : Int)
where
  digits (cs : List Char) : Option Nat :=
    if cs.takeWhile isDigit = [] then none else some (digitsValue 10 (cs.takeWhile isDigit))

/-- Digits to the end of the string. -/
def allDigits? (cs : List Char) : Option Nat :=
  if cs ≠ [] ∧ cs.all isDigit then some (digitsValue 10 cs) else none

/-- `BigInt(s)` of a string; `none` is a `SyntaxError`. -/
def stringToBigInt (s : String) : Option Int :=
  match trim s.toList with
  | [] => some 0
  | '0' :: 'x' :: cs => (radixLiteral 16 cs).integer?
  | '0' :: 'X' :: cs => (radixLiteral 16 cs).integer?
  | '0' :: 'o' :: cs => (radixLiteral 8 cs).integer?
  | '0' :: 'O' :: cs => (radixLiteral 8 cs).integer?
  | '0' :: 'b' :: cs => (radixLiteral 2 cs).integer?
  | '0' :: 'B' :: cs => (radixLiteral 2 cs).integer?
  | '-' :: cs => (allDigits? cs).map fun n => -(n : Int)
  | '+' :: cs => (allDigits? cs).map fun n => (n : Int)
  | cs => (allDigits? cs).map fun n => (n : Int)

/-! ## Numbers as strings -/

/-- The least `e` from `e₀` on, within `n` steps, for which `den` divides `10 ^ e`. -/
def decimalPlaces (den : Nat) : Nat → Nat → Nat
  | 0, e => e
  | n + 1, e => if 10 ^ e % den = 0 then e else decimalPlaces den n (e + 1)

/-- Digits and exponent of `m · 10 ^ -e` without trailing zeros. -/
def shortest : Nat → Nat → Int → Nat × Int
  | 0, m, e => (m, e)
  | n + 1, m, e => if m % 10 = 0 then shortest n (m / 10) (e + 1) else (m, e)

/-- `String(x)` of a finite positive number `m · 10 ^ e`, where `m` does not end in a zero. -/
def positiveToString (m : Nat) (e : Int) : String :=
  let digits := toString m
  let k := digits.length
  let n : Int := k + e
  if (k : Int) ≤ n ∧ n ≤ 21 then digits ++ String.ofList (List.replicate (n - k).toNat '0')
  else if 0 < n ∧ n ≤ 21 then
    String.ofList (digits.toList.take n.toNat) ++ "." ++ String.ofList (digits.toList.drop n.toNat)
  else if -6 < n ∧ n ≤ 0 then
    "0." ++ String.ofList (List.replicate (-n).toNat '0') ++ digits
  else
    let sign := if 0 ≤ n - 1 then "+" else "-"
    let point := if k = 1 then "" else "."
    String.ofList (digits.toList.take 1) ++ point ++ String.ofList (digits.toList.drop 1) ++
      "e" ++ sign ++ toString (n - 1).natAbs

/-- `String(x)` of a number. -/
def numberToString : JsNumber → String
  | .nan => "NaN"
  | .infinity negative => if negative then "-Infinity" else "Infinity"
  | .finite q =>
      if q = 0 then "0"
      else
        let places := decimalPlaces q.den q.den 0
        let m := q.num.natAbs * (10 ^ places / q.den)
        let (m, e) := shortest m m (-places)
        (if q < 0 then "-" else "") ++ positiveToString m e

/-- `String(value)` -/
def valueToString : JsValue → String
  | .undefined => "undefined"
  | .null => "null"
  | .bool b => if b then "true" else "false"
  | .num x => numberToString x
  | .str s => s
  | .object _ => "[object Object]"

example : stringToNumber " 1.50e3\n" = .finite 1500 := by decide
example : numberToString (.finite (mkRat 864 10)) = "86.4" := by decide

/-! ## Maps -/

/-- A `Map`, as what `get` answers. -/
abbrev Map (K : Type u) (V : Type v) := K → Option V

namespace Map

variable {K : Type u} {V : Type v} [DecidableEq K]

/-- `new Map()` -/
def empty : Map K V := fun _ => none

/-- `m.set(key, value)` -/
def set (m : Map K V) (key : K) (value : V) : Map K V := Function.update m key (some value)

/-- `new Map(entries)` -/
def ofEntries (entries : List (K × V)) : Map K V :=
  entries.foldl (fun m e => m.set e.1 e.2) empty

/-- `for (const key of keys) m.set(key, value)` on a new map. -/
def fill (keys : List K) (value : V) : Map K V := keys.foldl (fun m key => m.set key value) empty

@[simp] theorem set_self (m : Map K V) (key : K) (value : V) : m.set key value key = some value :=
  Function.update_self ..

theorem set_of_ne (m : Map K V) {key other : K} (value : V) (h : other ≠ key) :
    m.set key value other = m other := Function.update_of_ne h ..

/-- `m.delete(key)` -/
def delete (m : Map K V) (key : K) : Map K V := Function.update m key none

@[simp] theorem delete_self (m : Map K V) (key : K) : m.delete key key = none :=
  Function.update_self ..

theorem delete_of_ne (m : Map K V) {key other : K} (h : other ≠ key) :
    m.delete key other = m other := Function.update_of_ne h ..

theorem delete_eq_some {m : Map K V} {key other : K} {value : V}
    (h : m.delete key other = some value) : other ≠ key ∧ m other = some value := by
  by_cases heq : other = key
  · subst heq
    rw [delete_self] at h
    cases h
  · rw [delete_of_ne m heq] at h
    exact ⟨heq, h⟩

/-- The keys that are set have the value. -/
theorem foldl_set_const (keys : List K) (m : Map K V) (value : V) (key : K) :
    keys.foldl (fun m key => m.set key value) m key = if key ∈ keys then some value else m key := by
  induction keys generalizing m with
  | nil => simp
  | cons k keys ih =>
    rw [List.foldl_cons, ih]
    by_cases hk : key = k
    · simp [hk]
    · simp [hk, set_of_ne m value hk]

theorem fill_apply (keys : List K) (value : V) (key : K) :
    fill keys value key = if key ∈ keys then some value else none :=
  foldl_set_const keys empty value key

theorem foldl_set_of_notMem {entries : List (K × V)} {m : Map K V} {key : K}
    (h : key ∉ entries.map Prod.fst) :
    entries.foldl (fun m e => m.set e.1 e.2) m key = m key := by
  induction entries generalizing m with
  | nil => rfl
  | cons e entries ih =>
    rw [List.map_cons, List.mem_cons, not_or] at h
    rw [List.foldl_cons, ih h.2, set_of_ne m e.2 h.1]

/-- A key that is set once keeps its value. -/
theorem foldl_set_of_mem {entries : List (K × V)} {m : Map K V} {key : K} {value : V}
    (hnodup : (entries.map Prod.fst).Nodup) (h : (key, value) ∈ entries) :
    entries.foldl (fun m e => m.set e.1 e.2) m key = some value := by
  induction entries generalizing m with
  | nil => cases h
  | cons e entries ih =>
    rw [List.map_cons, List.nodup_cons] at hnodup
    rw [List.foldl_cons]
    rcases List.mem_cons.1 h with rfl | h
    · rw [foldl_set_of_notMem hnodup.1, set_self]
    · exact ih hnodup.2 h

theorem ofEntries_of_mem {entries : List (K × V)} {key : K} {value : V}
    (hnodup : (entries.map Prod.fst).Nodup) (h : (key, value) ∈ entries) :
    ofEntries entries key = some value := foldl_set_of_mem hnodup h

/-- What a map has after its entries were set is one of them, or was there. -/
theorem mem_of_foldl_set {entries : List (K × V)} {m : Map K V} {key : K} {value : V}
    (h : entries.foldl (fun m e => m.set e.1 e.2) m key = some value) :
    (key, value) ∈ entries ∨ m key = some value := by
  induction entries generalizing m with
  | nil => exact Or.inr h
  | cons e entries ih =>
    rw [List.foldl_cons] at h
    rcases ih h with h | h
    · exact Or.inl (List.mem_cons_of_mem e h)
    · by_cases hkey : key = e.1
      · subst hkey
        rw [set_self, Option.some.injEq] at h
        subst h
        exact Or.inl (List.mem_cons_self ..)
      · rw [set_of_ne m e.2 hkey] at h
        exact Or.inr h

theorem mem_of_ofEntries {entries : List (K × V)} {key : K} {value : V}
    (h : ofEntries entries key = some value) : (key, value) ∈ entries := by
  rcases mem_of_foldl_set h with h | h
  · exact h
  · cases h

/-- The last entry of a key counts. -/
theorem foldl_set_eq_getLast (entries : List (K × V)) (m : Map K V) (key : K) :
    entries.foldl (fun m e => m.set e.1 e.2) m key =
      (((entries.filter fun e => e.1 = key).getLast?).map Prod.snd).or (m key) := by
  induction entries generalizing m with
  | nil => rfl
  | cons e entries ih =>
    rw [List.foldl_cons, ih, List.filter_cons]
    by_cases hkey : e.1 = key
    · rw [if_pos (decide_eq_true hkey), ← hkey, set_self, List.getLast?_cons]
      cases (entries.filter fun e' => decide (e'.1 = e.1)).getLast? with
      | none => rfl
      | some last => rfl
    · rw [if_neg (by rwa [decide_eq_true_eq]), set_of_ne m e.2 (Ne.symm hkey)]

theorem ofEntries_apply (entries : List (K × V)) (key : K) :
    ofEntries entries key = ((entries.filter fun e => e.1 = key).getLast?).map Prod.snd := by
  rw [ofEntries, foldl_set_eq_getLast]
  exact Option.or_none ..

theorem foldl_set_isSome {entries : List (K × V)} {m : Map K V} {key : K}
    (h : key ∈ entries.map Prod.fst ∨ ∃ value, m key = some value) :
    ∃ value, entries.foldl (fun m e => m.set e.1 e.2) m key = some value := by
  induction entries generalizing m with
  | nil => exact h.resolve_left (List.not_mem_nil)
  | cons e entries ih =>
    rw [List.foldl_cons]
    apply ih
    by_cases hkey : key = e.1
    · exact Or.inr ⟨e.2, by rw [hkey, set_self]⟩
    · rw [set_of_ne m e.2 hkey]
      rcases h with h | h
      · exact Or.inl ((List.mem_cons.1 h).resolve_left hkey)
      · exact Or.inr h

theorem ofEntries_isSome {entries : List (K × V)} {key : K} (h : key ∈ entries.map Prod.fst) :
    ∃ value, ofEntries entries key = some value := foldl_set_isSome (Or.inl h)

end Map

/-! ## Sets -/

/-- `[...new Set(l)]` -/
def distinct {α : Type u} [DecidableEq α] (l : List α) : List α :=
  l.foldl (fun seen x => if x ∈ seen then seen else seen ++ [x]) []

/-- No element is lost. -/
theorem mem_distinct {α : Type u} [DecidableEq α] {l : List α} {x : α} : x ∈ distinct l ↔ x ∈ l := by
  have hfold (l seen : List α) :
      x ∈ l.foldl (fun seen x => if x ∈ seen then seen else seen ++ [x]) seen ↔ x ∈ seen ∨ x ∈ l := by
    induction l generalizing seen with
    | nil => simp
    | cons y l ih =>
      rw [List.foldl_cons, ih]
      by_cases hy : y ∈ seen
      · rw [if_pos hy, List.mem_cons]
        constructor
        · rintro (h | h)
          · exact Or.inl h
          · exact Or.inr (Or.inr h)
        · rintro (h | rfl | h)
          · exact Or.inl h
          · exact Or.inl hy
          · exact Or.inr h
      · rw [if_neg hy, List.mem_append, List.mem_singleton, List.mem_cons, or_assoc]
  rw [distinct, hfold]
  simp

/-- No element is left twice. -/
theorem nodup_distinct {α : Type u} [DecidableEq α] (l : List α) : (distinct l).Nodup := by
  have hfold (l seen : List α) (h : seen.Nodup) :
      (l.foldl (fun seen x => if x ∈ seen then seen else seen ++ [x]) seen).Nodup := by
    induction l generalizing seen with
    | nil => exact h
    | cons y l ih =>
      rw [List.foldl_cons]
      apply ih
      split
      · exact h
      · rename_i hy
        rw [← List.concat_eq_append]
        exact h.concat hy
  exact hfold l [] List.nodup_nil

/-! ## Callbacks that throw -/

theorem exists_of_isOk {ε α : Type} {x : Except ε α} (h : x.isOk = true) : ∃ a, x = .ok a := by
  cases x with
  | ok a => exact ⟨a, rfl⟩
  | error e => cases h

/-- `l.map(f)` with an `f` that may throw returns one by one what `f` returns. -/
theorem mapM_ok {α β : Type u} {ε : Type v} {f : α → Except ε β} {l : List α} {l' : List β}
    (h : l.mapM f = .ok l') :
    l'.length = l.length ∧ ∀ (i : Nat) (a : α), l[i]? = some a → ∃ b, l'[i]? = some b ∧ f a = .ok b := by
  induction l generalizing l' with
  | nil =>
    cases h
    exact ⟨rfl, fun i a hi => by simp at hi⟩
  | cons x l ih =>
    rw [List.mapM_cons] at h
    cases hx : f x with
    | error e =>
      rw [hx] at h
      cases h
    | ok b =>
      rw [hx] at h
      cases hl : l.mapM f with
      | error e =>
        simp only [hl] at h
        cases h
      | ok bs =>
        simp only [hl] at h
        cases h
        obtain ⟨hlen, hall⟩ := ih hl
        refine ⟨by simp [hlen], fun i a hi => ?_⟩
        cases i with
        | zero =>
          simp only [List.getElem?_cons_zero, Option.some.injEq] at hi
          subst hi
          exact ⟨b, rfl, hx⟩
        | succ i => exact hall i a hi

/-- Each element has its image. -/
theorem mapM_forall₂ {α β : Type u} {ε : Type v} {f : α → Except ε β} {l : List α} {l' : List β}
    (h : l.mapM f = .ok l') : List.Forall₂ (fun a b => f a = .ok b) l l' := by
  obtain ⟨hlen, hall⟩ := mapM_ok h
  apply List.forall₂_iff_get.2
  refine ⟨hlen.symm, fun i hi hi' => ?_⟩
  obtain ⟨b, hb, hfb⟩ := hall i (l.get ⟨i, hi⟩) (List.getElem?_eq_getElem hi)
  rw [List.getElem?_eq_getElem hi', Option.some.injEq] at hb
  rw [hfb]
  exact congrArg Except.ok hb.symm

theorem forall₂_getElem? {α β : Type u} {R : α → β → Prop} {l : List α} {l' : List β}
    (h : List.Forall₂ R l l') {i : Nat} {a : α} (ha : l[i]? = some a) :
    ∃ b, l'[i]? = some b ∧ R a b := by
  induction h generalizing i with
  | nil => simp at ha
  | @cons a' b l l' hab _ ih =>
    cases i with
    | zero =>
      rw [List.getElem?_cons_zero, Option.some.injEq] at ha
      subst ha
      exact ⟨b, rfl, hab⟩
    | succ i => exact ih ha

theorem forall₂_left {α β : Type u} {R : α → β → Prop} {l : List α} {l' : List β}
    (h : List.Forall₂ R l l') {a : α} (ha : a ∈ l) : ∃ b ∈ l', R a b := by
  obtain ⟨i, hi, rfl⟩ := List.mem_iff_getElem.1 ha
  have hi' : i < l'.length := h.length_eq ▸ hi
  exact ⟨l'[i], List.getElem_mem hi', h.get hi hi'⟩

theorem forall₂_right {α β : Type u} {R : α → β → Prop} {l : List α} {l' : List β}
    (h : List.Forall₂ R l l') {b : β} (hb : b ∈ l') : ∃ a ∈ l, R a b :=
  forall₂_left h.flip hb

theorem forall₂_of_mem {α β : Type u} {R P : α → β → Prop} {l : List α} {l' : List β}
    (h : List.Forall₂ R l l') (himp : ∀ a ∈ l, ∀ b, R a b → P a b) : List.Forall₂ P l l' := by
  apply List.forall₂_iff_zip.2
  refine ⟨h.length_eq, fun {a b} hmem => ?_⟩
  exact himp a (List.of_mem_zip hmem).1 b ((List.forall₂_iff_zip.1 h).2 hmem)

theorem forall₂_trans {α β γ : Type u} {R : α → β → Prop} {S : β → γ → Prop} {T : α → γ → Prop}
    (htrans : ∀ a b c, R a b → S b c → T a c) {l : List α} {m : List β} {n : List γ}
    (h : List.Forall₂ R l m) (h' : List.Forall₂ S m n) : List.Forall₂ T l n := by
  induction h generalizing n with
  | nil =>
    cases h'
    exact .nil
  | cons hab _ ih =>
    cases h' with
    | cons hbc hrest => exact .cons (htrans _ _ _ hab hbc) (ih hrest)

theorem forall₂_zip {α β γ δ : Type u} {R : α → β → Prop} {S : δ × β → γ → Prop} {T : α → γ → Prop}
    {f : α → δ} {l : List α} {m : List β} {n : List γ} (h : List.Forall₂ R l m)
    (hiff : ∀ a b c, R a b → (S (f a, b) c ↔ T a c)) :
    List.Forall₂ S ((l.map f).zip m) n ↔ List.Forall₂ T l n := by
  induction h generalizing n with
  | nil => rw [List.map_nil, List.zip_nil_left, List.forall₂_nil_left_iff, List.forall₂_nil_left_iff]
  | cons hab _ ih =>
    rw [List.map_cons, List.zip_cons_cons]
    cases n with
    | nil => simp
    | cons c n => rw [List.forall₂_cons, List.forall₂_cons, hiff _ _ _ hab, ih]

/-- A relation between two lists is one between what they are mapped to. -/
theorem forall₂_mapped {α β γ δ : Type u} {R : α → β → Prop} {S : γ → δ → Prop} {P : α → γ → Prop}
    {Q : β → δ → Prop} {l : List α} {m : List β} {l' : List γ} {m' : List δ} (h : List.Forall₂ R l m)
    (h' : List.Forall₂ S l' m') (hiff : ∀ a b c d, R a b → S c d → (P a c ↔ Q b d)) :
    List.Forall₂ P l l' ↔ List.Forall₂ Q m m' := by
  induction h generalizing l' m' with
  | nil =>
    cases h' with
    | nil => exact iff_of_true .nil .nil
    | cons _ _ => exact iff_of_false nofun nofun
  | cons hab _ ih =>
    cases h' with
    | nil => exact iff_of_false nofun nofun
    | cons hcd hrest => rw [List.forall₂_cons, List.forall₂_cons, hiff _ _ _ _ hab hcd, ih hrest]

/-- Two lists over one are related where what stands for each element is. -/
theorem forall₂_over {α β γ : Type u} {R : α → β → Prop} {R' : α → γ → Prop} {P : β → γ → Prop}
    {Q : α → Prop} {l : List α} {m : List β} {m' : List γ} (h : List.Forall₂ R l m)
    (h' : List.Forall₂ R' l m') (hiff : ∀ a b c, R a b → R' a c → (P b c ↔ Q a)) :
    List.Forall₂ P m m' ↔ ∀ a ∈ l, Q a := by
  induction h generalizing m' with
  | nil =>
    cases h'
    exact iff_of_true .nil fun a ha => (List.not_mem_nil ha).elim
  | cons hab _ ih =>
    cases h' with
    | cons hac hrest =>
      rw [List.forall₂_cons, List.forall_mem_cons, hiff _ _ _ hab hac, ih hrest]

/-- It throws what `f` throws first. -/
theorem mapM_eq_error {α β : Type u} {ε : Type v} {f : α → Except ε β} {l : List α} {e : ε} :
    l.mapM f = .error e ↔
      ∃ pre x post, l = pre ++ x :: post ∧ (∀ y ∈ pre, ∃ b, f y = .ok b) ∧ f x = .error e := by
  induction l with
  | nil =>
    constructor
    · intro h
      cases h
    · rintro ⟨pre, x, post, h, -⟩
      simp at h
  -- either the head throws, or it goes through and a later element throws
  | cons a l ih =>
    rw [List.mapM_cons]
    cases ha : f a with
    | error e' =>
      constructor
      · intro h
        cases h
        exact ⟨[], a, l, rfl, fun y hy => (List.not_mem_nil hy).elim, ha⟩
      · rintro ⟨pre, x, post, h, hpre, hx⟩
        cases pre with
        | nil =>
          cases h
          rw [ha] at hx
          cases hx
          rfl
        | cons y pre =>
          cases h
          obtain ⟨b, hb⟩ := hpre a (List.mem_cons_self ..)
          rw [ha] at hb
          cases hb
    | ok b =>
      have hrest : (Except.ok b >>= fun b => l.mapM f >>= fun bs => pure (b :: bs)) = .error e ↔
          l.mapM f = .error e := by
        cases hl : l.mapM f with
        | error e' => exact ⟨fun h => h, fun h => h⟩
        | ok bs =>
          constructor
          · intro h
            cases h
          · intro h
            cases h
      rw [hrest, ih]
      constructor
      · rintro ⟨pre, x, post, rfl, hpre, hx⟩
        refine ⟨a :: pre, x, post, rfl, fun y hy => ?_, hx⟩
        rcases List.mem_cons.1 hy with rfl | hy
        · exact ⟨b, ha⟩
        · exact hpre y hy
      · rintro ⟨pre, x, post, h, hpre, hx⟩
        cases pre with
        | nil =>
          cases h
          rw [ha] at hx
          cases hx
        | cons y pre =>
          cases h
          exact ⟨pre, x, post, rfl, fun z hz => hpre z (List.mem_cons_of_mem _ hz), hx⟩

/-- It returns where `f` returns for every element. -/
theorem mapM_isOk {α β : Type u} {ε : Type v} {f : α → Except ε β} {l : List α} :
    (∃ l', l.mapM f = .ok l') ↔ ∀ x ∈ l, ∃ b, f x = .ok b := by
  constructor
  · rintro ⟨l', h⟩ x hx
    obtain ⟨i, hi⟩ := List.mem_iff_getElem?.1 hx
    obtain ⟨b, -, hb⟩ := (mapM_ok h).2 i x hi
    exact ⟨b, hb⟩
  · intro h
    cases hl : l.mapM f with
    | ok l' => exact ⟨l', rfl⟩
    | error e =>
      obtain ⟨pre, x, post, rfl, -, hx⟩ := mapM_eq_error.1 hl
      obtain ⟨b, hb⟩ := h x (List.mem_append_right _ (List.mem_cons_self ..))
      rw [hx] at hb
      cases hb

/-- The same of an `f` that may fail to answer. -/
theorem mapM_eq_some {α β : Type u} {f : α → Option β} {l : List α} {l' : List β} :
    l.mapM f = some l' ↔ List.Forall₂ (fun a b => f a = some b) l l' := by
  induction l generalizing l' with
  | nil =>
    rw [List.forall₂_nil_left_iff]
    exact ⟨fun h => (Option.some.inj h).symm, fun h => congrArg some h.symm⟩
  | cons a l ih =>
    rw [List.mapM_cons]
    constructor
    · intro h
      obtain ⟨b, hb, h⟩ := Option.bind_eq_some_iff.1 h
      obtain ⟨bs, hbs, h⟩ := Option.bind_eq_some_iff.1 h
      cases h
      exact .cons hb (ih.1 hbs)
    · intro h
      cases h with
      | cons hb hbs =>
        rw [hb, ih.2 hbs]
        rfl

theorem mapM_isSome {α β : Type u} {f : α → Option β} {l : List α} :
    (∃ l', l.mapM f = some l') ↔ ∀ a ∈ l, ∃ b, f a = some b := by
  constructor
  · rintro ⟨l', h⟩ a ha
    obtain ⟨b, -, hb⟩ := forall₂_left (mapM_eq_some.1 h) ha
    exact ⟨b, hb⟩
  · intro h
    induction l with
    | nil => exact ⟨[], rfl⟩
    | cons a l ih =>
      obtain ⟨b, hb⟩ := h a List.mem_cons_self
      obtain ⟨bs, hbs⟩ := ih fun x hx => h x (List.mem_cons_of_mem a hx)
      exact ⟨b :: bs, mapM_eq_some.2 (.cons hb (mapM_eq_some.1 hbs))⟩

/-! ## Tables -/

/-- The names that every object answers through its prototype. -/
def prototypeNames : List String :=
  ["__proto__", "constructor", "hasOwnProperty", "isPrototypeOf", "propertyIsEnumerable",
    "toLocaleString", "toString", "valueOf", "__defineGetter__", "__defineSetter__",
    "__lookupGetter__", "__lookupSetter__"]

/-- An object that is used as a table: its own properties, in the order they were added. -/
abbrev Record (V : Type u) := List (String × V)

/-- What reading a property of a table gives. -/
inductive Property (V : Type u) where
  | own (v : V)
  | inherited
  | undefined
deriving DecidableEq, Repr

/-- The own property, if it is one. -/
def Property.own? {V : Type u} : Property V → Option V
  | .own v => some v
  | _ => none

theorem Property.own?_eq_some {V : Type u} {p : Property V} {v : V} : p.own? = some v ↔ p = .own v := by
  cases p with
  | own w => simp [own?]
  | inherited => simp [own?]
  | undefined => simp [own?]

namespace Record

variable {V : Type u}

/-- The own property of a name. -/
def own? : Record V → String → Option V
  | [], _ => none
  | (key, v) :: r, name => if key = name then some v else own? r name

/-- `r[name]` -/
def get (r : Record V) (name : String) : Property V :=
  match own? r name with
  | some v => .own v
  | none => if name ∈ prototypeNames then .inherited else .undefined

/-- `String(r[name])` of what a table inherits under a name in lower case. -/
def inheritedText (name : String) : String :=
  if name = "constructor" then "function Object() { [native code] }" else "[object Object]"

/-- Overwrite or add an own property. -/
def insert : Record V → String → V → Record V
  | [], name, v => [(name, v)]
  | (key, w) :: r, name, v => if key = name then (key, v) :: r else (key, w) :: insert r name v

/-- `r[name] = v` for a `v` that is no object: a prototype cannot be set to it. -/
def set (r : Record V) (name : String) (v : V) : Record V :=
  if name = "__proto__" then r else insert r name v

/-- The inserted value is found. -/
theorem own?_insert_self (r : Record V) (name : String) (v : V) :
    own? (insert r name v) name = some v := by
  induction r with
  | nil => simp [insert, own?]
  | cons e r ih =>
    by_cases h : e.1 = name
    · simp [insert, own?, h]
    · simp [insert, own?, h, ih]

/-- Other names keep their values. -/
theorem own?_insert_of_ne (r : Record V) {name other : String} (v : V) (h : other ≠ name) :
    own? (insert r name v) other = own? r other := by
  induction r with
  | nil => simp [insert, own?, h.symm]
  | cons e r ih =>
    by_cases he : e.1 = name
    · simp [insert, own?, he, h.symm]
    · by_cases ho : e.1 = other
      · rw [insert, if_neg he, own?, own?, if_pos ho, if_pos ho]
      · rw [insert, if_neg he, own?, own?, if_neg ho, if_neg ho, ih]

theorem own?_set_self (r : Record V) {name : String} (v : V) (hproto : name ≠ "__proto__") :
    own? (set r name v) name = some v := by
  rw [set, if_neg hproto, own?_insert_self]

theorem own?_set_of_ne (r : Record V) {name other : String} (v : V) (h : other ≠ name) :
    own? (set r name v) other = own? r other := by
  unfold set
  split
  · rfl
  · exact own?_insert_of_ne r v h

/-- What a record has after an assignment. -/
theorem own?_set {r : Record V} {name other : String} {v w : V}
    (h : own? (set r name v) other = some w) :
    (other = name ∧ w = v) ∨ own? r other = some w := by
  unfold set at h
  split at h
  · exact Or.inr h
  · by_cases heq : other = name
    · subst heq
      rw [own?_insert_self, Option.some.injEq] at h
      exact Or.inl ⟨rfl, h.symm⟩
    · rw [own?_insert_of_ne r v heq] at h
      exact Or.inr h

/-- A name has a value after an assignment, but for the prototype. -/
theorem own?_set_isSome {r : Record V} {name other : String} (v : V)
    (hproto : other ≠ "__proto__") (h : other = name ∨ ∃ w, own? r other = some w) :
    ∃ w, own? (set r name v) other = some w := by
  by_cases heq : other = name
  · subst heq
    exact ⟨v, own?_set_self r v hproto⟩
  · obtain ⟨w, hw⟩ := h.resolve_left heq
    exact ⟨w, (own?_set_of_ne r v heq).trans hw⟩

theorem own?_eq_none {r : Record V} {name : String} :
    own? r name = none ↔ name ∉ r.map Prod.fst := by
  induction r with
  | nil => simp [own?]
  | cons e r ih =>
    rw [own?, List.map_cons, List.mem_cons, not_or]
    split
    · rename_i hkey
      simp [hkey]
    · rename_i hkey
      rw [ih]
      exact ⟨fun h => ⟨fun heq => hkey heq.symm, h⟩, fun h => h.2⟩

/-- The order of the names after an insertion. -/
theorem keys_insert (r : Record V) (name : String) (v : V) :
    (insert r name v).map Prod.fst =
      if name ∈ r.map Prod.fst then r.map Prod.fst else r.map Prod.fst ++ [name] := by
  induction r with
  | nil => simp [insert]
  | cons e r ih =>
    by_cases he : e.1 = name
    · simp [insert, he]
    · have hne : ¬ name = e.1 := fun heq => he heq.symm
      rw [insert, if_neg he, List.map_cons, ih, List.map_cons]
      by_cases hmem : name ∈ r.map Prod.fst
      · rw [if_pos hmem, if_pos (List.mem_cons_of_mem _ hmem)]
      · rw [if_neg hmem, if_neg (by simp only [List.mem_cons, not_or]; exact ⟨hne, hmem⟩)]
        rfl

/-- No key stands twice. -/
theorem nodup_keys_set {r : Record V} (h : (r.map Prod.fst).Nodup) (name : String) (v : V) :
    ((set r name v).map Prod.fst).Nodup := by
  unfold set
  split
  · exact h
  · rw [keys_insert]
    split
    · exact h
    · rename_i hmem
      rw [← List.concat_eq_append]
      exact h.concat hmem

theorem mem_of_own? {r : Record V} {name : String} {v : V} (h : own? r name = some v) :
    (name, v) ∈ r := by
  induction r with
  | nil => cases h
  | cons e r ih =>
    rw [own?] at h
    split at h
    · rename_i hkey
      rw [Option.some.injEq] at h
      subst hkey
      subst h
      exact List.mem_cons_self ..
    · exact List.mem_cons_of_mem _ (ih h)

/-- Of distinct names each entry is found. -/
theorem own?_of_mem {r : Record V} {name : String} {v : V} (hnodup : (r.map Prod.fst).Nodup)
    (h : (name, v) ∈ r) : own? r name = some v := by
  induction r with
  | nil => cases h
  | cons e r ih =>
    rw [List.map_cons, List.nodup_cons] at hnodup
    rcases List.mem_cons.1 h with rfl | h
    · exact if_pos rfl
    · have hne : e.1 ≠ name := by
        rintro rfl
        exact hnodup.1 (List.mem_map.2 ⟨_, h, rfl⟩)
      rw [own?, if_neg hne, ih hnodup.2 h]

/-- A lookup finds an own member exactly if there is one. -/
theorem get_eq_own {r : Record V} {name : String} {v : V} :
    get r name = .own v ↔ own? r name = some v := by
  unfold get
  cases h : own? r name with
  | some w => simp
  | none =>
    by_cases hproto : name ∈ prototypeNames
    · simp [hproto]
    · simp [hproto]

end Record

end StrategyBuilder.Lib.Js
