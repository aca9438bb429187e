import StrategyBuilder.Lib.Abi

/-!
# ABI arguments

Arguments of calls, events and errors: a head of one word for each argument, which is the value itself
or the offset of a dynamic value, and the dynamic values behind. Decoding follows a client that masks
integers to their width, reads offsets and lengths as numbers below `2^53`, wants dynamic values with
their padding, and ignores trailing bytes.

`decodeArgs_encodeArgs` is the round trip.
-/

set_option autoImplicit false

namespace StrategyBuilder.Lib.Abi

/-! ## Types and values -/

/-- The type of an argument. -/
inductive ArgType where
  | uint (bits : Nat)
  | address
  | bytes
  | string
deriving DecidableEq, Repr

/-- The name of a type in a signature. -/
def ArgType.name : ArgType → String
  | .uint bits => "uint" ++ toString bits
  | .address => "address"
  | .bytes => "bytes"
  | .string => "string"

/-- A word, or the bytes of a dynamic value; a string is its UTF-8 bytes. -/
inductive ArgValue where
  | word (n : Nat)
  | bytes (b : Bytes)
deriving DecidableEq

/-- The values of a type. -/
def ArgType.Admits : ArgType → ArgValue → Prop
  | .uint bits, .word n => bits ≤ 256 ∧ n < 2 ^ bits
  | .address, .word n => n < 2 ^ 160
  | .bytes, .bytes _ => True
  | .string, .bytes _ => True
  | _, _ => False

/-- Arguments for a list of types. -/
def Admit (types : List ArgType) (args : List ArgValue) : Prop := List.Forall₂ ArgType.Admits types args

/-! ## Encoding -/

/-- What stands in the head for a value whose tail starts at `off`. -/
def ArgValue.head (off : Nat) : ArgValue → Bytes
  | .word n => encodeWord n
  | .bytes _ => encodeWord off

/-- What stands behind the heads for an argument. -/
def ArgValue.tail : ArgValue → Bytes
  | .word _ => []
  | .bytes b => encodeBytes b

/-- The heads, with the first tail at `off`. -/
def encodeHeads (off : Nat) : List ArgValue → Bytes
  | [] => []
  | v :: vs => v.head off ++ encodeHeads (off + v.tail.length) vs

/-- Arguments as the ABI encodes them. -/
def encodeArgs (args : List ArgValue) : Bytes :=
  encodeHeads (32 * args.length) args ++ args.flatMap ArgValue.tail

theorem length_head (off : Nat) (v : ArgValue) : (v.head off).length = 32 := by
  cases v <;> exact length_encodeWord _

@[simp] theorem length_encodeHeads (off : Nat) (args : List ArgValue) :
    (encodeHeads off args).length = 32 * args.length := by
  induction args generalizing off with
  | nil => rfl
  | cons v args ih =>
    rw [encodeHeads, List.length_append, ih, length_head, List.length_cons]
    omega

/-! ## Decoding -/

/-- An offset or a length. -/
def indexAt (b : Bytes) (pos : Nat) : Option Nat := do
  let n ← wordAt b pos
  if n < 2 ^ 53 then some n else none

/-- `bytes` at a position, with the padding. -/
def paddedBytesAt (b : Bytes) (pos : Nat) : Option Bytes := do
  let len ← indexAt b pos
  if pos + 32 + (len + (padding len).length) ≤ b.length then some ((b.drop (pos + 32)).take len)
  else none

/-- The argument whose head is at a position. -/
def decodeArg (b : Bytes) (pos : Nat) : ArgType → Option ArgValue
  | .uint bits => (wordAt b pos).map fun n => .word (n % 2 ^ bits)
  | .address => do
      let n ← wordAt b pos
      if n < 2 ^ 160 then some (.word n) else none
  | .bytes => do
      let off ← indexAt b pos
      (paddedBytesAt b off).map .bytes
  | .string => do
      let off ← indexAt b pos
      (paddedBytesAt b off).map .bytes

/-- The arguments whose heads start at a position. -/
def decodeArgsAt (b : Bytes) (pos : Nat) : List ArgType → Option (List ArgValue)
  | [] => some []
  | t :: ts => do
      let v ← decodeArg b pos t
      let vs ← decodeArgsAt b (pos + 32) ts
      some (v :: vs)

/-- Arguments as the ABI decodes them. -/
def decodeArgs (types : List ArgType) (b : Bytes) : Option (List ArgValue) := decodeArgsAt b 0 types

/-! ## The round trip -/

theorem indexAt_eq {b : Bytes} {pos n : Nat} (h : At b pos (encodeWord n)) (hn : n < 2 ^ 53) :
    indexAt b pos = some n := by
  have hword := wordAt_eq h (Nat.lt_trans hn (by decide))
  rw [indexAt, hword]
  exact if_pos hn

/-- Padded bytes are read back. -/
theorem paddedBytesAt_eq {b : Bytes} {pos : Nat} {x : Bytes} (h : At b pos (encodeBytes x))
    (hx : x.length < 2 ^ 53) : paddedBytesAt b pos = some x := by
  obtain ⟨hlen, hrest⟩ := at_append.1 h
  rw [length_encodeWord] at hrest
  have hindex := indexAt_eq hlen hx
  have hle := h.le (List.append_ne_nil_of_left_ne_nil (List.ne_nil_of_length_pos (by simp)) _)
  have hbound : pos + 32 + (x.length + (padding x.length).length) ≤ b.length := by
    simp only [encodeBytes, List.length_append, length_encodeWord] at hle
    omega
  have htake := (at_append.1 hrest).1.take
  rw [paddedBytesAt, hindex]
  refine (if_pos hbound).trans ?_
  rw [htake]

/-- One argument is read where its head and its tail stand. -/
theorem decodeArg_eq {b : Bytes} {pos off : Nat} {t : ArgType} {v : ArgValue} (hv : t.Admits v)
    (hhead : At b pos (v.head off)) (htail : At b off v.tail) (hoff : off < 2 ^ 53)
    (hlen : v.tail.length < 2 ^ 53) : decodeArg b pos t = some v := by
  -- `bytes` and `string` are read the same way, through their offset
  have hdynamic {x : Bytes} (hhead : At b pos (encodeWord off)) (htail : At b off (encodeBytes x))
      (hlen : (encodeBytes x).length < 2 ^ 53) :
      (do
        let off ← indexAt b pos
        (paddedBytesAt b off).map ArgValue.bytes) = some (.bytes x) := by
    have hx : x.length < 2 ^ 53 := by
      simp only [encodeBytes, List.length_append] at hlen
      omega
    rw [indexAt_eq hhead hoff]
    simp only [Option.bind_eq_bind, Option.bind_some, paddedBytesAt_eq htail hx, Option.map_some]
  cases t with
  | uint bits =>
    cases v with
    | word n =>
      obtain ⟨hbits, hn⟩ := hv
      have hn' : n < 2 ^ 256 := Nat.lt_of_lt_of_le hn (Nat.pow_le_pow_right (by decide) hbits)
      rw [decodeArg, wordAt_eq hhead hn', Option.map_some, Nat.mod_eq_of_lt hn]
    | bytes x => exact hv.elim
  | address =>
    cases v with
    | word n =>
      have hn : n < 2 ^ 160 := hv
      rw [decodeArg, wordAt_eq hhead (Nat.lt_trans hn (by decide))]
      exact if_pos hn
    | bytes x => exact hv.elim
  | bytes =>
    cases v with
    | word n => exact hv.elim
    | bytes x => exact hdynamic hhead htail hlen
  | string =>
    cases v with
    | word n => exact hv.elim
    | bytes x => exact hdynamic hhead htail hlen

/-- The arguments are read one by one; `off` runs with the tails already passed. -/
theorem decodeArgsAt_eq {b : Bytes} {pos off : Nat} {types : List ArgType} {args : List ArgValue}
    (hargs : Admit types args) (hheads : At b pos (encodeHeads off args))
    (htails : At b off (args.flatMap ArgValue.tail))
    (hlen : off + (args.flatMap ArgValue.tail).length < 2 ^ 53) :
    decodeArgsAt b pos types = some args := by
  induction hargs generalizing pos off with
  | nil => rfl
  | @cons t v ts vs hv _ ih =>
    -- the first head and the first tail, and then those of the rest
    rw [encodeHeads] at hheads
    rw [List.flatMap_cons] at htails hlen
    rw [List.length_append] at hlen
    obtain ⟨hhead, hheads⟩ := at_append.1 hheads
    obtain ⟨htail, htails⟩ := at_append.1 htails
    rw [length_head] at hheads
    have hfirst := decodeArg_eq hv hhead htail (by omega) (by omega)
    have hrest := ih hheads htails (by omega)
    simp only [decodeArgsAt, hfirst, hrest, Option.bind_eq_bind, Option.bind_some]

/-- What was encoded is decoded. -/
theorem decodeArgs_encodeArgs {types : List ArgType} {args : List ArgValue} (h : Admit types args)
    (hlen : (encodeArgs args).length < 2 ^ 53) : decodeArgs types (encodeArgs args) = some args := by
  obtain ⟨hheads, htails⟩ := at_append.1 (at_zero (encodeArgs args))
  rw [length_encodeHeads, Nat.zero_add] at htails
  rw [encodeArgs, List.length_append, length_encodeHeads] at hlen
  exact decodeArgsAt_eq h hheads htails hlen

end StrategyBuilder.Lib.Abi
