import Mathlib.Algebra.Ring.Nat
import Mathlib.Data.List.Induction
import Mathlib.Tactic.Common

/-!
# ABI encoding

The part of the contract ABI that the contracts exchange: words of 32 bytes, `bool`, `uint256`, the
static pair `(uint256, uint32)`, and the dynamic pair `(uint32[], bytes[])`. Decoders follow the
checks of the Solidity decoder: a value that ends beyond the data, a length or an offset above
`2^64 - 1`, and a `uint32` or `bool` with other bits set are refused. Trailing bytes are ignored.

`At b pos x` says that `x` stands at the position `pos` of `b`. Every decoder has one lemma that
reads the encoding of a value standing there; the round trips are their cases at `0`.
-/

set_option autoImplicit false

namespace StrategyBuilder.Lib.Abi

/-- Byte strings. -/
abbrev Bytes := List UInt8

/-! ## Words -/

/-- The last `len` bytes of `n`, most significant first. -/
def toBytes : Nat → Nat → Bytes
  | 0, _ => []
  | len + 1, n => toBytes len (n / 256) ++ [UInt8.ofNat n]

/-- The number that the bytes spell, most significant first. -/
def ofBytes (b : Bytes) : Nat := b.foldl (fun n x => n * 256 + x.toNat) 0

theorem length_toBytes (len n : Nat) : (toBytes len n).length = len := by
  induction len generalizing n with
  | zero => rfl
  | succ len ih => simp [toBytes, ih]

theorem ofBytes_concat (b : Bytes) (x : UInt8) : ofBytes (b ++ [x]) = ofBytes b * 256 + x.toNat := by
  simp [ofBytes]

/-- A number is read back modulo the width. -/
theorem ofBytes_toBytes (len n : Nat) : ofBytes (toBytes len n) = n % 256 ^ len := by
  induction len generalizing n with
  | zero => simp [toBytes, ofBytes, Nat.mod_one]
  | succ len ih =>
    have hx : (UInt8.ofNat n).toNat = n % 256 := UInt8.toNat_ofNat'
    rw [toBytes, ofBytes_concat, ih, hx, Nat.pow_succ, Nat.mul_comm (256 ^ len) 256, Nat.mod_mul]
    omega

theorem ofBytes_lt (b : Bytes) : ofBytes b < 256 ^ b.length := by
  induction b using List.reverseRecOn with
  | nil => simp [ofBytes]
  | append_singleton b x ih =>
    have hx : x.toNat < 256 := x.toNat_lt
    rw [ofBytes_concat, List.length_append, List.length_singleton, Nat.pow_succ]
    omega

/-- `abi.encode(n)` of a `uint256`. -/
def encodeWord (n : Nat) : Bytes := toBytes 32 n

/-- The word at a position. -/
def wordAt (b : Bytes) (pos : Nat) : Option Nat :=
  if pos + 32 ≤ b.length then some (ofBytes ((b.drop pos).take 32)) else none

@[simp] theorem length_encodeWord (n : Nat) : (encodeWord n).length = 32 := length_toBytes 32 n

theorem wordAt_lt {b : Bytes} {pos n : Nat} (h : wordAt b pos = some n) : n < 2 ^ 256 := by
  unfold wordAt at h
  split at h
  · rename_i hle
    have hlt := ofBytes_lt ((b.drop pos).take 32)
    have hlen : ((b.drop pos).take 32).length = 32 := by
      rw [List.length_take, List.length_drop]
      omega
    rw [hlen, Option.some.inj h] at hlt
    exact lt_of_lt_of_eq hlt (by decide)
  · cases h

/-! ## Reading at a position -/

/-- `x` stands at the position `pos` of `b`. -/
def At (b : Bytes) (pos : Nat) (x : Bytes) : Prop := x <+: b.drop pos

theorem at_zero (x : Bytes) : At x 0 x := List.prefix_rfl

/-- Two parts stand one behind the other. -/
theorem at_append {b : Bytes} {pos : Nat} {x y : Bytes} :
    At b pos (x ++ y) ↔ At b pos x ∧ At b (pos + x.length) y := by
  unfold At
  constructor
  · rintro ⟨rest, h⟩
    rw [List.append_assoc] at h
    refine ⟨⟨y ++ rest, h⟩, ⟨rest, ?_⟩⟩
    rw [← List.drop_drop, ← h, List.drop_left]
  · rintro ⟨⟨rest, h⟩, ⟨rest', h'⟩⟩
    refine ⟨rest', ?_⟩
    rw [← List.drop_drop, ← h, List.drop_left] at h'
    rw [List.append_assoc, h', h]

theorem At.le {b : Bytes} {pos : Nat} {x : Bytes} (h : At b pos x) (hx : x ≠ []) :
    pos + x.length ≤ b.length := by
  have hle := h.length_le
  have hpos := List.length_pos_iff.2 hx
  rw [List.length_drop] at hle
  omega

theorem At.take {b : Bytes} {pos : Nat} {x : Bytes} (h : At b pos x) :
    (b.drop pos).take x.length = x := by
  obtain ⟨rest, hrest⟩ := h
  rw [← hrest, List.take_left]

/-- What stands at a position with a length is determined. -/
theorem At.eq_of_length {b : Bytes} {pos : Nat} {x y : Bytes} (hx : At b pos x) (hy : At b pos y)
    (hlen : x.length = y.length) : x = y := by
  rw [← hx.take, hlen, hy.take]

/-- A word is read back. -/
theorem wordAt_eq {b : Bytes} {pos n : Nat} (h : At b pos (encodeWord n)) (hn : n < 2 ^ 256) :
    wordAt b pos = some n := by
  have hle := h.le (List.ne_nil_of_length_pos (by simp))
  have htake := h.take
  rw [length_encodeWord] at hle htake
  rw [wordAt, if_pos hle, htake, encodeWord, ofBytes_toBytes, Nat.mod_eq_of_lt]
  exact lt_of_lt_of_eq hn (by decide)

/-! ## Static values -/

/-- `abi.decode(b, (uint256))` -/
def decodeUint256 (b : Bytes) : Option Nat := wordAt b 0

/-- A `uint32` at a position. -/
def uint32At (b : Bytes) (pos : Nat) : Option Nat := do
  let n ← wordAt b pos
  if n < 2 ^ 32 then some n else none

/-- `abi.decode(b, (uint256, uint32))` -/
def decodeUint256Uint32 (b : Bytes) : Option (Nat × Nat) := do
  let x ← wordAt b 0
  let y ← uint32At b 32
  return (x, y)

/-- `abi.encode` of a `bool`. -/
def encodeBool (x : Bool) : Bytes := encodeWord (if x then 1 else 0)

/-- `abi.decode(b, (bool))` -/
def decodeBool (b : Bytes) : Option Bool := do
  let n ← wordAt b 0
  if n = 0 then some false else if n = 1 then some true else none

theorem uint32At_eq {b : Bytes} {pos n : Nat} (h : At b pos (encodeWord n)) (hn : n < 2 ^ 32) :
    uint32At b pos = some n := by
  have hw := wordAt_eq h (Nat.lt_trans hn (by decide))
  rw [uint32At, hw]
  exact if_pos hn

theorem decodeUint256_encodeWord {n : Nat} (hn : n < 2 ^ 256) :
    decodeUint256 (encodeWord n) = some n := wordAt_eq (at_zero _) hn

theorem decodeUint256Uint32_encode {x y : Nat} (hx : x < 2 ^ 256) (hy : y < 2 ^ 32) :
    decodeUint256Uint32 (encodeWord x ++ encodeWord y) = some (x, y) := by
  obtain ⟨h0, h1⟩ := at_append.1 (at_zero (encodeWord x ++ encodeWord y))
  rw [length_encodeWord] at h1
  have hword := wordAt_eq h0 hx
  have huint := uint32At_eq h1 hy
  simp only [Nat.zero_add] at huint
  simp [decodeUint256Uint32, hword, huint]

theorem decodeBool_encodeBool (x : Bool) : decodeBool (encodeBool x) = some x := by
  cases x with
  | true => simp [decodeBool, encodeBool, wordAt_eq (at_zero (encodeWord 1)) (by decide)]
  | false => simp [decodeBool, encodeBool, wordAt_eq (at_zero (encodeWord 0)) (by decide)]

/-! ## Dynamic values -/

/-- `bytes` at a position: a length and as many bytes. -/
def bytesAt (b : Bytes) (pos : Nat) : Option Bytes := do
  let len ← wordAt b pos
  if len < 2 ^ 64 ∧ pos + 32 + len ≤ b.length then some ((b.drop (pos + 32)).take len) else none

/-- `n` values `uint32` from a position on. -/
def uint32sAt (b : Bytes) (pos : Nat) : Nat → Option (List Nat)
  | 0 => some []
  | n + 1 => do
      let x ← uint32At b pos
      let xs ← uint32sAt b (pos + 32) n
      return x :: xs

/-- `n` offsets from a position on, relative to `base`, and the `bytes` they lead to. -/
def bytesListAt (b : Bytes) (base pos : Nat) : Nat → Option (List Bytes)
  | 0 => some []
  | n + 1 => do
      let off ← wordAt b pos
      if 2 ^ 64 ≤ off then none
      else do
        let x ← bytesAt b (base + off)
        let xs ← bytesListAt b base (pos + 32) n
        return x :: xs

/-- The length of an array at a position, whose heads have to lie within the data. -/
def arrayLengthAt (b : Bytes) (pos : Nat) : Option Nat := do
  let len ← wordAt b pos
  if len < 2 ^ 64 ∧ pos + 32 + 32 * len ≤ b.length then some len else none

/-- The offset of a dynamic value in the head at `pos`. -/
def offsetAt (b : Bytes) (pos : Nat) : Option Nat := do
  let off ← wordAt b pos
  if off < 2 ^ 64 then some off else none

/-- `abi.decode(b, (uint32[], bytes[]))` -/
def decodeUint32sBytesList (b : Bytes) : Option (List Nat × List Bytes) :=
  if b.length < 64 then none
  else do
    let p ← offsetAt b 0
    let n ← arrayLengthAt b p
    let xs ← uint32sAt b (p + 32) n
    let q ← offsetAt b 32
    let m ← arrayLengthAt b q
    let ys ← bytesListAt b (q + 32) (q + 32) m
    return (xs, ys)

/-- The zeros that fill the last word of `len` bytes. -/
def padding (len : Nat) : Bytes := List.replicate ((32 - len % 32) % 32) 0

/-- A length, the bytes, and the padding. -/
def encodeBytes (x : Bytes) : Bytes := encodeWord x.length ++ (x ++ padding x.length)

/-- The offsets of the elements, the first of which starts at `off`. -/
def encodeOffsets (off : Nat) : List Bytes → Bytes
  | [] => []
  | x :: xs => encodeWord off ++ encodeOffsets (off + (encodeBytes x).length) xs

/-- A `uint32[]`. -/
def encodeUint32s (xs : List Nat) : Bytes := encodeWord xs.length ++ xs.flatMap encodeWord

/-- A `bytes[]`. -/
def encodeBytesList (ys : List Bytes) : Bytes :=
  encodeWord ys.length ++ (encodeOffsets (32 * ys.length) ys ++ ys.flatMap encodeBytes)

/-- `abi.encode` of a pair `(uint32[], bytes[])`. -/
def encodeUint32sBytesList (xs : List Nat) (ys : List Bytes) : Bytes :=
  encodeWord 64 ++ (encodeWord (96 + 32 * xs.length) ++ (encodeUint32s xs ++ encodeBytesList ys))

@[simp] theorem length_encodeOffsets (off : Nat) (ys : List Bytes) :
    (encodeOffsets off ys).length = 32 * ys.length := by
  induction ys generalizing off with
  | nil => rfl
  | cons y ys ih =>
    rw [encodeOffsets, List.length_append, ih, length_encodeWord, List.length_cons]
    omega

@[simp] theorem length_encodeUint32s (xs : List Nat) :
    (encodeUint32s xs).length = 32 + 32 * xs.length := by
  have h : (xs.flatMap encodeWord).length = 32 * xs.length := by
    induction xs with
    | nil => rfl
    | cons x xs ih =>
      rw [List.flatMap_cons, List.length_append, ih, length_encodeWord, List.length_cons]
      omega
  rw [encodeUint32s, List.length_append, h, length_encodeWord]

/-- Bytes are read back. -/
theorem bytesAt_eq {b : Bytes} {pos : Nat} {x : Bytes} (h : At b pos (encodeBytes x))
    (hx : x.length < 2 ^ 64) : bytesAt b pos = some x := by
  obtain ⟨hlen, hrest⟩ := at_append.1 h
  rw [length_encodeWord] at hrest
  have hword := wordAt_eq hlen (Nat.lt_trans hx (by decide))
  have hle := h.le (List.append_ne_nil_of_left_ne_nil (List.ne_nil_of_length_pos (by simp)) _)
  have hbound : pos + 32 + x.length ≤ b.length := by
    simp only [encodeBytes, List.length_append, length_encodeWord] at hle
    omega
  have htake := (at_append.1 hrest).1.take
  rw [bytesAt, hword]
  refine (if_pos ⟨hx, hbound⟩).trans ?_
  rw [htake]

/-- An array of `uint32` is read back. -/
theorem uint32sAt_eq {b : Bytes} {pos : Nat} {xs : List Nat} (h : At b pos (xs.flatMap encodeWord))
    (hxs : ∀ x ∈ xs, x < 2 ^ 32) : uint32sAt b pos xs.length = some xs := by
  induction xs generalizing pos with
  | nil => rfl
  | cons x xs ih =>
    rw [List.flatMap_cons] at h
    obtain ⟨hx, hrest⟩ := at_append.1 h
    rw [length_encodeWord] at hrest
    have hhead := uint32At_eq hx (hxs x (List.mem_cons_self ..))
    have htail := ih hrest fun y hy => hxs y (List.mem_cons_of_mem x hy)
    simp [uint32sAt, hhead, htail]

/-- The offsets are read one by one; `off` runs with the elements already passed. -/
theorem bytesListAt_eq {b : Bytes} {base pos off : Nat} {ys : List Bytes}
    (hoff : At b pos (encodeOffsets off ys)) (hys : At b (base + off) (ys.flatMap encodeBytes))
    (hlen : ∀ y ∈ ys, y.length < 2 ^ 64) (hend : off + (ys.flatMap encodeBytes).length < 2 ^ 64) :
    bytesListAt b base pos ys.length = some ys := by
  induction ys generalizing pos off with
  | nil => rfl
  | cons y ys ih =>
    rw [encodeOffsets] at hoff
    rw [List.flatMap_cons] at hys hend
    rw [List.length_append] at hend
    obtain ⟨hhead, hoffs⟩ := at_append.1 hoff
    obtain ⟨hy, hrest⟩ := at_append.1 hys
    rw [length_encodeWord] at hoffs
    rw [Nat.add_assoc] at hrest
    have hword := wordAt_eq hhead (by omega)
    have hbytes := bytesAt_eq hy (hlen y (List.mem_cons_self ..))
    have htail := ih hoffs hrest (fun z hz => hlen z (List.mem_cons_of_mem y hz)) (by omega)
    have hsmall : ¬ 2 ^ 64 ≤ off := by omega
    simp only [List.length_cons, bytesListAt, hword, Option.bind_eq_bind, Option.bind_some,
      if_neg hsmall, hbytes, htail]
    rfl

/-- The length of an array is read back, if its elements fit. -/
theorem arrayLengthAt_eq {b : Bytes} {pos len : Nat} (h : At b pos (encodeWord len))
    (hlen : len < 2 ^ 64) (hle : pos + 32 + 32 * len ≤ b.length) :
    arrayLengthAt b pos = some len := by
  have hword := wordAt_eq h (Nat.lt_trans hlen (by decide))
  rw [arrayLengthAt, hword]
  exact if_pos ⟨hlen, hle⟩

theorem offsetAt_eq {b : Bytes} {pos off : Nat} (h : At b pos (encodeWord off))
    (hoff : off < 2 ^ 64) : offsetAt b pos = some off := by
  have hword := wordAt_eq h (Nat.lt_trans hoff (by decide))
  rw [offsetAt, hword]
  exact if_pos hoff

theorem length_le_of_mem_flatMap {y : Bytes} {ys : List Bytes} (hy : y ∈ ys) :
    y.length ≤ (ys.flatMap encodeBytes).length := by
  induction ys with
  | nil => cases hy
  | cons z ys ih =>
    rw [List.flatMap_cons, List.length_append]
    rcases List.mem_cons.1 hy with rfl | hy
    · simp only [encodeBytes, List.length_append]
      omega
    · exact Nat.le_trans (ih hy) (Nat.le_add_left _ _)

/-- Both lists are read back. -/
theorem decodeUint32sBytesList_eq {b : Bytes} {xs : List Nat} {ys : List Bytes}
    (h : At b 0 (encodeUint32sBytesList xs ys)) (hxs : ∀ x ∈ xs, x < 2 ^ 32)
    (hb : b.length < 2 ^ 64) : decodeUint32sBytesList b = some (xs, ys) := by
  have hle := h.le (List.append_ne_nil_of_left_ne_nil (List.ne_nil_of_length_pos (by simp)) _)
  simp only [encodeUint32sBytesList, encodeBytesList, List.length_append, length_encodeWord,
    length_encodeUint32s, length_encodeOffsets] at hle
  -- the two heads, then `uint32[]` at 64 and `bytes[]` behind it
  obtain ⟨hp, h⟩ := at_append.1 h
  obtain ⟨hq, h⟩ := at_append.1 h
  obtain ⟨hxsAt, hysAt⟩ := at_append.1 h
  obtain ⟨hn, hwords⟩ := at_append.1 hxsAt
  obtain ⟨hm, htail⟩ := at_append.1 hysAt
  obtain ⟨hoffs, hbytes⟩ := at_append.1 htail
  simp only [length_encodeWord, length_encodeUint32s, length_encodeOffsets, Nat.zero_add,
    Nat.reduceAdd] at hq hn hwords hm hoffs hbytes
  have hpos : 64 + (32 + 32 * xs.length) = 96 + 32 * xs.length := by omega
  rw [hpos] at hm hoffs hbytes
  have hsmall (y : Bytes) (hy : y ∈ ys) : y.length < 2 ^ 64 := by
    have hyle := length_le_of_mem_flatMap hy
    omega
  simp only [decodeUint32sBytesList, if_neg (show ¬ b.length < 64 by omega),
    offsetAt_eq hp (by decide), offsetAt_eq hq (by omega),
    arrayLengthAt_eq hn (by omega) (by omega), arrayLengthAt_eq hm (by omega) (by omega),
    uint32sAt_eq hwords hxs, bytesListAt_eq hoffs hbytes hsmall (by omega),
    Option.bind_eq_bind, Option.bind_some]
  rfl

/-- **Round trip.** -/
theorem decodeUint32sBytesList_encode {xs : List Nat} {ys : List Bytes}
    (hxs : ∀ x ∈ xs, x < 2 ^ 32) (hlen : (encodeUint32sBytesList xs ys).length < 2 ^ 64) :
    decodeUint32sBytesList (encodeUint32sBytesList xs ys) = some (xs, ys) :=
  decodeUint32sBytesList_eq (at_zero _) hxs hlen

end StrategyBuilder.Lib.Abi
