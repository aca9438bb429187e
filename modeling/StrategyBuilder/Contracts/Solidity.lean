import Mathlib.Algebra.Ring.Nat
import Mathlib.Logic.Basic
import Mathlib.Tactic.Common

/-!
# Solidity calls

The parts of the Solidity language that the contract models share. A call is a function into
`Except (Revert ε)`: it returns, or it reverts and leaves the state of the chain as it was. `ε` is
the contract's list of custom errors. `uint256` values are natural numbers; the checked arithmetic
of Solidity 0.8 reverts with `Panic(0x11)` where the result does not fit.

Arrays are lists. Their loops are kept as the source runs them, index by index, with the `Panic`
of an access out of bounds; one lemma each says what the loop leaves in the array.
-/

set_option autoImplicit false

namespace StrategyBuilder.Contracts

universe u v

/-- An account or contract address. -/
structure Address where
  toNat : Nat
deriving DecidableEq, Repr

/-- `address(0)`. -/
def Address.zero : Address := ⟨0⟩

/-- `type(uint256).max`. -/
def maxUint256 : Nat := 2 ^ 256 - 1

/-- `type(uint32).max`. -/
def maxUint32 : Nat := 2 ^ 32 - 1

/-- How a call reverts: with a custom error of the contract, with a `Panic` of the compiler, with
the revert of the ABI decoder on malformed data (empty, or the allocation `Panic` of an impossible
length), with the revert of a called contract passed through, or because it runs for ever. -/
inductive Revert (ε : Type u) where
  | error (e : ε)
  | panic (code : Nat)
  | decode
  | external
  | outOfGas
deriving DecidableEq, Repr

/-- The result of a call. -/
abbrev Result (ε : Type u) (α : Type v) := Except (Revert ε) α

/-- `if (c) revert e;` -/
def revertIf {ε : Type u} (c : Prop) [Decidable c] (e : ε) : Result ε Unit :=
  if c then .error (.error e) else .ok ()

/-- `a + b` on `uint256`. -/
def checkedAdd {ε : Type u} (a b : Nat) : Result ε Nat :=
  if a + b ≤ maxUint256 then .ok (a + b) else .error (.panic 0x11)

/-- `a * b` on `uint256`. -/
def checkedMul {ε : Type u} (a b : Nat) : Result ε Nat :=
  if a * b ≤ maxUint256 then .ok (a * b) else .error (.panic 0x11)

/-- `a - b` on `uint256`. -/
def checkedSub {ε : Type u} (a b : Nat) : Result ε Nat :=
  if b ≤ a then .ok (a - b) else .error (.panic 0x11)

/-- `a / b` on `uint256`. -/
def checkedDiv {ε : Type u} (a b : Nat) : Result ε Nat :=
  if b = 0 then .error (.panic 0x12) else .ok (a / b)

/-- `a ** b` on `uint256`. -/
def checkedPow {ε : Type u} (a b : Nat) : Result ε Nat :=
  if a ^ b ≤ maxUint256 then .ok (a ^ b) else .error (.panic 0x11)

/-- A revert of a library, seen in the contract that calls it. -/
def Revert.map {ε : Type u} {δ : Type v} (f : ε → δ) : Revert ε → Revert δ
  | .error e => .error (f e)
  | .panic code => .panic code
  | .decode => .decode
  | .external => .external
  | .outOfGas => .outOfGas

/-- The error of a library is one of the contract that calls it. -/
def liftRevert {ε δ : Type u} {α : Type v} (f : ε → δ) : Result ε α → Result δ α
  | .ok a => .ok a
  | .error e => .error (e.map f)

/-- The answer of a called contract, passed through when it reverts. -/
def passThrough {ε : Type u} {α : Type v} : Option α → Result ε α
  | some a => .ok a
  | none => .error .external

/-- The value of the ABI decoder. -/
def decoded {ε : Type u} {α : Type v} : Option α → Result ε α
  | some a => .ok a
  | none => .error .decode

section

variable {ε : Type u} {α β : Type v}

/-- A sequence of two calls returns exactly when both do. -/
theorem bind_eq_ok {x : Result ε α} {f : α → Result ε β} {b : β} :
    (x >>= f) = .ok b ↔ ∃ a, x = .ok a ∧ f a = .ok b := by
  cases x with
  | error e => simp [bind, Except.bind]
  | ok a => simp [bind, Except.bind]

/-- A sequence of two calls reverts where the first one does, or the second one. -/
theorem bind_eq_error {x : Result ε α} {f : α → Result ε β} {r : Revert ε} :
    (x >>= f) = .error r ↔ x = .error r ∨ ∃ a, x = .ok a ∧ f a = .error r := by
  cases x with
  | error e => simp [bind, Except.bind]
  | ok a => simp [bind, Except.bind]

theorem pure_eq_ok {a b : α} : (pure a : Result ε α) = .ok b ↔ a = b := by
  simp [pure, Except.pure]

theorem revertIf_eq_ok {c : Prop} [Decidable c] {e : ε} {u : Unit} :
    revertIf c e = .ok u ↔ ¬ c := by
  unfold revertIf
  by_cases h : c
  · simp [h]
  · simp [h]

theorem revertIf_eq_error {c : Prop} [Decidable c] {e : ε} {r : Revert ε} :
    revertIf c e = .error r ↔ c ∧ r = .error e := by
  unfold revertIf
  by_cases h : c
  · simp [h, eq_comm]
  · simp [h]

theorem revertIf_of_not {c : Prop} [Decidable c] {e : ε} (h : ¬ c) : revertIf c e = .ok () :=
  if_neg h

theorem checkedAdd_eq_ok {a b c : Nat} :
    (checkedAdd a b : Result ε Nat) = .ok c ↔ a + b ≤ maxUint256 ∧ a + b = c := by
  unfold checkedAdd
  by_cases h : a + b ≤ maxUint256
  · simp [h]
  · simp [h]

theorem checkedMul_eq_ok {a b c : Nat} :
    (checkedMul a b : Result ε Nat) = .ok c ↔ a * b ≤ maxUint256 ∧ a * b = c := by
  unfold checkedMul
  by_cases h : a * b ≤ maxUint256
  · simp [h]
  · simp [h]

theorem checkedSub_eq_ok {a b c : Nat} :
    (checkedSub a b : Result ε Nat) = .ok c ↔ b ≤ a ∧ a - b = c := by
  unfold checkedSub
  by_cases h : b ≤ a
  · simp [h]
  · simp [h]

theorem checkedDiv_eq_ok {a b c : Nat} :
    (checkedDiv a b : Result ε Nat) = .ok c ↔ b ≠ 0 ∧ a / b = c := by
  unfold checkedDiv
  by_cases h : b = 0
  · simp [h]
  · simp [h]

theorem liftRevert_eq_ok {δ : Type u} {f : ε → δ} {x : Result ε α} {a : α} :
    liftRevert f x = .ok a ↔ x = .ok a := by
  cases x with
  | ok b => simp [liftRevert]
  | error e => simp [liftRevert]

theorem checkedPow_eq_ok {a b c : Nat} :
    (checkedPow a b : Result ε Nat) = .ok c ↔ a ^ b ≤ maxUint256 ∧ a ^ b = c := by
  unfold checkedPow
  by_cases h : a ^ b ≤ maxUint256
  · simp [h]
  · simp [h]

theorem passThrough_eq_ok {o : Option α} {a : α} :
    (passThrough o : Result ε α) = .ok a ↔ o = some a := by
  cases o with
  | none => simp [passThrough]
  | some b => simp [passThrough]

theorem decoded_eq_ok {o : Option α} {a : α} : (decoded o : Result ε α) = .ok a ↔ o = some a := by
  cases o with
  | none => simp [decoded]
  | some b => simp [decoded]

end

/-! ## Mappings of mappings -/

/-- Write `m[a][b] = x` in a nested mapping. -/
def update₂ {α β M : Type u} [DecidableEq α] [DecidableEq β] (m : α → β → M) (a : α) (b : β)
    (x : M) : α → β → M :=
  Function.update m a (Function.update (m a) b x)

section

variable {α β M : Type u} [DecidableEq α] [DecidableEq β] (m : α → β → M) (a : α) (b : β) (x : M)

@[simp] theorem update₂_self : update₂ m a b x a b = x := by
  simp [update₂]

/-- A map of two keys after an update. -/
theorem update₂_apply (a' : α) (b' : β) :
    update₂ m a b x a' b' = if a' = a ∧ b' = b then x else m a' b' := by
  unfold update₂
  by_cases ha : a' = a
  · subst ha
    by_cases hb : b' = b
    · subst hb
      simp
    · simp [hb]
  · simp [ha]

/-- Other keys keep their values. -/
theorem update₂_of_ne {a' : α} {b' : β} (h : a' ≠ a ∨ b' ≠ b) :
    update₂ m a b x a' b' = m a' b' := by
  rw [update₂_apply, if_neg]
  rintro ⟨ha, hb⟩
  rcases h with h | h
  · exact h ha
  · exact h hb

/-- A write in the column `b` is a write in the function that column is. -/
theorem update₂_column :
    (fun a' => update₂ m a b x a' b) = Function.update (fun a' => m a' b) a x := by
  funext a'
  rw [update₂_apply]
  by_cases h : a' = a
  · subst h
    simp
  · simp [h]

/-- A write in another column leaves the column as it is. -/
theorem update₂_column_of_ne {b' : β} (h : b' ≠ b) :
    (fun a' => update₂ m a b x a' b') = fun a' => m a' b' := by
  funext a'
  exact update₂_of_ne m a b x (Or.inr h)

end

/-! ## Arrays -/

/-- `a[i]` -/
def readAt {ε : Type u} {α : Type v} (a : List α) (i : Nat) : Result ε α :=
  match a[i]? with
  | some x => .ok x
  | none => .error (.panic 0x32)

/-- `a[i] = x` -/
def writeAt {ε : Type u} {α : Type v} (a : List α) (i : Nat) (x : α) : Result ε (List α) :=
  if i < a.length then .ok (a.set i x) else .error (.panic 0x32)

/-- `for (; n > 0; --n) { dst[i] = src[i]; ++i; }` -/
def writeLoop {ε : Type u} {α : Type v} (src : List α) : Nat → Nat → List α → Result ε (List α)
  | _, 0, dst => .ok dst
  | i, n + 1, dst => do
      let x ← readAt src i
      let dst ← writeAt dst i x
      writeLoop src (i + 1) n dst

/-- `for (; n > 0; --n) { dst.push(src[i]); ++i; }` -/
def pushLoop {ε : Type u} {α : Type v} (src : List α) : Nat → Nat → List α → Result ε (List α)
  | _, 0, dst => .ok dst
  | i, n + 1, dst => do
      let x ← readAt src i
      pushLoop src (i + 1) n (dst ++ [x])

/-- `for (; n > 0; --n) dst.push();` with the default value of the element type. -/
def growLoop {α : Type v} (default : α) : Nat → List α → List α
  | 0, dst => dst
  | n + 1, dst => growLoop default n (dst ++ [default])

/-- `for (; n > 0; --n) dst.pop();` -/
def popLoop {ε : Type u} {α : Type v} : Nat → List α → Result ε (List α)
  | 0, dst => .ok dst
  | n + 1, dst => if dst = [] then .error (.panic 0x31) else popLoop n dst.dropLast

section

variable {ε : Type u} {α : Type v}

theorem readAt_eq_ok {a : List α} {i : Nat} {x : α} :
    (readAt a i : Result ε α) = .ok x ↔ a[i]? = some x := by
  unfold readAt
  cases a[i]? with
  | none => simp
  | some y => simp

/-- The entries before `i` are already those of `src`; the loop makes it `n` more. -/
theorem writeLoop_eq {src dst : List α} {i n : Nat} (hsrc : i + n ≤ src.length)
    (hdst : i + n ≤ dst.length) (hi : dst.take i = src.take i) :
    (writeLoop src i n dst : Result ε (List α)) = .ok (src.take (i + n) ++ dst.drop (i + n)) := by
  induction n generalizing i dst with
  | zero => rw [writeLoop, Nat.add_zero, ← hi, List.take_append_drop]
  | succ n ih =>
    have hlt : i < src.length := by omega
    have hread : (readAt src i : Result ε α) = .ok src[i] :=
      readAt_eq_ok.2 (List.getElem?_eq_getElem hlt)
    have hset : (dst.set i src[i]).take (i + 1) = src.take (i + 1) := by
      rw [List.take_succ_eq_append_getElem (by rw [List.length_set]; omega),
        List.take_succ_eq_append_getElem hlt, List.take_set_of_le (Nat.le_refl i), hi,
        List.getElem_set_self]
    have hstep : (writeLoop src i (n + 1) dst : Result ε (List α)) =
        writeLoop src (i + 1) n (dst.set i src[i]) := by
      have hwrite : (writeAt dst i src[i] : Result ε (List α)) = .ok (dst.set i src[i]) :=
        if_pos (by omega)
      rw [writeLoop, hread]
      change (writeAt dst i src[i] >>= fun dst => writeLoop src (i + 1) n dst) = _
      rw [hwrite]
      rfl
    rw [hstep, ih (by omega) (by rw [List.length_set]; omega) hset,
      List.drop_set_of_lt (by omega), Nat.add_right_comm, Nat.add_assoc i n 1]

/-- The loop over the first `n` entries. -/
theorem writeLoop_zero_eq {src dst : List α} {n : Nat} (hsrc : n ≤ src.length)
    (hdst : n ≤ dst.length) :
    (writeLoop src 0 n dst : Result ε (List α)) = .ok (src.take n ++ dst.drop n) := by
  have hsrc' : 0 + n ≤ src.length := by omega
  have hdst' : 0 + n ≤ dst.length := by omega
  have h : (writeLoop src 0 n dst : Result ε (List α)) = _ := writeLoop_eq hsrc' hdst' rfl
  rwa [Nat.zero_add] at h

/-- The loop appends a part of the source. -/
theorem pushLoop_eq {src dst : List α} {i n : Nat} (hsrc : i + n ≤ src.length) :
    (pushLoop src i n dst : Result ε (List α)) = .ok (dst ++ (src.drop i).take n) := by
  induction n generalizing i dst with
  | zero => simp [pushLoop]
  | succ n ih =>
    have hlt : i < src.length := by omega
    have hread : (readAt src i : Result ε α) = .ok src[i] :=
      readAt_eq_ok.2 (List.getElem?_eq_getElem hlt)
    have hstep : (pushLoop src i (n + 1) dst : Result ε (List α)) =
        pushLoop src (i + 1) n (dst ++ [src[i]]) := by
      rw [pushLoop, hread]
      rfl
    rw [hstep, ih (by omega), List.drop_eq_getElem_cons hlt, List.take_succ_cons, List.append_assoc]
    rfl

theorem growLoop_eq (default : α) (n : Nat) (dst : List α) :
    growLoop default n dst = dst ++ List.replicate n default := by
  induction n generalizing dst with
  | zero => simp [growLoop]
  | succ n ih => rw [growLoop, ih, List.append_assoc, List.replicate_succ, List.singleton_append]

/-- The loop drops from the end. -/
theorem popLoop_eq {dst : List α} {n : Nat} (h : n ≤ dst.length) :
    (popLoop n dst : Result ε (List α)) = .ok (dst.take (dst.length - n)) := by
  induction n generalizing dst with
  | zero => rw [popLoop, Nat.sub_zero, List.take_length]
  | succ n ih =>
    have hne : dst ≠ [] := by
      rintro rfl
      cases h
    have hlen : dst.dropLast.length = dst.length - 1 := List.length_dropLast
    rw [popLoop, if_neg hne, ih (by omega), hlen, List.dropLast_eq_take, List.take_take]
    congr 2
    omega

end

end StrategyBuilder.Contracts
