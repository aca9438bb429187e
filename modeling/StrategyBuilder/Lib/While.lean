import Mathlib.Data.List.Basic
import Mathlib.Tactic.Common

/-!
# While loops with failure

`whileLoop cond body n s` runs `while (cond) body` from `s` for at most `n` rounds. `none` is a loop
that has not ended by then; `some (.error e)` is a loop whose body failed.

The rules are those of a program logic. `whileLoop_ok` and `whileLoop_error` are the invariant rule
for the two ways a loop ends, `whileLoop_isSome` is the variant rule: a variant that every round
lowers bounds the number of rounds. `whileStates` lists the states in which the body runs;
`whileStates_pairwise` says that a variant tells them apart.
-/

set_option autoImplicit false

namespace StrategyBuilder.Lib

universe u v

section While

variable {σ : Type u} {ε : Type v} (cond : σ → Bool) (body : σ → Except ε σ)

/-- `while (cond) body` for at most the given number of rounds. -/
def whileLoop : Nat → σ → Option (Except ε σ)
  | 0, s => if cond s then none else some (.ok s)
  | n + 1, s =>
      if cond s then
        match body s with
        | .ok s' => whileLoop n s'
        | .error e => some (.error e)
      else some (.ok s)

/-- The states in which the body of the loop runs, in order. -/
def whileStates : Nat → σ → List σ
  | 0, _ => []
  | n + 1, s =>
      if cond s then
        s :: match body s with
          | .ok s' => whileStates n s'
          | .error _ => []
      else []

variable {cond body}

theorem whileLoop_of_false {s : σ} (h : cond s = false) (n : Nat) :
    whileLoop cond body n s = some (.ok s) := by
  cases n with
  | zero => simp [whileLoop, h]
  | succ n => simp [whileLoop, h]

theorem whileLoop_succ {s s' : σ} (h : cond s = true) (hb : body s = .ok s') (n : Nat) :
    whileLoop cond body (n + 1) s = whileLoop cond body n s' := by
  simp [whileLoop, h, hb]

theorem whileLoop_fail {s : σ} {e : ε} (h : cond s = true) (hb : body s = .error e) (n : Nat) :
    whileLoop cond body (n + 1) s = some (.error e) := by
  simp [whileLoop, h, hb]

/-- **Invariant rule.** A loop that ends normally ends in a state of the invariant without the
condition. -/
theorem whileLoop_ok {I : σ → Prop}
    (hI : ∀ s s', I s → cond s = true → body s = .ok s' → I s') {n : Nat} {s t : σ} (hs : I s)
    (h : whileLoop cond body n s = some (.ok t)) : I t ∧ cond t = false := by
  induction n generalizing s with
  | zero =>
    cases hc : cond s with
    | true => simp [whileLoop, hc] at h
    | false =>
      rw [whileLoop_of_false hc] at h
      cases h
      exact ⟨hs, hc⟩
  | succ n ih =>
    cases hc : cond s with
    | false =>
      rw [whileLoop_of_false hc] at h
      cases h
      exact ⟨hs, hc⟩
    | true =>
      cases hb : body s with
      | ok s' =>
        rw [whileLoop_succ hc hb] at h
        exact ih (hI s s' hs hc hb) h
      | error e =>
        rw [whileLoop_fail hc hb] at h
        cases h

/-- A loop that fails fails in a state of the invariant. -/
theorem whileLoop_error {I : σ → Prop}
    (hI : ∀ s s', I s → cond s = true → body s = .ok s' → I s') {n : Nat} {s : σ} {e : ε} (hs : I s)
    (h : whileLoop cond body n s = some (.error e)) :
    ∃ t, I t ∧ cond t = true ∧ body t = .error e := by
  induction n generalizing s with
  | zero =>
    cases hc : cond s with
    | true => simp [whileLoop, hc] at h
    | false =>
      rw [whileLoop_of_false hc] at h
      cases h
  | succ n ih =>
    cases hc : cond s with
    | false =>
      rw [whileLoop_of_false hc] at h
      cases h
    | true =>
      cases hb : body s with
      | ok s' =>
        rw [whileLoop_succ hc hb] at h
        exact ih (hI s s' hs hc hb) h
      | error e' =>
        rw [whileLoop_fail hc hb] at h
        cases h
        exact ⟨s, hs, hc, hb⟩

/-- **Variant rule.** A loop whose rounds lower a variant ends within the variant's value. -/
theorem whileLoop_isSome {I : σ → Prop} {m : σ → Nat}
    (hI : ∀ s s', I s → cond s = true → body s = .ok s' → I s' ∧ m s' < m s) {n : Nat} {s : σ}
    (hs : I s) (hm : m s ≤ n) (hpos : ∀ s, I s → cond s = true → 0 < m s) :
    ∃ r, whileLoop cond body n s = some r := by
  induction n generalizing s with
  | zero =>
    cases hc : cond s with
    | true => exact absurd (hpos s hs hc) (by omega)
    | false => exact ⟨_, whileLoop_of_false hc 0⟩
  | succ n ih =>
    cases hc : cond s with
    | false => exact ⟨_, whileLoop_of_false hc _⟩
    | true =>
      cases hb : body s with
      | error e => exact ⟨_, whileLoop_fail hc hb n⟩
      | ok s' =>
        obtain ⟨hs', hlt⟩ := hI s s' hs hc hb
        obtain ⟨r, hr⟩ := ih hs' (by omega)
        exact ⟨r, (whileLoop_succ hc hb n).trans hr⟩

/-- Of the rounds that `p` marks, a variant that every marked round lowers admits no more than its
value. -/
theorem countP_whileStates_le {I : σ → Prop} {m : σ → Nat} {p : σ → Bool}
    (hI : ∀ s s', I s → cond s = true → body s = .ok s' → I s' ∧ m s' + (if p s then 1 else 0) ≤ m s)
    (hp : ∀ s, I s → cond s = true → p s = true → 0 < m s) {n : Nat} {s : σ} (hs : I s) :
    (whileStates cond body n s).countP p ≤ m s := by
  induction n generalizing s with
  | zero => exact Nat.zero_le _
  | succ n ih =>
    cases hc : cond s with
    | false => simp [whileStates, hc]
    | true =>
      cases hb : body s with
      | error e =>
        cases hps : p s with
        | true => simpa [whileStates, hc, hb, hps] using Nat.succ_le_of_lt (hp s hs hc hps)
        | false => simp [whileStates, hc, hb, hps]
      | ok s' =>
        obtain ⟨hs', hle⟩ := hI s s' hs hc hb
        have hrest := ih hs'
        rw [whileStates, if_pos hc, hb]
        simp only [List.countP_cons]
        omega

/-- The body runs in states of the invariant. -/
theorem whileStates_invariant {I : σ → Prop}
    (hI : ∀ s s', I s → cond s = true → body s = .ok s' → I s') {n : Nat} {s t : σ} (hs : I s)
    (ht : t ∈ whileStates cond body n s) : I t ∧ cond t = true := by
  induction n generalizing s with
  | zero => cases ht
  | succ n ih =>
    cases hc : cond s with
    | false => simp [whileStates, hc] at ht
    | true =>
      rw [whileStates, if_pos hc] at ht
      rcases List.mem_cons.1 ht with rfl | ht
      · exact ⟨hs, hc⟩
      · cases hb : body s with
        | error e =>
          rw [hb] at ht
          cases ht
        | ok s' =>
          rw [hb] at ht
          exact ih (hI s s' hs hc hb) ht

/-- A variant that every round lowers tells the states apart in which the body runs. -/
theorem whileStates_pairwise {I : σ → Prop} {m : σ → Nat}
    (hI : ∀ s s', I s → cond s = true → body s = .ok s' → I s' ∧ m s' < m s) {n : Nat} {s : σ}
    (hs : I s) : (whileStates cond body n s).Pairwise fun s t => m t < m s := by
  induction n generalizing s with
  | zero => exact List.Pairwise.nil
  | succ n ih =>
    cases hc : cond s with
    | false => simp [whileStates, hc]
    | true =>
      cases hb : body s with
      | error e => simp [whileStates, hc, hb]
      | ok s' =>
        obtain ⟨hs', hlt⟩ := hI s s' hs hc hb
        rw [whileStates, if_pos hc, hb]
        refine List.pairwise_cons.2 ⟨fun t ht => ?_, ih hs'⟩
        -- whatever comes later is no higher than the next state
        have hle : I t ∧ m t ≤ m s' := by
          refine (whileStates_invariant (I := fun t => I t ∧ m t ≤ m s') ?_ ⟨hs', Nat.le_refl _⟩
            ht).1
          intro u u' hu hcu hbu
          obtain ⟨hu', hlt'⟩ := hI u u' hu.1 hcu hbu
          exact ⟨hu', by omega⟩
        omega

end While

end StrategyBuilder.Lib
