import Mathlib.Algebra.Ring.Nat
import Mathlib.Tactic.Common

/-!
# Programs whose awaits may fail

A program over a shared state that awaits calls to the outside. The outside is a sequence of moments,
one for each await: at its moment a call is answered, or fails, or the process stops there; a call that
fails or stops may have had its effect all the same. Other parties may change the state before a call.

`Triple` is a Hoare triple with three postconditions, for a program that returns, throws or stops. It
assumes a condition of the moments that the program goes through. The rules follow the program:
`Triple.bind`, `Triple.tryCatch`, `Triple.call` and the loops `Triple.forM` and `Triple.foldlM`.

`AtMost` bounds the calls that a program makes, by rules of the same kind.
-/

set_option autoImplicit false

namespace StrategyBuilder.Lib

universe u v

/-- How a call ends. A call that is not answered may still have its effect. -/
inductive Fate where
  | answered
  | failed (effect : Bool)
  | stopped (effect : Bool)
deriving DecidableEq, Repr

/-- How a program ends. -/
inductive Outcome (α : Type u) where
  | returned (a : α)
  | thrown
  | stopped

/-- A program that awaits: from the moments, the number of the next one and the state to the outcome,
the number of the moment after it and the new state. No moment comes back. -/
structure Async (Ω : Type v) (σ α : Type u) where
  run : (Nat → Ω) → Nat → σ → Outcome α × Nat × σ
  le_run : ∀ ω t s, t ≤ (run ω t s).2.1

namespace Async

variable {Ω : Type v} {σ α β : Type u}

/-- Go on from the result of a program. -/
def andThen (r : Outcome α × Nat × σ) (f : α → Nat → σ → Outcome β × Nat × σ)
    (g : Nat → σ → Outcome β × Nat × σ) : Outcome β × Nat × σ :=
  match r with
  | (.returned a, t, s) => f a t s
  | (.thrown, t, s) => g t s
  | (.stopped, t, s) => (.stopped, t, s)

theorem le_andThen {r : Outcome α × Nat × σ} {f : α → Nat → σ → Outcome β × Nat × σ}
    {g : Nat → σ → Outcome β × Nat × σ} {t : Nat} (hr : t ≤ r.2.1)
    (hf : ∀ a t s, t ≤ (f a t s).2.1) (hg : ∀ t s, t ≤ (g t s).2.1) :
    t ≤ (andThen r f g).2.1 := by
  rcases r with ⟨o, t', s⟩
  cases o with
  | returned a => exact Nat.le_trans hr (hf a t' s)
  | thrown => exact Nat.le_trans hr (hg t' s)
  | stopped => exact hr

instance : Monad (Async Ω σ) where
  pure a := ⟨fun _ t s => (.returned a, t, s), fun _ t _ => Nat.le_refl t⟩
  bind x f :=
    ⟨fun ω t s => andThen (x.run ω t s) (fun a => (f a).run ω) fun t s => (.thrown, t, s),
      fun ω t s => le_andThen (x.le_run ω t s) (fun a => (f a).le_run ω) fun t _ => Nat.le_refl t⟩

/-- Programs are equal if all their runs are. -/
theorem ext_run {x y : Async Ω σ α} (h : ∀ ω t s, x.run ω t s = y.run ω t s) : x = y := by
  rcases x with ⟨run, le_run⟩
  rcases y with ⟨run', le_run'⟩
  have hrun : run = run' := by
    funext ω t s
    exact h ω t s
  subst hrun
  rfl

instance : LawfulMonad (Async Ω σ) :=
  LawfulMonad.mk' _
    (by
      intro α x
      apply ext_run
      intro ω t s
      change andThen (x.run ω t s) _ _ = x.run ω t s
      rcases x.run ω t s with ⟨o, t', s'⟩
      cases o with
      | returned a => rfl
      | thrown => rfl
      | stopped => rfl)
    (by
      intro α β a f
      rfl)
    (by
      intro α β γ x f g
      apply ext_run
      intro ω t s
      change andThen (andThen (x.run ω t s) _ _) _ _ = andThen (x.run ω t s) _ _
      rcases x.run ω t s with ⟨o, t', s'⟩
      cases o with
      | returned a => rfl
      | thrown => rfl
      | stopped => rfl)

/-- An exception, which changes nothing. -/
def throw : Async Ω σ α := ⟨fun _ t s => (.thrown, t, s), fun _ t _ => Nat.le_refl t⟩

/-- Go on with `handler` where `x` throws; nothing catches a stop. -/
def tryCatch (x handler : Async Ω σ α) : Async Ω σ α :=
  ⟨fun ω t s => andThen (x.run ω t s) (fun a t s => (.returned a, t, s)) (handler.run ω),
    fun ω t s => le_andThen (x.le_run ω t s) (fun _ t _ => Nat.le_refl t) (handler.le_run ω)⟩

/-- Read the state. -/
def get : Async Ω σ σ := ⟨fun _ t s => (.returned s, t, s), fun _ t _ => Nat.le_refl t⟩

/-- Change the state. -/
def modify (f : σ → σ) : Async Ω σ PUnit :=
  ⟨fun _ t s => (.returned ⟨⟩, t, f s), fun _ t _ => Nat.le_refl t⟩

/-- The state after the effect of a call. -/
def effectOn (f : Ω → σ → Option (α × σ)) (m : Ω) (s : σ) (effect : Bool) : σ :=
  if effect then ((f m s).map Prod.snd).getD s else s

/-- How a call ends at its moment. A call that is answered with `none` is refused. -/
def settle (f : Ω → σ → Option (α × σ)) (m : Ω) (s : σ) : Fate → Outcome α × σ
  | .answered =>
      match f m s with
      | some (a, s) => (.returned a, s)
      | none => (.thrown, s)
  | .failed effect => (.thrown, effectOn f m s effect)
  | .stopped effect => (.stopped, effectOn f m s effect)

/-- Await a call: others have changed the state by then. -/
def call (fate : Ω → Fate) (interfere : Ω → σ → σ) (f : Ω → σ → Option (α × σ)) : Async Ω σ α :=
  ⟨fun ω t s =>
      let r := settle f (ω t) (interfere (ω t) s) (fate (ω t))
      (r.1, t + 1, r.2),
    fun _ t _ => Nat.le_succ t⟩

/-! ## Triples -/

/-- The postconditions of a program. -/
def Satisfies (Q : α → σ → Prop) (T S : σ → Prop) : Outcome α → σ → Prop
  | .returned a, s => Q a s
  | .thrown, s => T s
  | .stopped, s => S s

/-- From a state with `P`, through moments with `R`: `Q` where the program returns, `T` where it
throws and `S` where it stops. -/
def Triple (ω : Nat → Ω) (R : Nat → Prop) (P : σ → Prop) (x : Async Ω σ α) (Q : α → σ → Prop)
    (T S : σ → Prop) : Prop :=
  ∀ t s, P s → (∀ i, t ≤ i → i < (x.run ω t s).2.1 → R i) →
    Satisfies Q T S (x.run ω t s).1 (x.run ω t s).2.2

section Rules

variable {ω : Nat → Ω} {R : Nat → Prop} {P P' T T' S : σ → Prop} {Q Q' : α → σ → Prop}

/-- A weaker condition on the result. -/
theorem Satisfies.imp {o : Outcome α} {s : σ} (h : Satisfies Q' T S o s)
    (hQ : ∀ a s, Q' a s → Q a s) : Satisfies Q T S o s := by
  cases o with
  | returned a => exact hQ a s h
  | thrown => exact h
  | stopped => exact h

/-- What holds however the program ends. -/
theorem Satisfies.elim {o : Outcome α} {s : σ} (h : Satisfies (fun _ => P) P P o s) : P s := by
  cases o with
  | returned a => exact h
  | thrown => exact h
  | stopped => exact h

/-- The rule of consequence. -/
theorem Triple.imp {x : Async Ω σ α} (h : Triple ω R P' x Q' T S) (hP : ∀ s, P s → P' s)
    (hQ : ∀ a s, Q' a s → Q a s) : Triple ω R P x Q T S := by
  intro t s hs hR
  exact (h t s (hP s hs) hR).imp hQ

/-- A weaker postcondition. -/
theorem Triple.post {x : Async Ω σ α} (h : Triple ω R P x Q' T S) (hQ : ∀ a s, Q' a s → Q a s) :
    Triple ω R P x Q T S :=
  h.imp (fun _ hs => hs) hQ

/-- A fact in the precondition. -/
theorem Triple.assume {x : Async Ω σ α} {p : Prop} (h : p → Triple ω R P x Q T S) :
    Triple ω R (fun s => p ∧ P s) x Q T S := by
  rintro t s ⟨hp, hs⟩ hR
  exact h hp t s hs hR

theorem Triple.pure {a : α} (h : ∀ s, P s → Q a s) :
    Triple ω R P (Pure.pure a : Async Ω σ α) Q T S := by
  intro t s hs _
  exact h s hs

theorem Triple.throw (h : ∀ s, P s → T s) : Triple ω R P (Async.throw : Async Ω σ α) Q T S := by
  intro t s hs _
  exact h s hs

theorem Triple.get {Q : σ → σ → Prop} (h : ∀ s, P s → Q s s) :
    Triple ω R P (Async.get : Async Ω σ σ) Q T S := by
  intro t s hs _
  exact h s hs

theorem Triple.modify {f : σ → σ} {Q : PUnit → σ → Prop} (h : ∀ s, P s → Q ⟨⟩ (f s)) :
    Triple ω R P (Async.modify f : Async Ω σ PUnit) Q T S := by
  intro t s hs _
  exact h s hs

/-- What holds after `andThen`, from what holds after its parts. -/
theorem satisfies_andThen {Q : β → σ → Prop} {r : Outcome α × Nat × σ}
    {f : α → Nat → σ → Outcome β × Nat × σ} {g : Nat → σ → Outcome β × Nat × σ}
    (hr : Satisfies Q' T' S r.1 r.2.2)
    (hf : ∀ a, r.1 = .returned a → Q' a r.2.2 →
      Satisfies Q T S (f a r.2.1 r.2.2).1 (f a r.2.1 r.2.2).2.2)
    (hg : r.1 = .thrown → T' r.2.2 → Satisfies Q T S (g r.2.1 r.2.2).1 (g r.2.1 r.2.2).2.2) :
    Satisfies Q T S (andThen r f g).1 (andThen r f g).2.2 := by
  rcases r with ⟨o, t, s⟩
  cases o with
  | returned a => exact hf a rfl hr
  | thrown => exact hg rfl hr
  | stopped => exact hr

/-- The rule of sequence. -/
theorem Triple.bind {x : Async Ω σ α} {f : α → Async Ω σ β} {Q : β → σ → Prop}
    (hx : Triple ω R P x Q' T S) (hf : ∀ a, Triple ω R (Q' a) (f a) Q T S) :
    Triple ω R P (x >>= f) Q T S := by
  intro t s hs hR
  -- the moments of the whole program are those of `x` and then those of what goes on with its result
  change ∀ i, t ≤ i → i < (andThen (x.run ω t s) (fun a => (f a).run ω) _).2.1 → R i at hR
  have hle := x.le_run ω t s
  have hend : (x.run ω t s).2.1 ≤ (andThen (x.run ω t s) (fun a => (f a).run ω)
      fun t s => (.thrown, t, s)).2.1 :=
    le_andThen (Nat.le_refl _) (fun a => (f a).le_run ω) fun t _ => Nat.le_refl t
  have hpost := hx t s hs fun i hi hlt => hR i hi (Nat.lt_of_lt_of_le hlt hend)
  refine satisfies_andThen hpost (fun a ha hQ => ?_) (fun _ hT => hT)
  refine hf a _ _ hQ fun i hi hlt => hR i (Nat.le_trans hle hi) ?_
  rcases hrun : x.run ω t s with ⟨o, t', s'⟩
  rw [hrun] at ha hlt
  subst ha
  exact hlt

/-- The rule of a handler. -/
theorem Triple.tryCatch {x handler : Async Ω σ α} (hx : Triple ω R P x Q T' S)
    (hh : Triple ω R T' handler Q T S) : Triple ω R P (x.tryCatch handler) Q T S := by
  intro t s hs hR
  change ∀ i, t ≤ i → i < (andThen (x.run ω t s) _ (handler.run ω)).2.1 → R i at hR
  have hle := x.le_run ω t s
  have hend : (x.run ω t s).2.1 ≤ (andThen (x.run ω t s) (fun a t s => (.returned a, t, s))
      (handler.run ω)).2.1 :=
    le_andThen (Nat.le_refl _) (fun _ t _ => Nat.le_refl t) (handler.le_run ω)
  have hpost := hx t s hs fun i hi hlt => hR i hi (Nat.lt_of_lt_of_le hlt hend)
  refine satisfies_andThen hpost (fun a _ hQ => hQ) (fun ht hT => ?_)
  refine hh _ _ hT fun i hi hlt => hR i (Nat.le_trans hle hi) ?_
  rcases hrun : x.run ω t s with ⟨o, t', s'⟩
  rw [hrun] at ht hlt
  subst ht
  exact hlt

/-- The states in which a call can end: others have changed the state, and the call may have had its
effect. -/
def CallEnds (interfere : Ω → σ → σ) (f : Ω → σ → Option (α × σ)) (m : Ω) (s s' : σ) : Prop :=
  s' = interfere m s ∨ ∃ a, f m (interfere m s) = some (a, s')

/-- What a call leaves, with its effect or without. -/
theorem callEnds_effectOn (interfere : Ω → σ → σ) (f : Ω → σ → Option (α × σ)) (m : Ω) (s : σ)
    (effect : Bool) : CallEnds interfere f m s (effectOn f m (interfere m s) effect) := by
  unfold effectOn
  cases effect with
  | false => exact Or.inl rfl
  -- a call that is refused has no effect
  | true =>
    cases hf : f m (interfere m s) with
    | none => exact Or.inl rfl
    | some r => exact Or.inr ⟨r.1, hf⟩

/-- How the run of a call ends. -/
theorem call_run (fate : Ω → Fate) (interfere : Ω → σ → σ) (f : Ω → σ → Option (α × σ)) (t : Nat)
    (s : σ) : (∃ a s', f (ω t) (interfere (ω t) s) = some (a, s') ∧
        (Async.call fate interfere f).run ω t s = (.returned a, t + 1, s')) ∨
      ∃ o s', (∀ a, o ≠ .returned a) ∧ CallEnds interfere f (ω t) s s' ∧
        (Async.call fate interfere f).run ω t s = (o, t + 1, s') := by
  unfold Async.call settle
  simp only
  cases fate (ω t) with
  | answered =>
    cases hf : f (ω t) (interfere (ω t) s) with
    | some r => exact Or.inl ⟨r.1, r.2, rfl, rfl⟩
    | none => exact Or.inr ⟨.thrown, _, nofun, Or.inl rfl, rfl⟩
  | failed effect =>
    exact Or.inr ⟨.thrown, _, nofun, callEnds_effectOn interfere f (ω t) s effect, rfl⟩
  | stopped effect =>
    exact Or.inr ⟨.stopped, _, nofun, callEnds_effectOn interfere f (ω t) s effect, rfl⟩

/-- A program goes on with the answer of a call, or it ends there. -/
theorem call_bind_run (fate : Ω → Fate) (interfere : Ω → σ → σ) (f : Ω → σ → Option (α × σ))
    (g : α → Async Ω σ β) (t : Nat) (s : σ) :
    (∃ a s', f (ω t) (interfere (ω t) s) = some (a, s') ∧
        (Async.call fate interfere f >>= g).run ω t s = (g a).run ω (t + 1) s') ∨
      ∃ o s', CallEnds interfere f (ω t) s s' ∧
        (Async.call fate interfere f >>= g).run ω t s = (o, t + 1, s') := by
  have hbind : (Async.call fate interfere f >>= g).run ω t s =
      andThen ((Async.call fate interfere f).run ω t s) (fun a => (g a).run ω)
        fun t s => (.thrown, t, s) := rfl
  rw [hbind]
  rcases call_run fate interfere f t s with ⟨a, s', hf, hrun⟩ | ⟨o, s', ho, hends, hrun⟩
  · rw [hrun]
    exact Or.inl ⟨a, s', hf, rfl⟩
  · rw [hrun]
    cases o with
    | returned a => exact absurd rfl (ho a)
    | thrown => exact Or.inr ⟨_, s', hends, rfl⟩
    | stopped => exact Or.inr ⟨_, s', hends, rfl⟩

/-- The rule of a call: what holds if it is answered, fails, or stops the process. -/
theorem Triple.call {fate : Ω → Fate} {interfere : Ω → σ → σ} {f : Ω → σ → Option (α × σ)}
    (hQ : ∀ i s a s', P s → R i → f (ω i) (interfere (ω i) s) = some (a, s') → Q a s')
    (hT : ∀ i s s', P s → R i → CallEnds interfere f (ω i) s s' →
      (∃ effect, fate (ω i) = .failed effect) ∨ f (ω i) (interfere (ω i) s) = none → T s')
    (hS : ∀ i s s', P s → R i → CallEnds interfere f (ω i) s s' → S s') :
    Triple ω R P (Async.call fate interfere f) Q T S := by
  intro t s hs hR
  have ht : R t := hR t (Nat.le_refl t) (Nat.lt_succ_self t)
  change Satisfies Q T S (settle f (ω t) (interfere (ω t) s) (fate (ω t))).1
    (settle f (ω t) (interfere (ω t) s) (fate (ω t))).2
  cases hfate : fate (ω t) with
  | answered =>
    unfold settle
    cases hf : f (ω t) (interfere (ω t) s) with
    | some r => exact hQ t s r.1 r.2 hs ht hf
    | none => exact hT t s _ hs ht (Or.inl rfl) (Or.inr hf)
  | failed effect =>
    exact hT t s _ hs ht (callEnds_effectOn interfere f (ω t) s effect) (Or.inl ⟨effect, hfate⟩)
  | stopped effect => exact hS t s _ hs ht (callEnds_effectOn interfere f (ω t) s effect)

/-- A loop keeps what each round keeps. -/
theorem Triple.forM {l : List β} {f : β → Async Ω σ PUnit} {I : List β → σ → Prop}
    (hstep : ∀ x rest, Triple ω R (I (x :: rest)) (f x) (fun _ => I rest) T S) :
    Triple ω R (I l) (l.forM f) (fun _ => I []) T S := by
  induction l with
  | nil => exact Triple.pure fun s hs => hs
  | cons x rest ih => exact (hstep x rest).bind fun _ => ih

/-- A loop with an accumulator. -/
theorem Triple.foldlM {l : List β} {f : α → β → Async Ω σ α} {I : List β → α → σ → Prop} {init : α}
    (hstep : ∀ a x rest, Triple ω R (I (x :: rest) a) (f a x) (I rest) T S) :
    Triple ω R (I l init) (l.foldlM f init) (I []) T S := by
  induction l generalizing init with
  | nil => exact Triple.pure fun s hs => hs
  | cons x rest ih =>
    rw [List.foldlM_cons]
    exact (hstep init x rest).bind fun a => ih

end Rules

theorem foldlM_congr {l : List β} {f g : α → β → Async Ω σ α} (h : ∀ a, ∀ x ∈ l, f a x = g a x)
    (init : α) : l.foldlM f init = l.foldlM g init := by
  induction l generalizing init with
  | nil => rfl
  | cons x rest ih =>
    rw [List.foldlM_cons, List.foldlM_cons, h init x (List.mem_cons_self ..)]
    exact congrArg _ (funext fun a => ih (fun a y hy => h a y (List.mem_cons_of_mem x hy)) a)

/-! ## The number of calls -/

/-- Whatever the outside does, the program makes at most `n` calls. -/
def AtMost (n : Nat) (x : Async Ω σ α) : Prop := ∀ ω t s, (x.run ω t s).2.1 ≤ t + n

section AtMost

variable {m n : Nat}

theorem andThen_le {r : Outcome α × Nat × σ} {f : α → Nat → σ → Outcome β × Nat × σ}
    {g : Nat → σ → Outcome β × Nat × σ} {k : Nat} (hr : r.2.1 ≤ k)
    (hf : ∀ a t s, (f a t s).2.1 ≤ t + n) (hg : ∀ t s, (g t s).2.1 ≤ t + n) :
    (andThen r f g).2.1 ≤ k + n := by
  rcases r with ⟨o, t', s⟩
  cases o with
  | returned a => exact Nat.le_trans (hf a t' s) (Nat.add_le_add_right hr n)
  | thrown => exact Nat.le_trans (hg t' s) (Nat.add_le_add_right hr n)
  | stopped => exact Nat.le_trans hr (Nat.le_add_right k n)

theorem AtMost.mono {x : Async Ω σ α} (h : AtMost m x) (hle : m ≤ n) : AtMost n x :=
  fun ω t s => Nat.le_trans (h ω t s) (Nat.add_le_add_left hle t)

theorem AtMost.pure (a : α) : AtMost 0 (Pure.pure a : Async Ω σ α) := fun _ t _ => Nat.le_refl t

theorem AtMost.throw : AtMost 0 (Async.throw : Async Ω σ α) := fun _ t _ => Nat.le_refl t

theorem AtMost.call (fate : Ω → Fate) (interfere : Ω → σ → σ) (f : Ω → σ → Option (α × σ)) :
    AtMost 1 (Async.call fate interfere f) := fun _ t _ => Nat.le_refl (t + 1)

theorem AtMost.bind {x : Async Ω σ α} {f : α → Async Ω σ β} (hx : AtMost m x)
    (hf : ∀ a, AtMost n (f a)) : AtMost (m + n) (x >>= f) := by
  intro ω t s
  rw [← Nat.add_assoc]
  exact andThen_le (hx ω t s) (fun a => hf a ω) fun t _ => Nat.le_add_right t n

theorem AtMost.tryCatch {x handler : Async Ω σ α} (hx : AtMost m x) (hh : AtMost n handler) :
    AtMost (m + n) (x.tryCatch handler) := by
  intro ω t s
  rw [← Nat.add_assoc]
  exact andThen_le (hx ω t s) (fun _ t _ => Nat.le_add_right t n) (hh ω)

/-- A loop makes the calls of its rounds. -/
theorem AtMost.foldlM {l : List β} {f : α → β → Async Ω σ α} {cost : β → Nat} {init : α}
    (h : ∀ a, ∀ x ∈ l, AtMost (cost x) (f a x)) : AtMost (l.map cost).sum (l.foldlM f init) := by
  induction l generalizing init with
  | nil => exact AtMost.pure init
  | cons x rest ih =>
    rw [List.foldlM_cons, List.map_cons, List.sum_cons]
    exact (h init x (List.mem_cons_self ..)).bind fun a =>
      ih fun a' y hy => h a' y (List.mem_cons_of_mem x hy)

end AtMost

end Async

end StrategyBuilder.Lib
