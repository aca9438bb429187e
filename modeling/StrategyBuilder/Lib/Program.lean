import StrategyBuilder.Lib.Transition
import Mathlib.Data.List.Basic

/-!
# Programs that await calls

A program has ended, or awaits a call and goes on with whatever the call is answered. `Program.run`
answers the calls of one program in order. In a `Host` many programs run side by side on a shared
state: a program goes on when the call it awaits is answered, and up to its next await nothing else
happens; the shared state may change from outside as well.

`Program.Always` is the program logic: it says what the calls of a program and its end keep to, given
what was answered before them. Its rules follow the program (`Always.bind`, `Always.tryCatch`,
`Always.call`). What it says of a program holds of its runs (`Always.run`) and of its part in every run
of a host, together with any invariant of the shared state that each answer keeps (`Host.run_inv`).
-/

set_option autoImplicit false

namespace StrategyBuilder.Lib

/-- A program that awaits calls, each with an answer or an exception. -/
inductive Program (Call : Type) (Reply : Call → Type) (ε α : Type) where
  | done (result : Except ε α)
  | await (call : Call) (next : Except ε (Reply call) → Program Call Reply ε α)

/-- A call that has been answered. -/
structure Answered (Call : Type) (Reply : Call → Type) (ε : Type) where
  call : Call
  reply : Except ε (Reply call)

namespace Program

variable {Call : Type} {Reply : Call → Type} {ε α β : Type}

/-- Await one call. -/
def call (c : Call) : Program Call Reply ε (Reply c) := .await c .done

/-- Go on from the end of a program. -/
def andThen (p : Program Call Reply ε α) (f : Except ε α → Program Call Reply ε β) :
    Program Call Reply ε β :=
  match p with
  | .done r => f r
  | .await c k => .await c fun r => (k r).andThen f

instance : Monad (Program Call Reply ε) where
  pure a := .done (.ok a)
  bind p f := p.andThen fun
    | .ok a => f a
    | .error e => .done (.error e)

instance : MonadExcept ε (Program Call Reply ε) where
  throw e := .done (.error e)
  tryCatch p handler := p.andThen fun
    | .ok a => .done (.ok a)
    | .error e => handler e

theorem pure_bind (a : α) (f : α → Program Call Reply ε β) :
    ((pure a : Program Call Reply ε α) >>= f) = f a := rfl

theorem done_ok_bind (a : α) (f : α → Program Call Reply ε β) :
    ((Program.done (.ok a) : Program Call Reply ε α) >>= f) = f a := rfl

/-! ## Runs of one program -/

/-- The run of a program whose calls are answered by `ω`, the first of them at the moment `n`. -/
def run (ω : Nat → (c : Call) → Except ε (Reply c)) :
    Nat → Program Call Reply ε α → List (Answered Call Reply ε) × Except ε α
  | _, .done r => ([], r)
  | n, .await c k =>
      let rest := run ω (n + 1) (k (ω n c))
      (⟨c, ω n c⟩ :: rest.1, rest.2)

@[simp] theorem run_done (ω : Nat → (c : Call) → Except ε (Reply c)) (n : Nat) (r : Except ε α) :
    (Program.done r : Program Call Reply ε α).run ω n = ([], r) := rfl

@[simp] theorem run_call (ω : Nat → (c : Call) → Except ε (Reply c)) (n : Nat) (c : Call) :
    (Program.call c : Program Call Reply ε (Reply c)).run ω n = ([⟨c, ω n c⟩], ω n c) := rfl

/-- Whatever a run has been answered comes from `ω`. -/
theorem run_answered {ω : Nat → (c : Call) → Except ε (Reply c)} {n : Nat}
    {p : Program Call Reply ε α} {a : Answered Call Reply ε} (h : a ∈ (p.run ω n).1) :
    ∃ k, a.reply = ω k a.call := by
  induction p generalizing n with
  | done r => cases h
  | await c k ih =>
    rcases List.mem_cons.1 h with rfl | h
    · exact ⟨n, rfl⟩
    · exact ih (ω n c) h

/-- The run of a program and what follows its result. -/
theorem run_andThen (ω : Nat → (c : Call) → Except ε (Reply c)) (n : Nat)
    (p : Program Call Reply ε α) (f : Except ε α → Program Call Reply ε β) :
    (p.andThen f).run ω n =
      ((p.run ω n).1 ++ ((f (p.run ω n).2).run ω (n + (p.run ω n).1.length)).1,
        ((f (p.run ω n).2).run ω (n + (p.run ω n).1.length)).2) := by
  induction p generalizing n with
  | done r => rfl
  | await c k ih =>
    simp only [andThen, run, ih, List.cons_append, List.length_cons]
    rw [Nat.add_assoc, Nat.add_comm 1]

/-- The run of a sequence whose first part succeeds. -/
theorem run_bind_ok (ω : Nat → (c : Call) → Except ε (Reply c)) (n : Nat)
    (p : Program Call Reply ε α) (f : α → Program Call Reply ε β) {a : α}
    (h : (p.run ω n).2 = .ok a) :
    (p >>= f).run ω n =
      ((p.run ω n).1 ++ ((f a).run ω (n + (p.run ω n).1.length)).1,
        ((f a).run ω (n + (p.run ω n).1.length)).2) := by
  refine (run_andThen ω n p _).trans ?_
  rw [h]

/-- The run of a sequence whose first part throws. -/
theorem run_bind_error (ω : Nat → (c : Call) → Except ε (Reply c)) (n : Nat)
    (p : Program Call Reply ε α) (f : α → Program Call Reply ε β) {e : ε}
    (h : (p.run ω n).2 = .error e) : (p >>= f).run ω n = ((p.run ω n).1, .error e) := by
  refine (run_andThen ω n p _).trans ?_
  rw [h]
  simp

/-- What throws in the end does not return. -/
theorem run_bind_throws {ω : Nat → (c : Call) → Except ε (Reply c)} {n : Nat}
    {p : Program Call Reply ε α} {f : α → Program Call Reply ε β}
    (hf : ∀ a n, ∃ e, ((f a).run ω n).2 = .error e) : ∃ e, ((p >>= f).run ω n).2 = .error e := by
  cases h : (p.run ω n).2 with
  | ok a =>
    rw [run_bind_ok ω n p f h]
    exact hf a _
  | error e =>
    rw [run_bind_error ω n p f h]
    exact ⟨e, rfl⟩

/-- The run of a call that is answered, and of what follows. -/
theorem run_call_bind_ok {ω : Nat → (c : Call) → Except ε (Reply c)} {n : Nat} {c : Call}
    {a : Reply c} (h : ω n c = .ok a) (f : Reply c → Program Call Reply ε β) :
    (Program.call c >>= f).run ω n =
      (⟨c, .ok a⟩ :: ((f a).run ω (n + 1)).1, ((f a).run ω (n + 1)).2) := by
  rw [run_bind_ok ω n (Program.call c) f h, run_call, h]
  rfl

theorem run_call_bind_error {ω : Nat → (c : Call) → Except ε (Reply c)} {n : Nat} {c : Call}
    {e : ε} (h : ω n c = .error e) (f : Reply c → Program Call Reply ε β) :
    (Program.call c >>= f).run ω n = ([⟨c, .error e⟩], .error e) := by
  rw [run_bind_error ω n (Program.call c) f h, run_call, h]

/-- The run of a handler that is not needed. -/
theorem run_tryCatch_ok (ω : Nat → (c : Call) → Except ε (Reply c)) (n : Nat)
    (p : Program Call Reply ε α) (handler : ε → Program Call Reply ε α) {a : α}
    (h : (p.run ω n).2 = .ok a) : (tryCatch p handler).run ω n = ((p.run ω n).1, .ok a) := by
  refine (run_andThen ω n p _).trans ?_
  rw [h]
  simp

/-- The run of a handler that is. -/
theorem run_tryCatch_error (ω : Nat → (c : Call) → Except ε (Reply c)) (n : Nat)
    (p : Program Call Reply ε α) (handler : ε → Program Call Reply ε α) {e : ε}
    (h : (p.run ω n).2 = .error e) :
    (tryCatch p handler).run ω n =
      ((p.run ω n).1 ++ ((handler e).run ω (n + (p.run ω n).1.length)).1,
        ((handler e).run ω (n + (p.run ω n).1.length)).2) := by
  refine (run_andThen ω n p _).trans ?_
  rw [h]

/-! ## What a program always keeps to -/

section Always

variable {P : List (Answered Call Reply ε) → Call → Prop}
variable {Q S : List (Answered Call Reply ε) → Except ε α → Prop}
variable {R : List (Answered Call Reply ε) → Except ε β → Prop}

/-- Whatever is answered, each call meets `P` of the answers before it, and the end meets `Q`. -/
def Always (P : List (Answered Call Reply ε) → Call → Prop)
    (Q : List (Answered Call Reply ε) → Except ε α → Prop) :
    List (Answered Call Reply ε) → Program Call Reply ε α → Prop
  | h, .done r => Q h r
  | h, .await c k => P h c ∧ ∀ r, Always P Q (h ++ [⟨c, r⟩]) (k r)

theorem Always.done {h : List (Answered Call Reply ε)} {r : Except ε α} (hr : Q h r) :
    Always P Q h (.done r) := hr

theorem Always.pure {h : List (Answered Call Reply ε)} {a : α} (ha : Q h (.ok a)) :
    Always P Q h (Pure.pure a) := ha

theorem Always.throw {h : List (Answered Call Reply ε)} {e : ε} (he : Q h (.error e)) :
    Always P Q h (MonadExcept.throw e) := he

theorem Always.call {c : Call} {Q : List (Answered Call Reply ε) → Except ε (Reply c) → Prop}
    {h : List (Answered Call Reply ε)} (hc : P h c) (hr : ∀ r, Q (h ++ [⟨c, r⟩]) r) :
    Always P Q h (Program.call c) := ⟨hc, hr⟩

/-- The rule of what follows a result. -/
theorem Always.andThen {p : Program Call Reply ε α} {f : Except ε α → Program Call Reply ε β}
    {h : List (Answered Call Reply ε)} (hp : Always P Q h p)
    (hf : ∀ h' r, Q h' r → Always P R h' (f r)) : Always P R h (p.andThen f) := by
  induction p generalizing h with
  | done r => exact hf h r hp
  | await c k ih => exact ⟨hp.1, fun r => ih r (hp.2 r)⟩

/-- The rule of sequence. -/
theorem Always.bind {p : Program Call Reply ε α} {f : α → Program Call Reply ε β}
    {h : List (Answered Call Reply ε)} (hp : Always P Q h p)
    (hok : ∀ h' a, Q h' (.ok a) → Always P R h' (f a))
    (herror : ∀ h' e, Q h' (.error e) → R h' (.error e)) : Always P R h (p >>= f) := by
  apply hp.andThen
  intro h' r hr
  cases r with
  | ok a => exact hok h' a hr
  | error e => exact herror h' e hr

/-- What needs no await has one end. -/
theorem Always.done_bind {r : Except ε α} {f : α → Program Call Reply ε β}
    {h : List (Answered Call Reply ε)} (hok : ∀ a, r = .ok a → Always P R h (f a))
    (herror : ∀ e, r = .error e → R h (.error e)) : Always P R h (Program.done r >>= f) := by
  cases r with
  | ok a => exact hok a rfl
  | error e => exact herror e rfl

/-- The rule of a call. -/
theorem Always.call_bind {c : Call} {f : Reply c → Program Call Reply ε β}
    {h : List (Answered Call Reply ε)} (hc : P h c)
    (hok : ∀ a, Always P R (h ++ [⟨c, .ok a⟩]) (f a))
    (herror : ∀ e, R (h ++ [⟨c, .error e⟩]) (.error e)) :
    Always P R h (Program.call c >>= f) := by
  refine ⟨hc, ?_⟩
  intro r
  cases r with
  | ok a => exact hok a
  | error e => exact herror e

/-- The rule of a handler. -/
theorem Always.tryCatch {p : Program Call Reply ε α} {handler : ε → Program Call Reply ε α}
    {h : List (Answered Call Reply ε)} (hp : Always P S h p)
    (hok : ∀ h' a, S h' (.ok a) → Q h' (.ok a))
    (herror : ∀ h' e, S h' (.error e) → Always P Q h' (handler e)) :
    Always P Q h (MonadExcept.tryCatch p handler) := by
  apply hp.andThen
  intro h' r hr
  cases r with
  | ok a => exact hok h' a hr
  | error e => exact herror h' e hr

theorem Always.imp {p : Program Call Reply ε α} {h : List (Answered Call Reply ε)}
    (hp : Always P S h p) (hQ : ∀ h' r, S h' r → Q h' r) : Always P Q h p := by
  induction p generalizing h with
  | done r => exact hQ h r hp
  | await c k ih => exact ⟨hp.1, fun r => ih r (hp.2 r)⟩

/-- What is known of the calls may be forgotten. -/
theorem Always.weaken {P' : List (Answered Call Reply ε) → Call → Prop} {p : Program Call Reply ε α}
    {h : List (Answered Call Reply ε)} (hp : Always P Q h p) (hP : ∀ h' c, P h' c → P' h' c) :
    Always P' Q h p := by
  induction p generalizing h with
  | done r => exact hp
  | await c k ih => exact ⟨hP h c hp.1, fun r => ih r (hp.2 r)⟩

/-- What a program always keeps to holds of each of its runs. -/
theorem Always.run {p : Program Call Reply ε α} {h : List (Answered Call Reply ε)}
    (hp : Always P Q h p) (ω : Nat → (c : Call) → Except ε (Reply c)) (n : Nat) :
    Q (h ++ (p.run ω n).1) (p.run ω n).2 := by
  induction p generalizing h n with
  | done r =>
    rw [Program.run, List.append_nil]
    exact hp
  | await c k ih =>
    have key := ih (ω n c) (hp.2 (ω n c)) (n + 1)
    rw [List.append_assoc] at key
    exact key

/-- Each call of a run was made under its condition. -/
theorem Always.run_calls {p : Program Call Reply ε α} {h : List (Answered Call Reply ε)}
    (hp : Always P Q h p) (ω : Nat → (c : Call) → Except ε (Reply c)) (n : Nat)
    {before after : List (Answered Call Reply ε)} {a : Answered Call Reply ε}
    (hrun : (p.run ω n).1 = before ++ a :: after) : P (h ++ before) a.call := by
  induction p generalizing h n before with
  | done r => simp at hrun
  | await c k ih =>
    cases before with
    | nil =>
      obtain ⟨rfl, -⟩ := List.cons.inj hrun
      rw [List.append_nil]
      exact hp.1
    | cons b before =>
      obtain ⟨rfl, htail⟩ := List.cons.inj hrun
      have key := ih (ω n c) (hp.2 (ω n c)) (n + 1) htail
      rw [List.append_assoc] at key
      exact key

end Always

end Program

/-! ## Programs side by side -/

/-- Where the programs of the jobs `β` run: on a shared state `σ`, with inputs `ι` from outside. -/
structure Host (Call : Type) (Reply : Call → Type) (ε α β σ ι κ : Type) where
  program : β → Program Call Reply ε α
  /-- The calls that no await stands for: the program goes on at once. -/
  immediate : Call → Bool
  /-- The answer to a call and the state after it. Without an answer the call is still awaited. -/
  answer : ι → (c : Call) → σ → Option (Except ε (Reply c) × σ)
  /-- A change of the shared state from outside. -/
  outside : κ → σ → σ

/-- A program in progress. -/
structure Process (Call : Type) (Reply : Call → Type) (ε α β : Type) where
  job : β
  history : List (Answered Call Reply ε)
  rest : Program Call Reply ε α

/-- The shared state and the programs in progress. -/
structure Processes (Call : Type) (Reply : Call → Type) (ε α β σ : Type) where
  shared : σ
  list : List (Process Call Reply ε α β)

/-- What happens beside the processes, a new process, or a process that goes on. -/
inductive HostStep (β ι κ : Type) where
  | outside (k : κ)
  | start (job : β) (x : ι)
  | resume (i : Nat) (x : ι)

namespace Host

variable {Call : Type} {Reply : Call → Type} {ε α β σ ι κ : Type}
variable (H : Host Call Reply ε α β σ ι κ)

/-- Go on through the calls that are immediate. -/
def settle (x : ι) (job : β) :
    σ → List (Answered Call Reply ε) → Program Call Reply ε α → σ × Process Call Reply ε α β
  | s, h, .done r => (s, ⟨job, h, .done r⟩)
  | s, h, .await c k =>
      if H.immediate c then
        match H.answer x c s with
        | none => (s, ⟨job, h, .await c k⟩)
        | some (r, s') => settle x job s' (h ++ [⟨c, r⟩]) (k r)
      else (s, ⟨job, h, .await c k⟩)

/-- The call that a program awaits is answered, if it can be. -/
def resume (x : ι) (s : σ) (p : Process Call Reply ε α β) : σ × Process Call Reply ε α β :=
  match p.rest with
  | .done _ => (s, p)
  | .await c k =>
      match H.answer x c s with
      | none => (s, p)
      | some (r, s') => H.settle x p.job s' (p.history ++ [⟨c, r⟩]) (k r)

/-- One step of the host. -/
def step (w : Processes Call Reply ε α β σ) : HostStep β ι κ → Processes Call Reply ε α β σ
  | .outside k => { w with shared := H.outside k w.shared }
  | .start job x =>
      let (s, p) := H.settle x job w.shared [] (H.program job)
      ⟨s, w.list ++ [p]⟩
  | .resume i x =>
      match w.list[i]? with
      | none => w
      | some p =>
          let (s, p) := H.resume x w.shared p
          ⟨s, w.list.set i p⟩

/-! ## Invariants -/

/-- A job with its answers so far. -/
abbrev Track (Call : Type) (Reply : Call → Type) (ε β : Type) :=
  β × List (Answered Call Reply ε)

/-- The jobs with their answers so far. -/
def tracks (w : Processes Call Reply ε α β σ) : List (Track Call Reply ε β) :=
  w.list.map fun p => (p.job, p.history)

theorem mem_tracks {w : Processes Call Reply ε α β σ} {p : Process Call Reply ε α β}
    (hp : p ∈ w.list) : (p.job, p.history) ∈ tracks w := List.mem_map.2 ⟨p, hp, rfl⟩

theorem getElem?_tracks {w : Processes Call Reply ε α β σ} {i : Nat} (hi : i < w.list.length) :
    (tracks w)[i]? = some (w.list[i].job, w.list[i].history) := by
  rw [tracks, List.getElem?_map, List.getElem?_eq_getElem hi]
  rfl

end Host

section Invariants

variable {Call : Type} {Reply : Call → Type} {ε α β σ ι κ : Type}
variable {H : Host Call Reply ε α β σ ι κ}
variable {P : β → List (Answered Call Reply ε) → Call → Prop}
variable {Q : β → List (Answered Call Reply ε) → Except ε α → Prop}

/-- The calls so far have met `P`, and those to come will. -/
structure Process.Keeps (P : β → List (Answered Call Reply ε) → Call → Prop)
    (Q : β → List (Answered Call Reply ε) → Except ε α → Prop)
    (p : Process Call Reply ε α β) : Prop where
  past : ∀ before a after, p.history = before ++ a :: after → P p.job before a.call
  rest : p.rest.Always (P p.job) (Q p.job) p.history

/-- The program has made this call, whether or not it has been answered. -/
def Process.Calls (p : Process Call Reply ε α β) (c : Call) : Prop :=
  (∃ r, ⟨c, r⟩ ∈ p.history) ∨ ∃ next, p.rest = .await c next

/-- A call of a process was made under its condition. -/
theorem Process.Keeps.calls {p : Process Call Reply ε α β} (hp : p.Keeps P Q) {c : Call}
    (hc : p.Calls c) : ∃ before, before <+: p.history ∧ P p.job before c := by
  rcases hc with ⟨r, hr⟩ | ⟨next, hnext⟩
  · obtain ⟨before, after, heq⟩ := List.append_of_mem hr
    exact ⟨before, ⟨_, heq.symm⟩, hp.past before _ after heq⟩
  · refine ⟨p.history, List.prefix_refl _, ?_⟩
    have hrest := hp.rest
    rw [hnext] at hrest
    exact hrest.1

theorem past_concat {P : List (Answered Call Reply ε) → Call → Prop}
    {h : List (Answered Call Reply ε)} {a : Answered Call Reply ε}
    (hpast : ∀ before b after, h = before ++ b :: after → P before b.call) (ha : P h a.call) :
    ∀ before b after, h ++ [a] = before ++ b :: after → P before b.call := by
  intro before b after heq
  rcases List.eq_nil_or_concat after with rfl | ⟨after, c, rfl⟩
  · obtain ⟨rfl, hab⟩ := List.append_inj' heq rfl
    cases hab
    exact ha
  · rw [List.concat_eq_append, ← List.cons_append, ← List.append_assoc] at heq
    obtain ⟨rfl, -⟩ := List.append_inj' heq rfl
    exact hpast before b after rfl

namespace Host

/-- An invariant that every single answer keeps is kept by a whole turn. -/
theorem settle_inv {J : σ → List (Answered Call Reply ε) → Prop} {x : ι} {job : β}
    (hJ : ∀ s h c r s', J s h → P job h c → H.answer x c s = some (r, s') →
      J s' (h ++ [⟨c, r⟩]))
    {p : Program Call Reply ε α} {s : σ} {h : List (Answered Call Reply ε)} (hs : J s h)
    (hpast : ∀ before a after, h = before ++ a :: after → P job before a.call)
    (hp : p.Always (P job) (Q job) h) :
    J (H.settle x job s h p).1 (H.settle x job s h p).2.history ∧
      (H.settle x job s h p).2.job = job ∧ (H.settle x job s h p).2.Keeps P Q := by
  induction p generalizing s h with
  | done r => exact ⟨hs, rfl, hpast, hp⟩
  | await c k ih =>
    rw [settle]
    split
    · split
      · exact ⟨hs, rfl, hpast, hp⟩
      · next r s' hanswer =>
        exact ih r (hJ s h c r s' hs hp.1 hanswer) (past_concat hpast hp.1) (hp.2 r)
    · exact ⟨hs, rfl, hpast, hp⟩

/-- A process that goes on keeps its invariant. -/
theorem resume_inv {J : σ → List (Answered Call Reply ε) → Prop} {x : ι}
    {p : Process Call Reply ε α β}
    (hJ : ∀ s h c r s', J s h → P p.job h c → H.answer x c s = some (r, s') →
      J s' (h ++ [⟨c, r⟩]))
    {s : σ} (hs : J s p.history) (hp : p.Keeps P Q) :
    J (H.resume x s p).1 (H.resume x s p).2.history ∧
      (H.resume x s p).2.job = p.job ∧ (H.resume x s p).2.Keeps P Q := by
  rcases p with ⟨job, h, rest⟩
  cases rest with
  | done r => exact ⟨hs, rfl, hp⟩
  | await c k =>
    cases hanswer : H.answer x c s with
    | none =>
      simp only [resume, hanswer]
      exact ⟨hs, trivial, hp⟩
    | some a =>
      rcases a with ⟨r, s'⟩
      simp only [resume, hanswer]
      have hkept := hp.rest
      exact settle_inv hJ (hJ s h c r s' hs hkept.1 hanswer) (past_concat hp.past hkept.1)
        (hkept.2 r)

/-- What a step keeps: the invariant, and of every program what it always keeps to. -/
structure Inv (H : Host Call Reply ε α β σ ι κ) (I : σ → List (Track Call Reply ε β) → Prop)
    (P : β → List (Answered Call Reply ε) → Call → Prop)
    (Q : β → List (Answered Call Reply ε) → Except ε α → Prop)
    (w : Processes Call Reply ε α β σ) : Prop where
  shared : I w.shared (tracks w)
  keeps : ∀ p ∈ w.list, p.Keeps P Q

/-- The obligations of an invariant: it may know that the programs keep to `P`. -/
structure Obligations (H : Host Call Reply ε α β σ ι κ)
    (I : σ → List (Track Call Reply ε β) → Prop)
    (P : β → List (Answered Call Reply ε) → Call → Prop)
    (Q : β → List (Answered Call Reply ε) → Except ε α → Prop) : Prop where
  program : ∀ job, (H.program job).Always (P job) (Q job) []
  outside : ∀ s rs k, I s rs → I (H.outside k s) rs
  start : ∀ s rs job, I s rs → I s (rs ++ [(job, [])])
  answer : ∀ s rs x i job h c r s', I s rs → rs[i]? = some (job, h) → P job h c →
    H.answer x c s = some (r, s') → I s' (rs.set i (job, h ++ [⟨c, r⟩]))

variable {I : σ → List (Track Call Reply ε β) → Prop}

/-- A step of the host keeps the invariant of all processes. -/
theorem step_inv (hI : Obligations H I P Q) {w : Processes Call Reply ε α β σ}
    (hw : Inv H I P Q w) (l : HostStep β ι κ) : Inv H I P Q (H.step w l) := by
  cases l with
  | outside k => exact ⟨hI.outside _ _ k hw.shared, hw.keeps⟩
  | start job x =>
    -- the invariant as the new process sees it: its own history grows, the others stay
    -- the same for the process at `i`, whose history is replaced
    let J : σ → List (Answered Call Reply ε) → Prop := fun s h => I s (tracks w ++ [(job, h)])
    have hJ : ∀ s h c r s', J s h → P job h c → H.answer x c s = some (r, s') →
        J s' (h ++ [⟨c, r⟩]) := by
      intro s h c r s' hs hc hr
      have key := hI.answer s _ x (tracks w).length job h c r s' hs (by simp) hc hr
      simpa [J] using key
    obtain ⟨hshared, hjob, hkeeps⟩ := settle_inv hJ
      (hI.start _ _ job hw.shared) (fun _ _ _ h => by simp at h) (hI.program job)
    refine ⟨?_, ?_⟩
    · simpa [J, step, tracks, hjob] using hshared
    · intro p hp
      rcases List.mem_append.1 hp with hp | hp
      · exact hw.keeps p hp
      · rw [List.mem_singleton.1 hp]
        exact hkeeps
  | resume i x =>
    cases hp : w.list[i]? with
    | none => simpa [step, hp] using hw
    | some p =>
      let J : σ → List (Answered Call Reply ε) → Prop :=
        fun s h => I s ((tracks w).set i (p.job, h))
      have hi : i < w.list.length := (List.getElem?_eq_some_iff.1 hp).1
      have hJ : ∀ s h c r s', J s h → P p.job h c → H.answer x c s = some (r, s') →
          J s' (h ++ [⟨c, r⟩]) := by
        intro s h c r s' hs hc hr
        have htrack : ((tracks w).set i (p.job, h))[i]? = some (p.job, h) := by
          simp [tracks, hi]
        have key := hI.answer s _ x i p.job h c r s' hs htrack hc hr
        simpa [J] using key
      have hself : (tracks w).set i (p.job, p.history) = tracks w := by
        have hget : (tracks w)[i]? = some (p.job, p.history) := by simp [tracks, hp]
        obtain ⟨hlt, hget⟩ := List.getElem?_eq_some_iff.1 hget
        rw [← hget, List.set_getElem_self]
      have hs : J w.shared p.history := by
        show I w.shared ((tracks w).set i (p.job, p.history))
        rw [hself]
        exact hw.shared
      obtain ⟨hshared, hjob, hkeeps⟩ :=
        resume_inv hJ hs (hw.keeps p (List.mem_of_getElem? hp))
      refine ⟨?_, ?_⟩
      · simpa [J, step, hp, tracks, List.map_set, hjob] using hshared
      · intro q hq
        simp only [step, hp] at hq
        rcases List.mem_or_eq_of_mem_set hq with hq | rfl
        · exact hw.keeps q hq
        · exact hkeeps

/-- One more answer is counted once. -/
theorem countP_answered {rs : List (Track Call Reply ε β)} {i : Nat} {job : β}
    {h : List (Answered Call Reply ε)} (hi : rs[i]? = some (job, h)) (a : Answered Call Reply ε)
    (q : Answered Call Reply ε → Bool) :
    ((rs.set i (job, h ++ [a])).flatMap Prod.snd).countP q =
      (rs.flatMap Prod.snd).countP q + if q a then 1 else 0 := by
  obtain ⟨hlt, hget⟩ := List.getElem?_eq_some_iff.1 hi
  have hsplit : rs = rs.take i ++ (job, h) :: rs.drop (i + 1) := by
    rw [← hget, List.getElem_cons_drop, List.take_append_drop]
  rw [List.set_eq_take_append_cons_drop, if_pos hlt]
  conv_rhs => rw [hsplit]
  simp only [List.flatMap_append, List.flatMap_cons, List.countP_append, List.countP_singleton]
  omega

/-- No answer is forgotten. -/
theorem mem_answered {rs : List (Track Call Reply ε β)} {i : Nat} {job : β}
    {h : List (Answered Call Reply ε)} (hi : rs[i]? = some (job, h)) (a : Answered Call Reply ε)
    {track : Track Call Reply ε β} (htrack : track ∈ rs) :
    ∃ track' ∈ rs.set i (job, h ++ [a]), track'.1 = track.1 ∧ track.2 ⊆ track'.2 := by
  obtain ⟨j, hj⟩ := List.mem_iff_getElem?.1 htrack
  by_cases heq : i = j
  · subst heq
    rw [hi, Option.some.injEq] at hj
    subst hj
    refine ⟨(job, h ++ [a]), ?_, rfl, List.subset_append_left ..⟩
    exact List.mem_set (List.getElem?_eq_some_iff.1 hi).1 _
  · refine ⟨track, List.mem_iff_getElem?.2 ⟨j, ?_⟩, rfl, List.Subset.refl _⟩
    rw [List.getElem?_set_ne heq, hj]

/-- An answer is one of before, or the new one. -/
theorem answered_cases {rs : List (Track Call Reply ε β)} {i : Nat} {job : β}
    {h : List (Answered Call Reply ε)} (hi : rs[i]? = some (job, h)) {a b : Answered Call Reply ε}
    {track : Track Call Reply ε β} (htrack : track ∈ rs.set i (job, h ++ [a])) (hb : b ∈ track.2) :
    (∃ track' ∈ rs, track'.1 = track.1 ∧ b ∈ track'.2) ∨ track.1 = job ∧ b = a := by
  rcases List.mem_or_eq_of_mem_set htrack with htrack | rfl
  · exact Or.inl ⟨track, htrack, rfl, hb⟩
  · rcases List.mem_append.1 hb with hb | hb
    · exact Or.inl ⟨_, List.mem_of_getElem? hi, rfl, hb⟩
    · exact Or.inr ⟨rfl, List.mem_singleton.1 hb⟩

/-- Programs that each have an answer of a kind are no more than there are such answers. -/
theorem countP_le_answers {w : Processes Call Reply ε α β σ} {q : Process Call Reply ε α β → Bool}
    {t : Answered Call Reply ε → Bool}
    (h : ∀ p ∈ w.list, q p = true → ∃ a ∈ p.history, t a = true) :
    w.list.countP q ≤ ((tracks w).flatMap Prod.snd).countP t := by
  rw [tracks]
  generalize w.list = ps at h
  induction ps with
  | nil => exact Nat.le_refl 0
  | cons p ps ih =>
    have hrest := ih fun p' hp' => h p' (List.mem_cons_of_mem _ hp')
    rw [List.map_cons, List.flatMap_cons, List.countP_append, List.countP_cons]
    split
    · next hq =>
      have hpos : 0 < p.history.countP t := by
        obtain ⟨a, ha, hta⟩ := h p List.mem_cons_self hq
        exact List.countP_pos_iff.2 ⟨a, ha, hta⟩
      dsimp only
      omega
    · omega

/-- The invariant holds in every state of every run that starts without programs. -/
theorem run_inv (hI : Obligations H I P Q) {s : σ} (hs : I s []) (ls : List (HostStep β ι κ)) :
    Inv H I P Q (Transition.run H.step ⟨s, []⟩ ls) := by
  apply Transition.run_invariant (I := Inv H I P Q) (fun w l hw _ => step_inv hI hw l) _
    (Transition.admitted_true H.step _ ls)
  exact ⟨hs, fun p hp => by cases hp⟩

end Host

end Invariants

end StrategyBuilder.Lib
