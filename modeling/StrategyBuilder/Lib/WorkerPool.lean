import Mathlib.Data.List.Perm.Basic
import Mathlib.Data.List.Range
import StrategyBuilder.Lib.Transition

/-!
# Worker pools

A number of workers go through one list of items: each takes the next item, runs a job for it, and takes
another when the job has ended. A job awaits answers and goes on with each of them (`Fn`); which worker
is answered next is open, so the jobs of different workers interleave in any order. A job may write to a
log that all of them share. A worker whose job throws stops.

The pool is compared with the jobs on their own (`Fn.runJob`). In every reachable state the items that
were begun are the first ones, each once, and the log is, up to its order, what their jobs write on their
own (`run_accounted`). When all workers have returned, every item is done (`Accounted.complete`).
-/

set_option autoImplicit false

namespace StrategyBuilder.Lib.WorkerPool

open StrategyBuilder.Lib

universe u v w x

variable {ι : Type u} {α : Type v} {ω : Type w} {J : Type x}

/-- Where a job is after an answer. -/
inductive Progress (J : Type x) where
  | more (job : J)
  | ended
  | threw
deriving DecidableEq, Repr

/-- The function that is run for each item, cut at its awaits: the job that waits for its first answer,
and what a job does with an answer. -/
structure Fn (ι : Type u) (α : Type v) (ω : Type w) (J : Type x) where
  start : ι → Nat → J
  resume : J → α → Progress J × List ω

/-- A job on its own, with the answers it gets and what it writes. -/
def Fn.runJob (fn : Fn ι α ω J) : J → List α → Progress J × List ω
  | job, [] => (.more job, [])
  | job, a :: as =>
      match fn.resume job a with
      | (.more next, out) => ((fn.runJob next as).1, out ++ (fn.runJob next as).2)
      | (p, out) => (p, out)

theorem Fn.runJob_singleton (fn : Fn ι α ω J) (job : J) (a : α) :
    fn.runJob job [a] = fn.resume job a := by
  simp only [runJob]
  rcases fn.resume job a with ⟨p, out⟩
  cases p with
  | more next => simp
  | ended => rfl
  | threw => rfl

/-- One more answer to a job that awaits it. -/
theorem Fn.runJob_concat (fn : Fn ι α ω J) {job next : J} {as : List α} {out : List ω} (a : α)
    (h : fn.runJob job as = (.more next, out)) :
    fn.runJob job (as ++ [a]) = ((fn.resume next a).1, out ++ (fn.resume next a).2) := by
  induction as generalizing job out with
  | nil =>
    cases h
    exact fn.runJob_singleton _ a
  | cons b bs ih =>
    simp only [List.cons_append, runJob] at h ⊢
    rcases hb : fn.resume job b with ⟨p, o⟩
    cases p with
    | more j =>
      simp only [hb] at h ⊢
      obtain ⟨h₁, h₂⟩ := Prod.mk.inj h
      have hj : fn.runJob j bs = (.more next, (fn.runJob j bs).2) := Prod.ext h₁ rfl
      rw [ih hj, ← h₂, List.append_assoc]
    | ended => simp [hb] at h
    | threw => simp [hb] at h

/-! ## The pool -/

/-- A worker is busy with the item at `index`, whose job has had the answers `heard`; or it has returned,
or its job has thrown. -/
inductive Worker (α : Type v) (J : Type x) where
  | busy (index : Nat) (heard : List α) (job : J)
  | returned
  | failed (index : Nat) (heard : List α)

/-- The next item to take, the workers, the items that are done with the answers of their jobs, and the
log. -/
structure Pool (α : Type v) (ω : Type w) (J : Type x) where
  next : Nat
  workers : List (Worker α J)
  done : List (Nat × List α)
  log : List ω

section

variable (fn : Fn ι α ω J) (items : List ι)

/-- What a worker does that takes the item at `next`. -/
def taken (next : Nat) : Worker α J :=
  match items[next]? with
  | some item => .busy next [] (fn.start item next)
  | none => .returned

/-- One more worker starts. -/
def spawn (p : Pool α ω J) : Pool α ω J :=
  { p with next := p.next + 1, workers := p.workers ++ [taken fn items p.next] }

/-- The pool after `count` workers have started. -/
def start : Nat → Pool α ω J
  | 0 => ⟨0, [], [], []⟩
  | count + 1 => spawn fn items (start count)

/-- The job of the worker `l.1` gets the answer `l.2`. A worker that is not busy awaits nothing. -/
def step (p : Pool α ω J) (l : Nat × α) : Pool α ω J :=
  match p.workers[l.1]? with
  | some (.busy index heard job) =>
      let heard := heard ++ [l.2]
      match fn.resume job l.2 with
      | (.more job, out) =>
          { p with workers := p.workers.set l.1 (.busy index heard job), log := p.log ++ out }
      | (.ended, out) =>
          { next := p.next + 1
            workers := p.workers.set l.1 (taken fn items p.next)
            done := p.done ++ [(index, heard)]
            log := p.log ++ out }
      | (.threw, out) =>
          { p with workers := p.workers.set l.1 (.failed index heard), log := p.log ++ out }
  | _ => p

end

/-- The worker has a job. -/
def Worker.isBusy : Worker α J → Bool
  | .busy .. => true
  | _ => false

/-- The worker has found no more jobs. -/
def Worker.isReturned : Worker α J → Bool
  | .returned => true
  | _ => false

/-- All workers have returned. -/
def Pool.resolved (p : Pool α ω J) : Bool := p.workers.all Worker.isReturned

/-- The number of items in work. -/
def Pool.inFlight (p : Pool α ω J) : Nat := p.workers.countP Worker.isBusy

/-- The item a worker has begun and not done, with the answers so far. -/
def Worker.attempt : Worker α J → Option (Nat × List α)
  | .busy index heard _ => some (index, heard)
  | .returned => none
  | .failed index heard => some (index, heard)

/-- All items that were begun. -/
def Pool.attempts (p : Pool α ω J) : List (Nat × List α) :=
  p.workers.filterMap Worker.attempt ++ p.done

/-! ## What the pool has done -/

section

variable (fn : Fn ι α ω J) (items : List ι)

/-- The item at `index` is at `progress` after the answers `heard`. -/
def At (index : Nat) (heard : List α) (progress : Progress J) : Prop :=
  ∃ item, items[index]? = some item ∧ (fn.runJob (fn.start item index) heard).1 = progress

/-- What the job of an item writes on its own. -/
def written (attempt : Nat × List α) : List ω :=
  match items[attempt.1]? with
  | some item => (fn.runJob (fn.start item attempt.1) attempt.2).2
  | none => []

/-- A worker is where its job is on its own. -/
def Worker.Sound : Worker α J → Prop
  | .busy index heard job => At fn items index heard (.more job)
  | .returned => True
  | .failed index heard => At fn items index heard .threw

/-- What holds of the pool at any time. A worker returns only when all items are taken. -/
structure Accounted (p : Pool α ω J) : Prop where
  begun : (p.attempts.map Prod.fst).Perm (List.range (min p.next items.length))
  log : p.log.Perm (p.attempts.flatMap (written fn items))
  workers : ∀ worker ∈ p.workers, worker.Sound fn items
  done : ∀ attempt ∈ p.done, At fn items attempt.1 attempt.2 .ended
  returned : .returned ∈ p.workers → items.length ≤ p.next

end

section

variable {fn : Fn ι α ω J} {items : List ι}

theorem written_at {index : Nat} {item : ι} (h : items[index]? = some item) (heard : List α) :
    written fn items (index, heard) = (fn.runJob (fn.start item index) heard).2 := by
  simp [written, h]

/-- An answer moves an item along and adds what the job writes at it. -/
theorem At.resume {index : Nat} {heard : List α} {job : J} (h : At fn items index heard (.more job))
    (a : α) :
    At fn items index (heard ++ [a]) (fn.resume job a).1 ∧
      written fn items (index, heard ++ [a]) =
        written fn items (index, heard) ++ (fn.resume job a).2 := by
  obtain ⟨item, hitem, hjob⟩ := h
  have hbefore : fn.runJob (fn.start item index) heard =
      (.more job, (fn.runJob (fn.start item index) heard).2) := Prod.ext hjob rfl
  have hafter := fn.runJob_concat a hbefore
  refine ⟨⟨item, hitem, ?_⟩, ?_⟩
  · rw [hafter]
  · rw [written_at hitem, written_at hitem, hafter]

theorem taken_sound (next : Nat) : (taken fn items next : Worker α J).Sound fn items := by
  unfold taken
  cases hitem : items[next]? with
  | none => trivial
  | some item => exact ⟨item, hitem, rfl⟩

/-- A worker that takes the item at `next` has begun it, with nothing written, or has returned. -/
theorem taken_attempt (fn : Fn ι α ω J) (items : List ι) (next : Nat) :
    (next < items.length ∧ (taken fn items next).attempt = some (next, []) ∧
        written fn items (next, ([] : List α)) = []) ∨
      (items.length ≤ next ∧ (taken fn items next).attempt = (none : Option (Nat × List α))) := by
  unfold taken
  cases hitem : items[next]? with
  | none => exact .inr ⟨List.getElem?_eq_none_iff.1 hitem, rfl⟩
  | some item =>
    refine .inl ⟨(List.getElem?_eq_some_iff.1 hitem).1, rfl, ?_⟩
    rw [written_at hitem]
    rfl

theorem range_min_succ {next n : Nat} (h : next < n) :
    (next :: List.range (min next n)).Perm (List.range (min (next + 1) n)) := by
  rw [Nat.min_eq_left h.le, Nat.min_eq_left h, List.range_succ]
  exact (List.perm_append_singleton next _).symm

/-- One worker in the list is replaced. -/
theorem filterMap_set {β : Type w} (f : Worker α J → Option β) {workers : List (Worker α J)} {k : Nat}
    {old : Worker α J} (h : workers[k]? = some old) (new : Worker α J) :
    ∃ rest, (workers.filterMap f).Perm ((f old).toList ++ rest) ∧
      ((workers.set k new).filterMap f).Perm ((f new).toList ++ rest) := by
  obtain ⟨hk, rfl⟩ := List.getElem?_eq_some_iff.1 h
  have hcons : ∀ (a : Worker α J) (l : List (Worker α J)),
      (a :: l).filterMap f = (f a).toList ++ l.filterMap f := by
    intro a l
    cases hfa : f a with
    | none => simp [hfa]
    | some b => simp [hfa]
  refine ⟨(workers.eraseIdx k).filterMap f, ?_, ?_⟩
  · rw [← hcons]
    exact (List.getElem_cons_eraseIdx_perm hk).symm.filterMap f
  · rw [← hcons]
    exact (List.set_perm_cons_eraseIdx hk new).filterMap f

/-- What the attempts of a pool are when one worker is replaced. -/
theorem attempts_set {p : Pool α ω J} {k : Nat} {old : Worker α J} (h : p.workers[k]? = some old)
    (new : Worker α J) :
    ∃ rest, p.attempts.Perm (old.attempt.toList ++ rest) ∧
      ((p.workers.set k new).filterMap Worker.attempt ++ p.done).Perm
        (new.attempt.toList ++ rest) := by
  obtain ⟨rest, hold, hnew⟩ := filterMap_set Worker.attempt h new
  refine ⟨rest ++ p.done, ?_, ?_⟩
  · rw [← List.append_assoc]
    exact hold.append_right p.done
  · rw [← List.append_assoc]
    exact hnew.append_right p.done

/-- One worker goes on, and the others stay. -/
theorem sound_set {workers : List (Worker α J)} {k : Nat} {new : Worker α J}
    (h : ∀ worker ∈ workers, worker.Sound fn items) (hnew : new.Sound fn items) :
    ∀ worker ∈ workers.set k new, worker.Sound fn items := by
  intro worker hworker
  rcases List.mem_or_eq_of_mem_set hworker with hw | rfl
  · exact h worker hw
  · exact hnew

/-- The worker `k` goes on with the item it has begun. -/
theorem Accounted.goOn {p : Pool α ω J} (h : Accounted fn items p) {k index : Nat} {heard : List α}
    {job : J} (hk : p.workers[k]? = some (.busy index heard job)) (a : α) {new : Worker α J}
    (hnew : new.Sound fn items) (hattempt : new.attempt = some (index, heard ++ [a]))
    (hreturned : new ≠ .returned) :
    Accounted fn items
      { p with workers := p.workers.set k new, log := p.log ++ (fn.resume job a).2 } := by
  have hat : At fn items index heard (.more job) := h.workers _ (List.mem_of_getElem? hk)
  obtain ⟨rest, hold, hset⟩ := attempts_set hk new
  rw [hattempt] at hset
  change p.attempts.Perm ((index, heard) :: rest) at hold
  change (Pool.attempts { p with workers := p.workers.set k new
                                 log := p.log ++ (fn.resume job a).2 }).Perm
    ((index, heard ++ [a]) :: rest) at hset
  constructor
  · exact (hset.map Prod.fst).trans ((hold.map Prod.fst).symm.trans h.begun)
  · -- the log grows by what the job writes at this answer
    refine List.Perm.trans ?_ (hset.flatMap_right _).symm
    refine ((h.log.trans (hold.flatMap_right _)).append_right _).trans ?_
    simp only [List.flatMap_cons, (hat.resume a).2, List.append_assoc]
    exact (List.perm_append_comm).append_left _
  · exact sound_set h.workers hnew
  · exact h.done
  · intro hmem
    rcases List.mem_or_eq_of_mem_set hmem with hw | hw
    · exact h.returned hw
    · exact absurd hw.symm hreturned

/-- A worker takes the item at `next`, or returns: the attempts without it are `rest`. -/
theorem begun_taken (fn : Fn ι α ω J) (items : List ι) {next : Nat} {rest : List (Nat × List α)}
    (h : (rest.map Prod.fst).Perm (List.range (min next items.length))) :
    (((taken fn items next : Worker α J).attempt.toList ++ rest).map Prod.fst).Perm
        (List.range (min (next + 1) items.length)) ∧
      ((taken fn items next : Worker α J).attempt.toList ++ rest).flatMap (written fn items) =
        rest.flatMap (written fn items) := by
  rcases taken_attempt fn items next with ⟨hlt, hsome, hw⟩ | ⟨hle, hnone⟩
  · rw [hsome]
    refine ⟨(h.cons next).trans (range_min_succ hlt), ?_⟩
    simp only [Option.toList_some, List.singleton_append, List.flatMap_cons, hw, List.nil_append]
  · rw [hnone]
    refine ⟨?_, rfl⟩
    rw [Nat.min_eq_right (Nat.le_succ_of_le hle)]
    rwa [Nat.min_eq_right hle] at h

/-- The worker `k` is done with its item and takes another. -/
theorem Accounted.takeNext {p : Pool α ω J} (h : Accounted fn items p) {k index : Nat}
    {heard : List α} {job : J} (hk : p.workers[k]? = some (.busy index heard job)) (a : α)
    (hended : (fn.resume job a).1 = .ended) :
    Accounted fn items
      { next := p.next + 1
        workers := p.workers.set k (taken fn items p.next)
        done := p.done ++ [(index, heard ++ [a])]
        log := p.log ++ (fn.resume job a).2 } := by
  have hat : At fn items index heard (.more job) := h.workers _ (List.mem_of_getElem? hk)
  obtain ⟨rest, hold, hset⟩ := attempts_set hk (taken fn items p.next)
  change p.attempts.Perm ((index, heard) :: rest) at hold
  -- the attempts are those before, the one that is done with one more answer, and the item taken
  have hattempts : (Pool.attempts (ω := ω) ⟨p.next + 1, p.workers.set k (taken fn items p.next),
      p.done ++ [(index, heard ++ [a])], p.log ++ (fn.resume job a).2⟩).Perm
      ((taken fn items p.next).attempt.toList ++ (index, heard ++ [a]) :: rest) := by
    change ((p.workers.set k (taken fn items p.next)).filterMap Worker.attempt ++
      (p.done ++ [(index, heard ++ [a])])).Perm _
    rw [← List.append_assoc]
    refine (hset.append_right _).trans ?_
    rw [List.append_assoc]
    exact (List.perm_append_singleton _ rest).append_left _
  have hrest : (((index, heard ++ [a]) :: rest).map Prod.fst).Perm
      (List.range (min p.next items.length)) :=
    (hold.map Prod.fst).symm.trans h.begun
  obtain ⟨hbegun, hwritten⟩ := begun_taken fn items hrest
  constructor
  · exact (hattempts.map Prod.fst).trans hbegun
  · refine List.Perm.trans ?_ (hattempts.flatMap_right _).symm
    rw [hwritten]
    refine ((h.log.trans (hold.flatMap_right _)).append_right _).trans ?_
    simp only [List.flatMap_cons, (hat.resume a).2, List.append_assoc]
    exact (List.perm_append_comm).append_left _
  · exact sound_set h.workers (taken_sound p.next)
  · intro attempt hattempt
    rcases List.mem_append.1 hattempt with hd | hd
    · exact h.done attempt hd
    · rw [List.mem_singleton.1 hd]
      have hafter := (hat.resume a).1
      rwa [hended] at hafter
  · intro hmem
    rcases List.mem_or_eq_of_mem_set hmem with hw | hw
    · exact Nat.le_succ_of_le (h.returned hw)
    · -- this worker has found no item left
      rcases taken_attempt fn items p.next with ⟨-, hsome, -⟩ | ⟨hle, -⟩
      · rw [← hw] at hsome
        cases hsome
      · exact Nat.le_succ_of_le hle

/-- At the start all items are ahead. -/
theorem start_accounted (count : Nat) :
    Accounted fn items (start fn items count : Pool α ω J) := by
  induction count with
  | zero =>
    refine ⟨?_, List.Perm.refl _, ?_, ?_, ?_⟩
    · rw [show (start fn items 0 : Pool α ω J).next = 0 from rfl, Nat.zero_min]
      exact List.Perm.refl _
    · intro worker h
      cases h
    · intro attempt h
      cases h
    · intro h
      cases h
  -- the new worker takes the next item, if there is one
  | succ count ih =>
    -- its attempt is the only new one
    have hattempts : (start fn items (count + 1) : Pool α ω J).attempts.Perm
        ((taken fn items (start fn items count : Pool α ω J).next).attempt.toList ++
          (start fn items count : Pool α ω J).attempts) := by
      change (((start fn items count : Pool α ω J).workers ++ [taken fn items _]).filterMap
        Worker.attempt ++ _).Perm _
      rw [List.filterMap_append]
      cases htaken : (taken fn items (start fn items count : Pool α ω J).next).attempt with
      | none => simp [htaken, Pool.attempts]; exact List.Perm.refl _
      | some attempt =>
        simp only [List.filterMap_cons, htaken, List.filterMap_nil]
        exact (List.perm_append_comm).append_right _
    obtain ⟨hbegun, hwritten⟩ := begun_taken fn items ih.begun
    constructor
    · exact (hattempts.map Prod.fst).trans hbegun
    · refine List.Perm.trans ?_ (hattempts.flatMap_right _).symm
      rw [hwritten]
      exact ih.log
    · intro worker h
      rcases List.mem_append.1 h with h | h
      · exact ih.workers worker h
      · rw [List.mem_singleton.1 h]
        exact taken_sound _
    · exact ih.done
    · intro hmem
      rcases List.mem_append.1 hmem with h | h
      · exact Nat.le_succ_of_le (ih.returned h)
      · rcases taken_attempt fn items
          (start fn items count : Pool α ω J).next with ⟨-, hsome, -⟩ | ⟨hle, -⟩
        · rw [← List.mem_singleton.1 h] at hsome
          cases hsome
        · exact Nat.le_succ_of_le hle

/-- A step keeps the account of the items. -/
theorem step_accounted (p : Pool α ω J) (l : Nat × α) (h : Accounted fn items p) :
    Accounted fn items (step fn items p l) := by
  unfold step
  cases hk : p.workers[l.1]? with
  | none => exact h
  | some worker =>
    cases worker with
    | returned => exact h
    | failed index heard => exact h
    | busy index heard job =>
      -- the job is where the answers it has heard have brought it
      have hat : At fn items index heard (.more job) := h.workers _ (List.mem_of_getElem? hk)
      have hafter := (hat.resume l.2).1
      dsimp only
      rcases hr : fn.resume job l.2 with ⟨progress, out⟩
      rw [hr] at hafter
      have hout : out = (fn.resume job l.2).2 := by rw [hr]
      cases progress with
      | more next =>
        rw [hout]
        exact h.goOn hk l.2 hafter rfl (by intro he; cases he)
      | ended =>
        rw [hout]
        exact h.takeNext hk l.2 (by rw [hr])
      | threw =>
        rw [hout]
        exact h.goOn hk l.2 hafter rfl (by intro he; cases he)

/-- What holds of the pool at every moment, whichever workers were answered and in which order. -/
theorem run_accounted (fn : Fn ι α ω J) (items : List ι) (count : Nat) (ls : List (Nat × α)) :
    Accounted fn items (Transition.run (step fn items) (start fn items count : Pool α ω J) ls) :=
  Transition.run_invariant (fun p l h _ => step_accounted p l h) (start_accounted count)
    (Transition.admitted_true _ _ ls)

theorem start_workers (count : Nat) :
    (start fn items count : Pool α ω J).workers.length = count := by
  induction count with
  | zero => rfl
  | succ count ih =>
    change (_ ++ [_]).length = _
    rw [List.length_append, ih]
    rfl

theorem step_workers (p : Pool α ω J) (l : Nat × α) :
    (step fn items p l).workers.length = p.workers.length := by
  unfold step
  cases p.workers[l.1]? with
  | none => rfl
  | some worker =>
    cases worker with
    | returned => rfl
    | failed index heard => rfl
    | busy index heard job =>
      dsimp only
      rcases fn.resume job l.2 with ⟨progress, out⟩
      cases progress with
      | more next => exact List.length_set
      | ended => exact List.length_set
      | threw => exact List.length_set

/-- The number of workers stays. -/
theorem run_workers (fn : Fn ι α ω J) (items : List ι) (count : Nat) (ls : List (Nat × α)) :
    (Transition.run (step fn items) (start fn items count : Pool α ω J) ls).workers.length =
      count := by
  have hstep : ∀ (p : Pool α ω J) (l : Nat × α), p.workers.length = count → True →
      (step fn items p l).workers.length = count := fun p l h _ => (step_workers p l).trans h
  exact Transition.run_invariant hstep (start_workers count)
    (Transition.admitted_true _ _ ls)

/-- No more items are in work than there are workers. -/
theorem run_inFlight (fn : Fn ι α ω J) (items : List ι) (count : Nat) (ls : List (Nat × α)) :
    (Transition.run (step fn items) (start fn items count : Pool α ω J) ls).inFlight ≤ count := by
  have h := List.countP_le_length (p := Worker.isBusy)
    (l := (Transition.run (step fn items) (start fn items count : Pool α ω J) ls).workers)
  rwa [run_workers] at h

/-- What is written stays. -/
theorem step_log (p : Pool α ω J) (l : Nat × α) : p.log <+: (step fn items p l).log := by
  unfold step
  cases p.workers[l.1]? with
  | none => exact List.prefix_refl _
  | some worker =>
    cases worker with
    | returned => exact List.prefix_refl _
    | failed index heard => exact List.prefix_refl _
    | busy index heard job =>
      dsimp only
      rcases fn.resume job l.2 with ⟨progress, out⟩
      cases progress with
      | more next => exact List.prefix_append _ _
      | ended => exact List.prefix_append _ _
      | threw => exact List.prefix_append _ _

/-- When all workers have returned, and there was one at least if there were items, every item is done,
once, and the log holds what the jobs write on their own. -/
theorem Accounted.complete {p : Pool α ω J} (h : Accounted fn items p)
    (hworkers : items ≠ [] → p.workers ≠ []) (hresolved : p.resolved = true) :
    (p.done.map Prod.fst).Perm (List.range items.length) ∧
      p.log.Perm (p.done.flatMap (written fn items)) := by
  have hreturned : ∀ worker ∈ p.workers, worker = .returned := by
    intro worker hw
    have hr := List.all_eq_true.1 hresolved worker hw
    cases worker with
    | returned => rfl
    | busy index heard job => cases hr
    | failed index heard => cases hr
  have hattempts : p.attempts = p.done := by
    have hnone : p.workers.filterMap Worker.attempt = [] := by
      rw [List.filterMap_eq_nil_iff]
      intro worker hw
      rw [hreturned worker hw]
      rfl
    unfold Pool.attempts
    rw [hnone, List.nil_append]
  -- a worker returns only when no item is left
  have hnext : items.length ≤ p.next := by
    rcases items.eq_nil_or_concat with rfl | ⟨_, _, hitems⟩
    · exact Nat.zero_le _
    · obtain ⟨worker, hw⟩ := List.exists_mem_of_ne_nil _ (hworkers (by simp [hitems]))
      exact h.returned (hreturned worker hw ▸ hw)
  refine ⟨?_, hattempts ▸ h.log⟩
  have hbegun := h.begun
  rwa [hattempts, Nat.min_eq_right hnext] at hbegun

end

end StrategyBuilder.Lib.WorkerPool
