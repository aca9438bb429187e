import StrategyBuilder.Indexer.Scan
import StrategyBuilder.Lib.Transition

/-!
# The steps of the indexer

A tick first makes three calls that only read. `tick_cases` says how far it gets: it ends on the way,
it seeds the cursor, or it scans the planned windows. So an assertion survives a step when it survives
these (`step_keeps`). From that follows what a step keeps (`step_inv`): the invariant survives every
step in which the vaults that are registered are timely (`Timely`).
-/

set_option autoImplicit false

namespace StrategyBuilder.Indexer

open StrategyBuilder.Contracts
open StrategyBuilder.Lib
open StrategyBuilder.Lib.Async

variable {cfg : Config} {H : History} {owed : VaultEntry → Nat → Prop} {J : VaultMap → Prop}
  {low : Option Nat} {outside : Nat → Moment}

/-! ## The calls of a tick -/

/-- The tables after the registrations of the next `k` moments. -/
def World.registerUntil (outside : Nat → Moment) (w : World) (t : Nat) : Nat → World
  | 0 => w
  | k + 1 => (w.registerUntil outside t k).register (outside (t + k)).registered

@[simp] theorem World.registerUntil_cursor (w : World) (t k : Nat) :
    (w.registerUntil outside t k).cursor = w.cursor := by
  induction k with
  | zero => rfl
  | succ k ih => exact ih

/-- Registrations of two spans of time are those of both. -/
theorem World.registerUntil_add (w : World) (t j k : Nat) :
    (w.registerUntil outside t j).registerUntil outside (t + j) k =
      w.registerUntil outside t (j + k) := by
  induction k with
  | zero => rfl
  | succ k ih =>
    rw [← Nat.add_assoc]
    unfold World.registerUntil
    rw [ih, Nat.add_assoc]

/-- The program goes on with what a query answers, or it ends there. -/
theorem query_bind_run {α β : Type} {call : Call} {f : Moment → World → α} {g : α → Program β}
    (t : Nat) (w : World) :
    (query call f >>= g).run outside t w =
        (g (f (outside t) (w.register (outside t).registered))).run outside (t + 1)
          (w.register (outside t).registered) ∨
      ∃ o, (query call f >>= g).run outside t w = (o, t + 1, w.register (outside t).registered) := by
  rcases call_bind_run (fun m => m.fate call) (fun m w => World.register w m.registered)
    (fun m w => some (f m w, w)) g t w with ⟨a, w', heq, hrun⟩ | ⟨o, w', hends, hrun⟩
  · cases heq
    exact Or.inl hrun
  · rcases hends with rfl | ⟨a, heq⟩
    · exact Or.inr ⟨o, hrun⟩
    · cases heq
      exact Or.inr ⟨o, hrun⟩

/-- The block at which a cursor is seeded. -/
def seedOf (cfg : Config) (vaults : List VaultEntry) (head : Nat) : Nat :=
  match cfg.startBlockOverride with
  | some startBlock => (startBlock - 1).toNat
  | none =>
      match minCreatedAtBlock vaults with
      | some block => (block - 1).toNat
      | none => head

/-- What the store does to the table of cursors: nothing where there is one. -/
theorem initIfMissing_run (seed t : Nat) (w : World) :
    ∃ o w', (IndexerCursorStore.initIfMissing seed).run outside t w = (o, t + 1, w') ∧
      (w' = w.register (outside t).registered ∨
        (w.cursor = none ∧
          w' = { w.register (outside t).registered with cursor := some ⟨seed, none⟩ })) := by
  have heffect {a : Unit} {w' : World}
      (h : (w.register (outside t).registered).cursor.elim
        (some ((), { w.register (outside t).registered with cursor := some ⟨seed, none⟩ }))
        (fun _ => some ((), w.register (outside t).registered)) = some (a, w')) :
      w' = w.register (outside t).registered ∨
        (w.cursor = none ∧
          w' = { w.register (outside t).registered with cursor := some ⟨seed, none⟩ }) := by
    cases hcursor : w.cursor with
    -- `initIfMissing` leaves the cursor that is there
    | some c =>
      have hc : (w.register (outside t).registered).cursor = some c := hcursor
      rw [hc] at h
      cases h
      exact Or.inl rfl
    | none =>
      have hc : (w.register (outside t).registered).cursor = none := hcursor
      rw [hc] at h
      cases h
      exact Or.inr ⟨rfl, rfl⟩
  have hinit : IndexerCursorStore.initIfMissing seed = call (fun m => m.fate .initCursor)
      (fun m w => World.register w m.registered) fun _ w =>
        w.cursor.elim (some ((), { w with cursor := some ⟨seed, none⟩ })) fun _ => some ((), w) := by
    rw [IndexerCursorStore.initIfMissing, await]
    congr
    funext m w
    cases w.cursor with
    | none => rfl
    | some c => rfl
  rw [hinit]
  rcases @call_run _ _ _ outside (fun m => m.fate .initCursor)
    (fun m w => World.register w m.registered) (fun _ w =>
      w.cursor.elim (some ((), { w with cursor := some ⟨seed, none⟩ })) fun _ => some ((), w)) t w with
    ⟨a, w', heq, hrun⟩ | ⟨o, w', -, hends, hrun⟩
  · exact ⟨_, w', hrun, heffect heq⟩
  · rcases hends with rfl | ⟨a, heq⟩
    · exact ⟨o, _, hrun, Or.inl rfl⟩
    · exact ⟨o, w', hrun, heffect heq⟩

/-- A program that only registers vaults, and may seed the cursor where there is none. -/
def Seeds (outside : Nat → Moment) (t : Nat) (w : World) (seed : Nat)
    (r : Outcome Unit × Nat × World) : Prop :=
  ∃ o k, r = (o, t + k, w.registerUntil outside t k) ∨
    (w.cursor = none ∧
      r = (o, t + k, { w.registerUntil outside t k with cursor := some ⟨seed, none⟩ }))

/-- The cursor is seeded, unless it is there. -/
theorem initIfMissing_seeds (seed t : Nat) (w : World) (k : Nat) :
    Seeds outside t w seed ((IndexerCursorStore.initIfMissing seed).run outside (t + k)
      (w.registerUntil outside t k)) := by
  obtain ⟨o, w', hrun, hw'⟩ :=
    initIfMissing_run seed (t + k) (w.registerUntil outside t k)
  rw [hrun]
  rcases hw' with rfl | ⟨hcursor, rfl⟩
  · exact ⟨o, k + 1, Or.inl rfl⟩
  · rw [World.registerUntil_cursor] at hcursor
    exact ⟨o, k + 1, Or.inr ⟨hcursor, rfl⟩⟩

/-- The last calls of the seeding: without a vault the head is read. -/
theorem seedBlock_seeds (min : Option Int) (t : Nat) (w : World) (k : Nat) :
    Seeds outside t w
      (match min with
        | some block => (block - 1).toNat
        | none => (outside (t + k)).head)
      (((match min with
          | some block => pure (block - 1).toNat
          | none => getBlockNumber) >>= IndexerCursorStore.initIfMissing).run outside (t + k)
        (w.registerUntil outside t k)) := by
  cases min with
  | some block => exact initIfMissing_seeds _ t w k
  | none =>
    unfold getBlockNumber
    rcases query_bind_run (t + k) (w.registerUntil outside t k) with h | ⟨o, h⟩
    · rw [h]
      exact initIfMissing_seeds _ t w (k + 1)
    · rw [h]
      exact ⟨o, k + 1, Or.inl rfl⟩

/-- The seed is what the vaults and the head were when they were read. -/
theorem ensureCursorSeeded_seeds (cfg : Config) (outside : Nat → Moment) (t : Nat) (w : World) :
    Seeds outside t w
      (seedOf cfg (w.registerUntil outside t 2).vaults.rows (outside (t + 2)).head)
      ((ensureCursorSeeded cfg).run outside t w) := by
  unfold ensureCursorSeeded IndexerCursorStore.get
  rcases query_bind_run t w with h | ⟨o, h⟩
  · rw [h]
    cases hcursor : w.cursor with
    | some c =>
      have hc : (w.register (outside t).registered).cursor = some c := hcursor
      rw [hc]
      exact ⟨_, 1, Or.inl rfl⟩
    | none =>
      have hc : (w.register (outside t).registered).cursor = none := hcursor
      rw [hc]
      unfold seedBlock seedOf
      -- without an override the vaults are asked, and without a vault the head
      cases cfg.startBlockOverride with
      | some startBlock => exact initIfMissing_seeds _ t w 1
      | none =>
        simp only [Option.map_none, bind_assoc]
        rcases query_bind_run (t + 1) (w.register (outside t).registered) with
          h | ⟨o, h⟩
        · rw [h]
          exact seedBlock_seeds (minCreatedAtBlock (w.registerUntil outside t 2).vaults.rows) t w 2
        · rw [h]
          exact ⟨o, 2, Or.inl rfl⟩
  · rw [h]
    exact ⟨o, 1, Or.inl rfl⟩

/-- **How far a tick gets**: it ends after calls that only read, it seeds the cursor, or it scans the
planned windows with the vaults that it read. -/
theorem tick_cases (cfg : Config) (outside : Nat → Moment) (t : Nat) (w : World) :
    (∃ o k, (tick cfg).run outside t w = (o, t + k, w.registerUntil outside t k)) ∨
      (w.cursor = none ∧ (tick cfg).run outside t w =
        (ensureCursorSeeded cfg).run outside (t + 2) (w.registerUntil outside t 2)) ∨
      ∃ c ranges, w.cursor = some c ∧ RangePlanner.plan (outside t).head c.lastProcessedBlock
        cfg.maxRange cfg.confirmations = some ranges ∧ ranges ≠ [] ∧
          (tick cfg).run outside t w =
            (ranges.forM (indexRange cfg (w.registerUntil outside t 3).vaults)).run outside (t + 3)
              (w.registerUntil outside t 3) := by
  unfold tick getBlockNumber IndexerCursorStore.get
  rcases query_bind_run t w with h | ⟨o, h⟩
  · rw [h]
    rcases query_bind_run (t + 1) (w.register (outside t).registered) with h | ⟨o, h⟩
    · rw [h]
      cases hcursor : w.cursor with
      | none =>
        have hc : ((w.register (outside t).registered).register
          (outside (t + 1)).registered).cursor = none := hcursor
        rw [hc]
        exact Or.inr (Or.inl ⟨rfl, rfl⟩)
      | some c =>
        have hc : ((w.register (outside t).registered).register
          (outside (t + 1)).registered).cursor = some c := hcursor
        rw [hc]
        simp only [Option.map_some]
        unfold indexFrom
        split
        -- the configuration is refused
        · exact Or.inl ⟨_, 2, rfl⟩
        -- nothing is confirmed after the cursor
        · exact Or.inl ⟨_, 2, rfl⟩
        · rename_i ranges hne hplan
          rcases query_bind_run (t + 2) (w.registerUntil outside t 2) with h | ⟨o, h⟩
          · refine Or.inr (Or.inr ⟨c, ranges, rfl, hplan, fun hnil => ?_, h⟩)
            subst hnil
            exact hne rfl
          · exact Or.inl ⟨o, 3, h⟩
    · exact Or.inl ⟨o, 2, h⟩
  · exact Or.inl ⟨o, 1, h⟩

/-! ## Steps -/

theorem tryCatch_pure_run {x : Program Unit} {t time : Nat} {w w' : World} {o : Outcome Unit}
    (h : x.run outside t w = (o, time, w')) :
    ∃ o', (x.tryCatch (pure ())).run outside t w = (o', time, w') := by
  have hrun : (x.tryCatch (pure ())).run outside t w = andThen (x.run outside t w)
      (fun a t s => (.returned a, t, s)) ((pure () : Program Unit).run outside) := rfl
  rw [hrun, h]
  cases o with
  | returned a => exact ⟨_, rfl⟩
  | thrown => exact ⟨_, rfl⟩
  | stopped => exact ⟨_, rfl⟩

/-- The state after a step, but for what a process that stops forgets. -/
theorem step_of_run {s : Nat × World} {event : Event} {time : Nat} {w' : World} {o : Outcome Unit}
    (h : (event.program cfg).run outside s.1 s.2 = (o, time, w')) :
    (step cfg outside s event).1 = time ∧
      ((step cfg outside s event).2 = w' ∨ (step cfg outside s event).2 = w'.forget) := by
  unfold step
  rw [h]
  cases o with
  | returned a => exact ⟨rfl, Or.inl rfl⟩
  | thrown => exact ⟨rfl, Or.inl rfl⟩
  | stopped => exact ⟨rfl, Or.inr rfl⟩

/-- A tick ends with its world, or with one in which the process has forgotten. -/
theorem step_tick {s : Nat × World} {time : Nat} {w' : World} {o : Outcome Unit}
    (h : (tick cfg).run outside s.1 s.2 = (o, time, w')) :
    (step cfg outside s .tick).1 = time ∧
      ((step cfg outside s .tick).2 = w' ∨ (step cfg outside s .tick).2 = w'.forget) := by
  obtain ⟨o', h'⟩ := tryCatch_pure_run h
  exact step_of_run h'

/-- So does a start. -/
theorem step_start {s : Nat × World} {time : Nat} {w' : World} {o : Outcome Unit}
    (h : (ensureCursorSeeded cfg).run outside s.1 s.2.forget = (o, time, w')) :
    (step cfg outside s .start).1 = time ∧
      ((step cfg outside s .start).2 = w' ∨ (step cfg outside s .start).2 = w'.forget) := by
  obtain ⟨o', h'⟩ := tryCatch_pure_run h
  have hrun : (Event.start.program cfg).run outside s.1 s.2 = (o', time, w') := h'
  exact step_of_run hrun

/-- How many calls a step has made when it asks whether there is a cursor to seed. -/
def Event.offset : Event → Nat
  | .start => 0
  | .tick => 2

/-- The block at which a step would seed the cursor. -/
def seedIn (cfg : Config) (outside : Nat → Moment) (s : Nat × World) (event : Event) : Nat :=
  seedOf cfg (s.2.registerUntil outside s.1 (event.offset + 2)).vaults.rows
    (outside (s.1 + event.offset + 2)).head

/-- What a tick does when there is no cursor. -/
theorem Seeds.after {w : World} {t j seed : Nat} {r : Outcome Unit × Nat × World}
    (hr : Seeds outside (t + j) (w.registerUntil outside t j) seed r) : Seeds outside t w seed r := by
  obtain ⟨o, k, rfl | ⟨hnone, rfl⟩⟩ := hr
  · rw [World.registerUntil_add, Nat.add_assoc]
    exact ⟨o, j + k, Or.inl rfl⟩
  · rw [World.registerUntil_cursor] at hnone
    rw [World.registerUntil_add, Nat.add_assoc]
    exact ⟨o, j + k, Or.inr ⟨hnone, rfl⟩⟩

theorem World.registerUntil_forget (w : World) (t k : Nat) :
    w.forget.registerUntil outside t k = (w.registerUntil outside t k).forget := by
  induction k with
  | zero => rfl
  | succ k ih =>
    unfold World.registerUntil
    rw [ih]
    rfl

/-- An assertion that survives what a step may do: it only reads, it seeds the cursor, or it scans. -/
theorem step_keeps {P : World → Prop} {s : Nat × World} {event : Event}
    (hforget : ∀ w, P w → P w.forget)
    (hread : ∀ k, s.1 + k = (step cfg outside s event).1 → P (s.2.registerUntil outside s.1 k))
    (hseed : s.2.cursor = none → ∀ k, s.1 + k = (step cfg outside s event).1 →
      P { s.2.registerUntil outside s.1 k with cursor := some ⟨seedIn cfg outside s event, none⟩ })
    (hscan : event = .tick → ∀ c ranges, s.2.cursor = some c →
      RangePlanner.plan (outside s.1).head c.lastProcessedBlock cfg.maxRange cfg.confirmations =
        some ranges → ranges ≠ [] → ∀ r,
          (ranges.forM (indexRange cfg (s.2.registerUntil outside s.1 3).vaults)).run outside
            (s.1 + 3) (s.2.registerUntil outside s.1 3) = r →
              (step cfg outside s event).1 = r.2.1 → P r.2.2) :
    P (step cfg outside s event).2 := by
  cases event with
  | start =>
    rcases hrun : (ensureCursorSeeded cfg).run outside s.1 s.2.forget with ⟨o, time, w'⟩
    obtain ⟨htime, hw'⟩ := step_start hrun
    have hseeds := ensureCursorSeeded_seeds cfg outside s.1 s.2.forget
    rw [hrun, World.registerUntil_forget] at hseeds
    have hP : P w' := by
      obtain ⟨o', k, heq | ⟨hnone, heq⟩⟩ := hseeds
      · cases heq
        rw [World.registerUntil_forget]
        exact hforget _ (hread k htime.symm)
      · cases heq
        rw [World.registerUntil_forget]
        exact hforget _ (hseed hnone k htime.symm)
    rcases hw' with hw' | hw'
    · rw [hw']
      exact hP
    · rw [hw']
      exact hforget w' hP
  | tick =>
    rcases hrun : (tick cfg).run outside s.1 s.2 with ⟨o, time, w'⟩
    obtain ⟨htime, hw'⟩ := step_tick hrun
    have hP : P w' := by
      -- `tryCatch` keeps the state, so what the body of the step does is all there is
      rcases tick_cases cfg outside s.1 s.2 with
        ⟨o', k, h'⟩ | ⟨-, h'⟩ | ⟨c, ranges, hcursor, hplan, hne, h'⟩
      · rw [hrun] at h'
        cases h'
        exact hread k htime.symm
      · rw [hrun] at h'
        have hseeds := (ensureCursorSeeded_seeds cfg outside (s.1 + 2)
          (s.2.registerUntil outside s.1 2)).after
        rw [← h', World.registerUntil_add] at hseeds
        obtain ⟨o', k, heq | ⟨hnone, heq⟩⟩ := hseeds
        · cases heq
          exact hread k htime.symm
        · cases heq
          exact hseed hnone k htime.symm
      · rw [hrun] at h'
        exact hscan rfl c ranges hcursor hplan hne _ h'.symm htime
    rcases hw' with hw' | hw'
    · rw [hw']
      exact hP
    · rw [hw']
      exact hforget w' hP

/-! ## The invariant over a step -/

/-- The vaults that are registered in a step emitted nothing up to the cursor; those that are
registered after a tick has read the vaults emitted nothing up to the last block of the tick. Where
there is no cursor yet, no vault emitted anything up to the seed. -/
structure Timely (cfg : Config) (H : History) (owed : VaultEntry → Nat → Prop)
    (outside : Nat → Moment) (s : Nat × World) (event : Event) : Prop where
  cursor : ∀ c, s.2.cursor = some c → ∀ i, s.1 ≤ i → i < (step cfg outside s event).1 →
    ∀ v ∈ (outside i).registered, Silent cfg H owed c.lastProcessedBlock v
  scan : ∀ c, s.2.cursor = some c → event = .tick → ∀ i, s.1 + 2 < i →
    i < (step cfg outside s event).1 → ∀ b : Nat, (b : Int) + cfg.confirmations = (outside s.1).head →
      ∀ v ∈ (outside i).registered, Silent cfg H owed b v
  seed : s.2.cursor = none → ∀ v, (v ∈ s.2.vaults ∨ ∃ i, s.1 ≤ i ∧
    i < (step cfg outside s event).1 ∧ v ∈ (outside i).registered) →
      Silent cfg H owed (seedIn cfg outside s event) v

/-- A vault was known, or was registered in that time. -/
theorem World.mem_registerUntil {w : World} {t k : Nat} {v : VaultEntry}
    (h : v ∈ (w.registerUntil outside t k).vaults) :
    v ∈ w.vaults ∨ ∃ i, t ≤ i ∧ i < t + k ∧ v ∈ (outside i).registered := by
  induction k with
  | zero => exact Or.inl h
  | succ k ih =>
    rcases Table.mem_of_mem_insertMany h with h | h
    · rcases ih h with h | ⟨i, hle, hlt, hv⟩
      · exact Or.inl h
      · exact Or.inr ⟨i, hle, by omega, hv⟩
    · exact Or.inr ⟨t + k, by omega, by omega, h⟩

theorem Inv.forget {w : World} (h : Inv cfg H owed J low w) : Inv cfg H owed J low w.forget :=
  h.flows w.protocolFlows none

/-- What is known of the vaults survives the registrations. -/
def Kept (J : VaultMap → Prop) (outside : Nat → Moment) : Prop :=
  ∀ i V, J V → J (V.insertMany (outside i).registered)

/-- Silent vaults keep the invariant. -/
theorem Inv.registerUntil {w : World} {t k : Nat} (hJ : Kept J outside) (h : Inv cfg H owed J low w)
    (hsilent : ∀ c, w.cursor = some c → ∀ i, t ≤ i → i < t + k → ∀ v ∈ (outside i).registered,
      Silent cfg H owed c.lastProcessedBlock v) :
    Inv cfg H owed J low (w.registerUntil outside t k) := by
  induction k with
  | zero => exact h
  | succ k ih =>
    have hinv := ih fun c hc i hle hlt => hsilent c hc i hle (by omega)
    apply hinv.register (hJ _ _ hinv.vaults)
    intro v hv c hc
    rw [World.registerUntil_cursor] at hc
    exact hsilent c hc (t + k) (by omega) (by omega) v hv

/-- A new cursor keeps the invariant where the vaults have been silent. -/
theorem Inv.seed {w : World} {t k seed : Nat} (hJ : Kept J outside) (h : Inv cfg H owed J low w)
    (hcursor : w.cursor = none)
    (hsilent : ∀ v, (v ∈ w.vaults ∨ ∃ i, t ≤ i ∧ i < t + k ∧ v ∈ (outside i).registered) →
      Silent cfg H owed seed v) :
    Inv cfg H owed J low { w.registerUntil outside t k with cursor := some ⟨seed, none⟩ } := by
  have hinv : Inv cfg H owed J low (w.registerUntil outside t k) := by
    apply h.registerUntil hJ
    intro c hc
    rw [hcursor] at hc
    cases hc
  refine ⟨hinv.vaults, ⟨hinv.sound.executions, hinv.sound.vaultEvents⟩, ?_, fun b hb => ?_⟩
  · rintro c hc v hv n hn howed l event hl
    cases hc
    exact absurd hl (hsilent v (World.mem_registerUntil hv) n hn howed l event)
  · obtain ⟨c, hc, -⟩ := h.floor b hb
    rw [hcursor] at hc
    cases hc

/-- The invariant after the scan of a tick. -/
theorem scan_inv (hH : Confirms cfg.confirmations H outside) (hJ : Kept J outside)
    {s : Nat × World} {c : Cursor} {ranges : List BlockRange} (h : Inv cfg H owed J low s.2)
    (htimely : Timely cfg H owed outside s .tick) (hcursor : s.2.cursor = some c)
    (hplan : RangePlanner.plan (outside s.1).head c.lastProcessedBlock cfg.maxRange
      cfg.confirmations = some ranges) (hne : ranges ≠ [])
    {r : Outcome Unit × Nat × World}
    (hr : (ranges.forM (indexRange cfg (s.2.registerUntil outside s.1 3).vaults)).run outside
      (s.1 + 3) (s.2.registerUntil outside s.1 3) = r)
    (hend : (step cfg outside s .tick).1 = r.2.1) : Inv cfg H owed J low r.2.2 := by
  obtain ⟨b, hb, hlt, hcovers⟩ := RangePlanner.plan_covers hplan hne
  have hle : s.1 + 3 ≤ r.2.1 := by
    rw [← hr]
    exact Async.le_run _ _ _ _
  -- the head that was planned with is that of the first call, so the planned blocks are confirmed
  -- from then on
  have hsteady : ∀ i, (s.1 + 3 ≤ i ∧ i < r.2.1) → Steady cfg H owed J b (outside i) := by
    rintro i ⟨hge, hlt⟩
    refine ⟨fun n hn => hH s.1 i (by omega) n (by omega), hJ i, fun v hv => ?_⟩
    exact htimely.scan c hcursor rfl i (by omega) (by omega) b hb v hv
  -- the vaults that were registered up to the third call are the ones that the scan knows
  have hstart : Scanning cfg H owed J low (s.2.registerUntil outside s.1 3).vaults b
      (c.lastProcessedBlock + 1) (s.2.registerUntil outside s.1 3) := by
    refine ⟨h.registerUntil hJ fun c' hc' i hge hlt v hv => ?_, fun v hv => hv, fun v hv => Or.inl hv,
      ⟨c, (World.registerUntil_cursor ..).trans hcursor, rfl⟩, by omega⟩
    exact htimely.cursor c' hc' i hge (by omega) v hv
  have hscan := triple_indexRanges hsteady hcovers (s.1 + 3) _ hstart fun i hge hlt => by
    rw [hr] at hlt
    exact ⟨hge, hlt⟩
  rw [hr] at hscan
  exact hscan.elim

/-- **What a step keeps.** -/
theorem step_inv (hH : Confirms cfg.confirmations H outside) (hJ : Kept J outside)
    {s : Nat × World} {event : Event} (h : Inv cfg H owed J low s.2)
    (htimely : Timely cfg H owed outside s event) :
    Inv cfg H owed J low (step cfg outside s event).2 := by
  apply step_keeps
  · intro w hw
    exact hw.forget
  · intro k hk
    apply h.registerUntil hJ
    intro c hc i hge hlt
    exact htimely.cursor c hc i hge (hk ▸ hlt)
  · intro hnone k hk
    apply h.seed hJ hnone
    rw [hk]
    exact htimely.seed hnone
  · rintro rfl c ranges hcursor hplan hne r hr hend
    exact scan_inv hH hJ h htimely hcursor hplan hne hr hend

end StrategyBuilder.Indexer
