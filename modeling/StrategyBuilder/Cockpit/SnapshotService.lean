import StrategyBuilder.Cockpit.Performance
import StrategyBuilder.Cockpit.Valuation
import StrategyBuilder.Lib.Double
import StrategyBuilder.Lib.WorkerPool

/-!
# The snapshot loop

`snapshot.service.ts` with `concurrency.ts`: a tick reads the head block and the vaults, values every
vault with a bounded number of workers, writes a snapshot for each, and then deletes the snapshots beyond
the retention window. The service is a state machine whose labels are the timer and the answers to its
calls; the answers to different workers come in any order, any of them may be a failure, and other
services add vaults meanwhile. A `create` whose answer is lost may have written its row.

However the workers interleave, the rows of a tick are those that valuing the vaults one after the other
with the same answers writes, and every vault has its turn (`tick_snapshots`), unless the configured
concurrency is not a number: then the tick values none (`tickPool_nan`). Over all ticks, no snapshot is
lost before its time (`retention`).
-/

set_option autoImplicit false

namespace StrategyBuilder.Cockpit.Snapshots

open StrategyBuilder.Lib
open StrategyBuilder.Lib.Js
open StrategyBuilder.Lib.WorkerPool

/-! ## `mapWithConcurrency` -/

/-- `Math.max(x, y)` -/
def mathMax (x y : JsNumber) : JsNumber :=
  if x.isNaN || y.isNaN then .nan else if x.le y then y else x

/-- `Math.min(x, y)` -/
def mathMin (x y : JsNumber) : JsNumber :=
  if x.isNaN || y.isNaN then .nan else if x.le y then x else y

/-- The length of `Array.from({ length: x })`, for lengths an array may have. -/
def toLength : JsNumber → Nat
  | .finite q => q.floor.toNat
  | .infinity _ => 0
  | .nan => 0

/-- The number of workers for `n` items. -/
def workerCount (limit : JsNumber) (n : Nat) : Nat :=
  toLength (mathMin (mathMax (.ofInt 1) limit) (.ofInt n))

theorem mathMax_finite (a b : Rat) : mathMax (.finite a) (.finite b) = .finite (max a b) := by
  simp only [mathMax, JsNumber.isNaN, JsNumber.le, reduceCtorEq, decide_false, Bool.or_self,
    Bool.false_eq_true, if_false, decide_eq_true_eq]
  rw [max_def]
  split <;> rfl

theorem mathMin_finite (a b : Rat) : mathMin (.finite a) (.finite b) = .finite (min a b) := by
  simp only [mathMin, JsNumber.isNaN, JsNumber.le, reduceCtorEq, decide_false, Bool.or_self,
    Bool.false_eq_true, if_false, decide_eq_true_eq]
  rw [min_def]
  split <;> rfl

theorem workerCount_nan (n : Nat) : workerCount .nan n = 0 := by
  simp [workerCount, mathMin, mathMax, toLength, JsNumber.isNaN]

/-- One worker at least, and no more than there are vaults. -/
theorem workerCount_finite (q : Rat) (n : Nat) :
    workerCount (.finite q) n = min (max 1 q.floor.toNat) n := by
  have h : (min (max ((1 : Int) : Rat) q) ((n : Int) : Rat)).floor = min (max 1 q.floor) n := by
    change ⌊min (max ((1 : Int) : Rat) q) ((n : Int) : Rat)⌋ = min (max 1 ⌊q⌋) n
    rw [Int.floor_mono.map_min, Int.floor_mono.map_max, Int.floor_intCast, Int.floor_intCast]
  simp only [workerCount, JsNumber.ofInt, mathMax_finite, mathMin_finite, toLength, h]
  omega

/-- There is a worker for every non-empty list, unless the limit is not a number. -/
theorem workerCount_pos {limit : JsNumber} (hlimit : limit ≠ .nan) {n : Nat} (hn : 0 < n) :
    0 < workerCount limit n := by
  cases limit with
  | nan => exact absurd rfl hlimit
  | finite q =>
    rw [workerCount_finite]
    omega
  | infinity negative =>
    cases negative with
    | false =>
      have h : workerCount (.infinity false) n = ((n : Int) : Rat).floor.toNat := by
        simp [workerCount, mathMax, mathMin, toLength, JsNumber.isNaN, JsNumber.le, JsNumber.ofInt]
      rw [h, Rat.floor_intCast, Int.toNat_natCast]
      exact hn
    | true =>
      have h : workerCount (.infinity true) n = workerCount (.ofInt 1) n := rfl
      rw [h, JsNumber.ofInt, workerCount_finite]
      omega

/-! ## The service -/

/-- A vault as `findMany` selects it. -/
structure VaultRow where
  id : String
  address : String
deriving DecidableEq, Repr

/-- A row of `VaultValueSnapshot`. -/
structure SnapshotRow extends VaultValueSnapshot where
  blockNumber : Option Nat
  breakdown : List ValuedPosition
deriving DecidableEq, Repr

/-- How a `create` ends: the row is written and the call answered, the row is written and the answer
lost, or nothing is written. -/
inductive CreateReply where
  | stored
  | lost
  | refused
deriving DecidableEq, Repr

/-- The row is in the table, whatever the answer was. -/
def CreateReply.written : CreateReply → Bool
  | .refused => false
  | _ => true

/-- The answer to whichever call is awaited, with the clock at that time. A call whose answer is `none`
or `false` has failed. -/
structure Moment where
  now : Int
  getBlockNumber : Option Nat
  findMany : Bool
  valueVault : Option ValuedVault
  create : CreateReply
  deleteMany : CreateReply

/-- `DAY_MS` -/
def dayMs : Int := 86400000

/-- The time of `new Date(x)`; an invalid date has none. -/
def dateTime : JsNumber → Option Int
  | .finite q => if |q| ≤ 8640000000000000 then some (if 0 ≤ q then q.floor else q.ceil) else none
  | _ => none

/-- The cutoff of `prune`. -/
def cutoffAt (now : Int) (retentionDays : JsNumber) : Option Int :=
  dateTime ((JsNumber.ofInt now).sub (retentionDays.mul (.ofInt dayMs)))

/-- The data that `create` gets. -/
def snapshotRow (blockNumber : Option Nat) (vault : VaultRow) (now : Int) (valued : ValuedVault) :
    SnapshotRow where
  vaultId := vault.id
  asOf := now
  totalValueUsd := valued.totalValueUsd
  blockNumber := blockNumber
  breakdown := valued.positions

/-- The awaits of the function that `mapWithConcurrency` runs for a vault. -/
inductive Job where
  | valuing (vault : VaultRow)
  | creating (row : SnapshotRow)
deriving DecidableEq, Repr

/-- Whatever fails is caught and logged. -/
def resumeJob (blockNumber : Option Nat) : Job → Moment → Progress Job × List SnapshotRow
  | .valuing vault, m =>
      match m.valueVault with
      | some valued => (.more (.creating (snapshotRow blockNumber vault m.now valued)), [])
      | none => (.ended, [])
  | .creating row, m => (.ended, if m.create.written then [row] else [])

/-- The function that `mapWithConcurrency` runs. -/
def snapshotVault (blockNumber : Option Nat) : Fn VaultRow Moment SnapshotRow Job where
  start vault _ := .valuing vault
  resume := resumeJob blockNumber

/-- The workers of a tick, with the rows that they write. -/
abbrev SnapshotPool := Pool Moment SnapshotRow Job

/-- The awaits of a tick. The pool stays in view until the snapshots are pruned. -/
inductive Phase where
  | idle
  | headBlock
  | findMany (blockNumber : Option Nat)
  | snapshots (blockNumber : Option Nat) (vaults : List VaultRow) (pool : SnapshotPool)
  | pruning (blockNumber : Option Nat) (vaults : List VaultRow) (pool : SnapshotPool)
      (cutoff : Option Int)

/-- The service with its configuration, and the tables it works on. `rows` are the snapshots without
those that the workers have written in this tick. -/
structure Service where
  concurrency : JsNumber
  retentionDays : JsNumber
  inFlight : Bool
  phase : Phase
  vaults : List VaultRow
  rows : List SnapshotRow

/-- What the workers of this tick have written. -/
def Phase.written : Phase → List SnapshotRow
  | .snapshots _ _ pool => pool.log
  | .pruning _ _ pool _ => pool.log
  | _ => []

/-- The snapshots in the database. -/
def Service.table (s : Service) : List SnapshotRow := s.rows ++ s.phase.written

/-- The service after a start, on tables of earlier processes. -/
def Service.started (concurrency retentionDays : JsNumber) (vaults : List VaultRow)
    (rows : List SnapshotRow) : Service :=
  ⟨concurrency, retentionDays, false, .idle, vaults, rows⟩

/-- The tick goes on after `mapWithConcurrency` when all workers have returned. -/
def Service.await (s : Service) (now : Int) (blockNumber : Option Nat) (vaults : List VaultRow)
    (pool : SnapshotPool) : Service :=
  if pool.resolved then
    { s with phase := .pruning blockNumber vaults pool (cutoffAt now s.retentionDays) }
  else { s with phase := .snapshots blockNumber vaults pool }

/-- The end of `runOnce`. -/
def Service.settled (s : Service) (rows : List SnapshotRow) : Service :=
  { s with inFlight := false, phase := .idle, rows := rows }

/-- A tick, an answer that a worker waits for, the end of a call, and vaults that are created
meanwhile. -/
inductive Label where
  | timer
  | answer (m : Moment)
  | settle (worker : Nat) (m : Moment)
  | createVault (vault : VaultRow)

/-- One step. An invalid date is refused before the query. -/
def step (s : Service) : Label → Service
  | .timer => if s.inFlight then s else { s with inFlight := true, phase := .headBlock }
  | .answer m =>
      match s.phase with
      | .headBlock => { s with phase := .findMany m.getBlockNumber }
      | .findMany blockNumber =>
          if m.findMany then
            s.await m.now blockNumber s.vaults
              (WorkerPool.start (snapshotVault blockNumber) s.vaults
                (workerCount s.concurrency s.vaults.length))
          else s.settled s.rows
      | .pruning _ _ pool (some cutoff) =>
          -- the rows may be deleted although the answer is lost
          if m.deleteMany.written then
            s.settled ((s.rows ++ pool.log).filter fun r => cutoff ≤ r.asOf)
          else s.settled (s.rows ++ pool.log)
      | .pruning _ _ pool none => s.settled (s.rows ++ pool.log)
      | _ => s
  | .settle worker m =>
      match s.phase with
      | .snapshots blockNumber vaults pool =>
          s.await m.now blockNumber vaults
            (WorkerPool.step (snapshotVault blockNumber) vaults pool (worker, m))
      | _ => s
  | .createVault vault => { s with vaults := s.vaults ++ [vault] }

/-! ## One tick -/

/-- The snapshots of one vault, valued on its own with the answers `heard`. -/
def snapshotOf (blockNumber : Option Nat) (vault : VaultRow) : List Moment → List SnapshotRow
  | m :: m' :: _ =>
      match m.valueVault with
      | some valued =>
          if m'.create.written then [snapshotRow blockNumber vault m.now valued] else []
      | none => []
  | _ => []

/-- A worker writes the snapshot of its vault. -/
theorem runJob_written (blockNumber : Option Nat) (vault : VaultRow) (heard : List Moment) :
    ((snapshotVault blockNumber).runJob (.valuing vault) heard).2 =
      snapshotOf blockNumber vault heard := by
  rcases heard with _ | ⟨m, _ | ⟨m', rest⟩⟩
  · rfl
  · rw [Fn.runJob_singleton]
    cases hv : m.valueVault <;> simp [snapshotVault, resumeJob, snapshotOf, hv]
  · cases hv : m.valueVault with
    | none => simp [Fn.runJob, snapshotVault, resumeJob, snapshotOf, hv]
    | some valued => simp [Fn.runJob, snapshotVault, resumeJob, snapshotOf, hv]

/-- The snapshots of the vault at `index`. -/
def snapshotsAt (blockNumber : Option Nat) (vaults : List VaultRow) (attempt : Nat × List Moment) :
    List SnapshotRow :=
  match vaults[attempt.1]? with
  | some vault => snapshotOf blockNumber vault attempt.2
  | none => []

/-- What a tick writes, in the order of the vaults. -/
theorem written_eq (blockNumber : Option Nat) (vaults : List VaultRow) :
    written (snapshotVault blockNumber) vaults = snapshotsAt blockNumber vaults := by
  funext attempt
  unfold written snapshotsAt
  cases vaults[attempt.1]? with
  | none => rfl
  | some vault => exact runJob_written blockNumber vault attempt.2

/-- The pool is that of a tick that found `vaults` at the block. -/
def TickPool (limit : JsNumber) (blockNumber : Option Nat) (vaults : List VaultRow)
    (pool : SnapshotPool) : Prop :=
  ∃ ls, pool = Transition.run (WorkerPool.step (snapshotVault blockNumber) vaults)
    (WorkerPool.start (snapshotVault blockNumber) vaults (workerCount limit vaults.length)) ls

theorem TickPool.step {limit : JsNumber} {blockNumber : Option Nat} {vaults : List VaultRow}
    {pool : SnapshotPool} (h : TickPool limit blockNumber vaults pool) (l : Nat × Moment) :
    TickPool limit blockNumber vaults
      (WorkerPool.step (snapshotVault blockNumber) vaults pool l) := by
  obtain ⟨ls, rfl⟩ := h
  exact ⟨ls ++ [l], by rw [Transition.run_append]; rfl⟩

/-- What holds of the service at any time. -/
def Service.Sound (s : Service) : Prop :=
  match s.phase with
  | .snapshots blockNumber vaults pool => TickPool s.concurrency blockNumber vaults pool
  | .pruning blockNumber vaults pool _ =>
      TickPool s.concurrency blockNumber vaults pool ∧ pool.resolved = true
  | _ => True

/-- A tick that goes on is sound. -/
theorem await_sound {s : Service} {now : Int} {blockNumber : Option Nat} {vaults : List VaultRow}
    {pool : SnapshotPool} (h : TickPool s.concurrency blockNumber vaults pool) :
    (s.await now blockNumber vaults pool).Sound := by
  unfold Service.await
  split
  · rename_i hresolved
    exact ⟨h, hresolved⟩
  · exact h

theorem await_concurrency (s : Service) (now : Int) (blockNumber : Option Nat)
    (vaults : List VaultRow) (pool : SnapshotPool) :
    (s.await now blockNumber vaults pool).concurrency = s.concurrency ∧
      (s.await now blockNumber vaults pool).retentionDays = s.retentionDays := by
  unfold Service.await
  split <;> exact ⟨rfl, rfl⟩

/-- No step changes the settings. -/
theorem step_config (s : Service) (l : Label) :
    (step s l).concurrency = s.concurrency ∧ (step s l).retentionDays = s.retentionDays := by
  cases l with
  | timer =>
    dsimp only [step]
    split <;> exact ⟨rfl, rfl⟩
  | createVault vault => exact ⟨rfl, rfl⟩
  | settle worker m =>
    dsimp only [step]
    split
    · exact await_concurrency _ _ _ _ _
    · exact ⟨rfl, rfl⟩
  | answer m =>
    dsimp only [step]
    split
    · exact ⟨rfl, rfl⟩
    · split
      · exact await_concurrency _ _ _ _ _
      · exact ⟨rfl, rfl⟩
    · split <;> exact ⟨rfl, rfl⟩
    · exact ⟨rfl, rfl⟩
    · exact ⟨rfl, rfl⟩

/-- A step keeps the service sound. -/
theorem step_sound (s : Service) (l : Label) (h : s.Sound) : (step s l).Sound := by
  cases l with
  | timer =>
    dsimp only [step]
    split
    · exact h
    · trivial
  | createVault vault => exact h
  | settle worker m =>
    dsimp only [step]
    split
    · rename_i blockNumber vaults pool hphase
      unfold Service.Sound at h
      rw [hphase] at h
      -- one more step of the pool
      exact await_sound (h.step (worker, m))
    · exact h
  | answer m =>
    dsimp only [step]
    split
    · trivial
    · split
      · exact await_sound ⟨[], rfl⟩
      · trivial
    · split <;> trivial
    · trivial
    · exact h

/-- Every state is sound, with the settings of the start. -/
theorem run_sound (limit days : JsNumber) (vaults : List VaultRow) (rows : List SnapshotRow)
    (ls : List Label) :
    (Transition.run step (Service.started limit days vaults rows) ls).Sound ∧
      (Transition.run step (Service.started limit days vaults rows) ls).concurrency = limit ∧
      (Transition.run step (Service.started limit days vaults rows) ls).retentionDays = days := by
  refine Transition.run_invariant
    (I := fun s : Service => s.Sound ∧ s.concurrency = limit ∧ s.retentionDays = days) ?_ ?_
    (Transition.admitted_true _ _ ls)
  rotate_left
  · exact ⟨trivial, rfl, rfl⟩
  intro s l h _
  exact ⟨step_sound s l h.1, (step_config s l).1.trans h.2.1, (step_config s l).2.trans h.2.2⟩

/-- **A tick takes a snapshot of every vault, as one after the other.** No more vaults are in work than
there are workers. When the tick prunes, it has had every vault that it read once, and has written what
their snapshots on their own are. -/
theorem tick_snapshots {limit days : JsNumber} {vaults₀ : List VaultRow} {rows₀ : List SnapshotRow}
    (hlimit : limit ≠ .nan) (ls : List Label) {s : Service}
    (hs : s = Transition.run step (Service.started limit days vaults₀ rows₀) ls)
    {blockNumber : Option Nat} {vaults : List VaultRow} {pool : SnapshotPool} :
    (s.phase = .snapshots blockNumber vaults pool →
        pool.inFlight ≤ workerCount limit vaults.length) ∧
      ∀ cutoff, s.phase = .pruning blockNumber vaults pool cutoff →
        (pool.done.map Prod.fst).Perm (List.range vaults.length) ∧
          pool.log.Perm (pool.done.flatMap (snapshotsAt blockNumber vaults)) := by
  subst hs
  obtain ⟨hsound, hconcurrency, -⟩ := run_sound limit days vaults₀ rows₀ ls
  unfold Service.Sound at hsound
  rw [hconcurrency] at hsound
  constructor
  · intro hphase
    rw [hphase] at hsound
    obtain ⟨ls', rfl⟩ := hsound
    exact run_inFlight _ _ _ ls'
  · intro cutoff hphase
    rw [hphase] at hsound
    obtain ⟨⟨ls', rfl⟩, hresolved⟩ := hsound
    have haccounted := run_accounted (snapshotVault blockNumber) vaults
      (workerCount limit vaults.length) ls'
    rw [← written_eq]
    refine haccounted.complete ?_ hresolved
    -- where there are vaults, there is a worker
    intro hvaults hnil
    have hlength := run_workers (snapshotVault blockNumber) vaults
      (workerCount limit vaults.length) ls'
    rw [hnil] at hlength
    exact absurd hlength (workerCount_pos hlimit (List.length_pos_iff.2 hvaults)).ne

/-- Two vaults, of which the second is valued first and the first not at all. -/
def sampleVaults : List VaultRow := [⟨"v1", "0xA"⟩, ⟨"v2", "0xB"⟩]

/-- A moment at which all is answered, and the row is stored. -/
def sampleMoment : Moment := ⟨5, some 7, true, some ⟨"0xB", [], 42⟩, .stored, .refused⟩

/-- Its valuation fails. -/
def failingMoment : Moment := { sampleMoment with valueVault := none }

/-- A tick of two vaults, of which the second is valued. -/
def sampleTick : List Label :=
  [.timer, .answer sampleMoment, .answer sampleMoment, .settle 1 sampleMoment, .settle 0 failingMoment,
    .settle 1 sampleMoment]

/-- The pool after it. -/
def samplePool : SnapshotPool where
  next := 4
  workers := [.returned, .returned]
  done := [(0, [failingMoment]), (1, [sampleMoment, sampleMoment])]
  log := [snapshotRow (some 7) ⟨"v2", "0xB"⟩ 5 ⟨"0xB", [], 42⟩]

theorem tick_snapshots_sample :
    (samplePool.done.map Prod.fst).Perm (List.range 2) ∧
      samplePool.log.Perm (samplePool.done.flatMap (snapshotsAt (some 7) sampleVaults)) :=
  have hphase : (Transition.run step (Service.started (.infinity false) .nan sampleVaults [])
      sampleTick).phase = .pruning (some 7) sampleVaults samplePool none := rfl
  (tick_snapshots (by decide) sampleTick rfl).2 none hphase

/-- A concurrency that is not a number leaves every vault out. -/
theorem tickPool_nan {blockNumber : Option Nat} {vaults : List VaultRow} {pool : SnapshotPool}
    (h : TickPool .nan blockNumber vaults pool) : pool = ⟨0, [], [], []⟩ := by
  obtain ⟨ls, rfl⟩ := h
  rw [workerCount_nan]
  induction ls with
  | nil => rfl
  | cons l ls ih => exact ih

/-! ## Retention -/

/-- The clock of a label is within the dates up to `latest`. -/
def Label.Within (latest : Int) : Label → Prop
  | .answer m => 0 ≤ m.now ∧ m.now ≤ latest
  | .settle _ m => 0 ≤ m.now ∧ m.now ≤ latest
  | _ => True

/-- The cutoff is exact in doubles. -/
theorem ofInt_sub_mul {now days : Int} (hnow : 0 ≤ now ∧ now ≤ 8640000000000000)
    (hdays : 0 ≤ days ∧ days ≤ 100000000) :
    (JsNumber.ofInt now).sub ((JsNumber.ofInt days).mul (.ofInt dayMs)) =
      .ofInt (now - days * dayMs) := by
  have hms : days * dayMs ≤ 8640000000000000 := by
    unfold dayMs
    omega
  have hms' : 0 ≤ days * dayMs := mul_nonneg hdays.1 (by decide)
  rw [mul_ofInt (by omega)]
  have hsub : (JsNumber.ofInt now).sub (.ofInt (days * dayMs)) =
      toDouble ((now - days * dayMs : Int) : Rat) := by
    simp only [JsNumber.sub, JsNumber.neg, JsNumber.add, JsNumber.ofInt]
    congr 1
    push_cast
    ring
  rw [hsub, toDouble_intCast (by omega)]

/-- For whole days the cutoff is exact. -/
theorem cutoffAt_ofInt {now days : Int} (hnow : 0 ≤ now ∧ now ≤ 8640000000000000)
    (hdays : 0 ≤ days ∧ days ≤ 100000000) :
    cutoffAt now (.ofInt days) = some (now - days * dayMs) := by
  have hms : 0 ≤ days * dayMs ∧ days * dayMs ≤ 8640000000000000 := by
    unfold dayMs
    omega
  have habs : |((now - days * dayMs : Int) : Rat)| ≤ 8640000000000000 := by
    rw [abs_le]
    constructor
    · exact_mod_cast (show -8640000000000000 ≤ now - days * dayMs by omega)
    · exact_mod_cast (show now - days * dayMs ≤ 8640000000000000 by omega)
  rw [cutoffAt, ofInt_sub_mul hnow hdays]
  simp only [dateTime, JsNumber.ofInt, if_pos habs, Rat.floor_intCast, Rat.ceil_intCast, ite_self]

/-- Snapshots from `since` on are not pruned. -/
def Service.Keeps (since : Int) (s : Service) : Prop :=
  ∀ blockNumber vaults pool cutoff,
    s.phase = .pruning blockNumber vaults pool (some cutoff) → cutoff ≤ since

/-- A tick deletes nothing of the retention. -/
theorem await_keeps {s : Service} {now latest days : Int} {blockNumber : Option Nat}
    {vaults : List VaultRow} {pool : SnapshotPool} (hs : s.retentionDays = .ofInt days)
    (hdays : 0 ≤ days ∧ days ≤ 100000000) (hlatest : latest ≤ 8640000000000000)
    (hnow : 0 ≤ now ∧ now ≤ latest) :
    (s.await now blockNumber vaults pool).Keeps (latest - days * dayMs) := by
  intro b v p cutoff hphase
  unfold Service.await at hphase
  split at hphase
  · simp only [Phase.pruning.injEq, hs, cutoffAt_ofInt ⟨hnow.1, hnow.2.trans hlatest⟩ hdays,
      Option.some.injEq] at hphase
    obtain ⟨-, -, -, rfl⟩ := hphase
    omega
  · cases hphase

theorem await_table (s : Service) (now : Int) (blockNumber : Option Nat) (vaults : List VaultRow)
    (pool : SnapshotPool) :
    (s.await now blockNumber vaults pool).table = s.rows ++ pool.log := by
  unfold Service.await
  split <;> rfl

/-- Outside a tick no call is awaited. -/
def Service.Guarded (s : Service) : Prop := s.inFlight = false → s.phase = .idle

theorem await_inFlight (s : Service) (now : Int) (blockNumber : Option Nat) (vaults : List VaultRow)
    (pool : SnapshotPool) : (s.await now blockNumber vaults pool).inFlight = s.inFlight := by
  unfold Service.await
  split <;> rfl

/-- A step keeps the guard against a second tick. -/
theorem step_guarded (s : Service) (l : Label) (h : s.Guarded) : (step s l).Guarded := by
  -- a call is awaited only while `inFlight` is set
  have hbusy : s.phase ≠ .idle → s.inFlight = true := by
    intro hphase
    cases hflag : s.inFlight with
    | true => rfl
    | false => exact absurd (h hflag) hphase
  cases l with
  | timer =>
    dsimp only [step]
    split
    · exact h
    · intro hflag
      cases hflag
  | createVault vault => exact h
  | settle worker m =>
    dsimp only [step]
    split
    · rename_i hphase
      intro hflag
      rw [await_inFlight, hbusy (by rw [hphase]; intro hc; cases hc)] at hflag
      cases hflag
    · exact h
  | answer m =>
    dsimp only [step]
    split
    · rename_i hphase
      intro hflag
      exact absurd (h hflag) (by rw [hphase]; intro hc; cases hc)
    · rename_i hphase
      split
      · intro hflag
        rw [await_inFlight, hbusy (by rw [hphase]; intro hc; cases hc)] at hflag
        cases hflag
      · exact fun _ => rfl
    · split <;> exact fun _ => rfl
    · exact fun _ => rfl
    · exact h

/-- No step deletes what is younger than the retention. -/
theorem step_cutoff {s : Service} {l : Label} {days latest : Int}
    (hdays : 0 ≤ days ∧ days ≤ 100000000) (hlatest : latest ≤ 8640000000000000)
    (hl : l.Within latest) (hs : s.retentionDays = .ofInt days)
    (hkeeps : s.Keeps (latest - days * dayMs)) : (step s l).Keeps (latest - days * dayMs) := by
  -- only in the last phase there is a cutoff to speak of
  have hother : ∀ s : Service, (∀ b v p c, s.phase ≠ .pruning b v p c) →
      s.Keeps (latest - days * dayMs) := fun s h b v p c hphase => absurd hphase (h b v p (some c))
  cases l with
  | timer =>
    dsimp only [step]
    split
    · exact hkeeps
    · exact hother _ (by intro b v p c hphase; cases hphase)
  | createVault vault => exact hkeeps
  | settle worker m =>
    dsimp only [step]
    split
    · exact await_keeps hs hdays hlatest hl
    · exact hkeeps
  | answer m =>
    dsimp only [step]
    split
    · exact hother _ (by intro b v p c hphase; cases hphase)
    · split
      · exact await_keeps hs hdays hlatest hl
      · exact hother _ (by intro b v p c hphase; cases hphase)
    · split <;> exact hother _ (by intro b v p c hphase; cases hphase)
    · exact hother _ (by intro b v p c hphase; cases hphase)
    · exact hkeeps

/-- One step keeps a snapshot that is young enough. -/
theorem step_table {s : Service} {l : Label} {since : Int} {r : SnapshotRow}
    (hyoung : since ≤ r.asOf) (hguarded : s.Guarded) (hkeeps : s.Keeps since) (hr : r ∈ s.table) :
    r ∈ (step s l).table := by
  cases l with
  | timer =>
    dsimp only [step]
    split
    · exact hr
    -- a tick begins only where none is under way, so no rows are in flight
    · rename_i hflag
      rwa [Service.table, hguarded (Bool.eq_false_iff.2 hflag)] at hr
  | createVault vault => exact hr
  | settle worker m =>
    dsimp only [step]
    split
    · rename_i blockNumber vaults pool hphase
      rw [await_table]
      rw [Service.table, hphase] at hr
      rcases List.mem_append.1 hr with h | h
      · exact List.mem_append_left _ h
      · exact List.mem_append_right _ ((step_log pool (worker, m)).subset h)
    · exact hr
  | answer m =>
    dsimp only [step]
    split
    · rename_i hphase
      rwa [Service.table, hphase] at hr
    · rename_i blockNumber hphase
      rw [Service.table, hphase] at hr
      have hrows : r ∈ s.rows := by simpa [Phase.written] using hr
      split
      · rw [await_table]
        exact List.mem_append_left _ hrows
      · exact List.mem_append_left _ hrows
    · rename_i blockNumber vaults pool cutoff hphase
      -- the pruning: the row is younger than the cutoff
      have hcutoff := hkeeps _ _ _ _ hphase
      rw [Service.table, hphase] at hr
      split
      · refine List.mem_append_left _ (List.mem_filter.2 ⟨hr, ?_⟩)
        exact decide_eq_true (hcutoff.trans hyoung)
      · exact List.mem_append_left _ hr
    · rename_i blockNumber vaults pool hphase
      rw [Service.table, hphase] at hr
      exact List.mem_append_left _ hr
    · exact hr

/-- **No snapshot is lost before its time.** Over any run of ticks, with any failures, a snapshot that is
in the table stays there as long as it is within the retention window. -/
theorem retention {limit : JsNumber} {days latest : Int} {vaults : List VaultRow}
    {rows : List SnapshotRow} (hdays : 0 ≤ days ∧ days ≤ 100000000)
    (hlatest : latest ≤ 8640000000000000) {ls ls' : List Label}
    (hls : ∀ l ∈ ls ++ ls', l.Within latest) {r : SnapshotRow}
    (hr : r ∈ (Transition.run step (Service.started limit (.ofInt days) vaults rows) ls).table)
    (hyoung : latest - days * dayMs ≤ r.asOf) :
    r ∈ (Transition.run step (Service.started limit (.ofInt days) vaults rows) (ls ++ ls')).table := by
  -- the first part of the run only moves the cutoff, the second keeps the snapshot as well
  have hconfig := (run_sound limit (.ofInt days) vaults rows ls).2.2
  obtain ⟨hfirst, hsecond⟩ := (Transition.admitted_append step _ ls ls').1
    (Transition.admitted_of_forall step (Service.started limit (.ofInt days) vaults rows) hls)
  have hbefore := Transition.run_invariant
    (I := fun s : Service => s.retentionDays = .ofInt days ∧ s.Guarded ∧
      s.Keeps (latest - days * dayMs))
    (fun s l h hl => ⟨(step_config s l).2.trans h.1, step_guarded s l h.2.1,
      step_cutoff hdays hlatest hl h.1 h.2.2⟩)
    ⟨rfl, fun _ => rfl, by intro b v p c hphase; cases hphase⟩ hfirst
  rw [Transition.run_append]
  refine (Transition.run_invariant
    (I := fun s : Service => (s.retentionDays = .ofInt days ∧ s.Guarded ∧
      s.Keeps (latest - days * dayMs)) ∧ r ∈ s.table) ?_ ⟨hbefore, hr⟩ hsecond).2
  rintro s l ⟨⟨hs, hguarded, hkeeps⟩, hmem⟩ hl
  exact ⟨⟨(step_config s l).2.trans hs, step_guarded s l hguarded,
    step_cutoff hdays hlatest hl hs hkeeps⟩, step_table hyoung hguarded hkeeps hmem⟩

theorem retention_sample :
    (⟨⟨"v1", 3, 42⟩, some 7, []⟩ : SnapshotRow) ∈
      (Transition.run step (Service.started (.ofInt 4) (.ofInt 90) sampleVaults
        [⟨⟨"v1", 3, 42⟩, some 7, []⟩]) ([] ++ sampleTick)).table := by
  have hls : ∀ l ∈ [] ++ sampleTick, l.Within 5 := by
    intro l hl
    simp only [sampleTick, List.nil_append, List.mem_cons, List.not_mem_nil, or_false] at hl
    rcases hl with rfl | rfl | rfl | rfl | rfl | rfl <;>
      simp [Label.Within, sampleMoment, failingMoment]
  exact retention (by decide) (by decide) hls (List.mem_singleton.2 rfl) (by decide)

end StrategyBuilder.Cockpit.Snapshots
