import Mathlib.Algebra.Order.Ring.Rat
import Mathlib.Tactic.Ring
import StrategyBuilder.Indexer.EventMapper

/-!
# Performance of a vault

`performance.ts`, `performance.service.ts` and the range of `history.ts`: the profit of a range is the
value now, less the value of the last snapshot before the range starts, less what the owner moved in
since the range starts. The view of the value is that of `snapshot.service.ts`.

Amounts in USD are the rationals that the decimal columns stand for. Times are in milliseconds.

Where a vault changes only by the moves of its owner, the profit is what was moved between the snapshot
and the start of the range (`pnl_eq`), and so it is zero exactly if that is (`capital_moves_iff`).
-/

set_option autoImplicit false

namespace StrategyBuilder.Cockpit

open StrategyBuilder.Indexer
open StrategyBuilder.Lib.Js

/-! ## Ranges -/

/-- The ranges that can be asked for. -/
inductive HistoryRange where
  | day
  | week
  | month
  | all
deriving DecidableEq, Repr

/-- The text of a range in a request. -/
def HistoryRange.text : HistoryRange → String
  | .day => "24h"
  | .week => "7d"
  | .month => "30d"
  | .all => "all"

/-- `VALID_RANGES` -/
def validRanges : List HistoryRange := [.day, .week, .month, .all]

/-- `isHistoryRange`, with the range. -/
def isHistoryRange (value : String) : Option HistoryRange := validRanges.find? fun r => r.text = value

/-- `RANGE_MS` -/
def rangeMs : HistoryRange → Option Int
  | .day => some (24 * 60 * 60 * 1000)
  | .week => some (7 * 24 * 60 * 60 * 1000)
  | .month => some (30 * 24 * 60 * 60 * 1000)
  | .all => none

/-- `rangeToCutoff`: none for all time. -/
def rangeToCutoff (range : HistoryRange) (now : Int) : Option Int :=
  (rangeMs range).map fun ms => now - ms

theorem isHistoryRange_text (range : HistoryRange) : isHistoryRange range.text = some range := by
  cases range <;> decide

/-! ## The formulas -/

/-- A deposit or withdrawal of the owner, with its value at the time. -/
structure BoundaryEvent where
  eventType : VaultEventType
  /-- Null for a legacy row. -/
  amountUsd : Option Rat
  feeBps : Nat
deriving DecidableEq, Repr

/-- `netDepositsUsd`: deposits less withdrawals; a row without a value is skipped. -/
def netDepositsUsd (events : List BoundaryEvent) : Rat :=
  events.foldl (fun sum e =>
    match e.amountUsd with
    | none => sum
    | some amountUsd =>
        match e.eventType with
        | .deposit => sum + amountUsd
        | .withdraw => sum - amountUsd) 0

/-- `feesUsd`: the fees of the moves, from their rates. -/
def feesUsd (events : List BoundaryEvent) : Rat :=
  events.foldl (fun sum e =>
    match e.amountUsd with
    | none => sum
    | some amountUsd => sum + amountUsd * e.feeBps / 10000) 0

/-- A profit, and its share of what was put in. -/
structure Pnl where
  pnlAbsUsd : Rat
  pnlPct : Option Rat
deriving DecidableEq, Repr

/-- `computePnl`: the profit since the beginning. -/
def computePnl (currentValueUsd netDeposits : Rat) : Pnl :=
  let pnlAbsUsd := currentValueUsd - netDeposits
  { pnlAbsUsd := pnlAbsUsd
    pnlPct := if 0 < netDeposits then some (pnlAbsUsd / netDeposits) else none }

/-- `computeRangePnl`: the profit since the start of the range. -/
def computeRangePnl (currentValueUsd valueAtRangeStartUsd netDepositsInRange : Rat) : Pnl :=
  let pnlAbsUsd := currentValueUsd - valueAtRangeStartUsd - netDepositsInRange
  let base := valueAtRangeStartUsd + netDepositsInRange
  { pnlAbsUsd := pnlAbsUsd
    pnlPct := if 0 < base then some (pnlAbsUsd / base) else none }

/-! ## The service -/

/-- A row of `VaultEvent`. -/
structure BoundaryRow extends BoundaryEvent where
  vaultId : String
  blockTimestamp : Int
deriving DecidableEq, Repr

/-- A row of `Execution`. -/
structure GasRow where
  vaultId : String
  gasCompUsd : Option Rat
  blockTimestamp : Int
deriving DecidableEq, Repr

/-- A snapshot of a vault. -/
structure VaultValueSnapshot where
  vaultId : String
  asOf : Int
  totalValueUsd : Rat
deriving DecidableEq, Repr

/-- The tables that the service reads. -/
structure PerformanceTables where
  vaults : Map String String
  vaultEvents : List BoundaryRow
  executions : List GasRow
  snapshots : List VaultValueSnapshot

/-- Where the value that is shown comes from. -/
inductive ViewSource where
  | snapshot
  | live
deriving DecidableEq, Repr

/-- What `getPositionsView` says about the value. -/
structure PositionsView where
  totalValueUsd : Rat
  source : ViewSource
deriving DecidableEq, Repr

/-- The later of the latest snapshot so far and the next one. -/
def laterSnapshot (latest : Option VaultValueSnapshot) (s : VaultValueSnapshot) :
    Option VaultValueSnapshot :=
  match latest with
  | none => some s
  | some l => if l.asOf < s.asOf then some s else some l

/-- The latest snapshot of a vault, by `orderBy: { asOf: 'desc' }`. -/
def latestSnapshot (db : PerformanceTables) (vaultId : String) (p : Int → Bool) :
    Option VaultValueSnapshot :=
  (db.snapshots.filter fun s => s.vaultId = vaultId && p s.asOf).foldl laterSnapshot none

/-- `getPositionsView` without `refresh`. `liveValueUsd` is what `valueVault` finds. -/
def getPositionsView (db : PerformanceTables) (liveValueUsd : Rat) (address : String) : PositionsView :=
  match (db.vaults address).bind fun vaultId => latestSnapshot db vaultId fun _ => true with
  | some snap => ⟨snap.totalValueUsd, .snapshot⟩
  | none => ⟨liveValueUsd, .live⟩

/-- What the interface shows of the performance. -/
structure VaultPerformance where
  currentValueUsd : Rat
  netDepositsUsd : Rat
  pnlAbsUsd : Rat
  pnlPct : Option Rat
  costsUsd : Rat
deriving DecidableEq, Repr

/-- `timeFilter`: at the cutoff or later. -/
def timeFilter (cutoff : Option Int) (blockTimestamp : Int) : Bool :=
  match cutoff with
  | none => true
  | some cutoff => cutoff ≤ blockTimestamp

/-- The snapshot at or just before the cutoff. -/
def baseline (db : PerformanceTables) (vaultId : String) (cutoff : Option Int) :
    Option VaultValueSnapshot :=
  cutoff.bind fun cutoff => latestSnapshot db vaultId fun asOf => asOf ≤ cutoff

/-- `getPerformance`: over all time, or over a range with the last snapshot before it as baseline. -/
def getPerformance (db : PerformanceTables) (liveValueUsd : Rat) (now : Int)
    (address rangeInput : String) :
    Except String VaultPerformance :=
  match isHistoryRange rangeInput with
  | none => .error ("range must be one of " ++ ", ".intercalate (validRanges.map HistoryRange.text))
  | some range =>
      let currentValueUsd := (getPositionsView db liveValueUsd address).totalValueUsd
      match db.vaults address with
      | none => .ok {
          currentValueUsd := currentValueUsd
          netDepositsUsd := 0
          pnlAbsUsd := currentValueUsd
          pnlPct := none
          costsUsd := 0 }
      | some vaultId =>
          -- the snapshot before the cutoff and the events after it: what lies between is in neither
          let cutoff := rangeToCutoff range now
          let valueAtRangeStartUsd := ((baseline db vaultId cutoff).map
            VaultValueSnapshot.totalValueUsd).getD 0
          let events := (db.vaultEvents.filter fun e =>
            e.vaultId = vaultId && timeFilter cutoff e.blockTimestamp).map BoundaryRow.toBoundaryEvent
          let executions := db.executions.filter fun x =>
            x.vaultId = vaultId && x.gasCompUsd.isSome && timeFilter cutoff x.blockTimestamp
          let netDeposits := netDepositsUsd events
          let gasUsd := executions.foldl (fun sum x => sum + x.gasCompUsd.getD 0) 0
          let pnl := computeRangePnl currentValueUsd valueAtRangeStartUsd netDeposits
          .ok {
            currentValueUsd := currentValueUsd
            netDepositsUsd := netDeposits
            pnlAbsUsd := pnl.pnlAbsUsd
            pnlPct := pnl.pnlPct
            costsUsd := feesUsd events + gasUsd }

/-! ## Moves of capital -/

/-- The owner moves value into the vault or out of it. -/
structure CapitalMove where
  eventType : VaultEventType
  valueUsd : Rat
  blockTimestamp : Int
deriving DecidableEq, Repr

namespace CapitalMove

/-- What the vault gains. -/
def gain (m : CapitalMove) : Rat :=
  match m.eventType with
  | .deposit => m.valueUsd
  | .withdraw => -m.valueUsd

/-- The row of a move without fees, with its value frozen. -/
def row (vaultId : String) (m : CapitalMove) : BoundaryRow where
  eventType := m.eventType
  amountUsd := some m.valueUsd
  feeBps := 0
  vaultId := vaultId
  blockTimestamp := m.blockTimestamp

end CapitalMove

/-- What was moved in at the times that `p` picks. -/
def moved (moves : List CapitalMove) (p : Int → Bool) : Rat :=
  ((moves.filter fun m => p m.blockTimestamp).map CapitalMove.gain).sum

/-- The value of a vault that only changes by the moves. -/
def valueAt (moves : List CapitalMove) (t : Int) : Rat := moved moves fun ts => ts ≤ t

/-- The value after all of them. -/
def valueNow (moves : List CapitalMove) : Rat := moved moves fun _ => true

theorem moved_cons (m : CapitalMove) (moves : List CapitalMove) (p : Int → Bool) :
    moved (m :: moves) p = (if p m.blockTimestamp = true then m.gain else 0) + moved moves p := by
  rw [moved, moved, List.filter_cons]
  split
  · rw [List.map_cons, List.sum_cons]
  · rw [zero_add]

/-- The moves that `p` picks are those that `q` picks too and those that it does not. -/
theorem moved_split (moves : List CapitalMove) (p q : Int → Bool) :
    moved moves p = moved moves (fun ts => p ts && q ts) + moved moves fun ts => p ts && !q ts := by
  induction moves with
  | nil => exact (add_zero 0).symm
  | cons m moves ih =>
    rw [moved_cons, moved_cons, moved_cons, ih]
    cases p m.blockTimestamp with
    | false => simp
    | true =>
      cases q m.blockTimestamp with
      | false => simp; ring
      | true => simp; ring

theorem moved_congr {p q : Int → Bool} (h : ∀ ts, p ts = true ↔ q ts = true)
    (moves : List CapitalMove) : moved moves p = moved moves q := by
  rw [funext fun ts => Bool.eq_iff_iff.2 (h ts)]

/-- The net deposits of the rows of moves. -/
theorem netDepositsUsd_rows (vaultId : String) (moves : List CapitalMove) :
    netDepositsUsd (moves.map fun m => (m.row vaultId).toBoundaryEvent) =
      (moves.map CapitalMove.gain).sum := by
  -- from any sum on; the moves are added one by one
  have hsum (moves : List CapitalMove) (sum : Rat) :
      (moves.map fun m => (m.row vaultId).toBoundaryEvent).foldl (fun sum e =>
        match e.amountUsd with
        | none => sum
        | some amountUsd =>
            match e.eventType with
            | .deposit => sum + amountUsd
            | .withdraw => sum - amountUsd) sum = sum + (moves.map CapitalMove.gain).sum := by
    induction moves generalizing sum with
    | nil => exact (add_zero sum).symm
    | cons m moves ih =>
      rw [List.map_cons, List.foldl_cons, ih, List.map_cons, List.sum_cons, ← add_assoc]
      congr 1
      cases hm : m.eventType with
      | deposit => simp [CapitalMove.row, CapitalMove.gain, hm]
      | withdraw => simp [CapitalMove.row, CapitalMove.gain, hm, sub_eq_add_neg]
  rw [netDepositsUsd, hsum, zero_add]

/-- The tables know the moves of the vault, and every snapshot has its exact value. -/
structure PureCapital (db : PerformanceTables) (vaultId : String) (moves : List CapitalMove) : Prop where
  indexed : (db.vaultEvents.filter fun e => e.vaultId = vaultId) = moves.map (CapitalMove.row vaultId)
  snapshots : ∀ s ∈ db.snapshots, s.vaultId = vaultId → s.totalValueUsd = valueAt moves s.asOf

/-- What was moved between the snapshot that stands for the start of a range and the start. Without a
snapshot that is everything before the start; a snapshot at the very start may have what was moved in
the same millisecond, which is in the range, too. -/
def movedBeforeStart (moves : List CapitalMove) (cutoff : Option Int)
    (snapshot : Option VaultValueSnapshot) : Rat :=
  match cutoff, snapshot with
  | none, _ => 0
  | some cutoff, none => moved moves fun ts => ts < cutoff
  | some cutoff, some s =>
      if s.asOf < cutoff then moved moves fun ts => s.asOf < ts && ts < cutoff
      else -moved moves fun ts => ts = cutoff

section

variable {db : PerformanceTables} {vaultId : String} {moves : List CapitalMove}

/-- The moves in the range, as the query finds them. -/
theorem PureCapital.netDeposits (h : PureCapital db vaultId moves) (p : Int → Bool) :
    netDepositsUsd ((db.vaultEvents.filter fun e => e.vaultId = vaultId && p e.blockTimestamp).map
      BoundaryRow.toBoundaryEvent) = moved moves p := by
  have hfilter : (db.vaultEvents.filter fun e => e.vaultId = vaultId && p e.blockTimestamp) =
      (moves.filter fun m => p m.blockTimestamp).map (CapitalMove.row vaultId) := by
    have hswap : (fun e : BoundaryRow => decide (e.vaultId = vaultId) && p e.blockTimestamp) =
        fun e => p e.blockTimestamp && decide (e.vaultId = vaultId) := by
      funext e
      rw [Bool.and_comm]
    rw [hswap, ← List.filter_filter, h.indexed, List.filter_map]
    rfl
  rw [hfilter, List.map_map]
  exact netDepositsUsd_rows vaultId _

/-- The latest snapshot is one of the list. -/
theorem mem_of_foldl_later {l : List VaultValueSnapshot} {latest : Option VaultValueSnapshot}
    {s : VaultValueSnapshot} (h : l.foldl laterSnapshot latest = some s) : s ∈ l ∨ latest = some s := by
  induction l generalizing latest with
  | nil => exact Or.inr h
  | cons x l ih =>
    rcases ih h with hs | hs
    · exact Or.inl (List.mem_cons_of_mem x hs)
    · cases latest with
      | none =>
        cases hs
        exact Or.inl List.mem_cons_self
      | some b =>
        rw [laterSnapshot] at hs
        split at hs
        · cases hs
          exact Or.inl List.mem_cons_self
        · exact Or.inr hs

theorem baseline_spec {cutoff : Int} {s : VaultValueSnapshot}
    (h : baseline db vaultId (some cutoff) = some s) :
    s ∈ db.snapshots ∧ s.vaultId = vaultId ∧ s.asOf ≤ cutoff := by
  have hlatest := (mem_of_foldl_later h).resolve_right nofun
  simpa using List.mem_filter.1 hlatest

/-- The value now, less that of the snapshot and what was moved since the start. -/
theorem PureCapital.change (h : PureCapital db vaultId moves) (cutoff : Option Int) :
    valueNow moves - ((baseline db vaultId cutoff).map VaultValueSnapshot.totalValueUsd).getD 0 -
      moved moves (timeFilter cutoff) = movedBeforeStart moves cutoff (baseline db vaultId cutoff) := by
  cases cutoff with
  | none =>
    -- for all time every event is in the range
    have hall : moved moves (timeFilter none) = valueNow moves := rfl
    rw [hall]
    exact (congrArg (· - valueNow moves) (sub_zero _)).trans (sub_self _)
  | some cutoff =>
    -- the value now is what was moved before the start and since
    have hnow : valueNow moves =
        moved moves (fun ts => ts < cutoff) + moved moves (timeFilter (some cutoff)) := by
      rw [valueNow, moved_split moves _ fun ts => ts < cutoff]
      congr 1
      apply moved_congr
      intro ts
      simp only [Bool.true_and, Bool.not_eq_true', decide_eq_false_iff_not, timeFilter,
        decide_eq_true_eq, not_lt]
    cases hbase : baseline db vaultId (some cutoff) with
    | none =>
      simp only [movedBeforeStart, Option.map_none, Option.getD_none, hnow]
      ring
    | some s =>
      obtain ⟨hmem, hvault, hle⟩ := baseline_spec hbase
      simp only [Option.map_some, Option.getD_some, movedBeforeStart, h.snapshots s hmem hvault, hnow]
      by_cases hlt : s.asOf < cutoff
      · -- the moves before the start are those that the snapshot has and those after it
        have hbefore : moved moves (fun ts => ts < cutoff) = valueAt moves s.asOf +
            moved moves fun ts => s.asOf < ts && ts < cutoff := by
          rw [moved_split moves _ fun ts => ts ≤ s.asOf, valueAt]
          congr 1
          · apply moved_congr
            intro ts
            simp only [Bool.and_eq_true, decide_eq_true_eq]
            omega
          · apply moved_congr
            intro ts
            simp only [Bool.and_eq_true, Bool.not_eq_true', decide_eq_true_eq, decide_eq_false_iff_not]
            omega
        rw [if_pos hlt, hbefore]
        ring
      · -- the snapshot is taken at the start
        have hat : valueAt moves s.asOf = moved moves (fun ts => ts < cutoff) +
            moved moves fun ts => ts = cutoff := by
          rw [valueAt, moved_split moves _ fun ts => ts < cutoff]
          congr 1
          · apply moved_congr
            intro ts
            simp only [Bool.and_eq_true, decide_eq_true_eq]
            omega
          · apply moved_congr
            intro ts
            simp only [Bool.and_eq_true, Bool.not_eq_true', decide_eq_true_eq, decide_eq_false_iff_not]
            omega
        rw [if_neg hlt, hat]
        ring

/-- The profit of a vault without any is what was moved between the snapshot and the start. -/
theorem pnl_eq {address : String} (hvault : db.vaults address = some vaultId)
    (h : PureCapital db vaultId moves) {liveValueUsd : Rat}
    (hlive : (getPositionsView db liveValueUsd address).totalValueUsd = valueNow moves) (now : Int)
    (range : HistoryRange) :
    ∃ p, getPerformance db liveValueUsd now address range.text = .ok p ∧
      p.pnlAbsUsd = movedBeforeStart moves (rangeToCutoff range now)
        (baseline db vaultId (rangeToCutoff range now)) := by
  simp only [getPerformance, isHistoryRange_text, hvault]
  refine ⟨_, rfl, ?_⟩
  simp only [computeRangePnl, h.netDeposits, hlive]
  exact h.change _

/-- **Capital is no profit** exactly if what was moved between the snapshot and the start of the range
adds up to nothing. -/
theorem capital_moves_iff {address : String} (hvault : db.vaults address = some vaultId)
    (h : PureCapital db vaultId moves) {liveValueUsd : Rat}
    (hlive : (getPositionsView db liveValueUsd address).totalValueUsd = valueNow moves) (now : Int)
    (range : HistoryRange) :
    (∃ p, getPerformance db liveValueUsd now address range.text = .ok p ∧ p.pnlAbsUsd = 0) ↔
      movedBeforeStart moves (rangeToCutoff range now)
        (baseline db vaultId (rangeToCutoff range now)) = 0 := by
  obtain ⟨p, hp, hpnl⟩ := pnl_eq hvault h hlive now range
  rw [← hpnl]
  constructor
  · rintro ⟨p', hp', hzero⟩
    rw [hp] at hp'
    cases hp'
    exact hzero
  · exact fun hzero => ⟨p, hp, hzero⟩

end

section Sample

/-- The owner deposits 1000 USD. -/
def sampleMoves : List CapitalMove := [⟨.deposit, 1000, 1780000000000⟩]

/-- One vault without snapshots. -/
def sampleTables : PerformanceTables where
  vaults := Map.empty.set "0x01" "vault-1"
  vaultEvents := sampleMoves.map (CapitalMove.row "vault-1")
  executions := []
  snapshots := []

theorem sampleTables_pure : PureCapital sampleTables "vault-1" sampleMoves where
  indexed := by decide
  snapshots := nofun

/-- Eight days later. -/
def sampleNow : Int := 1780000000000 + 8 * 24 * 60 * 60 * 1000

end Sample

/-- In the range of 30 days. -/
theorem capital_moves_sample : ∃ p, getPerformance sampleTables 1000 sampleNow "0x01"
    HistoryRange.month.text = .ok p ∧ p.pnlAbsUsd = 0 :=
  (capital_moves_iff rfl sampleTables_pure (by decide +kernel) sampleNow .month).2 (by decide)

/-- In the range of 7 days the deposit is a profit. -/
theorem deposit_shows_as_profit : PureCapital sampleTables "vault-1" sampleMoves ∧
    getPositionsView sampleTables 1000 "0x01" = ⟨valueNow sampleMoves, .live⟩ ∧
      ∃ p, getPerformance sampleTables 1000 sampleNow "0x01" HistoryRange.week.text = .ok p ∧
        p.pnlAbsUsd = 1000 :=
  ⟨sampleTables_pure, by decide +kernel, _, rfl, by decide +kernel⟩

end StrategyBuilder.Cockpit
