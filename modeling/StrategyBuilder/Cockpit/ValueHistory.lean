import Mathlib.Data.List.NodupEquivFin
import StrategyBuilder.Cockpit.SnapshotService

/-!
# The value history

`history.ts` and `history.service.ts`: the snapshots of a vault in a range, thinned to a bounded number
of points, with the moves of the owner as markers. The points are picked at `Math.round(i * step)`, in
doubles. A read of an array beyond its end gives `undefined`, which is `none` here.

For every series that fits in memory the rounding does no harm: the points picked are distinct and in
order, no more than asked for, and the first and the last point of the series are among them
(`downsample_spec`). Hence a history is a part of the snapshot series from its first to its last point
(`history_points`).
-/

set_option autoImplicit false

namespace StrategyBuilder.Cockpit

open StrategyBuilder.Indexer
open StrategyBuilder.Lib.Js

universe u

/-! ## `downsample` -/

/-- `Math.round(x)`: the larger of two nearest integers. -/
def mathRound : JsNumber → JsNumber
  | .finite q => .ofInt (q + 1 / 2).floor
  | x => x

/-- `points[x]` -/
def arrayAt {α : Type u} (points : List α) (x : JsNumber) : Option α :=
  match x.integer? with
  | some k => if 0 ≤ k then points[k.toNat]? else none
  | none => none

/-- `(n - 1) / (maxPoints - 1)` -/
def sampleStep (n maxPoints : Nat) : JsNumber :=
  (JsNumber.ofInt (n - 1)).div (.ofInt (maxPoints - 1))

/-- `downsample`: the points at evenly spaced positions, rounded; few points are all kept. -/
def downsample {α : Type u} (points : List α) (maxPoints : Nat) : List (Option α) :=
  if maxPoints < 2 ∨ points.length ≤ maxPoints then points.map some
  else
    (List.range maxPoints).map fun (i : Nat) =>
      arrayAt points (mathRound ((JsNumber.ofInt i).mul (sampleStep points.length maxPoints)))

/-- The `i`-th point is picked near `i (n - 1) / (m - 1)`. -/
theorem sample_near {n m i : Nat} (hm : 2 ≤ m) (hn : m < n) (hsize : n * m ≤ 2 ^ 50) (hi : i < m) :
    ∃ r : Rat, (JsNumber.ofInt i).mul (sampleStep n m) = .finite r ∧
      |r - i * ((n - 1) / (m - 1))| ≤ n / 2 ^ 51 := by
  have hm1 : (0 : Rat) < m - 1 := by
    have : (2 : Rat) ≤ m := by exact_mod_cast hm
    linarith
  have hnm : (m : Rat) + 1 ≤ n := by exact_mod_cast hn
  have hsize' : (n : Rat) * m ≤ 2 ^ 50 := by exact_mod_cast hsize
  have hnle : (n : Rat) ≤ 2 ^ 50 := by
    have : (1 : Rat) ≤ m := by linarith
    nlinarith
  -- `S` is the exact step, between 1 and `n - 1`
  obtain ⟨S, hS⟩ : ∃ S : Rat, S = (n - 1) / (m - 1) := ⟨_, rfl⟩
  have hSone : 1 ≤ S := by
    rw [hS, le_div_iff₀ hm1]
    linarith
  have hSle : S * (m - 1) = n - 1 := by rw [hS, div_mul_cancel₀ _ hm1.ne']
  have hSn : S ≤ n - 1 := by
    rw [← hSle]
    have : (1 : Rat) ≤ m - 1 := by
      have : (2 : Rat) ≤ m := by exact_mod_cast hm
      linarith
    nlinarith
  -- the first rounding: the quotient
  obtain ⟨s, hs, hsone, hnear⟩ := toDouble_relative hSone (by linarith : S ≤ 2 ^ 52)
  have hstep : sampleStep n m = .finite s := by
    have hne : ((m : Rat) - 1) ≠ 0 := hm1.ne'
    have hdiv : sampleStep n m = toDouble S := by
      simp only [sampleStep, JsNumber.div, JsNumber.ofInt]
      push_cast
      rw [if_pos hne, hS]
    rw [hdiv, hs]
  rw [hstep]
  rcases Nat.eq_zero_or_pos i with rfl | hpos
  · refine ⟨0, ?_, ?_⟩
    · have h0 : toDouble ((0 : Int) : Rat) = .ofInt 0 := toDouble_intCast (by decide)
      simpa [JsNumber.mul, JsNumber.ofInt] using h0
    · simp only [Nat.cast_zero, zero_mul, sub_zero, abs_zero]
      positivity
  · have hione : (1 : Rat) ≤ i := by exact_mod_cast hpos
    have him : (i : Rat) ≤ m - 1 := by
      have : (i : Rat) + 1 ≤ m := by exact_mod_cast hi
      linarith
    have hiS : (i : Rat) * S ≤ n - 1 := by
      rw [← hSle]
      nlinarith
    have hs2 : s ≤ 2 * S := by
      have hsmall : S / 2 ^ 53 ≤ S := div_le_self (by linarith) (by norm_num)
      have hs := (abs_le.1 hnear).2
      linarith
    have his : (i : Rat) * s ≤ 2 * (n - 1) := by nlinarith
    -- the second rounding: the product
    obtain ⟨r, hr, -, hround⟩ := toDouble_relative (q := i * s) (by nlinarith) (by linarith)
    refine ⟨r, ?_, ?_⟩
    · simpa [JsNumber.mul, JsNumber.ofInt] using hr
    · rw [← hS]
      have hprod : |(i : Rat) * s - i * S| ≤ i * (S / 2 ^ 53) := by
        rw [← mul_sub, abs_mul, abs_of_nonneg (by linarith : (0 : Rat) ≤ i)]
        exact mul_le_mul_of_nonneg_left hnear (by linarith)
      -- both errors together stay below `n / 2 ^ 51`
      calc |r - i * S| = |(r - i * s) + (i * s - i * S)| := by ring_nf
        _ ≤ |r - i * s| + |(i : Rat) * s - i * S| := abs_add_le _ _
        _ ≤ i * s / 2 ^ 53 + i * (S / 2 ^ 53) := add_le_add hround hprod
        _ ≤ 2 * (n - 1) / 2 ^ 53 + (n - 1) / 2 ^ 53 := by
            refine add_le_add (div_le_div_of_nonneg_right his (by norm_num)) ?_
            rw [← mul_div_assoc]
            exact div_le_div_of_nonneg_right hiS (by norm_num)
        _ ≤ n / 2 ^ 51 := by
            rw [← add_div, div_le_div_iff₀ (by norm_num) (by norm_num)]
            linarith

/-- The picks: the index of the `i`-th point. -/
structure Picks (n m : Nat) (pick : Nat → Nat) : Prop where
  rounded : ∀ i, i < m →
    mathRound ((JsNumber.ofInt i).mul (sampleStep n m)) = .ofInt (pick i : Nat)
  increasing : ∀ i j, i < j → j < m → pick i < pick j
  first : pick 0 = 0
  last : pick (m - 1) = n - 1

/-- The rounding of the doubles neither merges two picks nor moves the ends. -/
theorem exists_picks {n m : Nat} (hm : 2 ≤ m) (hn : m < n) (hsize : n * m ≤ 2 ^ 50) :
    ∃ pick, Picks n m pick := by
  choose! r hr hnear using fun i (hi : i < m) => sample_near hm hn hsize hi
  have hm1 : (0 : Rat) < m - 1 := by
    have : (2 : Rat) ≤ m := by exact_mod_cast hm
    linarith
  have hnm : (m : Rat) + 1 ≤ n := by exact_mod_cast hn
  have hsize' : (n : Rat) * m ≤ 2 ^ 50 := by exact_mod_cast hsize
  obtain ⟨S, hS⟩ : ∃ S : Rat, S = (n - 1) / (m - 1) := ⟨_, rfl⟩
  simp only [← hS] at hnear
  have hSle : S * (m - 1) = n - 1 := by rw [hS, div_mul_cancel₀ _ hm1.ne']
  -- two neighbours are more than 1 apart, with room for both errors
  have hgap : 1 + 2 * ((n : Rat) / 2 ^ 51) ≤ S := by
    rw [hS, le_div_iff₀ hm1]
    have : (n : Rat) * (m - 1) ≤ 2 ^ 50 := by nlinarith
    have : 2 * ((n : Rat) / 2 ^ 51) * (m - 1) ≤ 1 := by
      rw [← mul_div_assoc, div_mul_eq_mul_div, div_le_one (by norm_num)]
      linarith
    nlinarith
  have herror : (n : Rat) / 2 ^ 51 < 1 / 2 := by
    have : (n : Rat) ≤ 2 ^ 49 := by
      have : (2 : Rat) ≤ m := by exact_mod_cast hm
      nlinarith
    rw [div_lt_div_iff₀ (by norm_num) (by norm_num)]
    linarith
  have hstep : ∀ i j, i < j → j < m → r i + 1 ≤ r j := by
    intro i j hij hj
    have hi' := abs_le.1 (hnear i (hij.trans hj))
    have hj' := abs_le.1 (hnear j hj)
    have hij' : (i : Rat) + 1 ≤ j := by exact_mod_cast hij
    have hS0 : 0 ≤ S := by
      have : (0 : Rat) ≤ (n : Rat) / 2 ^ 51 := by positivity
      linarith
    have : (i : Rat) * S + S ≤ j * S := by nlinarith
    linarith
  have hfirst : (r 0 + 1 / 2).floor = 0 := by
    have h0 := abs_le.1 (hnear 0 (by omega))
    rw [Nat.cast_zero, zero_mul, sub_zero] at h0
    refine (Int.floor_eq_iff (a := r 0 + 1 / 2)).2 ⟨?_, ?_⟩
    · push_cast
      linarith
    · push_cast
      linarith
  have hlast : (r (m - 1) + 1 / 2).floor = (n - 1 : Nat) := by
    have hl := abs_le.1 (hnear (m - 1) (by omega))
    have hcast : ((m - 1 : Nat) : Rat) * S = n - 1 := by
      rw [Nat.cast_sub (by omega), Nat.cast_one, mul_comm]
      exact hSle
    rw [hcast] at hl
    refine (Int.floor_eq_iff (a := r (m - 1) + 1 / 2)).2 ⟨?_, ?_⟩
    · rw [Int.cast_natCast, Nat.cast_sub (by omega), Nat.cast_one]
      linarith
    · rw [Int.cast_natCast, Nat.cast_sub (by omega), Nat.cast_one]
      linarith
  have hfloor : ∀ i j, i < j → j < m → (r i + 1 / 2).floor + 1 ≤ (r j + 1 / 2).floor := by
    intro i j hij hj
    have h := hstep i j hij hj
    refine Rat.le_floor_iff.2 ?_
    have hle := Rat.floor_le (r i + 1 / 2)
    push_cast
    linarith
  have hnonneg : ∀ i, i < m → 0 ≤ (r i + 1 / 2).floor := by
    intro i hi
    rcases Nat.eq_zero_or_pos i with rfl | hpos
    · exact hfirst.ge
    · have := hfloor 0 i hpos hi
      omega
  refine ⟨fun i => (r i + 1 / 2).floor.toNat, ?_, ?_, ?_, ?_⟩
  · intro i hi
    rw [hr i hi]
    simp only [mathRound, Int.toNat_of_nonneg (hnonneg i hi)]
  · intro i j hij hj
    have hi := hnonneg i (hij.trans hj)
    have := hfloor i j hij hj
    change (r i + 1 / 2).floor.toNat < (r j + 1 / 2).floor.toNat
    omega
  · rw [hfirst]
    rfl
  · rw [hlast]
    rfl

theorem arrayAt_ofInt {α : Type u} (points : List α) (k : Nat) :
    arrayAt points (.ofInt k) = points[k]? := by
  have hint : (JsNumber.ofInt (k : Int)).integer? = some (k : Int) := by
    simp [JsNumber.integer?, JsNumber.ofInt]
  rw [arrayAt, hint]
  exact if_pos (Int.natCast_nonneg k)

/-- **Thinning keeps order and ends.** For every series, as far as its length times the bound is at most
`2 ^ 50`: the points returned are points of the series, each at most once and in its order, at most
`maxPoints` of them (if that is 2 or more), with the first and the last one. -/
theorem downsample_spec {α : Type u} (points : List α) (maxPoints : Nat)
    (hsize : points.length * maxPoints ≤ 2 ^ 50) :
    ∃ out : List α, downsample points maxPoints = out.map some ∧ out.Sublist points ∧
      (2 ≤ maxPoints → out.length = min points.length maxPoints) ∧
      out.head? = points.head? ∧ out.getLast? = points.getLast? := by
  by_cases hsmall : maxPoints < 2 ∨ points.length ≤ maxPoints
  · refine ⟨points, if_pos hsmall, List.Sublist.refl points, ?_, rfl, rfl⟩
    intro hm
    omega
  have hm : 2 ≤ maxPoints := by omega
  have hn : maxPoints < points.length := by omega
  -- the positions picked rise strictly from 0 to the last one
  obtain ⟨pick, hrounded, hincreasing, hfirst, hlast⟩ := exists_picks hm hn hsize
  have hlt : ∀ i, i < maxPoints → pick i < points.length := by
    intro i hi
    rcases Nat.lt_or_ge i (maxPoints - 1) with h | h
    · have := hincreasing i (maxPoints - 1) h (by omega)
      omega
    · have : i = maxPoints - 1 := by omega
      rw [this, hlast]
      omega
  -- so they pick a sublist
  let out : List α := List.ofFn fun i : Fin maxPoints => points.get ⟨pick i, hlt i i.2⟩
  have hlength : out.length = maxPoints := List.length_ofFn
  have hget : ∀ i, i < maxPoints → out[i]? = points[pick i]? := by
    intro i hi
    rw [List.getElem?_ofFn, dif_pos hi, List.getElem?_eq_getElem (hlt i hi)]
    rfl
  refine ⟨out, ?_, ?_, fun _ => by omega, ?_, ?_⟩
  · refine List.ext_getElem? fun i => ?_
    rw [downsample, if_neg hsmall, List.getElem?_map, List.getElem?_map]
    by_cases hi : i < maxPoints
    · rw [List.getElem?_range hi, hget i hi, Option.map_some, hrounded i hi, arrayAt_ofInt,
        List.getElem?_eq_getElem (hlt i hi)]
      rfl
    · rw [List.getElem?_eq_none (by rw [List.length_range]; omega),
        List.getElem?_eq_none (by omega)]
      rfl
  · rw [List.sublist_iff_exists_fin_orderEmbedding_get_eq]
    have hfin : ∀ i : Fin out.length, (i : Nat) < maxPoints := fun i => hlength ▸ i.2
    refine ⟨OrderEmbedding.ofStrictMono
      (fun i => ⟨pick i, hlt i (hfin i)⟩) fun i j hij => hincreasing i j hij (hfin j), ?_⟩
    intro i
    have h := hget i (hfin i)
    rw [List.getElem?_eq_getElem i.2, List.getElem?_eq_getElem (hlt i (hfin i))] at h
    exact Option.some.inj h
  · rw [List.head?_eq_getElem?, List.head?_eq_getElem?, hget 0 (by omega), hfirst]
  · rw [List.getLast?_eq_getElem?, List.getLast?_eq_getElem?, hlength, hget _ (by omega), hlast]

/-! ## The service -/

/-- `MAX_HISTORY_POINTS` -/
def maxHistoryPoints : Nat := 200

/-- A point of the curve. -/
structure HistoryPoint where
  t : Int
  valueUsd : Rat
deriving DecidableEq, Repr

/-- A move of the owner, shown on the curve. -/
structure HistoryMarker where
  t : Int
  type : VaultEventType
  token : String
  amount : String
  amountUsd : Option Rat
deriving DecidableEq, Repr

/-- What the interface shows. -/
structure ValueHistory where
  range : HistoryRange
  points : List (Option HistoryPoint)
  markers : List HistoryMarker
  historyStartsAt : Option Int
deriving DecidableEq, Repr

/-- A row of `VaultEvent`, as far as a marker shows it. -/
structure MarkerRow where
  vaultId : String
  eventType : VaultEventType
  token : String
  amount : String
  amountUsd : Option Rat
  blockTimestamp : Int
deriving DecidableEq, Repr

/-- What the three queries answer. -/
structure HistoryReads where
  first : Option Int
  snaps : List Snapshots.SnapshotRow
  events : List MarkerRow
deriving DecidableEq, Repr

/-- The tables that are read. -/
structure HistoryTables where
  snapshots : List Snapshots.SnapshotRow
  vaultEvents : List MarkerRow

/-- The snapshots of a vault at the cutoff or later. -/
def HistoryTables.snapshotsSince (db : HistoryTables) (vaultId : String) (cutoff : Option Int) :
    List Snapshots.SnapshotRow :=
  db.snapshots.filter fun s => s.vaultId = vaultId && timeFilter cutoff s.asOf

/-- The moves of a vault at the cutoff or later. -/
def HistoryTables.eventsSince (db : HistoryTables) (vaultId : String) (cutoff : Option Int) :
    List MarkerRow :=
  db.vaultEvents.filter fun e => e.vaultId = vaultId && timeFilter cutoff e.blockTimestamp

/-- The answers to the queries on a database. Rows of one time come in any order. -/
structure HistoryReads.Answer (reads : HistoryReads) (db : HistoryTables) (vaultId : String)
    (cutoff : Option Int) : Prop where
  first : reads.first = ((db.snapshotsSince vaultId none).map fun s => s.asOf).min?
  snaps : reads.snaps.Perm (db.snapshotsSince vaultId cutoff)
  snapsOrder : reads.snaps.Pairwise fun s s' => s.asOf ≤ s'.asOf
  events : reads.events.Perm (db.eventsSince vaultId cutoff)
  eventsOrder : reads.events.Pairwise fun e e' => e.blockTimestamp ≤ e'.blockTimestamp

/-- The column holds the text of the number that the snapshot was taken with, which `Number` reads
back. -/
def snapshotPoint (s : Snapshots.SnapshotRow) : HistoryPoint := ⟨s.asOf, s.totalValueUsd⟩

/-- The marker of a row. -/
def eventMarker (e : MarkerRow) : HistoryMarker :=
  ⟨e.blockTimestamp, e.eventType, e.token, e.amount, e.amountUsd⟩

/-- `getValueHistory`, where `vault` is the vault found at the address, and `reads` answers the queries
with the cutoff of the range. -/
def getValueHistory (vault : Option String) (rangeInput : String) (reads : HistoryReads) :
    Except String ValueHistory :=
  match isHistoryRange rangeInput with
  | none => .error ("range must be one of " ++ ", ".intercalate (validRanges.map HistoryRange.text))
  | some range =>
      match vault with
      -- an unknown vault has no history, and that is no error
      | none => .ok ⟨range, [], [], none⟩
      | some _ => .ok {
          range := range
          points := downsample (reads.snaps.map snapshotPoint) maxHistoryPoints
          markers := reads.events.map eventMarker
          historyStartsAt := reads.first }

/-- What a history shows of a database: no more points than the bound, each of them a snapshot of the
vault in the range, in the order of time; and between the first and the last of them lie all snapshots
of the vault in the range. -/
structure ValueHistory.Shows (history : ValueHistory) (db : HistoryTables) (vaultId : String)
    (cutoff : Option Int) : Prop where
  points : ∃ out : List HistoryPoint, history.points = out.map some ∧
    out.length ≤ maxHistoryPoints ∧ (out.Pairwise fun p q => p.t ≤ q.t) ∧
    (∀ p ∈ out, ∃ s ∈ db.snapshotsSince vaultId cutoff, p = snapshotPoint s) ∧
    ∀ s ∈ db.snapshotsSince vaultId cutoff,
      ∃ p ∈ out.head?, ∃ q ∈ out.getLast?, p.t ≤ s.asOf ∧ s.asOf ≤ q.t
  markers : history.markers.Perm ((db.eventsSince vaultId cutoff).map eventMarker)
  startsAt : ∀ s ∈ db.snapshotsSince vaultId cutoff, ∃ t ∈ history.historyStartsAt, t ≤ s.asOf

/-- In an ordered list every member lies between the ends. -/
theorem between_ends {out : List HistoryPoint} (h : out.Pairwise fun p q => p.t ≤ q.t)
    {x : HistoryPoint} (hx : x ∈ out) : ∃ p ∈ out.head?, ∃ q ∈ out.getLast?, p.t ≤ x.t ∧ x.t ≤ q.t := by
  obtain ⟨k, hk, rfl⟩ := List.getElem_of_mem hx
  have hpos : 0 < out.length := by omega
  have hle : ∀ i j (hi : i < out.length) (hj : j < out.length), i ≤ j →
      (out[i]).t ≤ (out[j]).t := by
    intro i j hi hj hij
    rcases Nat.eq_or_lt_of_le hij with rfl | hlt
    · exact le_refl _
    · exact List.pairwise_iff_getElem.1 h i j hi hj hlt
  refine ⟨out[0], ?_, out[out.length - 1], ?_, hle 0 k hpos hk (Nat.zero_le k),
    hle k _ hk (by omega) (by omega)⟩
  · rw [List.head?_eq_getElem?, List.getElem?_eq_getElem hpos]
    rfl
  · rw [List.getLast?_eq_getElem?, List.getElem?_eq_getElem (by omega)]
    rfl

/-- **A history shows its range**, whatever the order of rows of one time, for every series that fits in
memory. -/
theorem history_shows {db : HistoryTables} {vaultId rangeInput : String} {range : HistoryRange}
    {now : Int} {reads : HistoryReads} {history : ValueHistory}
    (hrange : isHistoryRange rangeInput = some range)
    (hreads : reads.Answer db vaultId (rangeToCutoff range now))
    (hsize : reads.snaps.length < 2 ^ 32)
    (h : getValueHistory (some vaultId) rangeInput reads = .ok history) :
    history.Shows db vaultId (rangeToCutoff range now) := by
  obtain ⟨hfirst, hsnaps, hsorder, hevents, -⟩ := hreads
  simp only [getValueHistory, hrange, Except.ok.injEq] at h
  subst h
  obtain ⟨out, hout, hsub, hlength, hhead, hlast⟩ :=
    downsample_spec (reads.snaps.map snapshotPoint) maxHistoryPoints (by
      rw [List.length_map, maxHistoryPoints]
      omega)
  -- the series is in the order of the times, and so is every sublist
  have hseries : (reads.snaps.map snapshotPoint).Pairwise fun p q => p.t ≤ q.t :=
    List.pairwise_map.2 hsorder
  constructor
  · refine ⟨out, hout, ?_, hseries.sublist hsub, ?_, ?_⟩
    · rw [hlength (by decide)]
      exact Nat.min_le_right _ _
    · intro p hp
      obtain ⟨s, hs, rfl⟩ := List.mem_map.1 (hsub.subset hp)
      exact ⟨s, hsnaps.mem_iff.1 hs, rfl⟩
    · intro s hs
      -- a snapshot that is left out lies between the first and the last one
      have hmem : snapshotPoint s ∈ reads.snaps.map snapshotPoint :=
        List.mem_map_of_mem (hsnaps.mem_iff.2 hs)
      rw [hhead, hlast]
      exact between_ends hseries hmem
  · exact hevents.map eventMarker
  · intro s hs
    -- the least time of all snapshots of the vault
    have hall : s.asOf ∈ (db.snapshotsSince vaultId none).map fun s => s.asOf := by
      refine List.mem_map_of_mem ?_
      simp only [HistoryTables.snapshotsSince, List.mem_filter, Bool.and_eq_true,
        decide_eq_true_eq] at hs ⊢
      exact ⟨hs.1, hs.2.1, rfl⟩
    change ∃ t ∈ reads.first, t ≤ s.asOf
    rw [hfirst]
    cases hmin : ((db.snapshotsSince vaultId none).map fun s => s.asOf).min? with
    | none =>
      rw [List.min?_eq_none_iff.1 hmin] at hall
      cases hall
    | some t => exact ⟨t, rfl, (List.min?_eq_some_iff.1 hmin).2 _ hall⟩

/-- The snapshot of an hour. -/
def hourly (i : Nat) : Snapshots.SnapshotRow := ⟨⟨"v1", 3600000 * i, i⟩, none, []⟩

/-- An hourly series of a vault, longer than what is shown, with a move of the vault and one of
another. -/
def historyTables : HistoryTables where
  snapshots := (List.range 250).map hourly
  vaultEvents := [⟨"v1", .deposit, "0x05", "100", some 100, 7200000⟩,
    ⟨"v2", .withdraw, "0x05", "40", none, 7200000⟩]

/-- What is read of the series for the first vault. -/
def historyReads : HistoryReads where
  first := some 0
  snaps := historyTables.snapshots
  events := [⟨"v1", .deposit, "0x05", "100", some 100, 7200000⟩]

/-- These reads are the answers of the tables. -/
theorem historyReads_answer : historyReads.Answer historyTables "v1" none := by
  have hall : historyTables.snapshotsSince "v1" none = historyTables.snapshots := by
    refine List.filter_eq_self.2 fun s hs => ?_
    obtain ⟨i, -, rfl⟩ := List.mem_map.1 hs
    rfl
  refine ⟨?_, ?_, ?_, ?_, ?_⟩
  · rw [hall]
    have hfirst : historyReads.first = some 0 := rfl
    rw [hfirst, eq_comm, List.min?_eq_some_iff]
    refine ⟨?_, fun t ht => ?_⟩
    · exact List.mem_map.2 ⟨hourly 0, List.mem_map_of_mem (List.mem_range.2 (by decide)), rfl⟩
    · obtain ⟨s, hs, rfl⟩ := List.mem_map.1 ht
      obtain ⟨i, -, rfl⟩ := List.mem_map.1 hs
      change (0 : Int) ≤ 3600000 * i
      omega
  · rw [hall]
    exact List.Perm.refl _
  · refine List.pairwise_map.2 (List.pairwise_lt_range.imp fun {a b} h => ?_)
    change (3600000 * a : Int) ≤ 3600000 * b
    omega
  · decide
  · exact List.pairwise_singleton _ _

/-- Of 250 snapshots 200 are shown, and the move of the vault. -/
theorem history_shows_sample :
    ∃ history, getValueHistory (some "v1") "all" historyReads = .ok history ∧
      history.Shows historyTables "v1" none ∧ history.points.length = 200 ∧
      history.markers = [⟨7200000, .deposit, "0x05", "100", some 100⟩] := by
  have hrange : isHistoryRange "all" = some .all := isHistoryRange_text .all
  have hsize : historyReads.snaps.length = 250 := by
    rw [historyReads, historyTables, List.length_map, List.length_range]
  have hthinned : (downsample (historyReads.snaps.map snapshotPoint) maxHistoryPoints).length = 200 := by
    rw [downsample, if_neg (by rw [List.length_map, hsize]; decide), List.length_map, List.length_range]
    rfl
  obtain ⟨history, hhistory⟩ : ∃ history,
      getValueHistory (some "v1") "all" historyReads = .ok history := by
    rw [getValueHistory, hrange]
    exact ⟨_, rfl⟩
  have hshows := @history_shows historyTables "v1" "all" .all 0 historyReads history hrange
    historyReads_answer (by omega) hhistory
  rw [getValueHistory, hrange, Except.ok.injEq] at hhistory
  refine ⟨history, ?_, hshows, ?_, ?_⟩
  · rw [getValueHistory, hrange, ← hhistory]
  · rw [← hhistory]
    dsimp only
    exact hthinned
  · rw [← hhistory]
    rfl

end StrategyBuilder.Cockpit
