import StrategyBuilder.Indexer.IndexerCalls
import StrategyBuilder.Indexer.VaultInterface

/-!
# Scanning blocks

A tick plans windows over the confirmed blocks behind the cursor, and `fetchLogs` halves a window as
often as the node refuses it. Neither skips a block or reads one twice (`scan_covers_once`).

The recursion of `fetchLogs` has no fuel in the source: it ends since a half has fewer blocks
(`fetchLogs_eq`), after at most twice as many calls as there are blocks (`fetchLogs_calls`).
-/

set_option autoImplicit false

namespace StrategyBuilder.Indexer

open StrategyBuilder.Lib
open StrategyBuilder.Lib.Async
open StrategyBuilder.Indexer.VaultInterface

/-! ## The recursion -/

namespace RangePlanner

/-- A half spans fewer blocks. -/
theorem halve_span {range : BlockRange} (h : range.fromBlock < range.toBlock) :
    ∀ half ∈ halve range, half.toBlock - half.fromBlock < range.toBlock - range.fromBlock := by
  unfold halve
  rw [if_neg (Nat.not_le.2 h)]
  intro half hhalf
  simp only [List.mem_cons, List.not_mem_nil, or_false] at hhalf
  rcases hhalf with rfl | rfl
  · simp only
    omega
  · simp only
    omega

end RangePlanner

/-- The request for a range and what follows when it is refused, over the recursive call. -/
def fetchLogsBody (cfg : Config) (range : BlockRange) (fetch : BlockRange → Program (List RawLog)) :
    Program (List RawLog) :=
  (getLogs cfg range).tryCatch
    (if range.fromBlock < range.toBlock then
      (RangePlanner.halve range).foldlM
        (fun out half => do
          let logs ← fetch half
          pure (out ++ logs)) []
    else Async.throw)

variable {cfg : Config}

/-- A range asks for its halves only. -/
theorem fetchLogsBody_congr {range : BlockRange} {fetch fetch' : BlockRange → Program (List RawLog)}
    (h : range.fromBlock < range.toBlock → ∀ half ∈ RangePlanner.halve range, fetch half = fetch' half) :
    fetchLogsBody cfg range fetch = fetchLogsBody cfg range fetch' := by
  unfold fetchLogsBody
  split
  · rename_i hlt
    congr 1
    apply foldlM_congr
    intro out half hhalf
    rw [h hlt half hhalf]
  · rfl

/-- Without fuel there is a single block. -/
theorem fetchLogsWithin_zero {range : BlockRange} (h : range.toBlock ≤ range.fromBlock)
    (fetch : BlockRange → Program (List RawLog)) :
    fetchLogsWithin cfg 0 range = fetchLogsBody cfg range fetch := by
  unfold fetchLogsBody
  rw [if_neg (Nat.not_lt.2 h)]
  apply Async.ext_run
  intro ω t s
  change (getLogs cfg range).run ω t s = andThen ((getLogs cfg range).run ω t s) _ _
  -- the handler throws, as the request did
  rcases (getLogs cfg range).run ω t s with ⟨o, t', s'⟩
  cases o with
  | returned logs => rfl
  | thrown => rfl
  | stopped => rfl

/-- Fuel for every block but one is enough, and more changes nothing. -/
theorem fetchLogsWithin_congr {m n : Nat} {range : BlockRange}
    (hm : range.toBlock - range.fromBlock ≤ m) (hn : range.toBlock - range.fromBlock ≤ n) :
    fetchLogsWithin cfg m range = fetchLogsWithin cfg n range := by
  induction m generalizing n range with
  | zero =>
    cases n with
    | zero => rfl
    | succ n => exact fetchLogsWithin_zero (by omega) _
  | succ m ih =>
    cases n with
    | zero => exact (fetchLogsWithin_zero (by omega) _).symm
    | succ n =>
      -- both leave enough for the halves
      apply fetchLogsBody_congr
      intro hlt half hhalf
      have hspan := RangePlanner.halve_span hlt half hhalf
      exact ih (by omega) (by omega)

/-- `fetchLogs` is the recursion of the source. -/
theorem fetchLogs_eq (range : BlockRange) :
    fetchLogs cfg range = fetchLogsBody cfg range (fetchLogs cfg) := by
  calc fetchLogs cfg range
      = fetchLogsWithin cfg (range.toBlock - range.fromBlock + 1) range :=
        fetchLogsWithin_congr (Nat.le_refl _) (Nat.le_succ _)
    _ = fetchLogsBody cfg range (fetchLogs cfg) := by
      apply fetchLogsBody_congr
      intro hlt half hhalf
      have hspan := RangePlanner.halve_span hlt half hhalf
      exact fetchLogsWithin_congr (by omega) (Nat.le_refl _)

/-! ## The number of requests -/

/-- The requests for a range of blocks: one, and two for each block that is split off. -/
def requests (range : BlockRange) : Nat := 2 * (range.toBlock - range.fromBlock) + 1

/-- The requests of the halves, and the one for the range itself. -/
theorem sum_requests_halve {range : BlockRange} (h : range.fromBlock < range.toBlock) :
    ((RangePlanner.halve range).map requests).sum + 1 = requests range := by
  unfold RangePlanner.halve
  rw [if_neg (Nat.not_le.2 h)]
  simp only [requests, List.map_cons, List.map_nil, List.sum_cons, List.sum_nil]
  omega

/-- A recursion over the ranges holds of every range when it holds where it does of the halves. -/
theorem BlockRange.halving {motive : BlockRange → Prop}
    (h : ∀ range : BlockRange, (range.fromBlock < range.toBlock →
      ∀ half ∈ RangePlanner.halve range, motive half) → motive range) (range : BlockRange) :
    motive range := by
  induction hspan : range.toBlock - range.fromBlock using Nat.strong_induction_on generalizing range with
  | _ span ih =>
    apply h
    intro hlt half hhalf
    have hless := RangePlanner.halve_span hlt half hhalf
    exact ih _ (by omega) half rfl

theorem getLogs_calls (range : BlockRange) : AtMost 1 (getLogs cfg range) :=
  fun _ t _ => Nat.le_refl (t + 1)

/-- The bound on the requests for a range. -/
theorem fetchLogs_calls (range : BlockRange) : AtMost (requests range) (fetchLogs cfg range) := by
  induction range using BlockRange.halving with
  | h range ih =>
    rw [fetchLogs_eq]
    have hrequest : AtMost 1 (getLogs cfg range) := getLogs_calls range
    by_cases hlt : range.fromBlock < range.toBlock
    · have hhalf : ∀ out : List RawLog, ∀ half ∈ RangePlanner.halve range, AtMost (requests half)
          (do
            let logs ← fetchLogs cfg half
            pure (out ++ logs)) :=
        fun out half hhalf => (ih hlt half hhalf).bind fun logs => AtMost.pure (out ++ logs)
      -- one request is refused, the rest are those of the halves
      have hsum := sum_requests_halve hlt
      unfold fetchLogsBody
      rw [if_pos hlt]
      exact (hrequest.tryCatch (AtMost.foldlM hhalf)).mono (by omega)
    · unfold fetchLogsBody
      rw [if_neg hlt]
      exact (hrequest.tryCatch AtMost.throw).mono (Nat.le_add_left _ _)

/-! ## What is found -/

/-- The logs of the range that the request asks for, in the order of the chain. -/
def logsOf (cfg : Config) (blocks : Nat → List RawLog) (range : BlockRange) : List RawLog :=
  (logsIn blocks range).filter (hasTopic cfg.vaultEventInterface.allTopics)

/-- The request for a single block of the range fails. -/
def FailsOnOne (outside : Nat → Moment) (R : Nat → Prop) (range : BlockRange) : Prop :=
  ∃ n, range.fromBlock ≤ n ∧ n ≤ range.toBlock ∧ Fails outside R (.getLogs ⟨n, n⟩)

/-- The process stops at a request. -/
def Stops (outside : Nat → Moment) (R : Nat → Prop) : Prop :=
  ∃ i range effect, R i ∧ (outside i).fate (.getLogs range) = .stopped effect

/-- The logs of a range depend on its blocks only. -/
theorem logsOf_congr {blocks blocks' : Nat → List RawLog} {range : BlockRange}
    (h : ∀ n ≤ range.toBlock, blocks n = blocks' n) :
    logsOf cfg blocks range = logsOf cfg blocks' range := by
  unfold logsOf logsIn
  congr 1
  apply List.flatMap_congr
  intro n hn
  rw [List.mem_range'_1] at hn
  exact h n (by omega)

/-- The logs of a range are those of its parts one after the other. -/
theorem logsOf_covers {blocks : Nat → List RawLog} {range : BlockRange} {ranges : List BlockRange}
    (h : RangePlanner.Covers range.toBlock range.fromBlock ranges) :
    ranges.flatMap (logsOf cfg blocks) = logsOf cfg blocks range := by
  calc ranges.flatMap (logsOf cfg blocks)
      = (ranges.flatMap fun r => r.blocks.flatMap blocks).filter
          (hasTopic cfg.vaultEventInterface.allTopics) := (List.filter_flatMap ..).symm
    _ = ((ranges.flatMap BlockRange.blocks).flatMap blocks).filter
          (hasTopic cfg.vaultEventInterface.allTopics) := by rw [List.flatMap_assoc]
    _ = logsOf cfg blocks range := by
      rw [h.blocks_eq]
      rfl

section Scan

variable {outside : Nat → Moment} {R : Nat → Prop} {P T S : World → Prop}
  {blocks : Nat → List RawLog} {b : Nat}

/-- The read of a range answers its logs, or fails as it may. -/
theorem getLogs_scan (hP : Stable outside R P)
    (hR : ∀ i, R i → ∀ n ≤ b, (outside i).blocks n = blocks n) {range : BlockRange}
    (hto : range.toBlock ≤ b) (hT : Fails outside R (.getLogs range) → ∀ w, P w → T w)
    (hS : Stops outside R → ∀ w, P w → S w) :
    Triple outside R P (getLogs cfg range) (fun logs w => logs = logsOf cfg blocks range ∧ P w) T S := by
  intro t w hw hmoments
  have ht : R t := hmoments t (Nat.le_refl t) (Nat.lt_succ_self t)
  have hlogs : logsOf cfg (outside t).blocks range = logsOf cfg blocks range :=
    logsOf_congr fun n hn => hR t ht n (Nat.le_trans hn hto)
  have hkeep : P (w.register (outside t).registered) := hP t w ht hw
  unfold getLogs query await Async.call
  simp only
  -- a read changes nothing, whether its answer arrives or not
  cases hfate : (outside t).fate (.getLogs range) with
  | answered => exact ⟨hlogs, hkeep⟩
  | failed effect =>
    cases effect with
    | false => exact hT ⟨t, _, ht, hfate⟩ _ hkeep
    | true => exact hT ⟨t, _, ht, hfate⟩ _ hkeep
  | stopped effect =>
    cases effect with
    | false => exact hS ⟨t, range, _, ht, hfate⟩ _ hkeep
    | true => exact hS ⟨t, range, _, ht, hfate⟩ _ hkeep

/-- A refusal of the range is an answer where it can be halved, and a failure where it cannot. -/
theorem fetchLogs_scan (hP : Stable outside R P)
    (hR : ∀ i, R i → ∀ n ≤ b, (outside i).blocks n = blocks n) {range : BlockRange}
    (hto : range.toBlock ≤ b)
    (hT : (range.fromBlock ≤ range.toBlock → FailsOnOne outside R range) → ∀ w, P w → T w)
    (hS : Stops outside R → ∀ w, P w → S w) :
    Triple outside R P (fetchLogs cfg range)
      (fun logs w => logs = logsOf cfg blocks range ∧ P w) T S := by
  induction range using BlockRange.halving with
  | h range ih =>
    rw [fetchLogs_eq]
    unfold fetchLogsBody
    by_cases hlt : range.fromBlock < range.toBlock
    · rw [if_pos hlt]
      have hcovers := RangePlanner.halve_covers hlt
      refine Triple.tryCatch (getLogs_scan hP hR hto (fun _ _ hw => hw) hS) ?_
      -- the logs so far and those of the halves that are left are the logs of the range
      apply (Triple.foldlM (I := fun halves out w =>
        ((∀ half ∈ halves, half ∈ RangePlanner.halve range) ∧
          out ++ halves.flatMap (logsOf cfg blocks) = logsOf cfg blocks range) ∧ P w) ?_).imp
      · intro w hw
        exact ⟨⟨fun half hhalf => hhalf, logsOf_covers hcovers⟩, hw⟩
      · rintro logs w ⟨⟨-, hlogs⟩, hw⟩
        rw [List.flatMap_nil, List.append_nil] at hlogs
        exact ⟨hlogs, hw⟩
      · intro out half halves
        apply Triple.assume
        rintro ⟨hhalves, hout⟩
        have hhalf : half ∈ RangePlanner.halve range := hhalves half (List.mem_cons_self ..)
        obtain ⟨hle, hhi⟩ := hcovers.bounds half hhalf
        apply Triple.bind (ih hlt half hhalf (Nat.le_trans hhi hto) ?_)
        · intro logs
          apply Triple.pure
          rintro w ⟨rfl, hw⟩
          rw [List.append_assoc, ← List.flatMap_cons]
          exact ⟨⟨fun half' h => hhalves half' (List.mem_cons_of_mem _ h), hout⟩, hw⟩
        · intro hfails
          apply hT
          intro
          obtain ⟨n, hfrom, hn, hfail⟩ := hfails hle
          obtain ⟨hlow, hhigh⟩ := hcovers.mem_iff.2 ⟨half, hhalf, hfrom, hn⟩
          exact ⟨n, hlow, hhigh, hfail⟩
    · rw [if_neg hlt]
      have hrequest : Triple outside R P (getLogs cfg range)
          (fun logs w => logs = logsOf cfg blocks range ∧ P w) T S := by
        refine getLogs_scan hP hR hto (fun hfails => hT fun hle => ?_) hS
        -- the range is a single block
        obtain ⟨first, last⟩ := range
        obtain rfl : first = last := Nat.le_antisymm hle (Nat.not_lt.1 hlt)
        exact ⟨first, Nat.le_refl _, Nat.le_refl _, hfails⟩
      exact Triple.tryCatch hrequest (Triple.throw fun _ hw => hw)

end Scan

/-- The plan is a partition of the confirmed blocks behind the cursor. `fetchLogs` on a range ends, and
with every node that answers consistently it returns the logs of the range as one request would, unless
a single block fails or the process stops. -/
theorem scan_covers_once :
    (∀ (head cursor : Nat) (maxRange confirmations : Int), 1 ≤ maxRange → 0 ≤ confirmations →
      ∃ ranges, RangePlanner.plan head cursor maxRange confirmations = some ranges ∧
        RangePlanner.Chunks maxRange
          (List.range' (cursor + 1) (head - confirmations - cursor).toNat) ranges) ∧
    ∀ (cfg : Config) (range : BlockRange),
      fetchLogs cfg range = fetchLogsBody cfg range (fetchLogs cfg) ∧
      AtMost (requests range) (fetchLogs cfg range) ∧
      ∀ (outside : Nat → Moment) (blocks : Nat → List RawLog) (t t' : Nat) (w w' : World)
        (o : Outcome (List RawLog)), (fetchLogs cfg range).run outside t w = (o, t', w') →
        (∀ i, t ≤ i → i < t' → ∀ n ≤ range.toBlock, (outside i).blocks n = blocks n) →
          (∀ logs, o = .returned logs → logs = logsOf cfg blocks range) ∧
          (o = .thrown → range.fromBlock ≤ range.toBlock →
            FailsOnOne outside (fun i => t ≤ i ∧ i < t') range) ∧
          (o = .stopped → Stops outside fun i => t ≤ i ∧ i < t') := by
  refine ⟨fun head cursor _ _ hmax hconf => RangePlanner.plan_chunks head cursor hmax hconf,
    fun cfg range => ⟨fetchLogs_eq range, fetchLogs_calls range, ?_⟩⟩
  intro outside blocks t t' w w' o hrun hblocks
  -- the blocks do not change during these calls
  have hrange : Triple outside (fun i => t ≤ i ∧ i < t') (fun _ => True) (fetchLogs cfg range) _
      (fun _ => _) (fun _ => _) :=
    fetchLogs_scan (fun _ _ _ _ => trivial) (fun i hi => hblocks i hi.1 hi.2) (Nat.le_refl _)
      (fun hfails _ _ => hfails) (fun hstops _ _ => hstops)
  have hscan := hrange t w trivial
  rw [hrun] at hscan
  have hpost := hscan fun i hle hlt => ⟨hle, hlt⟩
  refine ⟨?_, ?_, ?_⟩
  · rintro logs rfl
    exact hpost.1
  · rintro rfl
    exact hpost
  · rintro rfl
    exact hpost

/-- A node that answers for at most two blocks. -/
def narrowNode : Nat → Moment := fun _ =>
  { answeredMoment (oneLogChain depositLog) 20 with
    fate := fun call =>
      match call with
      | .getLogs range => if range.fromBlock + 1 < range.toBlock then .failed false else .answered
      | _ => .answered }

theorem narrowNode_answers (i n : Nat) : (narrowNode i).fate (.getLogs ⟨n, n⟩) = .answered :=
  if_neg (Nat.not_lt.2 (Nat.le_succ n))

/-- The sample's node never stops the process. -/
theorem narrowNode_not_stopped (i : Nat) (range : BlockRange) (effect : Bool) :
    (narrowNode i).fate (.getLogs range) ≠ .stopped effect := by
  change (if range.fromBlock + 1 < range.toBlock then Fate.failed false else Fate.answered) ≠ _
  split
  · intro h
    cases h
  · intro h
    cases h

/-- Four blocks in two requests, behind one that is refused. -/
theorem scan_covers_once_narrow :
    (∃ ranges, RangePlanner.plan 13 4 4 5 = some ranges ∧
      ranges.flatMap BlockRange.blocks = [5, 6, 7, 8]) ∧
    ((fetchLogs (defaultConfig 0) ⟨5, 8⟩).run narrowNode 0 (World.initial onlyVaultSeven none [])).1 =
      .returned [depositLog] := by
  obtain ⟨hplan, hfetch⟩ := scan_covers_once
  obtain ⟨ranges, hranges, hchunks⟩ := hplan 13 4 4 5 (by decide) (by decide)
  refine ⟨⟨ranges, hranges, hchunks.blocks_eq⟩, ?_⟩
  rcases hrun : (fetchLogs (defaultConfig 0) ⟨5, 8⟩).run narrowNode 0
    (World.initial onlyVaultSeven none []) with ⟨o, t', w'⟩
  obtain ⟨-, -, hscan⟩ := hfetch (defaultConfig 0) ⟨5, 8⟩
  obtain ⟨hreturned, hthrown, hstopped⟩ := hscan narrowNode (oneLogChain depositLog).blocks 0 t' _ w' o
    hrun fun _ _ _ _ _ => rfl
  cases o with
  | returned logs =>
    have hlogs : logsOf (defaultConfig 0) (oneLogChain depositLog).blocks ⟨5, 8⟩ = [depositLog] := by
      decide
    rw [hreturned logs rfl, hlogs]
  | thrown =>
    -- this node never refuses a single block
    obtain ⟨n, -, -, i, effect, -, hfate⟩ := hthrown rfl (by decide)
    rw [narrowNode_answers] at hfate
    cases hfate
  | stopped =>
    obtain ⟨i, range, effect, -, hfate⟩ := hstopped rfl
    exact absurd hfate (narrowNode_not_stopped i range effect)

end StrategyBuilder.Indexer
