import Mathlib.Data.List.Nodup
import Mathlib.Tactic.Common

/-!
# Block ranges

`range-planner.ts`: the windows that a tick scans, and the two halves of a window that the node
refuses. The planned windows follow each other without a gap from the block after the cursor to the
last confirmed block (`plan_covers`), and so do the halves (`halve_covers`). One after the other their
blocks are those of the whole (`Covers.blocks_eq`).
-/

set_option autoImplicit false

namespace StrategyBuilder.Indexer

/-- A range of blocks, both ends included. -/
structure BlockRange where
  fromBlock : Nat
  toBlock : Nat
deriving DecidableEq, Repr

/-- The blocks of a range, in order. -/
def BlockRange.blocks (r : BlockRange) : List Nat :=
  List.range' r.fromBlock (r.toBlock + 1 - r.fromBlock)

namespace RangePlanner

/-- The windows from `start` on; at most as many as there are blocks. -/
def windows (maxRange safeHead : Nat) : Nat → Nat → List BlockRange
  | 0, _ => []
  | n + 1, start =>
      if safeHead < start then []
      else
        let stop := min (start + maxRange - 1) safeHead
        ⟨start, stop⟩ :: windows maxRange safeHead n (stop + 1)

/-- `plan`; it throws where the configuration is wrong. -/
def plan (head cursor : Nat) (maxRange confirmations : Int) : Option (List BlockRange) :=
  if maxRange < 1 then none
  else if confirmations < 0 then none
  else
    let safeHead : Int := head - confirmations
    if safeHead < cursor + 1 then some []
    else some (windows maxRange.toNat safeHead.toNat (safeHead.toNat - cursor) (cursor + 1))

/-- `halve`: a range of one block stays as it is. -/
def halve (range : BlockRange) : List BlockRange :=
  if range.toBlock ≤ range.fromBlock then [range]
  else
    let mid := (range.fromBlock + range.toBlock) / 2
    [⟨range.fromBlock, mid⟩, ⟨mid + 1, range.toBlock⟩]

/-- The ranges are not empty and follow each other from the block `lo` to the block `hi`. -/
def Covers (hi : Nat) : Nat → List BlockRange → Prop
  | lo, [] => lo = hi + 1
  | lo, r :: rs =>
      r.fromBlock = lo ∧ r.fromBlock ≤ r.toBlock ∧ r.toBlock ≤ hi ∧ Covers hi (r.toBlock + 1) rs

section Covers

variable {hi lo : Nat} {ranges : List BlockRange}

/-- Every range has a block and ends by `hi`. -/
theorem Covers.bounds (h : Covers hi lo ranges) :
    ∀ r ∈ ranges, r.fromBlock ≤ r.toBlock ∧ r.toBlock ≤ hi := by
  induction ranges generalizing lo with
  | nil =>
    intro r hr
    cases hr
  | cons x ranges ih =>
    obtain ⟨-, hle, hto, hrest⟩ := h
    intro r hr
    rcases List.mem_cons.1 hr with rfl | hr
    · exact ⟨hle, hto⟩
    · exact ih hrest r hr

/-- A cover ends where it starts, at least. -/
theorem Covers.le_succ (h : Covers hi lo ranges) : lo ≤ hi + 1 := by
  cases ranges with
  | nil => exact Nat.le_of_eq h
  | cons r ranges =>
    obtain ⟨rfl, hle, hto, -⟩ := h
    exact Nat.le_succ_of_le (Nat.le_trans hle hto)

/-- A block is in one of the ranges. -/
theorem Covers.mem_iff (h : Covers hi lo ranges) {n : Nat} :
    (lo ≤ n ∧ n ≤ hi) ↔ ∃ r ∈ ranges, r.fromBlock ≤ n ∧ n ≤ r.toBlock := by
  induction ranges generalizing lo with
  | nil =>
    have hlo : lo = hi + 1 := h
    constructor
    · rintro ⟨hle, hge⟩
      omega
    · rintro ⟨r, hr, -⟩
      cases hr
  | cons x ranges ih =>
    obtain ⟨rfl, hle, hto, hrest⟩ := h
    have hnext := hrest.le_succ
    simp only [List.mem_cons, exists_eq_or_imp]
    rw [← ih hrest]
    constructor
    · rintro ⟨hlo, hhi⟩
      -- a block is in the first range or in those after it
      by_cases hn : n ≤ x.toBlock
      · exact Or.inl ⟨hlo, hn⟩
      · exact Or.inr ⟨Nat.lt_of_not_le hn, hhi⟩
    · rintro (⟨hlo, hhi⟩ | ⟨hlo, hhi⟩)
      · exact ⟨hlo, Nat.le_trans hhi hto⟩
      · exact ⟨Nat.le_trans hle (Nat.le_of_succ_le hlo), hhi⟩

/-- Each range starts where the one before it ends. -/
theorem Covers.isChain (h : Covers hi lo ranges) :
    ranges.IsChain fun r r' => r'.fromBlock = r.toBlock + 1 := by
  induction ranges generalizing lo with
  | nil => exact List.IsChain.nil
  | cons x ranges ih =>
    obtain ⟨-, -, -, hrest⟩ := h
    cases ranges with
    | nil => exact List.IsChain.singleton x
    | cons y ranges => exact List.isChain_cons_cons.2 ⟨hrest.1, ih hrest⟩

/-- The blocks of a cover, each once and in order. -/
theorem Covers.blocks_eq (h : Covers hi lo ranges) :
    ranges.flatMap BlockRange.blocks = List.range' lo (hi + 1 - lo) := by
  induction ranges generalizing lo with
  | nil =>
    have hlo : lo = hi + 1 := h
    rw [hlo, Nat.sub_self]
    rfl
  | cons x ranges ih =>
    obtain ⟨rfl, hle, hto, hrest⟩ := h
    -- the blocks of the first range end where those of the rest start
    have hnext : x.toBlock + 1 = x.fromBlock + (x.toBlock + 1 - x.fromBlock) := by omega
    have hsize : hi + 1 - x.fromBlock =
        (x.toBlock + 1 - x.fromBlock) + (hi + 1 - (x.toBlock + 1)) := by omega
    calc (x :: ranges).flatMap BlockRange.blocks
        = x.blocks ++ List.range' (x.toBlock + 1) (hi + 1 - (x.toBlock + 1)) := by
          rw [List.flatMap_cons, ih hrest]
      _ = List.range' x.fromBlock (x.toBlock + 1 - x.fromBlock) ++
            List.range' (x.fromBlock + (x.toBlock + 1 - x.fromBlock))
              (hi + 1 - (x.toBlock + 1)) := by rw [← hnext]; rfl
      _ = List.range' x.fromBlock (hi + 1 - x.fromBlock) := by
          rw [List.range'_append_1, ← hsize]

/-- No block is in two of the ranges. -/
theorem Covers.disjoint (h : Covers hi lo ranges) :
    ranges.Pairwise fun r r' => r.blocks.Disjoint r'.blocks := by
  have hnodup : (ranges.flatMap BlockRange.blocks).Nodup := by
    rw [h.blocks_eq]
    exact List.nodup_range'
  exact (List.nodup_flatMap.1 hnodup).2

end Covers

/-- A window has the maximal length at most. -/
theorem windows_length {maxRange safeHead : Nat} (hmax : 1 ≤ maxRange) (n start : Nat) :
    ∀ r ∈ windows maxRange safeHead n start, r.toBlock + 1 ≤ r.fromBlock + maxRange := by
  induction n generalizing start with
  | zero =>
    intro r hr
    cases hr
  | succ n ih =>
    unfold windows
    split
    · intro r hr
      cases hr
    · rename_i hstart
      intro r hr
      rcases List.mem_cons.1 hr with rfl | hr
      · simp only
        omega
      · exact ih _ r hr

/-- The windows cover all blocks up to the safe head. -/
theorem windows_covers {maxRange safeHead : Nat} (hmax : 1 ≤ maxRange) (n start : Nat)
    (hstart : start ≤ safeHead + 1) (hn : safeHead + 1 - start ≤ n) :
    Covers safeHead start (windows maxRange safeHead n start) := by
  -- the fuel is the number of blocks that are left
  induction n generalizing start with
  | zero =>
    have heq : start = safeHead + 1 := by omega
    exact heq
  | succ n ih =>
    unfold windows
    split
    · have heq : start = safeHead + 1 := by omega
      exact heq
    · refine ⟨rfl, ?_, ?_, ih _ ?_ ?_⟩
      · simp only
        omega
      · exact Nat.min_le_right ..
      · simp only
        omega
      · simp only
        omega

/-- **The plan covers all confirmed blocks after the cursor.** -/
theorem plan_covers {head cursor : Nat} {maxRange confirmations : Int} {ranges : List BlockRange}
    (h : plan head cursor maxRange confirmations = some ranges) (hne : ranges ≠ []) :
    ∃ safeHead : Nat, (safeHead : Int) + confirmations = head ∧ cursor < safeHead ∧
      Covers safeHead (cursor + 1) ranges := by
  unfold plan at h
  split at h
  · cases h
  · split at h
    · cases h
    · simp only at h
      split at h
      · cases h
        exact absurd rfl hne
      · cases h
        refine ⟨(head - confirmations).toNat, by omega, by omega, ?_⟩
        apply windows_covers
        · omega
        · omega
        · omega

/-- Ranges of at most `maxRange` blocks, each behind the one before, that are these blocks one after the
other. -/
structure Chunks (maxRange : Int) (blocks : List Nat) (ranges : List BlockRange) : Prop where
  nonempty : ∀ r ∈ ranges, r.fromBlock ≤ r.toBlock
  length_le : ∀ r ∈ ranges, (r.blocks.length : Int) ≤ maxRange
  consecutive : ranges.IsChain fun r r' => r'.fromBlock = r.toBlock + 1
  disjoint : ranges.Pairwise fun r r' => r.blocks.Disjoint r'.blocks
  blocks_eq : ranges.flatMap BlockRange.blocks = blocks

/-- Nothing is cut into nothing. -/
theorem Chunks.nil (maxRange : Int) : Chunks maxRange [] [] where
  nonempty := by
    intro r hr
    cases hr
  length_le := by
    intro r hr
    cases hr
  consecutive := List.IsChain.nil
  disjoint := List.Pairwise.nil
  blocks_eq := rfl

/-- With a valid configuration the plan succeeds, and every block that is behind the cursor and confirmed
is in one range of it. -/
theorem plan_chunks (head cursor : Nat) {maxRange confirmations : Int} (hmax : 1 ≤ maxRange)
    (hconf : 0 ≤ confirmations) :
    ∃ ranges, plan head cursor maxRange confirmations = some ranges ∧
      Chunks maxRange (List.range' (cursor + 1) (head - confirmations - cursor).toNat) ranges := by
  unfold plan
  rw [if_neg (Int.not_lt.2 hmax), if_neg (Int.not_lt.2 hconf)]
  simp only
  split
  · have hnone : (head - confirmations - cursor).toNat = 0 := by omega
    rw [hnone]
    exact ⟨[], rfl, Chunks.nil maxRange⟩
  · have hsize : (head - confirmations - cursor).toNat =
        (head - confirmations).toNat + 1 - (cursor + 1) := by omega
    have hcovers : Covers (head - confirmations).toNat (cursor + 1)
        (windows maxRange.toNat (head - confirmations).toNat
          ((head - confirmations).toNat - cursor) (cursor + 1)) :=
      windows_covers (by omega) _ _ (by omega) (by omega)
    refine ⟨_, rfl, fun r hr => (hcovers.bounds r hr).1, ?_, hcovers.isChain, hcovers.disjoint, ?_⟩
    · intro r hr
      have hlength := windows_length (by omega) _ _ r hr
      rw [BlockRange.blocks, List.length_range']
      omega
    · rw [hcovers.blocks_eq, hsize]

/-- The halves cover the range. -/
theorem halve_covers {range : BlockRange} (h : range.fromBlock < range.toBlock) :
    Covers range.toBlock range.fromBlock (halve range) := by
  unfold halve
  rw [if_neg (Nat.not_le.2 h)]
  refine ⟨rfl, ?_, ?_, rfl, ?_, Nat.le_refl _, rfl⟩
  · simp only
    omega
  · simp only
    omega
  · simp only
    omega

end RangePlanner

end StrategyBuilder.Indexer
