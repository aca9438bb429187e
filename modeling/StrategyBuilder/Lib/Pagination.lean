import Mathlib.Data.List.Nodup
import Mathlib.Data.Prod.Lex
import Mathlib.Order.Lattice
import Mathlib.Tactic.Common

/-!
# Pages of an ordered result

A query answers its rows in the order of a key, the greatest first, and leaves open how rows with
equal keys stand; another query may choose otherwise (`OrderBy`). `page` is one window of such an
answer, and every page may come from a query of its own.

The rows of one key stand together: `before` and `upTo` count how many rows precede them and how many
there are up to their end (`before_le`, `lt_upTo`). All pages together give every row once, whatever
each query chooses, exactly if no page ends between rows of one key (`pages_perm_iff`).
-/

set_option autoImplicit false

namespace StrategyBuilder.Lib.Pagination

universe u v

variable {α : Type u} {κ : Type v} [LinearOrder κ]

/-! ## Orders -/

/-- What a query may answer for its rows. -/
structure Orders (key : α → κ) (rows l : List α) : Prop where
  perm : l.Perm rows
  sorted : l.Pairwise fun a b => key b ≤ key a

/-- `ORDER BY key DESC`: a choice among the orders of any rows. -/
structure OrderBy (key : α → κ) where
  sort : List α → List α
  orders : ∀ rows, Orders key rows (sort rows)

/-- Rows sorted by a key that settles ties. -/
def OrderBy.refine {μ : Type v} [LinearOrder μ] {key : α → κ} (finer : α → μ)
    (h : ∀ a b, finer a ≤ finer b → key a ≤ key b) : OrderBy key where
  sort rows := rows.mergeSort fun a b => finer b ≤ finer a
  orders rows := by
    have hsorted := @List.pairwise_mergeSort α (fun a b => decide (finer b ≤ finer a))
      (by
        intro a b c hab hbc
        rw [decide_eq_true_eq] at hab hbc ⊢
        exact le_trans hbc hab)
      (by
        intro a b
        rw [Bool.or_eq_true, decide_eq_true_eq, decide_eq_true_eq]
        exact le_total _ _) rows
    exact ⟨List.mergeSort_perm rows _, hsorted.imp fun hab => h _ _ (of_decide_eq_true hab)⟩

/-- The order of `refine` is an order of the finer key. -/
theorem OrderBy.refine_orders {μ : Type v} [LinearOrder μ] {key : α → κ} {finer : α → μ}
    (h : ∀ a b, finer a ≤ finer b → key a ≤ key b) (rows : List α) :
    Orders finer rows ((OrderBy.refine finer h).sort rows) :=
  (OrderBy.refine finer fun _ _ hab => hab).orders rows

/-! ## Where rows of one key stand -/

/-- How many rows have a greater key. -/
def before (key : α → κ) (rows : List α) (a : α) : Nat := rows.countP fun r => key a < key r

/-- How many rows have the key or a greater one. -/
def upTo (key : α → κ) (rows : List α) (a : α) : Nat := rows.countP fun r => key a ≤ key r

/-- A row stands behind all rows with a greater key. -/
theorem before_le {key : α → κ} {rows l : List α} (h : Orders key rows l) {i : Nat} {a : α}
    (ha : l[i]? = some a) : before key rows a ≤ i := by
  obtain ⟨hi, rfl⟩ := List.getElem?_eq_some_iff.1 ha
  rw [before, ← h.perm.countP_eq]
  calc l.countP (fun r => decide (key l[i] < key r))
      = (l.take i).countP (fun r => decide (key l[i] < key r)) +
          (l.drop i).countP fun r => decide (key l[i] < key r) := by
        rw [← List.countP_append, List.take_append_drop]
    _ = (l.take i).countP fun r => decide (key l[i] < key r) := by
        -- from `i` on no key is greater
        have hdrop : (l.drop i).countP (fun r => decide (key l[i] < key r)) = 0 := by
          rw [List.countP_eq_zero]
          intro r hr
          have hsorted := h.sorted
          rw [← List.take_append_drop i l, List.drop_eq_getElem_cons hi] at hsorted
          have htail := (List.pairwise_append.1 hsorted).2.1
          rw [List.drop_eq_getElem_cons hi] at hr
          rcases List.mem_cons.1 hr with rfl | hr
          · simp
          · simpa using (List.pairwise_cons.1 htail).1 r hr
        rw [hdrop, Nat.add_zero]
    _ ≤ (l.take i).length := List.countP_le_length
    _ ≤ i := List.length_take_le i l

/-- A row stands before the end of the rows with its key. -/
theorem lt_upTo {key : α → κ} {rows l : List α} (h : Orders key rows l) {i : Nat} {a : α}
    (ha : l[i]? = some a) : i < upTo key rows a := by
  obtain ⟨hi, rfl⟩ := List.getElem?_eq_some_iff.1 ha
  rw [upTo, ← h.perm.countP_eq]
  -- up to `i` no key is smaller
  have htake : ∀ r ∈ l.take (i + 1), key l[i] ≤ key r := by
    intro r hr
    rw [List.take_succ_eq_append_getElem hi] at hr
    rcases List.mem_append.1 hr with hr | hr
    · have hsorted := h.sorted
      rw [← List.take_append_drop i l] at hsorted
      apply (List.pairwise_append.1 hsorted).2.2 r hr
      rw [List.drop_eq_getElem_cons hi]
      exact List.mem_cons_self ..
    · rw [List.mem_singleton.1 hr]
  calc i < (l.take (i + 1)).length := by
        rw [List.length_take]
        omega
    _ = (l.take (i + 1)).countP fun r => decide (key l[i] ≤ key r) := by
        rw [eq_comm, List.countP_eq_length]
        intro r hr
        exact decide_eq_true (htake r hr)
    _ ≤ l.countP fun r => decide (key l[i] ≤ key r) := (List.take_sublist _ _).countP_le

/-! ## Pages -/

/-- The `k`-th window of `p` rows, counted from zero: `LIMIT p OFFSET k * p`. -/
def page (p k : Nat) (l : List α) : List α := (l.drop (k * p)).take p

/-- The number of pages. -/
def pageCount (total p : Nat) : Nat := (total + p - 1) / p

/-- A page has the rows of its range of indices. -/
theorem mem_page {p k : Nat} {l : List α} {a : α} (hp : 0 < p) :
    a ∈ page p k l ↔ ∃ i, l[i]? = some a ∧ i / p = k := by
  rw [page, List.mem_iff_getElem?]
  constructor
  · rintro ⟨j, hj⟩
    rw [List.getElem?_take, List.getElem?_drop] at hj
    split at hj
    · rename_i hlt
      refine ⟨k * p + j, hj, ?_⟩
      rw [Nat.add_comm, Nat.add_mul_div_right _ _ hp, Nat.div_eq_of_lt hlt, Nat.zero_add]
    · cases hj
  · rintro ⟨i, hi, rfl⟩
    refine ⟨i % p, ?_⟩
    have hsplit : i / p * p + i % p = i := by
      rw [Nat.mul_comm]
      exact Nat.div_add_mod i p
    rw [List.getElem?_take, if_pos (Nat.mod_lt i hp), List.getElem?_drop, hsplit, hi]

/-- Each row is on one of the pages. -/
theorem lt_pageCount {total p i : Nat} (hp : 0 < p) (hi : i < total) :
    i / p < pageCount total p := by
  rw [pageCount, Nat.div_lt_iff_lt_mul hp]
  have hdiv := Nat.div_add_mod (total + p - 1) p
  have hmod := Nat.mod_lt (total + p - 1) hp
  rw [Nat.mul_comm] at hdiv
  omega

theorem nodup_page {p k : Nat} {l : List α} (h : l.Nodup) : (page p k l).Nodup :=
  ((List.take_sublist _ _).trans (List.drop_sublist _ _)).nodup h

/-- The rows of all pages, each from an answer of its own. -/
def pages (p : Nat) (answers : Nat → List α) (n : Nat) : List α :=
  (List.range n).flatMap fun k => page p k (answers k)

/-- No page ends between rows of one key. -/
def TiesOnOnePage (key : α → κ) (rows : List α) (p : Nat) : Prop :=
  ∀ a ∈ rows, before key rows a / p = (upTo key rows a - 1) / p

instance (key : α → κ) (rows : List α) (p : Nat) : Decidable (TiesOnOnePage key rows p) :=
  inferInstanceAs (Decidable (∀ a ∈ rows, _))

/-- Then a row is on the same page of every answer. -/
theorem TiesOnOnePage.page_eq {key : α → κ} {rows l : List α} {p i : Nat} {a : α}
    (h : TiesOnOnePage key rows p) (hl : Orders key rows l) (ha : l[i]? = some a) :
    i / p = before key rows a / p := by
  have hmem : a ∈ rows := hl.perm.mem_iff.1 (List.mem_of_getElem? ha)
  have hlow := before_le hl ha
  have hhigh := lt_upTo hl ha
  -- the position is one of those that the ties may take, and these share a page
  apply le_antisymm
  · rw [h a hmem]
    exact Nat.div_le_div_right (by omega)
  · exact Nat.div_le_div_right hlow

/-- Every row once, where ties do not cross pages. -/
theorem pages_perm {key : α → κ} {rows : List α} {p : Nat} (hp : 0 < p) (hrows : rows.Nodup)
    (h : TiesOnOnePage key rows p) {answers : Nat → List α}
    (hanswers : ∀ k, Orders key rows (answers k)) :
    (pages p answers (pageCount rows.length p)).Perm rows := by
  have hnodup (k : Nat) : (answers k).Nodup := (hanswers k).perm.nodup_iff.2 hrows
  -- a row is on no other page than its own
  have hpage {k : Nat} {a : α} (ha : a ∈ page p k (answers k)) : before key rows a / p = k := by
    obtain ⟨i, hi, rfl⟩ := (mem_page hp).1 ha
    exact (h.page_eq (hanswers _) hi).symm
  rw [List.perm_ext_iff_of_nodup _ hrows]
  · intro a
    rw [pages, List.mem_flatMap]
    constructor
    · rintro ⟨k, -, ha⟩
      obtain ⟨i, hi, -⟩ := (mem_page hp).1 ha
      exact (hanswers k).perm.mem_iff.1 (List.mem_of_getElem? hi)
    · intro ha
      obtain ⟨i, hi⟩ := List.mem_iff_getElem?.1
        ((hanswers (before key rows a / p)).perm.mem_iff.2 ha)
      have hk := h.page_eq (hanswers _) hi
      refine ⟨before key rows a / p, ?_, (mem_page hp).2 ⟨i, hi, hk⟩⟩
      rw [List.mem_range, ← hk]
      apply lt_pageCount hp
      rw [← (hanswers (before key rows a / p)).perm.length_eq]
      exact (List.getElem?_eq_some_iff.1 hi).1
  · rw [pages, List.nodup_flatMap]
    refine ⟨fun k _ => nodup_page (hnodup k), ?_⟩
    apply List.nodup_range.imp
    intro j k hne a hj hk
    exact hne ((hpage hj).symm.trans (hpage hk))

/-! ## Ties that cross pages -/

theorem countP_le_add {q r s : α → Bool} {l : List α} (h : ∀ x, q x = true → r x = true ∨ s x = true) :
    l.countP q ≤ l.countP r + l.countP s := by
  induction l with
  | nil => exact Nat.le_refl 0
  | cons x l ih =>
    rw [List.countP_cons, List.countP_cons, List.countP_cons]
    by_cases hq : q x = true
    · rcases h x hq with hr | hs
      · rw [if_pos hq, if_pos hr]
        omega
      · rw [if_pos hq, if_pos hs]
        omega
    · rw [if_neg hq]
      omega

/-- Where all pages give a row once, it is on one page only. -/
theorem page_unique {p n j k : Nat} {answers : Nat → List α} {a : α} (h : (pages p answers n).Nodup)
    (hj : j < n) (hk : k < n) (haj : a ∈ page p j (answers j)) (hak : a ∈ page p k (answers k)) :
    j = k := by
  rw [pages, List.nodup_flatMap] at h
  have hdisjoint := List.pairwise_iff_getElem.1 h.2
  rcases lt_trichotomy j k with hlt | heq | hlt
  · have hab := hdisjoint j k (by simpa using hj) (by simpa using hk) hlt
    rw [List.getElem_range, List.getElem_range] at hab
    exact (hab haj hak).elim
  · exact heq
  · have hab := hdisjoint k j (by simpa using hk) (by simpa using hj) hlt
    rw [List.getElem_range, List.getElem_range] at hab
    exact (hab hak haj).elim

section Ties

variable [DecidableEq α]

theorem countP_eq_self {a : α} {l : List α} (h : l.Nodup) : (l.countP fun r => r = a) ≤ 1 := by
  have hcount := List.nodup_iff_count_le_one.1 h a
  rw [List.count_eq_countP] at hcount
  refine le_of_eq_of_le (List.countP_congr fun r _ => ?_) hcount
  rw [decide_eq_true_eq, beq_iff_eq]

/-- Some row before all that tie with it. -/
def OrderBy.first (key : α → κ) (a : α) : OrderBy key :=
  OrderBy.refine (fun r => toLex (key r, decide (r = a))) fun _ _ h => (Prod.Lex.toLex_le_toLex'.1 h).1

/-- Some row after all that tie with it. -/
def OrderBy.last (key : α → κ) (a : α) : OrderBy key :=
  OrderBy.refine (fun r => toLex (key r, decide (r ≠ a))) fun _ _ h => (Prod.Lex.toLex_le_toLex'.1 h).1

/-- Where a row stands if it comes first among its ties. -/
theorem first_getElem {key : α → κ} {rows : List α} {a : α} {i : Nat} (hrows : rows.Nodup)
    (ha : ((OrderBy.first key a).sort rows)[i]? = some a) : i = before key rows a := by
  have hlow := before_le ((OrderBy.first key a).orders rows) ha
  have hhigh := lt_upTo (OrderBy.refine_orders _ rows) ha
  have hcount : upTo (fun r => toLex (key r, decide (r = a))) rows a ≤
      before key rows a + rows.countP fun r => r = a := by
    apply countP_le_add
    intro r hr
    rw [decide_eq_true_eq, Prod.Lex.toLex_le_toLex'] at hr
    rw [decide_eq_true_eq, decide_eq_true_eq]
    rcases hr.1.lt_or_eq with hlt | heq
    · exact Or.inl hlt
    -- of its ties nothing but the row itself stands before it
    · right
      by_contra hne
      have hle := hr.2 heq
      rw [decide_eq_true rfl, decide_eq_false hne] at hle
      exact absurd (show true ≤ false from hle) (by decide)
  have hone := countP_eq_self (a := a) hrows
  omega

/-- Where a row stands if it comes last among its ties. -/
theorem last_getElem {key : α → κ} {rows : List α} {a : α} {i : Nat} (hrows : rows.Nodup)
    (ha : ((OrderBy.last key a).sort rows)[i]? = some a) : i = upTo key rows a - 1 := by
  have hlow := before_le (OrderBy.refine_orders _ rows) ha
  have hhigh := lt_upTo ((OrderBy.last key a).orders rows) ha
  have hcount : upTo key rows a ≤ before (fun r => toLex (key r, decide (r ≠ a))) rows a +
      rows.countP fun r => r = a := by
    apply countP_le_add
    intro r hr
    rw [decide_eq_true_eq] at hr
    rw [decide_eq_true_eq, decide_eq_true_eq, Prod.Lex.toLex_lt_toLex']
    by_cases heq : r = a
    · exact Or.inr heq
    · refine Or.inl ⟨hr, fun _ => ?_⟩
      simp [heq]
  have hone := countP_eq_self (a := a) hrows
  omega

/-- **Pages and ties**: whatever each query chooses, all pages together give every row once, exactly
if the rows of one key stand on one page. -/
theorem pages_perm_iff {key : α → κ} {rows : List α} {p : Nat} (hp : 0 < p) (hrows : rows.Nodup) :
    (∀ choice : Nat → OrderBy key,
        (pages p (fun k => (choice k).sort rows) (pageCount rows.length p)).Perm rows) ↔
      TiesOnOnePage key rows p := by
  constructor
  · intro h a ha
    by_contra hne
    -- the page where `a` is first among its ties shows it, and so does the one where it is last
    let choice (k : Nat) : OrderBy key :=
      if k = before key rows a / p then OrderBy.first key a else OrderBy.last key a
    have hperm := h choice
    have hnodup : (pages p (fun k => (choice k).sort rows) (pageCount rows.length p)).Nodup :=
      hperm.nodup_iff.2 hrows
    -- where the two orders have it
    obtain ⟨i, hi⟩ := List.mem_iff_getElem?.1
      (((OrderBy.first key a).orders rows).perm.mem_iff.2 ha)
    obtain ⟨j, hj⟩ := List.mem_iff_getElem?.1
      (((OrderBy.last key a).orders rows).perm.mem_iff.2 ha)
    have hieq := first_getElem hrows hi
    have hjeq := last_getElem hrows hj
    have hilt : i < rows.length := by
      rw [← ((OrderBy.first key a).orders rows).perm.length_eq]
      exact (List.getElem?_eq_some_iff.1 hi).1
    have hjlt : j < rows.length := by
      rw [← ((OrderBy.last key a).orders rows).perm.length_eq]
      exact (List.getElem?_eq_some_iff.1 hj).1
    have hfirst : a ∈ page p (i / p) ((choice (i / p)).sort rows) := by
      refine (mem_page hp).2 ⟨i, ?_, rfl⟩
      rw [show choice (i / p) = OrderBy.first key a from if_pos (by rw [hieq])]
      exact hi
    have hlast : a ∈ page p (j / p) ((choice (j / p)).sort rows) := by
      refine (mem_page hp).2 ⟨j, ?_, rfl⟩
      rw [show choice (j / p) = OrderBy.last key a from
        if_neg (by rw [hjeq]; exact fun heq => hne heq.symm)]
      exact hj
    -- but all pages together show it once
    have heq := page_unique hnodup (lt_pageCount hp hilt) (lt_pageCount hp hjlt) hfirst hlast
    rw [hieq, hjeq] at heq
    exact hne heq
  · intro h choice
    exact pages_perm hp hrows h fun k => (choice k).orders rows

end Ties

end StrategyBuilder.Lib.Pagination
