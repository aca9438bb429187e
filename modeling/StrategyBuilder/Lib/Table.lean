import Mathlib.Algebra.BigOperators.Group.List.Basic
import Mathlib.Data.List.Nodup
import Mathlib.Tactic.Common

/-!
# Tables with a unique key

The rows of a database table, in the order they were written. No two rows have the same key; the
operations keep that, so two rows of a table with one key are the same row (`Table.eq_of_key`).
-/

set_option autoImplicit false

namespace StrategyBuilder.Lib

universe u v

/-- Rows with keys of their own. -/
structure Table (Row : Type u) {Key : Type v} (key : Row → Key) where
  rows : List Row
  nodup : (rows.map key).Nodup

namespace Table

variable {Row : Type u} {Key : Type v} {key : Row → Key}

instance : Membership Row (Table Row key) := ⟨fun t r => r ∈ t.rows⟩

theorem mem_rows {t : Table Row key} {r : Row} : r ∈ t.rows ↔ r ∈ t := Iff.rfl

theorem eq_of_key {t : Table Row key} {r r' : Row} (hr : r ∈ t) (hr' : r' ∈ t)
    (h : key r = key r') : r = r' := List.inj_on_of_nodup_map t.nodup hr hr' h

/-- Some row has the key. -/
def Has (t : Table Row key) (k : Key) : Prop := ∃ r ∈ t, key r = k

/-- No rows. -/
def empty : Table Row key := ⟨[], List.nodup_nil⟩

theorem notMem_empty (r : Row) : r ∉ (empty : Table Row key) := List.not_mem_nil

variable [DecidableEq Key]

/-! ## Reading -/

/-- The row with a key. -/
def find? (t : Table Row key) (k : Key) : Option Row := t.rows.find? fun r => key r = k

/-- The row with the key. -/
theorem find?_eq_some {t : Table Row key} {k : Key} {r : Row} :
    t.find? k = some r ↔ r ∈ t ∧ key r = k := by
  constructor
  · intro h
    have hkey := List.find?_some h
    exact ⟨List.mem_of_find?_eq_some h, of_decide_eq_true hkey⟩
  · rintro ⟨hr, hk⟩
    cases hfind : t.find? k with
    | none =>
      have hno := List.find?_eq_none.1 hfind r hr
      exact absurd (decide_eq_true hk) hno
    | some r' =>
      have hr' : r' ∈ t := List.mem_of_find?_eq_some hfind
      have hkey := List.find?_some hfind
      have hk' : key r' = k := of_decide_eq_true hkey
      rw [eq_of_key hr' hr (hk'.trans hk.symm)]

theorem find?_eq_none {t : Table Row key} {k : Key} : t.find? k = none ↔ ¬ t.Has k := by
  constructor
  · rintro h ⟨r, hr, hk⟩
    rw [find?_eq_some.2 ⟨hr, hk⟩] at h
    cases h
  · intro h
    cases hfind : t.find? k with
    | none => rfl
    | some r => exact absurd ⟨r, find?_eq_some.1 hfind⟩ h

instance (t : Table Row key) (k : Key) : Decidable (t.Has k) :=
  decidable_of_iff (k ∈ t.rows.map key) List.mem_map

/-! ## Changing and deleting one row -/

/-- Change the row with a key; the key stays. -/
def update (t : Table Row key) (k : Key) (f : Row → Row) (hf : ∀ r, key (f r) = key r) :
    Table Row key where
  rows := t.rows.map fun r => if key r = k then f r else r
  nodup := by
    have hkeys : (t.rows.map fun r => if key r = k then f r else r).map key = t.rows.map key := by
      rw [List.map_map]
      apply List.map_congr_left
      intro r _
      simp only [Function.comp_apply]
      split
      · exact hf r
      · rfl
    rw [hkeys]
    exact t.nodup

/-- Delete the row with a key. -/
def erase (t : Table Row key) (k : Key) : Table Row key where
  rows := t.rows.filter fun r => key r ≠ k
  nodup := (List.filter_sublist.map key).nodup t.nodup

/-- The rows after one has changed. -/
theorem mem_update {t : Table Row key} {k : Key} {f : Row → Row} {hf : ∀ r, key (f r) = key r}
    {r : Row} : r ∈ t.update k f hf ↔ (r ∈ t ∧ key r ≠ k) ∨ ∃ r' ∈ t, key r' = k ∧ f r' = r := by
  constructor
  · intro h
    obtain ⟨r', hr', heq⟩ := List.mem_map.1 h
    by_cases hk : key r' = k
    · rw [if_pos hk] at heq
      exact Or.inr ⟨r', hr', hk, heq⟩
    · rw [if_neg hk] at heq
      subst heq
      exact Or.inl ⟨hr', hk⟩
  · rintro (⟨hr, hk⟩ | ⟨r', hr', hk, rfl⟩)
    · exact List.mem_map.2 ⟨r, hr, if_neg hk⟩
    · exact List.mem_map.2 ⟨r', hr', if_pos hk⟩

/-- An update keeps the keys. -/
theorem has_update {t : Table Row key} {k k' : Key} {f : Row → Row} {hf : ∀ r, key (f r) = key r} :
    (t.update k f hf).Has k' ↔ t.Has k' := by
  constructor
  · rintro ⟨r, hr, rfl⟩
    rcases mem_update.1 hr with ⟨hr, -⟩ | ⟨r', hr', -, rfl⟩
    · exact ⟨r, hr, rfl⟩
    · exact ⟨r', hr', (hf r').symm⟩
  · rintro ⟨r, hr, rfl⟩
    by_cases hkey : key r = k
    · exact ⟨f r, mem_update.2 (Or.inr ⟨r, hr, hkey, rfl⟩), hf r⟩
    · exact ⟨r, mem_update.2 (Or.inl ⟨hr, hkey⟩), rfl⟩

/-- The rows without one. -/
theorem mem_erase {t : Table Row key} {k : Key} {r : Row} : r ∈ t.erase k ↔ r ∈ t ∧ key r ≠ k := by
  constructor
  · intro h
    exact ⟨(List.mem_filter.1 h).1, of_decide_eq_true (List.mem_filter.1 h).2⟩
  · rintro ⟨hr, hk⟩
    exact List.mem_filter.2 ⟨hr, decide_eq_true hk⟩

/-- A column stays unique when the change leaves it alone. -/
theorem nodup_map_update {Column : Type*} {t : Table Row key} {k : Key} {f : Row → Row}
    {hf : ∀ r, key (f r) = key r} {column : Row → Column} (ht : (t.rows.map column).Nodup)
    (h : ∀ r, column (f r) = column r) : ((t.update k f hf).rows.map column).Nodup := by
  have hcolumn : (t.update k f hf).rows.map column = t.rows.map column := by
    unfold update
    rw [List.map_map]
    apply List.map_congr_left
    intro r _
    simp only [Function.comp_apply]
    split
    · exact h r
    · rfl
  rw [hcolumn]
  exact ht

/-- A column stays unique when no other row has the new value. -/
theorem nodup_map_update_fresh {Column : Type*} {t : Table Row key} {k : Key} {f : Row → Row}
    {hf : ∀ r, key (f r) = key r} {column : Row → Column} (ht : (t.rows.map column).Nodup)
    (h : ∀ r ∈ t, key r ≠ k → ∀ r' ∈ t, key r' = k → column r ≠ column (f r')) :
    ((t.update k f hf).rows.map column).Nodup := by
  refine List.Nodup.map_on (fun x hx y hy hxy => ?_) (t.update k f hf).nodup.of_map
  rcases mem_update.1 hx with ⟨hx, hxk⟩ | ⟨x', hx', hxk, rfl⟩
  · rcases mem_update.1 hy with ⟨hy, -⟩ | ⟨y', hy', hyk, rfl⟩
    · exact List.inj_on_of_nodup_map ht hx hy hxy
    · exact absurd hxy (h x hx hxk y' hy' hyk)
  · rcases mem_update.1 hy with ⟨hy, hyk⟩ | ⟨y', hy', hyk, rfl⟩
    · exact absurd hxy.symm (h y hy hyk x' hx' hxk)
    · rw [eq_of_key hx' hy' (hxk.trans hyk.symm)]

/-- A sum over the rows changes by what the change of the one row adds. -/
theorem sum_map_update {M : Type*} [AddCommMonoid M] {t : Table Row key} {r : Row} {f : Row → Row}
    (hf : ∀ r, key (f r) = key r) {w : Row → M} {d : M} (hr : r ∈ t) (hw : w (f r) = w r + d) :
    ((t.update (key r) f hf).rows.map w).sum = (t.rows.map w).sum + d := by
  have hlist (l : List Row) (hl : (l.map key).Nodup) (hmem : r ∈ l) :
      ((l.map fun r' => if key r' = key r then f r' else r').map w).sum = (l.map w).sum + d := by
    induction l with
    | nil => cases hmem
    | cons x l ih =>
      rw [List.map_cons, List.nodup_cons] at hl
      rcases List.mem_cons.1 hmem with rfl | hmem
      · -- the key stands nowhere in the rest
        have hrest : (l.map fun r' => if key r' = key r then f r' else r') = l := by
          refine (List.map_congr_left fun x hx => ?_).trans (List.map_id l)
          exact if_neg fun hkey => hl.1 (List.mem_map.2 ⟨x, hx, hkey⟩)
        rw [List.map_cons, hrest, if_pos rfl, List.map_cons, List.sum_cons, List.map_cons,
          List.sum_cons, hw, add_right_comm]
      · have hx : key x ≠ key r := fun hkey => hl.1 (List.mem_map.2 ⟨r, hmem, hkey.symm⟩)
        rw [List.map_cons, if_neg hx, List.map_cons, List.sum_cons, ih hl.2 hmem, List.map_cons,
          List.sum_cons, add_assoc]
  exact hlist t.rows t.nodup hr

/-! ## Changing all rows -/

/-- Change every row; the keys stay. -/
def mapRows (t : Table Row key) (f : Row → Row) (hf : ∀ r, key (f r) = key r) : Table Row key where
  rows := t.rows.map f
  nodup := by
    have hkeys : (t.rows.map f).map key = t.rows.map key := by
      rw [List.map_map]
      exact List.map_congr_left fun r _ => hf r
    rw [hkeys]
    exact t.nodup

/-! ## Adding rows -/

/-- Add a row, unless its key is there (`ON CONFLICT DO NOTHING`). -/
def insert (t : Table Row key) (r : Row) : Table Row key :=
  if h : t.Has (key r) then t
  else {
    rows := t.rows ++ [r]
    nodup := by
      rw [List.map_append, List.map_cons, List.map_nil, ← List.concat_eq_append]
      refine List.Nodup.concat (fun hmem => h ?_) t.nodup
      exact List.mem_map.1 hmem }

/-- `createMany` with `skipDuplicates` -/
def insertMany (t : Table Row key) (rs : List Row) : Table Row key := rs.foldl insert t

/-- A row is inserted unless its key is there. -/
theorem mem_insert {t : Table Row key} {r r' : Row} :
    r' ∈ t.insert r ↔ r' ∈ t ∨ (r' = r ∧ ¬ t.Has (key r)) := by
  unfold insert
  split
  · rename_i h
    constructor
    · intro hr'
      exact Or.inl hr'
    · rintro (hr' | ⟨-, hnot⟩)
      · exact hr'
      · exact absurd h hnot
  · rename_i h
    constructor
    · intro hr'
      rcases List.mem_append.1 hr' with hr' | hr'
      · exact Or.inl hr'
      · exact Or.inr ⟨List.mem_singleton.1 hr', h⟩
    · rintro (hr' | ⟨rfl, -⟩)
      · exact List.mem_append_left _ hr'
      · exact List.mem_append_right _ (List.mem_singleton_self _)

/-- The keys after an insertion. -/
theorem has_insert {t : Table Row key} {r : Row} {k : Key} :
    (t.insert r).Has k ↔ t.Has k ∨ key r = k := by
  constructor
  · rintro ⟨r', hr', rfl⟩
    rcases mem_insert.1 hr' with hr' | ⟨rfl, -⟩
    · exact Or.inl ⟨r', hr', rfl⟩
    · exact Or.inr rfl
  · rintro (⟨r', hr', rfl⟩ | rfl)
    · exact ⟨r', mem_insert.2 (Or.inl hr'), rfl⟩
    · by_cases h : t.Has (key r)
      · obtain ⟨r', hr', hk⟩ := h
        exact ⟨r', mem_insert.2 (Or.inl hr'), hk⟩
      · exact ⟨r, mem_insert.2 (Or.inr ⟨rfl, h⟩), rfl⟩

/-- A column stays unique when the value of the new row is not in it. -/
theorem nodup_map_insert {Column : Type*} {t : Table Row key} {r : Row} {column : Row → Column}
    (ht : (t.rows.map column).Nodup) (h : ∀ r' ∈ t, column r' ≠ column r) :
    ((t.insert r).rows.map column).Nodup := by
  unfold insert
  split
  · exact ht
  · rw [List.map_append, List.map_cons, List.map_nil, ← List.concat_eq_append]
    refine List.Nodup.concat (fun hmem => ?_) ht
    obtain ⟨r', hr', heq⟩ := List.mem_map.1 hmem
    exact h r' hr' heq

/-- Rows that are there stay. -/
theorem mem_insertMany_of_mem {t : Table Row key} {r : Row} (rs : List Row) (h : r ∈ t) :
    r ∈ t.insertMany rs := by
  induction rs generalizing t with
  | nil => exact h
  | cons x rs ih => exact ih (mem_insert.2 (Or.inl h))

/-- Nothing else than the new rows is added. -/
theorem mem_of_mem_insertMany {t : Table Row key} {r : Row} {rs : List Row}
    (h : r ∈ t.insertMany rs) : r ∈ t ∨ r ∈ rs := by
  induction rs generalizing t with
  | nil => exact Or.inl h
  | cons x rs ih =>
    rcases ih h with h | h
    · rcases mem_insert.1 h with h | ⟨rfl, -⟩
      · exact Or.inl h
      · exact Or.inr (List.mem_cons_self ..)
    · exact Or.inr (List.mem_cons_of_mem _ h)

/-- Afterwards every new row has its key in the table. -/
theorem has_insertMany {t : Table Row key} {rs : List Row} {k : Key} :
    (t.insertMany rs).Has k ↔ t.Has k ∨ ∃ r ∈ rs, key r = k := by
  induction rs generalizing t with
  | nil => simp [insertMany]
  | cons x rs ih =>
    have hstep : (t.insert x).insertMany rs = t.insertMany (x :: rs) := rfl
    rw [← hstep, ih, has_insert, or_assoc]
    simp only [List.mem_cons, exists_eq_or_imp]

end Table

end StrategyBuilder.Lib
