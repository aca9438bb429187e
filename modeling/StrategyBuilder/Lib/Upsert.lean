import Mathlib.Data.List.Induction
import StrategyBuilder.Lib.Keyed
import StrategyBuilder.Lib.Table

/-!
# Tables written by upserts

Rows that have an id besides their key, such as those of a table with a generated primary key and one
more unique constraint. An upsert looks a row up by its key: a row that is there gets new content and
keeps its id, else a row is added under an id that no row has.

Writing a list of contents and then deleting all rows that were not written makes the table that list
(`mem_sync`), whatever was in it before; so it does not matter where an earlier run was interrupted.
-/

set_option autoImplicit false

namespace StrategyBuilder.Lib

universe u v w

/-- A row with the id that it got. -/
structure Stored (Id : Type u) (Data : Type v) where
  id : Id
  data : Data
deriving DecidableEq, Repr

/-- Ids and keys are unique. -/
structure Store (Id : Type u) {Data : Type v} {Key : Type w} (key : Data → Key) where
  table : Table (Stored Id Data) (fun r => key r.data)
  ids : (table.rows.map Stored.id).Nodup

namespace Store

variable {Id : Type u} {Data : Type v} {Key : Type w} {key : Data → Key}

instance : Membership (Stored Id Data) (Store Id key) := ⟨fun t r => r ∈ t.table⟩

theorem eq_of_key {t : Store Id key} {r r' : Stored Id Data} (hr : r ∈ t) (hr' : r' ∈ t)
    (h : key r.data = key r'.data) : r = r' := Table.eq_of_key (t := t.table) hr hr' h

theorem eq_of_id {t : Store Id key} {r r' : Stored Id Data} (hr : r ∈ t) (hr' : r' ∈ t)
    (h : r.id = r'.id) : r = r' := List.inj_on_of_nodup_map t.ids hr hr' h

/-- No rows. -/
def empty : Store Id key := ⟨Table.empty, List.nodup_nil⟩

/-- `deleteMany` of the rows that do not satisfy `p`. -/
def filter (t : Store Id key) (p : Stored Id Data → Bool) : Store Id key where
  table := {
    rows := t.table.rows.filter p
    nodup := (List.filter_sublist.map _).nodup t.table.nodup }
  ids := (List.filter_sublist.map _).nodup t.ids

theorem mem_filter {t : Store Id key} {p : Stored Id Data → Bool} {r : Stored Id Data} :
    r ∈ t.filter p ↔ r ∈ t ∧ p r = true := List.mem_filter

/-- A generator of ids that no row has. -/
def Fresh (Id : Type u) {Data : Type v} {Key : Type w} (key : Data → Key) : Type (max u v) :=
  ∀ t : Store Id key, {id : Id // ∀ r ∈ t, r.id ≠ id}

/-! ## One upsert -/

/-- `merge` writes new content over old; it leaves the key alone. -/
structure Merge (key : Data → Key) where
  write : Data → Data → Data
  key_write : ∀ old d, key (write old d) = key old
  /-- Nothing of the old content is left. -/
  write_eq : ∀ {old d}, key old = key d → write old d = d

/-- A row with new content. -/
def Merge.row (merge : Merge key) (d : Data) (r : Stored Id Data) : Stored Id Data :=
  { r with data := merge.write r.data d }

theorem Merge.key_row (merge : Merge key) (d : Data) (r : Stored Id Data) :
    key (merge.row d r).data = key r.data := merge.key_write r.data d

variable [DecidableEq Key]

/-- The table after an upsert, and the id of the row. -/
def upsert (fresh : Fresh Id key) (merge : Merge key) (t : Store Id key) (d : Data) :
    Store Id key × Id :=
  match t.table.find? (key d) with
  | some row =>
      ({ table := t.table.update (key d) (merge.row d) (merge.key_row d)
         ids := Table.nodup_map_update t.ids fun _ => rfl }, row.id)
  | none =>
      ({ table := t.table.insert ⟨fresh t, d⟩
         ids := Table.nodup_map_insert t.ids (fresh t).2 }, fresh t)

section Upsert

variable {fresh : Fresh Id key} {merge : Merge key} {t : Store Id key} {d : Data}

/-- All that an upsert does: the row of the key has the content, other rows are as before. -/
theorem mem_upsert {r : Stored Id Data} : r ∈ (upsert fresh merge t d).1 ↔
    (r ∈ t ∧ key r.data ≠ key d) ∨ r = ⟨(upsert fresh merge t d).2, d⟩ := by
  rw [upsert]
  cases hfind : t.table.find? (key d) with
  | some row =>
    obtain ⟨hrow, hkey⟩ := Table.find?_eq_some.1 hfind
    -- the row of the key is written over and keeps its id
    have hmem := @Table.mem_update _ _ _ _ t.table (key d) (merge.row d) (merge.key_row d) r
    constructor
    · intro hr
      rcases hmem.1 hr with hr | ⟨r', hr', hk, rfl⟩
      · exact Or.inl hr
      · right
        rw [Merge.row, merge.write_eq hk, Table.eq_of_key hr' hrow (hk.trans hkey.symm)]
    · rintro (hr | rfl)
      · exact hmem.2 (Or.inl hr)
      · refine hmem.2 (Or.inr ⟨row, hrow, hkey, ?_⟩)
        rw [Merge.row, merge.write_eq hkey]
  | none =>
    have hno := Table.find?_eq_none.1 hfind
    constructor
    · intro hr
      rcases Table.mem_insert.1 hr with hr | ⟨rfl, -⟩
      · exact Or.inl ⟨hr, fun hk => hno ⟨r, hr, hk⟩⟩
      · exact Or.inr rfl
    · rintro (⟨hr, -⟩ | rfl)
      · exact Table.mem_insert.2 (Or.inl hr)
      · exact Table.mem_insert.2 (Or.inr ⟨rfl, hno⟩)

theorem mem_upsert_self : ⟨(upsert fresh merge t d).2, d⟩ ∈ (upsert fresh merge t d).1 :=
  mem_upsert.2 (Or.inr rfl)

/-- A row that is there keeps its id. -/
theorem upsert_id {r : Stored Id Data} (hr : r ∈ t) (hkey : key r.data = key d) :
    (upsert fresh merge t d).2 = r.id := by
  have hfind : t.table.find? (key d) = some r := Table.find?_eq_some.2 ⟨hr, hkey⟩
  rw [upsert, hfind]

end Upsert

/-! ## Many upserts -/

/-- The table after upserts, and the ids of their rows. -/
def upsertAll (fresh : Fresh Id key) (merge : Merge key) (ds : List Data) (t : Store Id key) :
    Store Id key × List Id :=
  ds.foldl (fun acc d =>
    let written := upsert fresh merge acc.1 d
    (written.1, acc.2 ++ [written.2])) (t, [])

variable {fresh : Fresh Id key} {merge : Merge key} {t : Store Id key}

/-- The last element of a list is written last. -/
theorem upsertAll_concat (ds : List Data) (d : Data) :
    upsertAll fresh merge (ds ++ [d]) t =
      ((upsert fresh merge (upsertAll fresh merge ds t).1 d).1,
        (upsertAll fresh merge ds t).2 ++
          [(upsert fresh merge (upsertAll fresh merge ds t).1 d).2]) := by
  rw [upsertAll, List.foldl_append]
  rfl

/-- The rows after upserts: the last content of each key, and the rows of other keys as before. -/
theorem mem_upsertAll {ds : List Data} {r : Stored Id Data} (hr : r ∈ (upsertAll fresh merge ds t).1) :
    Keyed.lookup key ds (key r.data) = some r.data ∨
      (r ∈ t ∧ Keyed.lookup key ds (key r.data) = none) := by
  induction ds using List.reverseRecOn generalizing r with
  | nil => exact Or.inr ⟨hr, rfl⟩
  | append_singleton ds d ih =>
    rw [upsertAll_concat] at hr
    rw [Keyed.lookup_concat]
    rcases mem_upsert.1 hr with ⟨hold, hne⟩ | rfl
    · rw [if_neg hne.symm]
      exact ih hold
    · exact Or.inl (if_pos rfl)

/-- Rows of other keys stay. -/
theorem mem_upsertAll_of_mem {ds : List Data} {r : Stored Id Data} (hr : r ∈ t)
    (h : Keyed.lookup key ds (key r.data) = none) : r ∈ (upsertAll fresh merge ds t).1 := by
  induction ds using List.reverseRecOn with
  | nil => exact hr
  | append_singleton ds d ih =>
    rw [upsertAll_concat]
    rw [Keyed.lookup_concat] at h
    split at h
    · cases h
    · rename_i hne
      exact mem_upsert.2 (Or.inl ⟨ih h, Ne.symm hne⟩)

/-- Every key that is written has a row, whose id is among those handed back. -/
theorem upsertAll_written (fresh : Fresh Id key) (merge : Merge key) (t : Store Id key)
    {ds : List Data} {k : Key} {d : Data} (h : Keyed.lookup key ds k = some d) :
    ∃ id ∈ (upsertAll fresh merge ds t).2, ⟨id, d⟩ ∈ (upsertAll fresh merge ds t).1 := by
  induction ds using List.reverseRecOn generalizing d with
  | nil => cases h
  | append_singleton ds e ih =>
    rw [Keyed.lookup_concat] at h
    rw [upsertAll_concat]
    split at h
    · cases h
      exact ⟨_, List.mem_append_right _ (List.mem_singleton_self _), mem_upsert_self⟩
    · rename_i hne
      obtain ⟨id, hid, hrow⟩ := ih h
      -- a later upsert of another key leaves the row alone
      have hkey : key d ≠ key e := by
        rw [(Keyed.mem_of_lookup h).2]
        exact Ne.symm hne
      exact ⟨id, List.mem_append_left _ hid, mem_upsert.2 (Or.inl ⟨hrow, hkey⟩)⟩

/-- The ids of rows go with their keys. -/
theorem upsertAll_keeps (fresh : Fresh Id key) (merge : Merge key) (ds : List Data)
    {r : Stored Id Data} (hr : r ∈ t) :
    ∃ r' ∈ (upsertAll fresh merge ds t).1, r'.id = r.id ∧ key r'.data = key r.data := by
  induction ds using List.reverseRecOn with
  | nil => exact ⟨r, hr, rfl, rfl⟩
  | append_singleton ds d ih =>
    rw [upsertAll_concat]
    obtain ⟨r', hr', hid, hkey⟩ := ih
    by_cases hd : key r'.data = key d
    · exact ⟨_, mem_upsert_self, (upsert_id hr' hd).trans hid, hd.symm.trans hkey⟩
    · exact ⟨r', mem_upsert.2 (Or.inl ⟨hr', hd⟩), hid, hkey⟩

/-- Every id handed back is that of a row whose key is written. -/
theorem upsertAll_kept {ds : List Data} {id : Id} (h : id ∈ (upsertAll fresh merge ds t).2) :
    ∃ r ∈ (upsertAll fresh merge ds t).1, r.id = id ∧ Keyed.lookup key ds (key r.data) ≠ none := by
  induction ds using List.reverseRecOn with
  | nil => cases h
  | append_singleton ds d ih =>
    rw [upsertAll_concat] at h ⊢
    rcases List.mem_append.1 h with h | h
    · obtain ⟨r, hr, hid, hwritten⟩ := ih h
      by_cases hd : key r.data = key d
      · refine ⟨_, mem_upsert_self, (upsert_id hr hd).trans hid, ?_⟩
        rw [Keyed.lookup_concat, if_pos rfl]
        exact Option.some_ne_none d
      · refine ⟨r, mem_upsert.2 (Or.inl ⟨hr, hd⟩), hid, ?_⟩
        rw [Keyed.lookup_concat, if_neg (Ne.symm hd)]
        exact hwritten
    · rw [List.mem_singleton.1 h]
      refine ⟨_, mem_upsert_self, rfl, ?_⟩
      rw [Keyed.lookup_concat, if_pos rfl]
      exact Option.some_ne_none d

/-! ## Writing a list and deleting the rest -/

variable [DecidableEq Id]

/-- Upserts, after which all other rows are deleted; nothing is deleted if nothing was written. -/
def sync (fresh : Fresh Id key) (merge : Merge key) (ds : List Data) (t : Store Id key) : Store Id key :=
  let (written, keptIds) := upsertAll fresh merge ds t
  if 0 < keptIds.length then written.filter fun r => r.id ∈ keptIds else written

/-- After a pruning the written rows are left. -/
theorem mem_sync_of_ne {ds : List Data} (hds : ds ≠ []) {r : Stored Id Data} :
    r ∈ sync fresh merge ds t ↔
      r ∈ (upsertAll fresh merge ds t).1 ∧ r.id ∈ (upsertAll fresh merge ds t).2 := by
  have hkept : 0 < (upsertAll fresh merge ds t).2.length := by
    obtain ⟨d, hd⟩ := List.exists_mem_of_ne_nil ds hds
    cases hlookup : Keyed.lookup key ds (key d) with
    | none => exact absurd rfl (Keyed.lookup_eq_none.1 hlookup d hd)
    | some e =>
      obtain ⟨id, hid, -⟩ := upsertAll_written fresh merge t hlookup
      exact List.length_pos_of_mem hid
  have hdef : sync fresh merge ds t =
      (upsertAll fresh merge ds t).1.filter fun r => r.id ∈ (upsertAll fresh merge ds t).2 :=
    if_pos hkept
  rw [hdef, mem_filter, decide_eq_true_eq]

/-- **The rows after writing a list** are those of the list, the last one of each key, under the id of
the row that had the key before, if there was one. -/
theorem mem_sync (fresh : Fresh Id key) (merge : Merge key) (t : Store Id key) {ds : List Data}
    (hds : ds ≠ []) :
    (∀ r ∈ sync fresh merge ds t, Keyed.lookup key ds (key r.data) = some r.data) ∧
      (∀ k d, Keyed.lookup key ds k = some d → ∃ id, ⟨id, d⟩ ∈ sync fresh merge ds t) ∧
      ∀ r ∈ t, ∀ d, Keyed.lookup key ds (key r.data) = some d → ⟨r.id, d⟩ ∈ sync fresh merge ds t := by
  refine ⟨?_, ?_, ?_⟩
  · intro r hr
    obtain ⟨hr, hid⟩ := (mem_sync_of_ne hds).1 hr
    obtain ⟨r', hr', heq, hwritten⟩ := upsertAll_kept hid
    -- the row of the id is this one, and its key is written
    rw [eq_of_id hr' hr heq] at hwritten
    rcases mem_upsertAll hr with h | ⟨-, h⟩
    · exact h
    · exact absurd h hwritten
  · intro k d h
    obtain ⟨id, hid, hrow⟩ := upsertAll_written fresh merge t h
    exact ⟨id, (mem_sync_of_ne hds).2 ⟨hrow, hid⟩⟩
  · intro r hr d h
    obtain ⟨id, hid, hrow⟩ := upsertAll_written fresh merge t h
    obtain ⟨r', hr', hsame, hkey⟩ := upsertAll_keeps fresh merge ds hr
    have heq := eq_of_key hr' hrow (hkey.trans (Keyed.mem_of_lookup h).2.symm)
    rw [heq] at hsame
    rw [← hsame]
    exact (mem_sync_of_ne hds).2 ⟨hrow, hid⟩

end Store

end StrategyBuilder.Lib
