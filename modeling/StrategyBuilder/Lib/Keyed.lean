import Mathlib.Data.List.Nodup
import Mathlib.Data.List.Sort

/-!
# Lists read by a key

A list of values that carry their own key, such as the values of a `Map` in the order of their
insertion. Where a key occurs twice, the last value counts (`lookup`).

Merging writes the values of one list over those of another and sorts the result. The merged list holds
each key once (`ascending_merged`) and at each key the value that was written last (`lookup_merged`).
Since an ascending list is determined by what it holds at each key (`Ascending.ext`), laws of merging
are laws of `Option.or`.
-/

set_option autoImplicit false

namespace StrategyBuilder.Lib.Keyed

universe u v

variable {α : Type u} {κ : Type v} (key : α → κ)

/-! ## The value at a key -/

section Lookup

variable [DecidableEq κ]

/-- The last value with a key. -/
def lookup : List α → κ → Option α
  | [], _ => none
  | a :: l, k => (lookup l k).or (if key a = k then some a else none)

@[simp] theorem lookup_nil (k : κ) : lookup key [] k = none := rfl

theorem lookup_cons (a : α) (l : List α) (k : κ) :
    lookup key (a :: l) k = (lookup key l k).or (if key a = k then some a else none) := rfl

theorem lookup_append (l m : List α) (k : κ) :
    lookup key (l ++ m) k = (lookup key m k).or (lookup key l k) := by
  induction l with
  | nil => simp
  | cons a l ih => rw [List.cons_append, lookup_cons, ih, lookup_cons, Option.or_assoc]

theorem lookup_concat (l : List α) (a : α) (k : κ) :
    lookup key (l ++ [a]) k = if key a = k then some a else lookup key l k := by
  rw [lookup_append, lookup_cons, lookup_nil, Option.none_or]
  split
  · rfl
  · rfl

variable {key}

theorem lookup_eq_none {l : List α} {k : κ} : lookup key l k = none ↔ ∀ a ∈ l, key a ≠ k := by
  induction l with
  | nil => simp
  | cons a l ih =>
    rw [lookup_cons, Option.or_eq_none_iff, ih, List.forall_mem_cons, and_comm]
    simp

theorem mem_of_lookup {l : List α} {k : κ} {a : α} (h : lookup key l k = some a) :
    a ∈ l ∧ key a = k := by
  induction l with
  | nil => cases h
  | cons b l ih =>
    rw [lookup_cons, Option.or_eq_some_iff] at h
    rcases h with h | ⟨-, h⟩
    · exact ⟨List.mem_cons_of_mem b (ih h).1, (ih h).2⟩
    · obtain ⟨hk, hb⟩ := Option.ite_none_right_eq_some.1 h
      cases hb
      exact ⟨List.mem_cons_self, hk⟩

/-- Where no key occurs twice, every value is the one at its key. -/
theorem lookup_of_mem {l : List α} (hl : (l.map key).Nodup) {a : α} (h : a ∈ l) :
    lookup key l (key a) = some a := by
  cases hfound : lookup key l (key a) with
  | none => exact absurd rfl (lookup_eq_none.1 hfound a h)
  | some b =>
    obtain ⟨hb, hkey⟩ := mem_of_lookup hfound
    rw [List.inj_on_of_nodup_map hl hb h hkey]

end Lookup

/-! ## Writing a value -/

section Write

variable [DecidableEq κ]

/-- Every value with the key of `a` becomes `a`. -/
def replaceKey (l : List α) (a : α) : List α := l.map fun b => if key b = key a then a else b

/-- `Map.set`: the value takes the place of the one with its key, or goes to the end. -/
def setKey (l : List α) (a : α) : List α :=
  if key a ∈ l.map key then replaceKey key l a else l ++ [a]

/-- What is found after a replacement. -/
theorem lookup_replaceKey (l : List α) (a : α) (k : κ) :
    lookup key (replaceKey key l a) k =
      if key a = k then (lookup key l k).map fun _ => a else lookup key l k := by
  induction l with
  | nil => simp [replaceKey]
  | cons b l ih =>
    have hcons : replaceKey key (b :: l) a =
        (if key b = key a then a else b) :: replaceKey key l a := rfl
    rw [hcons, lookup_cons, ih, lookup_cons]
    -- the values behind the head are found first
    by_cases hk : key a = k
    · subst hk
      by_cases hb : key b = key a
      · cases hrest : lookup key l (key a) with
        | none => simp [hb]
        | some c => simp
      · simp [hb]
    · by_cases hb : key b = key a
      · rw [if_pos hb, if_neg hk, if_neg hk, if_neg hk, if_neg (hb ▸ hk)]
      · rw [if_neg hb, if_neg hk, if_neg hk]

/-- What is found after an assignment. -/
theorem lookup_setKey (l : List α) (a : α) (k : κ) :
    lookup key (setKey key l a) k = if key a = k then some a else lookup key l k := by
  unfold setKey
  split
  next hmem =>
    rw [lookup_replaceKey]
    by_cases hk : key a = k
    · subst hk
      obtain ⟨b, hb, hkey⟩ := List.mem_map.1 hmem
      cases hfound : lookup key l (key a) with
      | none => exact absurd hkey (lookup_eq_none.1 hfound b hb)
      | some c => rfl
    · rw [if_neg hk, if_neg hk]
  next => exact lookup_concat key l a k

/-- Writing all values of a list. -/
theorem lookup_foldl_setKey (l m : List α) (k : κ) :
    lookup key (m.foldl (setKey key) l) k = (lookup key m k).or (lookup key l k) := by
  induction m generalizing l with
  | nil => simp
  | cons a m ih =>
    rw [List.foldl_cons, ih, lookup_setKey, lookup_cons, Option.or_assoc]
    split
    · rfl
    · rfl

/-- An assignment keeps the keys apart. -/
theorem nodup_setKey {l : List α} (hl : (l.map key).Nodup) (a : α) :
    ((setKey key l a).map key).Nodup := by
  unfold setKey
  split
  next =>
    have hkeys : (replaceKey key l a).map key = l.map key := by
      rw [replaceKey, List.map_map]
      apply List.map_congr_left
      intro b _
      rw [Function.comp_apply]
      split
      next hb => exact hb.symm
      next => rfl
    rw [hkeys]
    exact hl
  next hnew =>
    rw [List.map_append, List.map_singleton, ← List.concat_eq_append]
    exact hl.concat hnew

theorem nodup_foldl_setKey {l : List α} (hl : (l.map key).Nodup) (m : List α) :
    ((m.foldl (setKey key) l).map key).Nodup := by
  induction m generalizing l with
  | nil => exact hl
  | cons a m ih => exact ih (nodup_setKey key hl a)

end Write

/-! ## Ascending lists -/

section Ascending

variable [LinearOrder κ]

/-- The keys rise strictly. -/
def Ascending (l : List α) : Prop := l.Pairwise fun a b => key a < key b

variable {key}

theorem Ascending.nodup {l : List α} (h : Ascending key l) : (l.map key).Nodup :=
  List.pairwise_map.2 (h.imp ne_of_lt)

/-- An ascending list is determined by what it holds at each key. -/
theorem Ascending.ext {l m : List α} (hl : Ascending key l) (hm : Ascending key m)
    (h : ∀ k, lookup key l k = lookup key m k) : l = m := by
  have hsub : ∀ {l m : List α}, Ascending key l → (∀ k, lookup key l k = lookup key m k) →
      ∀ a ∈ l, a ∈ m := by
    intro l m hl h a ha
    have hfound := lookup_of_mem hl.nodup ha
    rw [h] at hfound
    exact (mem_of_lookup hfound).1
  -- the same values, so one list is an order of the other, and the order is fixed
  have hperm : l.Perm m := by
    rw [List.perm_ext_iff_of_nodup hl.nodup.of_map hm.nodup.of_map]
    exact fun a => ⟨hsub hl h a, hsub hm (fun k => (h k).symm) a⟩
  exact hperm.eq_of_pairwise (fun a b _ _ hab hba => absurd hab hba.asymm) hl hm

/-- A value with a greater key goes to the end. -/
theorem Ascending.concat {l : List α} (h : Ascending key l) {a : α} (ha : ∀ b ∈ l, key b < key a) :
    Ascending key (l ++ [a]) := by
  refine List.pairwise_append.2 ⟨h, List.pairwise_singleton _ _, ?_⟩
  intro b hb c hc
  rw [List.mem_singleton.1 hc]
  exact ha b hb

variable (key)

/-- The list in the order of its keys. -/
def sortByKey (l : List α) : List α := l.insertionSort fun a b => key a ≤ key b

/-- The sorted list ascends. -/
theorem ascending_sortByKey {l : List α} (h : (l.map key).Nodup) : Ascending key (sortByKey key l) := by
  have hperm : (sortByKey key l).Perm l := List.perm_insertionSort _ l
  have hsorted : (sortByKey key l).Pairwise fun a b => key a ≤ key b := by
    have hle : Std.Total fun a b : α => key a ≤ key b := ⟨fun a b => le_total (key a) (key b)⟩
    have htrans : IsTrans α fun a b => key a ≤ key b := ⟨fun _ _ _ => le_trans⟩
    exact List.pairwise_insertionSort _ l
  -- no key occurs twice, so the sorted keys rise strictly
  have hne : (sortByKey key l).Pairwise fun a b => key a ≠ key b :=
    List.pairwise_map.1 ((hperm.map key).nodup_iff.2 h)
  exact (hsorted.and hne).imp fun hab => lt_of_le_of_ne hab.1 hab.2

/-- To sort changes no lookup. -/
theorem lookup_sortByKey {l : List α} (h : (l.map key).Nodup) (k : κ) :
    lookup key (sortByKey key l) k = lookup key l k := by
  have hperm : (sortByKey key l).Perm l := List.perm_insertionSort _ l
  have hnodup : ((sortByKey key l).map key).Nodup := (hperm.map key).nodup_iff.2 h
  cases hfound : lookup key l k with
  | none => exact lookup_eq_none.2 fun a ha => lookup_eq_none.1 hfound a (hperm.mem_iff.1 ha)
  | some a =>
    obtain ⟨ha, rfl⟩ := mem_of_lookup hfound
    exact lookup_of_mem hnodup (hperm.mem_iff.2 ha)

/-! ## Merging -/

/-- The values of `overlay` written over those of `base`, by ascending key. -/
def merged (base overlay : List α) : List α :=
  sortByKey key (overlay.foldl (setKey key) (base.foldl (setKey key) []))

theorem nodup_written (base overlay : List α) :
    ((overlay.foldl (setKey key) (base.foldl (setKey key) [])).map key).Nodup := by
  have hempty : (([] : List α).map key).Nodup := List.nodup_nil
  exact nodup_foldl_setKey key (nodup_foldl_setKey key hempty base) overlay

theorem ascending_merged (base overlay : List α) : Ascending key (merged key base overlay) :=
  ascending_sortByKey key (nodup_written key base overlay)

theorem lookup_merged (base overlay : List α) (k : κ) :
    lookup key (merged key base overlay) k = (lookup key overlay k).or (lookup key base k) := by
  unfold merged
  rw [lookup_sortByKey key (nodup_written key base overlay), lookup_foldl_setKey, lookup_foldl_setKey,
    lookup_nil, Option.or_none]

end Ascending

end StrategyBuilder.Lib.Keyed
