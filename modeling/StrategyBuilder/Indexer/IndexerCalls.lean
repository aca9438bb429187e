import StrategyBuilder.Indexer.History

/-!
# Rules for the indexer's calls

Triples for the calls of the indexer and for the parts of a tick that only read or only add rows. The
vaults may grow at any call, so an assertion has to be stable under registrations (`Stable`). A call
may throw where its fate says so: the rules ask what holds then only of such calls (`Fails`).
-/

set_option autoImplicit false

namespace StrategyBuilder.Indexer

open StrategyBuilder.Contracts
open StrategyBuilder.Lib
open StrategyBuilder.Lib.Async
open StrategyBuilder.Lib.Js

/-- The assertion survives the registrations of the moments. -/
def Stable (outside : Nat → Moment) (R : Nat → Prop) (P : World → Prop) : Prop :=
  ∀ i w, R i → P w → P (w.register (outside i).registered)

/-- The call fails at some of the moments. -/
def Fails (outside : Nat → Moment) (R : Nat → Prop) (call : Call) : Prop :=
  ∃ i effect, R i ∧ (outside i).fate call = .failed effect

variable {outside : Nat → Moment} {R : Nat → Prop} {P T S : World → Prop}

theorem Stable.and {P' : World → Prop} (h : Stable outside R P) (h' : Stable outside R P') :
    Stable outside R fun w => P w ∧ P' w := by
  intro i w hR hw
  exact ⟨h i w hR hw.1, h' i w hR hw.2⟩

/-- The rule for a call that is awaited: it is answered, refused, or fails. -/
theorem triple_await {α : Type} {Q : α → World → Prop} {call : Call}
    {f : Moment → World → Option (α × World)} (hP : Stable outside R P)
    (hQ : ∀ i w a w', R i → P w → f (outside i) w = some (a, w') → Q a w')
    (hrefused : ∀ i w, R i → P w → f (outside i) w = none → T w)
    (hT : Fails outside R call → ∀ w, P w ∨ (∃ a, Q a w) → T w)
    (hS : ∀ w, P w ∨ (∃ a, Q a w) → S w) :
    Triple outside R P (await call f) Q T S := by
  -- a call that is not answered ends before its effect or after it
  have hends {i : Nat} {w w' : World} (hw : P w) (hR : R i)
      (h : CallEnds (fun m w => World.register w m.registered) f (outside i) w w') :
      P w' ∨ ∃ a, Q a w' := by
    rcases h with rfl | ⟨a, ha⟩
    · exact Or.inl (hP i w hR hw)
    · exact Or.inr ⟨a, hQ i _ a w' hR (hP i w hR hw) ha⟩
  apply Triple.call
  · intro i w a w' hw hR ha
    exact hQ i _ a w' hR (hP i w hR hw) ha
  · rintro i w w' hw hR hend (⟨effect, hfate⟩ | hnone)
    · exact hT ⟨i, effect, hR, hfate⟩ w' (hends hw hR hend)
    · rcases hend with rfl | ⟨a, ha⟩
      · exact hrefused i _ hR (hP i w hR hw) hnone
      · rw [hnone] at ha
        cases ha
  · intro i w w' hw hR hend
    exact hS w' (hends hw hR hend)

/-- A call whose postcondition is stronger than its precondition. -/
theorem triple_keep {α : Type} {Q : α → World → Prop} {call : Call}
    {f : Moment → World → Option (α × World)} (hP : Stable outside R P)
    (hkeep : ∀ a w, Q a w → P w)
    (hQ : ∀ i w a w', R i → P w → f (outside i) w = some (a, w') → Q a w')
    (hrefused : ∀ i w, R i → P w → f (outside i) w = none → T w)
    (hT : Fails outside R call → ∀ w, P w → T w) (hS : ∀ w, P w → S w) :
    Triple outside R P (await call f) Q T S := by
  apply triple_await hP hQ hrefused
  · rintro hfails w (hw | ⟨a, hw⟩)
    · exact hT hfails w hw
    · exact hT hfails w (hkeep a w hw)
  · rintro w (hw | ⟨a, hw⟩)
    · exact hS w hw
    · exact hS w (hkeep a w hw)

/-- A read leaves the assertion, and answers what is there. -/
theorem triple_query {α : Type} {call : Call} {f : Moment → World → α} (hP : Stable outside R P)
    (hT : Fails outside R call → ∀ w, P w → T w) (hS : ∀ w, P w → S w) :
    Triple outside R P (query call f)
      (fun a w => P w ∧ ∃ i, R i ∧ a = f (outside i) w) T S := by
  refine triple_keep hP (fun _ _ hw => hw.1) ?_ ?_ hT hS
  · intro i w a w' hR hw ha
    cases ha
    exact ⟨hw, i, hR, rfl⟩
  · intro i w _ _ hnone
    cases hnone

/-- The timestamp of the block is not read: the call fails, or the block is missing. -/
def NoTimestamp (outside : Nat → Moment) (R : Nat → Prop) (call : Call) (block : Nat) : Prop :=
  Fails outside R call ∨ ∃ i, R i ∧ (outside i).timestamp block = none

/-- The time of a block, or the exception of a block without one. -/
theorem triple_blockTimestamp {call : Call} {block : Nat} (hP : Stable outside R P)
    (hT : NoTimestamp outside R call block → ∀ w, P w → T w) (hS : ∀ w, P w → S w) :
    Triple outside R P (blockTimestamp call block) (fun _ => P) T S := by
  refine triple_keep hP (fun _ _ hw => hw) ?_ ?_ (fun hfails => hT (Or.inl hfails)) hS
  · intro i w a w' _ hw ha
    obtain ⟨timestamp, -, heq⟩ := Option.map_eq_some_iff.1 ha
    cases heq
    exact hw
  · intro i w hR hw hnone
    exact hT (Or.inr ⟨i, hR, Option.map_eq_none_iff.1 hnone⟩) w hw

/-- Every block has its timestamp afterwards. -/
theorem triple_resolveTimestamps {call : Nat → Call} {blocks : List Nat} (hP : Stable outside R P)
    (hT : (∃ n ∈ blocks, NoTimestamp outside R (call n) n) → ∀ w, P w → T w)
    (hS : ∀ w, P w → S w) :
    Triple outside R P (resolveTimestamps call blocks)
      (fun out w => (∀ n ∈ blocks, ∃ ts, out n = some ts) ∧ P w) T S := by
  -- a block is still to be read, or it has its timestamp
  apply (Triple.foldlM (I := fun rest out w =>
    ((∀ n ∈ rest, n ∈ blocks) ∧ ∀ n ∈ blocks, n ∈ rest ∨ ∃ ts, out n = some ts) ∧ P w) ?_).imp
  · intro w hw
    exact ⟨⟨fun n => mem_distinct.1, fun n hn => Or.inl (mem_distinct.2 hn)⟩, hw⟩
  · rintro out w ⟨⟨-, hall⟩, hw⟩
    exact ⟨fun n hn => (hall n hn).resolve_left List.not_mem_nil, hw⟩
  · intro out n rest
    apply Triple.assume
    rintro ⟨hrest, hall⟩
    apply Triple.bind (triple_blockTimestamp hP
      (fun hno => hT ⟨n, hrest n (List.mem_cons_self ..), hno⟩) hS)
    intro timestamp
    apply Triple.pure
    intro w hw
    refine ⟨⟨fun k hk => hrest k (List.mem_cons_of_mem _ hk), fun k hk => ?_⟩, hw⟩
    by_cases heq : k = n
    · subst heq
      exact Or.inr ⟨timestamp, Map.set_self ..⟩
    · rw [Map.set_of_ne _ _ heq]
      exact (hall k hk).imp_left fun hmem => (List.mem_cons.1 hmem).resolve_left heq

/-- There is a value for each item. -/
theorem triple_computeUsd {call : Call} {items : List (Option Address × Option Nat)}
    (hP : Stable outside R P) (hT : Fails outside R call → ∀ w, P w → T w) (hS : ∀ w, P w → S w) :
    Triple outside R P (computeUsd call items)
      (fun usd w => usd.length = items.length ∧ P w) T S := by
  unfold computeUsd
  split
  · apply (triple_query hP hT hS).post
    rintro usd w ⟨hw, i, -, rfl⟩
    exact ⟨List.length_map .., hw⟩
  · apply Triple.pure
    intro w hw
    exact ⟨List.length_map .., hw⟩

/-- The rate, which never fails. -/
theorem triple_readDepositFeeBps {cfg : Config} (hP : Stable outside R P) (hS : ∀ w, P w → S w) :
    Triple outside R P (readDepositFeeBps cfg) (fun _ => P) T S := by
  unfold readDepositFeeBps
  split
  · exact Triple.pure fun w hw => hw
  · have hread : Triple outside R P (query .depositFeeBps fun m _ => m.depositFeeBps) (fun _ => P)
        P S := by
      apply (triple_query hP (fun _ w hw => hw) hS).post
      intro a w hw
      exact hw.1
    exact hread.tryCatch (Triple.pure fun w hw => hw)

/-! ## Storing the new rows -/

section Persist

variable {Data Row : Type} {key : Row → String × Nat} {find usdCall : Call}
  {table : World → Table Row key} {keyOf : Data → String × Nat}
  {item : Data → Option Address × Option Nat} {build : Data → Option String → Row}
  {store : List Row → Program Unit} {rows : List Data}

/-- A call that stores rows: what the table had it still has. -/
theorem triple_store {call : Call} {effect : Moment → World → World} {data : List Row}
    {keys : List (String × Nat)} (hP : Stable outside R P)
    (htable : ∀ w vaults, table (w.register vaults) = table w)
    (heffect : ∀ m w, table (effect m w) = (table w).insertMany data)
    (hstore : ∀ m w, P w → P (effect m w)) (hT : Fails outside R call → ∀ w, P w → T w)
    (hS : ∀ w, P w → S w) :
    Triple outside R (fun w => P w ∧ ∀ k ∈ keys, (table w).Has k)
      (await call fun m w => some ((), effect m w))
      (fun _ w => P w ∧ (∀ k ∈ keys, (table w).Has k) ∧ ∀ r ∈ data, (table w).Has (key r)) T S := by
  have hkeys : Stable outside R fun w => P w ∧ ∀ k ∈ keys, (table w).Has k := by
    apply hP.and
    intro i w _ hw
    rw [htable]
    exact hw
  refine triple_keep hkeys (fun _ _ hw => ⟨hw.1, hw.2.1⟩) ?_ ?_ (fun hfails w hw => hT hfails w hw.1)
    (fun w hw => hS w hw.1)
  · rintro i w a w' - ⟨hw, hold⟩ heq
    cases heq
    refine ⟨hstore _ w hw, fun k hk => ?_, fun r hr => ?_⟩
    · rw [heffect]
      exact Table.has_insertMany.2 (Or.inl (hold k hk))
    · rw [heffect]
      exact Table.has_insertMany.2 (Or.inr ⟨r, hr, rfl⟩)
  · intro i w _ _ hnone
    cases hnone

/-- Every new row is built of one of the data. -/
theorem mem_zipWith_build {usd : List (Option String)} (hlen : usd.length = rows.length) :
    (∀ r ∈ List.zipWith build rows usd, ∃ d ∈ rows, ∃ u, r = build d u) ∧
      ∀ d ∈ rows, ∃ r ∈ List.zipWith build rows usd, ∃ u, r = build d u := by
  induction rows generalizing usd with
  | nil =>
    constructor
    · intro r hr
      cases hr
    · intro d hd
      cases hd
  | cons d rows ih =>
    cases usd with
    | nil => cases hlen
    | cons u usd =>
      obtain ⟨hbuilt, hrow⟩ := ih (Nat.succ.inj hlen)
      constructor
      · intro r hr
        rcases List.mem_cons.1 hr with rfl | hr
        · exact ⟨d, List.mem_cons_self .., u, rfl⟩
        · obtain ⟨d', hd', u', rfl⟩ := hbuilt r hr
          exact ⟨d', List.mem_cons_of_mem _ hd', u', rfl⟩
      · intro d' hd'
        rcases List.mem_cons.1 hd' with rfl | hd'
        · exact ⟨build d' u, List.mem_cons_self .., u, rfl⟩
        · obtain ⟨r, hr, u', rfl⟩ := hrow d' hd'
          exact ⟨_, List.mem_cons_of_mem _ hr, u', rfl⟩

/-- **After a `persist` every row is in its table**: it was there before, or it is new and stored. -/
theorem triple_persistNew (hP : Stable outside R P)
    (htable : ∀ w vaults, table (w.register vaults) = table w)
    (hkey : ∀ d usd, key (build d usd) = keyOf d)
    (hstore : ∀ (data : List Row) (keys : List (String × Nat)),
      (∀ r ∈ data, ∃ d ∈ rows, ∃ usd, r = build d usd) →
      Triple outside R (fun w => P w ∧ ∀ k ∈ keys, (table w).Has k) (store data)
        (fun _ w => P w ∧ (∀ k ∈ keys, (table w).Has k) ∧ ∀ r ∈ data, (table w).Has (key r)) T S)
    (hT : Fails outside R find ∨ Fails outside R usdCall → ∀ w, P w → T w) (hS : ∀ w, P w → S w) :
    Triple outside R P (persistNew find usdCall table keyOf item build store rows)
      (fun _ w => P w ∧ ∀ d ∈ rows, (table w).Has (keyOf d)) T S := by
  unfold persistNew
  apply Triple.bind (triple_query hP (fun h => hT (Or.inl h)) hS)
  intro existing
  -- what was found stays in the table
  have hfound : ∀ w, (P w ∧ ∃ i, R i ∧ existing = existingKeys (table w) (rows.map keyOf)) →
      P w ∧ ∀ k ∈ existing, (table w).Has k := by
    rintro w ⟨hw, -, -, rfl⟩
    exact ⟨hw, fun k hk => of_decide_eq_true (List.mem_filter.1 hk).2⟩
  have hstable : Stable outside R fun w => P w ∧ ∀ k ∈ existing, (table w).Has k := by
    apply hP.and
    intro i w _ hw
    rw [htable]
    exact hw
  -- a row was found, or it is among the new ones
  have hall {w : World} {data : List Row}
      (hdata : ∀ d ∈ rows.filter (fun r => keyOf r ∉ existing), ∃ r ∈ data, ∃ u, r = build d u)
      (hold : ∀ k ∈ existing, (table w).Has k) (hnew : ∀ r ∈ data, (table w).Has (key r)) :
      ∀ d ∈ rows, (table w).Has (keyOf d) := by
    intro d hd
    by_cases hmem : keyOf d ∈ existing
    · exact hold _ hmem
    · obtain ⟨r, hr, u, rfl⟩ := hdata d (List.mem_filter.2 ⟨hd, decide_eq_true hmem⟩)
      exact hkey d u ▸ hnew _ hr
  simp only
  split
  · rename_i hnone
    have hnil := List.length_eq_zero_iff.1 hnone
    apply Triple.pure
    intro w hw
    refine ⟨hw.1, fun d hd => ?_⟩
    by_cases hmem : keyOf d ∈ existing
    · exact (hfound w hw).2 _ hmem
    · have hnew : d ∈ rows.filter fun r => keyOf r ∉ existing :=
        List.mem_filter.2 ⟨hd, decide_eq_true hmem⟩
      rw [hnil] at hnew
      cases hnew
  · apply Triple.bind ((triple_computeUsd hstable (fun h w hw => hT (Or.inr h) w hw.1)
      (fun w hw => hS w hw.1)).imp hfound fun _ _ h => h)
    intro usd
    apply Triple.assume
    intro hlen
    rw [List.length_map] at hlen
    -- every new row got its USD value, so none is lost in the zip
    obtain ⟨hbuilt, hrow⟩ :
        (∀ r ∈ List.zipWith build _ usd, ∃ d ∈ rows.filter fun r => keyOf r ∉ existing, ∃ u,
          r = build d u) ∧
        ∀ d ∈ rows.filter (fun r => keyOf r ∉ existing), ∃ r ∈ List.zipWith build _ usd, ∃ u,
          r = build d u := mem_zipWith_build hlen
    apply (hstore (List.zipWith build _ usd) existing ?_).post
    · rintro - w ⟨hw, hold, hnew⟩
      exact ⟨hw, hall hrow hold hnew⟩
    · intro r hr
      obtain ⟨d, hd, u, rfl⟩ := hbuilt r hr
      exact ⟨d, (List.mem_filter.1 hd).1, u, rfl⟩

end Persist

end StrategyBuilder.Indexer
