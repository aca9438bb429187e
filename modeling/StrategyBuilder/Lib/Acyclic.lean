import Mathlib.Algebra.Order.BigOperators.Group.List
import Mathlib.Algebra.Order.Ring.Nat
import StrategyBuilder.Lib.Search

/-!
# Cycles of a directed graph

A relation is `Acyclic` when no path leads from a vertex back to it. One edge more keeps it so exactly
when its source cannot be reached from its target (`acyclic_withEdge_iff`).

The two searches decide these properties on a finite graph that is given by its lists of successors. The
three-colour search meets a gray vertex exactly when there is a cycle (`searchCycle_exact`): the gray
vertices are those that lead to the one that is visited. The search with a stack meets its goal exactly
when the start leads to it (`stackMeets_exact`).
-/

set_option autoImplicit false

namespace StrategyBuilder.Lib

universe u

/-! ## Relations -/

section Relations

variable {V : Type u} {r r' : V → V → Prop} {s t a b : V}

/-- No path returns to where it starts. -/
def Acyclic (r : V → V → Prop) : Prop := ∀ a, ¬ Relation.TransGen r a a

theorem Acyclic.mono (hr : Acyclic r') (h : ∀ a b, r a b → r' a b) : Acyclic r :=
  fun a hcycle => hr a (Relation.TransGen.mono h a a hcycle)

/-- One edge more. -/
def withEdge (r : V → V → Prop) (s t : V) (a b : V) : Prop := r a b ∨ a = s ∧ b = t

/-- A path goes through the new edge or was there before. -/
theorem withEdge_path (h : Relation.TransGen (withEdge r s t) a b) :
    Relation.TransGen r a b ∨ Relation.ReflTransGen r a s ∧ Relation.ReflTransGen r t b := by
  induction h with
  | single hstep =>
    rcases hstep with hstep | ⟨rfl, rfl⟩
    · exact Or.inl (.single hstep)
    · exact Or.inr ⟨.refl, .refl⟩
  | tail _ hstep ih =>
    rcases hstep with hstep | ⟨rfl, rfl⟩
    · rcases ih with ih | ⟨hs, ht⟩
      · exact Or.inl (ih.tail hstep)
      · exact Or.inr ⟨hs, ht.tail hstep⟩
    · rcases ih with ih | ⟨hs, -⟩
      · exact Or.inr ⟨ih.to_reflTransGen, .refl⟩
      · exact Or.inr ⟨hs, .refl⟩

/-- **One edge more** closes a cycle exactly when there was a path the other way. -/
theorem acyclic_withEdge_iff (hr : Acyclic r) :
    Acyclic (withEdge r s t) ↔ ¬ Relation.ReflTransGen r t s := by
  constructor
  · intro hacyclic hpath
    have hback : Relation.ReflTransGen (withEdge r s t) t s :=
      Relation.ReflTransGen.mono (fun a b h => Or.inl h) t s hpath
    exact hacyclic s (Relation.TransGen.head' (Or.inr ⟨rfl, rfl⟩) hback)
  · intro hpath a hcycle
    rcases withEdge_path hcycle with hold | ⟨hs, ht⟩
    · exact hr a hold
    · exact hpath (ht.trans hs)

end Relations

variable {V : Type u} [DecidableEq V] {succ : V → List V} {univ : List V}

/-! ## Three colours -/

section ThreeColours

/-- Every gray vertex leads to `x`. -/
def GrayLeadsTo (succ : V → List V) (color : Coloring V) (x : V) : Prop :=
  ∀ g, color g = some .gray → Relation.ReflTransGen (Edge succ) g x

/-- There is a cycle through one of the vertices. -/
def HasCycle (succ : V → List V) (univ : List V) : Prop :=
  ∃ x ∈ univ, Relation.TransGen (Edge succ) x x

/-- A visit that finds something has found a cycle. -/
def VisitFinds (succ : V → List V) (univ : List V)
    (visit : V → Coloring V → Option (Bool × Coloring V)) : Prop :=
  ∀ x color color', x ∈ univ → WellColored succ univ color → GrayLeadsTo succ color x →
    visit x color = some (true, color') → HasCycle succ univ

omit [DecidableEq V] in
/-- A cycle that is found among the successors is one of the graph. -/
theorem visitAll_finds {visit : V → Coloring V → Option (Bool × Coloring V)} {x : V}
    (hsettles : VisitSettles succ univ visit) (hfinds : VisitFinds succ univ visit) {ys : List V}
    (hys : ys ⊆ univ) (hedges : ∀ y ∈ ys, Edge succ x y) {color color' : Coloring V}
    (hc : WellColored succ univ color) (hgray : GrayLeadsTo succ color x)
    (h : visitAll visit ys color = some (true, color')) : HasCycle succ univ := by
  induction ys generalizing color with
  | nil => cases h
  | cons y ys ih =>
    have hy : y ∈ univ := hys List.mem_cons_self
    have hedge : Edge succ x y := hedges y List.mem_cons_self
    have hys' : ys ⊆ univ := fun z hz => hys (List.mem_cons_of_mem y hz)
    have hedges' : ∀ z ∈ ys, Edge succ x z := fun z hz => hedges z (List.mem_cons_of_mem y hz)
    rw [visitAll] at h
    split at h
    · next hcolor =>
      -- the edge to a gray vertex closes the path from it
      exact ⟨y, hy, Relation.TransGen.tail' (hgray y hcolor) hedge⟩
    · split at h
      · cases hv : visit y color with
        | none =>
          rw [hv] at h
          cases h
        | some r =>
          obtain ⟨found, color₁⟩ := r
          rw [hv] at h
          cases found with
          | true => exact hfinds y color color₁ hy hc (fun g hg => (hgray g hg).tail hedge) hv
          | false =>
            obtain ⟨hset, -⟩ := hsettles y color color₁ hy hc hv
            exact ih hys' hedges' hset.wellColored (fun g hg => hgray g (hset.gray g hg)) h
      · exact ih hys' hedges' hc hgray h

/-- What the search finds is a cycle. -/
theorem dfs_finds (hclosed : ∀ x ∈ univ, ∀ y ∈ succ x, y ∈ univ) (n : Nat) :
    VisitFinds succ univ (dfs succ n) := by
  induction n with
  | zero =>
    intro x color color' _ _ _ h
    cases h
  | succ n ih =>
    intro x color color' hx hc hgray h
    have hleads : GrayLeadsTo succ (Function.update color x (some .gray)) x := by
      intro g hg
      rcases eq_or_ne g x with rfl | hne
      · exact .refl
      · rw [Function.update_of_ne hne] at hg
        exact hgray g hg
    cases hv : visitAll (dfs succ n) (succ x) (Function.update color x (some .gray)) with
    | none => simp [dfs, hv] at h
    | some r =>
      obtain ⟨found, color₁⟩ := r
      cases found with
      | false => simp [dfs, hv] at h
      | true =>
        exact visitAll_finds (dfs_settles hclosed n) ih (hclosed x hx) (fun y hy => hy) (hc.gray x)
          hleads hv

/-- So is what is found from any of the roots. -/
theorem searchCycle_finds (hclosed : ∀ x ∈ univ, ∀ y ∈ succ x, y ∈ univ) {n : Nat} {xs : List V}
    (hxs : xs ⊆ univ) {color : Coloring V} (hc : WellColored succ univ color)
    (hgray : ∀ x, color x ≠ some .gray) (h : searchCycle succ n xs color = some true) :
    HasCycle succ univ := by
  induction xs generalizing color with
  | nil => cases h
  | cons x xs ih =>
    have hx : x ∈ univ := hxs List.mem_cons_self
    have hxs' : xs ⊆ univ := fun z hz => hxs (List.mem_cons_of_mem x hz)
    rw [searchCycle] at h
    split at h
    · cases hv : dfs succ n x color with
      | none =>
        rw [hv] at h
        cases h
      | some r =>
        obtain ⟨found, color₁⟩ := r
        rw [hv] at h
        cases found with
        | true => exact dfs_finds hclosed n x color color₁ hx hc (fun g hg => absurd hg (hgray g)) hv
        | false =>
          obtain ⟨hset, -⟩ := dfs_settles hclosed n x color color₁ hx hc hv
          exact ih hxs' hset.wellColored (fun y hy => hgray y (hset.gray y hy)) h
    · exact ih hxs' hc hgray h

/-- **The search is exact**: it ends, and finds something exactly when there is a cycle. -/
theorem searchCycle_exact (hclosed : ∀ x ∈ univ, ∀ y ∈ succ x, y ∈ univ) {n : Nat}
    {color : Coloring V} (hc : WellColored succ univ color) (hgray : ∀ x, color x ≠ some .gray)
    (hn : univ.length ≤ n) :
    ∃ found, searchCycle succ n univ color = some found ∧ (found = true ↔ HasCycle succ univ) := by
  obtain ⟨found, hfound⟩ := searchCycle_ends hclosed (List.Subset.refl univ)
    (Nat.le_trans (whites_le univ color) hn)
  refine ⟨found, hfound, ?_⟩
  cases found with
  | true => exact ⟨fun _ => searchCycle_finds hclosed (List.Subset.refl univ) hc hgray hfound,
      fun _ => rfl⟩
  | false =>
    have hground := searchCycle_grounded hclosed (List.Subset.refl univ) hc hgray hfound
    constructor
    · intro h
      cases h
    · rintro ⟨x, hx, hcycle⟩
      exact absurd hcycle (hground x hx).irrefl

end ThreeColours

/-! ## A stack -/

/-- The local variables of the stack loop; the top of the stack comes first. -/
structure Stack (V : Type u) where
  stack : List V
  visited : List V

namespace Stack

/-- `while (stack.length > 0)` -/
def running (s : Stack V) : Bool := !s.stack.isEmpty

/-- Take the top of the stack: end at the goal, pass over what was visited, and push the successors of
anything else. -/
def round (succ : V → List V) (goal : V) (s : Stack V) : Except Unit (Stack V) :=
  match s.stack with
  | [] => .ok s
  | x :: stack =>
      if x = goal then .error ()
      else if x ∈ s.visited then .ok { s with stack := stack }
      else .ok ⟨(succ x).reverse ++ stack, x :: s.visited⟩

end Stack

/-- Whether the loop from `start` meets the goal; `none` where `n` rounds do not suffice. -/
def stackMeets (succ : V → List V) (n : Nat) (start goal : V) : Option Bool :=
  match whileLoop Stack.running (Stack.round succ goal) n ⟨[start], []⟩ with
  | none => none
  | some (.error _) => some true
  | some (.ok _) => some false

section Stacks

variable {start goal : V} {s s' : Stack V}

/-- What was put on the stack was reached, and what was visited is passed on. -/
structure Stack.Inv (succ : V → List V) (univ : List V) (start goal : V) (s : Stack V) : Prop where
  stack : s.stack ⊆ univ
  reached : ∀ x ∈ s.stack, Relation.ReflTransGen (Edge succ) start x
  closed : ∀ x ∈ s.visited, ∀ y ∈ succ x, y ∈ s.visited ∨ y ∈ s.stack
  goal : goal ∉ s.visited
  start : start ∈ s.visited ∨ start ∈ s.stack

/-- The successors that may still be pushed, and the stack. -/
def Stack.pending (succ : V → List V) (univ : List V) (s : Stack V) : Nat :=
  ((univ.filter fun x => x ∉ s.visited).map fun x => (succ x).length).sum + s.stack.length

/-- What is visited has no successors left to push. -/
theorem sum_unvisited {x : V} {visited : List V} (hx : x ∈ univ) (hnew : x ∉ visited) :
    ((univ.filter fun y => y ∉ x :: visited).map fun y => (succ y).length).sum + (succ x).length ≤
      ((univ.filter fun y => y ∉ visited).map fun y => (succ y).length).sum := by
  have hle (l : List V) : ((l.filter fun y => y ∉ x :: visited).map fun y => (succ y).length).sum ≤
      ((l.filter fun y => y ∉ visited).map fun y => (succ y).length).sum := by
    have hsub : (l.filter fun y => decide (y ∉ x :: visited)).Sublist
        (l.filter fun y => decide (y ∉ visited)) := by
      apply List.monotone_filter_right
      intro y hy
      have hy' : y ∉ x :: visited := of_decide_eq_true hy
      exact decide_eq_true fun h => hy' (List.mem_cons_of_mem x h)
    exact (hsub.map _).sum_le_sum fun _ _ => Nat.zero_le _
  obtain ⟨before, after, rfl⟩ := List.append_of_mem hx
  have hbefore := hle before
  have hafter := hle after
  have hout : decide (x ∉ x :: visited) = false := by simp
  have hin : decide (x ∉ visited) = true := decide_eq_true hnew
  simp only [List.filter_append, List.filter_cons, hout, hin, if_true, Bool.false_eq_true, if_false,
    List.map_append, List.map_cons, List.sum_append, List.sum_cons] at hbefore hafter ⊢
  omega

/-- A round keeps the invariant and has less to do. -/
theorem Stack.round_inv (hclosed : ∀ x ∈ univ, ∀ y ∈ succ x, y ∈ univ)
    (hs : Stack.Inv succ univ start goal s) (hrun : s.running = true)
    (h : s.round succ goal = .ok s') :
    Stack.Inv succ univ start goal s' ∧ s'.pending succ univ < s.pending succ univ := by
  obtain ⟨stack, visited⟩ := s
  cases stack with
  | nil => simp [Stack.running] at hrun
  | cons x stack =>
    have hx : x ∈ univ := hs.stack List.mem_cons_self
    have hrest : stack ⊆ univ := fun y hy => hs.stack (List.mem_cons_of_mem x hy)
    have hreached : ∀ y ∈ stack, Relation.ReflTransGen (Edge succ) start y :=
      fun y hy => hs.reached y (List.mem_cons_of_mem x hy)
    simp only [Stack.round] at h
    split at h
    · cases h
    · next hgoal =>
      split at h
      · next hvisited =>
        cases h
        -- `x` was passed on before
        have hpop {y : V} (hy : y ∈ visited ∨ y ∈ x :: stack) : y ∈ visited ∨ y ∈ stack := by
          rcases hy with hy | hy
          · exact Or.inl hy
          · rcases List.mem_cons.1 hy with rfl | hy
            · exact Or.inl hvisited
            · exact Or.inr hy
        refine ⟨⟨hrest, hreached, fun y hy z hz => hpop (hs.closed y hy z hz), hs.goal,
          hpop hs.start⟩, ?_⟩
        simp only [Stack.pending, List.length_cons]
        omega
      · next hnew =>
        cases h
        have hpush {y : V} (hy : y ∈ visited ∨ y ∈ x :: stack) :
            y ∈ x :: visited ∨ y ∈ (succ x).reverse ++ stack := by
          rcases hy with hy | hy
          · exact Or.inl (List.mem_cons_of_mem x hy)
          · rcases List.mem_cons.1 hy with rfl | hy
            · exact Or.inl List.mem_cons_self
            · exact Or.inr (List.mem_append_right _ hy)
        refine ⟨⟨?_, ?_, ?_, ?_, hpush hs.start⟩, ?_⟩
        · intro y hy
          rcases List.mem_append.1 hy with hy | hy
          · exact hclosed x hx y (List.mem_reverse.1 hy)
          · exact hrest hy
        · intro y hy
          rcases List.mem_append.1 hy with hy | hy
          · exact (hs.reached x List.mem_cons_self).tail (List.mem_reverse.1 hy)
          · exact hreached y hy
        · intro y hy z hz
          rcases List.mem_cons.1 hy with rfl | hy
          · exact Or.inr (List.mem_append_left _ (List.mem_reverse.2 hz))
          · exact hpush (hs.closed y hy z hz)
        · intro hmem
          rcases List.mem_cons.1 hmem with heq | hmem
          · exact hgoal heq.symm
          · exact hs.goal hmem
        · have hsum : _ ≤ ((univ.filter fun y => y ∉ visited).map fun y => (succ y).length).sum :=
            sum_unvisited hx hnew
          simp only [Stack.pending, List.length_append, List.length_reverse, List.length_cons] at hsum ⊢
          omega

/-- **The stack loop is exact**: it ends, and meets the goal exactly when the start leads to it. -/
theorem stackMeets_exact (hclosed : ∀ x ∈ univ, ∀ y ∈ succ x, y ∈ univ) (hstart : start ∈ univ)
    {n : Nat} (hn : (univ.map fun x => (succ x).length).sum + 1 ≤ n) :
    ∃ met, stackMeets succ n start goal = some met ∧
      (met = true ↔ Relation.ReflTransGen (Edge succ) start goal) := by
  have hinit : Stack.Inv succ univ start goal ⟨[start], []⟩ := by
    refine ⟨?_, ?_, ?_, List.not_mem_nil, Or.inr List.mem_cons_self⟩
    · intro x hx
      rw [List.mem_singleton.1 hx]
      exact hstart
    · intro x hx
      rw [List.mem_singleton.1 hx]
    · intro x hx
      exact (List.not_mem_nil hx).elim
  have hstep (s s' : Stack V) (hs : Stack.Inv succ univ start goal s) (hrun : s.running = true)
      (h : s.round succ goal = .ok s') := Stack.round_inv hclosed hs hrun h
  obtain ⟨r, hr⟩ : ∃ r, whileLoop Stack.running (Stack.round succ goal) n ⟨[start], []⟩ = some r := by
    refine whileLoop_isSome (m := Stack.pending succ univ) hstep hinit ?_ ?_
    · refine Nat.le_trans (Nat.le_of_eq ?_) hn
      simp [Stack.pending]
    · intro s _ hrun
      have hpos : 0 < s.stack.length := by
        cases hstack : s.stack with
        | nil => simp [Stack.running, hstack] at hrun
        | cons x stack => exact Nat.succ_pos _
      exact Nat.lt_of_lt_of_le hpos (Nat.le_add_left ..)
  have hinv (s s' : Stack V) (hs : Stack.Inv succ univ start goal s) (hrun : s.running = true)
      (h : s.round succ goal = .ok s') : Stack.Inv succ univ start goal s' := (hstep s s' hs hrun h).1
  cases r with
  | error e =>
    obtain ⟨s, hs, -, hround⟩ := whileLoop_error hinv hinit hr
    refine ⟨true, by rw [stackMeets, hr], fun _ => ?_, fun _ => rfl⟩
    obtain ⟨stack, visited⟩ := s
    cases stack with
    | nil => cases hround
    | cons x stack =>
      have hgoal : x = goal := by
        by_contra hne
        simp only [Stack.round, hne, if_false] at hround
        split at hround
        · cases hround
        · cases hround
      rw [← hgoal]
      exact hs.reached x List.mem_cons_self
  | ok s =>
    obtain ⟨hs, hdone⟩ := whileLoop_ok hinv hinit hr
    have hstack : s.stack = [] := by simpa [Stack.running] using hdone
    have hvisited {x : V} (hx : x ∈ s.visited ∨ x ∈ s.stack) : x ∈ s.visited := by
      rw [hstack] at hx
      exact hx.resolve_right List.not_mem_nil
    refine ⟨false, by rw [stackMeets, hr], nofun, fun hpath => ?_⟩
    -- what was visited is closed under edges, and the goal is not in it
    have hall (x : V) (hx : Relation.ReflTransGen (Edge succ) start x) : x ∈ s.visited := by
      induction hx with
      | refl => exact hvisited hs.start
      | tail _ hedge ih => exact hvisited (hs.closed _ ih _ hedge)
    exact absurd (hall goal hpath) hs.goal

end Stacks

end StrategyBuilder.Lib
