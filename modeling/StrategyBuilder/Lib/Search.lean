import StrategyBuilder.Lib.While
import Mathlib.Data.List.Nodup
import Mathlib.Data.Fintype.Card
import Mathlib.Data.Finset.Filter
import Mathlib.Logic.Relation
import Mathlib.Order.WellFounded

/-!
# Searching a directed graph

The two searches of a graph given by its lists of successors, over an arbitrary type of vertices.

* `bfs` is the queue loop: it lists every vertex that is reachable from the start once, the start
  first (`bfs_spec`).
* `dfs` is the three-colour search for a cycle. A vertex turns black when all its successors are
  black, so every black vertex is accessible: no infinite path leaves it. A search that finds nothing
  leaves all vertices black (`searchCycle_grounded`).

On a finite set of accessible vertices the number of vertices that can still be reached is a rank
that falls along every edge (`exists_rank`); loops that walk the graph end by it.
-/

set_option autoImplicit false

namespace StrategyBuilder.Lib

universe u

variable {V : Type u} [DecidableEq V] (succ : V → List V)

/-- `b` is a successor of `a`. -/
def Edge (a b : V) : Prop := b ∈ succ a

/-! ## Breadth first -/

/-- The local variables of the queue loop. -/
structure Bfs (V : Type u) where
  queue : List V
  visited : List V
  order : List V

namespace Bfs

/-- Enqueue the vertices that were not visited. -/
def push : List V → Bfs V → Bfs V
  | [], s => s
  | x :: xs, s =>
      if x ∈ s.visited then push xs s
      else push xs { s with queue := s.queue ++ [x], visited := s.visited ++ [x] }

/-- `while (queue.length > 0)` -/
def running (s : Bfs V) : Bool := !s.queue.isEmpty

/-- Take the head of the queue and enqueue its successors. -/
def round (s : Bfs V) : Except Empty (Bfs V) :=
  match s.queue with
  | [] => .ok s
  | x :: queue => .ok (push (succ x) { s with queue := queue, order := s.order ++ [x] })

end Bfs

/-- The queue loop from `start`; `none` where `n` rounds do not suffice. -/
def bfs (n : Nat) (start : V) : Option (Bfs V) :=
  match whileLoop Bfs.running (Bfs.round succ) n ⟨[start], [start], []⟩ with
  | some (.ok s) => some s
  | _ => none

section BreadthFirst

variable {succ} {start : V} {univ : List V} {s : Bfs V}

/-- What the inner loop adds: new vertices of the list, to queue and visited alike, so that all of
the list is visited. -/
theorem Bfs.push_spec (xs : List V) (s : Bfs V) (hs : s.visited.Nodup) :
    ∃ new, Bfs.push xs s =
        { s with queue := s.queue ++ new, visited := s.visited ++ new } ∧
      new ⊆ xs ∧ (s.visited ++ new).Nodup ∧ ∀ x ∈ xs, x ∈ s.visited ++ new := by
  induction xs generalizing s with
  | nil => exact ⟨[], by simp [Bfs.push], List.nil_subset _, by simpa using hs, by simp⟩
  | cons x xs ih =>
    -- a vertex that was visited is skipped
    by_cases hx : x ∈ s.visited
    · obtain ⟨new, hpush, hsub, hnodup, hall⟩ := ih s hs
      refine ⟨new, ?_, List.subset_cons_of_subset x hsub, hnodup, ?_⟩
      · rw [Bfs.push, if_pos hx, hpush]
      · intro y hy
        rcases List.mem_cons.1 hy with rfl | hy
        · exact List.mem_append_left new hx
        · exact hall y hy
    · have hs' : (s.visited ++ [x]).Nodup := by
        rw [← List.concat_eq_append]
        exact hs.concat hx
      obtain ⟨new, hpush, hsub, hnodup, hall⟩ :=
        ih { s with queue := s.queue ++ [x], visited := s.visited ++ [x] } hs'
      refine ⟨x :: new, ?_, List.cons_subset_cons x hsub, ?_, ?_⟩
      · rw [Bfs.push, if_neg hx, hpush]
        simp
      · simpa using hnodup
      · intro y hy
        rcases List.mem_cons.1 hy with rfl | hy
        · simp
        · simpa using hall y hy

/-- The invariant of the queue loop. The queue is what was visited and not taken yet. -/
structure Bfs.Inv (succ : V → List V) (start : V) (univ : List V) (s : Bfs V) : Prop where
  visited : s.visited = s.order ++ s.queue
  nodup : s.visited.Nodup
  head : s.visited.head? = some start
  univ : s.visited ⊆ univ
  sound : ∀ x ∈ s.visited, Relation.ReflTransGen (Edge succ) start x
  closed : ∀ x ∈ s.order, ∀ y ∈ succ x, y ∈ s.visited

omit [DecidableEq V] in
theorem Bfs.Inv.order_length (hs : Bfs.Inv succ start univ s) (hrun : s.running = true) :
    s.order.length < univ.length := by
  have hlen : s.visited.length ≤ univ.length := (List.subperm_of_subset hs.nodup hs.univ).length_le
  rw [hs.visited, List.length_append] at hlen
  have hpos : 0 < s.queue.length := by
    cases hq : s.queue with
    | nil => simp [Bfs.running, hq] at hrun
    | cons x queue => exact Nat.succ_pos _
  omega

/-- A round keeps the invariant and finds one more. -/
theorem Bfs.round_inv (hclosed : ∀ x ∈ univ, ∀ y ∈ succ x, y ∈ univ)
    (hs : Bfs.Inv succ start univ s) (hrun : s.running = true) {s' : Bfs V}
    (h : s.round succ = .ok s') :
    Bfs.Inv succ start univ s' ∧ s'.order.length = s.order.length + 1 := by
  cases hq : s.queue with
  | nil => simp [Bfs.running, hq] at hrun
  | cons x queue =>
    obtain ⟨new, hpush, hsub, hnodup, hall⟩ :=
      Bfs.push_spec (succ x) { s with queue := queue, order := s.order ++ [x] } hs.nodup
    -- one vertex moves from the queue to the order, its new successors join the queue
    have hs' : s' = ⟨queue ++ new, s.visited ++ new, s.order ++ [x]⟩ := by
      simp only [Bfs.round, hq, Except.ok.injEq] at h
      rw [← h, hpush]
    have hx : x ∈ s.visited := by
      rw [hs.visited, hq]
      simp
    subst hs'
    refine ⟨⟨?_, hnodup, ?_, ?_, ?_, ?_⟩, by simp⟩
    · simp [hs.visited, hq]
    · rw [List.head?_append, hs.head]
      rfl
    · refine List.append_subset.2 ⟨hs.univ, fun y hy => ?_⟩
      exact hclosed x (hs.univ hx) y (hsub hy)
    · intro y hy
      rcases List.mem_append.1 hy with hy | hy
      · exact hs.sound y hy
      · exact (hs.sound x hx).tail (hsub hy)
    · intro z hz y hy
      rcases List.mem_append.1 hz with hz | hz
      · exact List.mem_append_left new (hs.closed z hz y hy)
      · rw [List.mem_singleton] at hz
        subst hz
        exact hall y hy

/-- **Breadth-first order.** Within a set of vertices that the edges do not leave, the loop ends, and
its order lists exactly what is reachable, the start first and no vertex twice. -/
theorem bfs_spec (hstart : start ∈ univ) (hclosed : ∀ x ∈ univ, ∀ y ∈ succ x, y ∈ univ) {n : Nat}
    (hn : univ.length ≤ n) :
    ∃ s, bfs succ n start = some s ∧ s.visited = s.order ∧ s.order.Nodup ∧
      s.order.head? = some start ∧ ∀ x, x ∈ s.order ↔ Relation.ReflTransGen (Edge succ) start x := by
  have hinit : Bfs.Inv succ start univ ⟨[start], [start], []⟩ := by
    refine ⟨rfl, List.nodup_singleton start, rfl, ?_, ?_, ?_⟩
    · intro x hx
      rw [List.mem_singleton] at hx
      exact hx ▸ hstart
    · intro x hx
      rw [List.mem_singleton] at hx
      exact hx ▸ Relation.ReflTransGen.refl
    · intro x hx
      cases hx
  have hI (s s' : Bfs V) (hs : Bfs.Inv succ start univ s) (hrun : s.running = true)
      (h : s.round succ = .ok s') : Bfs.Inv succ start univ s' := (Bfs.round_inv hclosed hs hrun h).1
  obtain ⟨r, hr⟩ : ∃ r, whileLoop Bfs.running (Bfs.round succ) n ⟨[start], [start], []⟩ = some r := by
    refine whileLoop_isSome (I := Bfs.Inv succ start univ)
      (m := fun s => univ.length - s.order.length) (fun s s' hs hrun h => ?_) hinit
      (Nat.le_trans (Nat.sub_le _ _) hn) (fun s hs hrun => ?_)
    -- each round lists one more of `univ`, so the fuel is enough
    · obtain ⟨hs', hlen⟩ := Bfs.round_inv hclosed hs hrun h
      have hlt := hs.order_length hrun
      exact ⟨hs', by omega⟩
    · have hlt := hs.order_length hrun
      omega
  cases r with
  | error e => exact e.elim
  | ok s =>
    obtain ⟨hs, hdone⟩ := whileLoop_ok hI hinit hr
    -- at the end all that was visited is listed, and closed under the edges
    have hqueue : s.queue = [] := by simpa [Bfs.running] using hdone
    have horder : s.visited = s.order := by rw [hs.visited, hqueue, List.append_nil]
    refine ⟨s, by rw [bfs, hr], horder, horder ▸ hs.nodup, horder ▸ hs.head, fun x => ⟨?_, ?_⟩⟩
    · intro hx
      exact hs.sound x (horder ▸ hx)
    · intro hx
      induction hx with
      | refl => exact List.mem_of_head? (horder ▸ hs.head)
      | tail _ hedge ih => exact horder ▸ hs.closed _ ih _ hedge

end BreadthFirst

/-! ## Three colours -/

/-- Not found yet, on the path, or done. -/
inductive Color where
  | white
  | gray
  | black
deriving DecidableEq, Repr

/-- The colours of the known vertices. -/
abbrev Coloring (V : Type u) := V → Option Color

/-- Visit the white vertices of a list; a gray one closes a cycle. -/
def visitAll (visit : V → Coloring V → Option (Bool × Coloring V)) :
    List V → Coloring V → Option (Bool × Coloring V)
  | [], color => some (false, color)
  | y :: ys, color =>
      if color y = some .gray then some (true, color)
      else if color y = some .white then
        match visit y color with
        | none => none
        | some (true, color) => some (true, color)
        | some (false, color) => visitAll visit ys color
      else visitAll visit ys color

/-- The recursive search from a vertex: whether it met a gray vertex, and the new colours. `none`
where the recursion is deeper than `n`. -/
def dfs : Nat → V → Coloring V → Option (Bool × Coloring V)
  | 0, _, _ => none
  | n + 1, x, color =>
      match visitAll (dfs n) (succ x) (Function.update color x (some .gray)) with
      | none => none
      | some (true, color) => some (true, color)
      | some (false, color) => some (false, Function.update color x (some .black))

/-- Search from every vertex of a list that is still white. -/
def searchCycle (n : Nat) : List V → Coloring V → Option Bool
  | [], _ => some false
  | x :: xs, color =>
      if color x = some .white then
        match dfs succ n x color with
        | none => none
        | some (true, _) => some true
        | some (false, color) => searchCycle n xs color
      else searchCycle n xs color

section ThreeColours

variable {succ} {univ : List V}

/-- No infinite path leaves the vertex. -/
def Grounded (succ : V → List V) (x : V) : Prop := Acc (fun b a => Edge succ a b) x

/-- The invariant of the search: all vertices are known, and the black ones are grounded. -/
structure WellColored (succ : V → List V) (univ : List V) (color : Coloring V) : Prop where
  known : ∀ x ∈ univ, color x ≠ none
  grounded : ∀ x, color x = some .black → Grounded succ x

/-- What a visit that finds no cycle leaves behind: black stays black, nothing turns gray. -/
structure Settles (succ : V → List V) (univ : List V) (color color' : Coloring V) : Prop where
  wellColored : WellColored succ univ color'
  black : ∀ x, color x = some .black → color' x = some .black
  gray : ∀ x, color' x = some .gray → color x = some .gray

omit [DecidableEq V] in
theorem Settles.refl {color : Coloring V} (hc : WellColored succ univ color) :
    Settles succ univ color color := ⟨hc, fun _ h => h, fun _ h => h⟩

omit [DecidableEq V] in
theorem Settles.trans {c₁ c₂ c₃ : Coloring V} (h : Settles succ univ c₁ c₂)
    (h' : Settles succ univ c₂ c₃) : Settles succ univ c₁ c₃ :=
  ⟨h'.wellColored, fun x hx => h'.black x (h.black x hx), fun x hx => h.gray x (h'.gray x hx)⟩

omit [DecidableEq V] in
/-- A known vertex that is neither gray nor white is black. -/
theorem WellColored.black {color : Coloring V} (hc : WellColored succ univ color) {x : V}
    (hx : x ∈ univ) (hgray : color x ≠ some .gray) (hwhite : color x ≠ some .white) :
    color x = some .black := by
  cases hcol : color x with
  | none => exact absurd hcol (hc.known x hx)
  | some c =>
    cases c with
    | white => exact absurd hcol hwhite
    | gray => exact absurd hcol hgray
    | black => rfl

/-- A visit that finds no cycle settles the colours and blackens its vertex. -/
def VisitSettles (succ : V → List V) (univ : List V)
    (visit : V → Coloring V → Option (Bool × Coloring V)) : Prop :=
  ∀ x color color', x ∈ univ → WellColored succ univ color →
    visit x color = some (false, color') →
    Settles succ univ color color' ∧ color' x = some .black

omit [DecidableEq V] in
/-- After all successors are visited they are done. -/
theorem visitAll_settles {visit : V → Coloring V → Option (Bool × Coloring V)}
    (hvisit : VisitSettles succ univ visit) {ys : List V} (hys : ys ⊆ univ)
    {color color' : Coloring V} (hc : WellColored succ univ color)
    (h : visitAll visit ys color = some (false, color')) :
    Settles succ univ color color' ∧ ∀ y ∈ ys, color' y = some .black := by
  induction ys generalizing color with
  | nil =>
    cases h
    refine ⟨.refl hc, fun y hy => ?_⟩
    cases hy
  | cons y ys ih =>
    have hy : y ∈ univ := hys (List.mem_cons_self ..)
    have hys' : ys ⊆ univ := fun z hz => hys (List.mem_cons_of_mem y hz)
    unfold visitAll at h
    split at h
    · cases h
    · rename_i hgray
      split at h
      -- `y` is white and is visited
      · cases hv : visit y color with
        | none =>
          rw [hv] at h
          cases h
        | some r =>
          obtain ⟨found, color₁⟩ := r
          rw [hv] at h
          cases found with
          | true => cases h
          | false =>
            obtain ⟨hset, hblack⟩ := hvisit y color color₁ hy hc hv
            obtain ⟨hset', hall⟩ := ih hys' hset.wellColored h
            refine ⟨hset.trans hset', fun z hz => ?_⟩
            rcases List.mem_cons.1 hz with rfl | hz
            · exact hset'.black z hblack
            · exact hall z hz
      -- `y` is done already
      · rename_i hwhite
        have hblack := hc.black hy hgray hwhite
        obtain ⟨hset, hall⟩ := ih hys' hc h
        refine ⟨hset, fun z hz => ?_⟩
        rcases List.mem_cons.1 hz with rfl | hz
        · exact hset.black z hblack
        · exact hall z hz

/-- A vertex may change its color when its new color is right. -/
theorem WellColored.recolor {color : Coloring V} (hc : WellColored succ univ color) {x : V} {c : Color}
    (hx : c = .black → Grounded succ x) :
    WellColored succ univ (Function.update color x (some c)) := by
  refine ⟨fun y hy => ?_, fun y hy => ?_⟩
  · rcases eq_or_ne y x with rfl | hne
    · simp
    · rw [Function.update_of_ne hne]
      exact hc.known y hy
  · rcases eq_or_ne y x with rfl | hne
    · rw [Function.update_self, Option.some.injEq] at hy
      exact hx hy
    · rw [Function.update_of_ne hne] at hy
      exact hc.grounded y hy

/-- Once its successors are black, a vertex may turn black. -/
theorem WellColored.blacken {color : Coloring V} (hc : WellColored succ univ color) {x : V}
    (hx : ∀ y ∈ succ x, color y = some .black) :
    WellColored succ univ (Function.update color x (some .black)) :=
  hc.recolor fun _ => Acc.intro x fun z hz => hc.grounded z (hx z hz)

theorem WellColored.gray {color : Coloring V} (hc : WellColored succ univ color) (x : V) :
    WellColored succ univ (Function.update color x (some .gray)) := by
  apply hc.recolor
  intro hgray
  cases hgray

/-- The search settles all that it reaches. -/
theorem dfs_settles (hclosed : ∀ x ∈ univ, ∀ y ∈ succ x, y ∈ univ) (n : Nat) :
    VisitSettles succ univ (dfs succ n) := by
  induction n with
  | zero =>
    intro x color color' _ _ h
    cases h
  | succ n ih =>
    intro x color color' hx hc h
    cases hv : visitAll (dfs succ n) (succ x) (Function.update color x (some .gray)) with
    | none => simp [dfs, hv] at h
    | some r =>
      obtain ⟨found, color₁⟩ := r
      cases found with
      | true => simp [dfs, hv] at h
      | false =>
        have heq : Function.update color₁ x (some .black) = color' := by
          simpa [dfs, hv] using h
        subst heq
        -- `x` is gray while its successors are visited, and black once they all are
        obtain ⟨hset, hall⟩ := visitAll_settles ih (hclosed x hx) (hc.gray x) hv
        refine ⟨⟨hset.wellColored.blacken hall, fun y hy => ?_, fun y hy => ?_⟩, by simp⟩
        · rcases eq_or_ne y x with rfl | hne
          · simp
          · rw [Function.update_of_ne hne]
            refine hset.black y ?_
            rwa [Function.update_of_ne hne]
        · rcases eq_or_ne y x with rfl | hne
          · simp at hy
          · rw [Function.update_of_ne hne] at hy
            have hgray := hset.gray y hy
            rwa [Function.update_of_ne hne] at hgray

/-- **A search that finds no cycle grounds its vertices.** -/
theorem searchCycle_grounded (hclosed : ∀ x ∈ univ, ∀ y ∈ succ x, y ∈ univ) {n : Nat} {xs : List V}
    (hxs : xs ⊆ univ) {color : Coloring V} (hc : WellColored succ univ color)
    (hgray : ∀ x, color x ≠ some .gray) (h : searchCycle succ n xs color = some false) :
    ∀ x ∈ xs, Grounded succ x := by
  -- the colours after the search so far say that what was passed is black
  suffices hsuff : ∃ color', Settles succ univ color color' ∧ ∀ x ∈ xs, color' x = some .black by
    obtain ⟨color', hset, hall⟩ := hsuff
    exact fun x hx => hset.wellColored.grounded x (hall x hx)
  induction xs generalizing color with
  | nil =>
    refine ⟨color, .refl hc, fun x hx => ?_⟩
    cases hx
  | cons x xs ih =>
    have hx : x ∈ univ := hxs (List.mem_cons_self ..)
    have hxs' : xs ⊆ univ := fun z hz => hxs (List.mem_cons_of_mem x hz)
    unfold searchCycle at h
    split at h
    · cases hv : dfs succ n x color with
      | none =>
        rw [hv] at h
        cases h
      | some r =>
        obtain ⟨found, color₁⟩ := r
        rw [hv] at h
        cases found with
        | true => cases h
        | false =>
          obtain ⟨hset, hblack⟩ := dfs_settles hclosed n x color color₁ hx hc hv
          obtain ⟨color', hset', hall⟩ :=
            ih hxs' hset.wellColored (fun y hy => hgray y (hset.gray y hy)) h
          refine ⟨color', hset.trans hset', fun z hz => ?_⟩
          rcases List.mem_cons.1 hz with rfl | hz
          · exact hset'.black z hblack
          · exact hall z hz
    · rename_i hwhite
      have hblack := hc.black hx (hgray x) hwhite
      obtain ⟨color', hset, hall⟩ := ih hxs' hc hgray h
      refine ⟨color', hset, fun z hz => ?_⟩
      rcases List.mem_cons.1 hz with rfl | hz
      · exact hset.black z hblack
      · exact hall z hz

/-! ### The recursion is no deeper than the number of vertices -/

/-- The number of white vertices. -/
def whites (univ : List V) (color : Coloring V) : Nat := univ.countP fun x => color x = some .white

theorem whites_update_le (univ : List V) (color : Coloring V) {c : Color} (hc : c ≠ .white) (x : V) :
    whites univ (Function.update color x (some c)) ≤ whites univ color := by
  refine List.countP_mono_left fun y _ hy => ?_
  rcases eq_or_ne y x with rfl | hne
  · simp [hc] at hy
  · simpa [Function.update_of_ne hne] using hy

theorem whites_gray {color : Coloring V} {x : V} (hx : x ∈ univ) (hw : color x = some .white) :
    whites univ (Function.update color x (some .gray)) < whites univ color := by
  obtain ⟨before, after, rfl⟩ := List.append_of_mem hx
  have hgray : Color.gray ≠ .white := by decide
  have hbefore := whites_update_le before color hgray x
  have hafter := whites_update_le after color hgray x
  simp only [whites, List.countP_append, List.countP_cons, Function.update_self, hw,
    Option.some.injEq, hgray, decide_false, decide_true, if_true, Bool.false_eq_true, if_false] at *
  omega

/-- A visit of a white vertex ends where no more than `n` vertices are white, and whitens none. -/
def VisitEnds (univ : List V) (n : Nat)
    (visit : V → Coloring V → Option (Bool × Coloring V)) : Prop :=
  ∀ x color, x ∈ univ → color x = some .white → whites univ color ≤ n →
    ∃ found color', visit x color = some (found, color') ∧ whites univ color' ≤ whites univ color

omit [DecidableEq V] in
/-- The visits end, with no more left to do than before. -/
theorem visitAll_ends {n : Nat} {visit : V → Coloring V → Option (Bool × Coloring V)}
    (hvisit : VisitEnds univ n visit) {ys : List V} (hys : ys ⊆ univ) {color : Coloring V}
    (hn : whites univ color ≤ n) :
    ∃ found color', visitAll visit ys color = some (found, color') ∧
      whites univ color' ≤ whites univ color := by
  induction ys generalizing color with
  | nil => exact ⟨false, color, rfl, Nat.le_refl _⟩
  | cons y ys ih =>
    have hys' : ys ⊆ univ := fun z hz => hys (List.mem_cons_of_mem y hz)
    unfold visitAll
    by_cases hgray : color y = some .gray
    · exact ⟨true, color, if_pos hgray, Nat.le_refl _⟩
    · rw [if_neg hgray]
      by_cases hwhite : color y = some .white
      · rw [if_pos hwhite]
        obtain ⟨found, color₁, hv, hle⟩ := hvisit y color (hys (List.mem_cons_self ..)) hwhite hn
        rw [hv]
        cases found with
        | true => exact ⟨true, color₁, rfl, hle⟩
        | false =>
          obtain ⟨found, color₂, hrest, hle'⟩ := ih hys' (Nat.le_trans hle hn)
          exact ⟨found, color₂, hrest, Nat.le_trans hle' hle⟩
      · rw [if_neg hwhite]
        exact ih hys' hn

/-- The search ends with fuel for the white vertices. -/
theorem dfs_ends (hclosed : ∀ x ∈ univ, ∀ y ∈ succ x, y ∈ univ) (n : Nat) :
    VisitEnds univ n (dfs succ n) := by
  induction n with
  | zero =>
    intro x color hx hw hn
    have hlt := whites_gray hx hw
    omega
  | succ n ih =>
    intro x color hx hw hn
    have hlt := whites_gray hx hw
    have hn' : whites univ (Function.update color x (some .gray)) ≤ n := by omega
    obtain ⟨found, color₁, hv, hle⟩ := visitAll_ends ih (hclosed x hx) hn'
    cases found with
    | true =>
      refine ⟨true, color₁, ?_, by omega⟩
      simp only [dfs, hv]
    | false =>
      refine ⟨false, Function.update color₁ x (some .black), ?_, ?_⟩
      · simp only [dfs, hv]
      · have hblack : Color.black ≠ .white := by decide
        have hle' := whites_update_le univ color₁ hblack x
        omega

/-- **The search ends**: it never calls itself deeper than there are vertices. -/
theorem searchCycle_ends (hclosed : ∀ x ∈ univ, ∀ y ∈ succ x, y ∈ univ) {n : Nat} {xs : List V}
    (hxs : xs ⊆ univ) {color : Coloring V} (hn : whites univ color ≤ n) :
    ∃ found, searchCycle succ n xs color = some found := by
  induction xs generalizing color with
  | nil => exact ⟨false, rfl⟩
  | cons x xs ih =>
    have hxs' : xs ⊆ univ := fun z hz => hxs (List.mem_cons_of_mem x hz)
    unfold searchCycle
    by_cases hwhite : color x = some .white
    · rw [if_pos hwhite]
      obtain ⟨found, color₁, hv, hle⟩ :=
        dfs_ends hclosed n x color (hxs (List.mem_cons_self ..)) hwhite hn
      rw [hv]
      cases found with
      | true => exact ⟨true, rfl⟩
      | false => exact ih hxs' (Nat.le_trans hle hn)
    · rw [if_neg hwhite]
      exact ih hxs' hn

omit [DecidableEq V] in
theorem whites_le (univ : List V) (color : Coloring V) : whites univ color ≤ univ.length :=
  List.countP_le_length

end ThreeColours

/-! ## Ranks -/

section Ranks

variable {succ} {univ : List V}

omit [DecidableEq V] in
/-- No path leads from a grounded vertex back to it. -/
theorem Grounded.irrefl {x : V} (hx : Grounded succ x) : ¬ Relation.TransGen (Edge succ) x x := by
  have hacc : Acc (Relation.TransGen fun b a => Edge succ a b) x := Acc.transGen hx
  intro h
  have hloop : Relation.TransGen (fun b a => Edge succ a b) x x := Relation.transGen_swap.1 h
  induction hacc with
  | intro y _ ih => exact ih y hloop hx h hloop

omit [DecidableEq V] in
/-- **Ranks.** A finite set of grounded vertices can be numbered so that every edge goes down. -/
theorem exists_rank (hclosed : ∀ x ∈ univ, ∀ y ∈ succ x, y ∈ univ)
    (hground : ∀ x ∈ univ, Grounded succ x) :
    ∃ rank : V → Nat, (∀ x ∈ univ, rank x < univ.length) ∧
      ∀ x ∈ univ, ∀ y ∈ succ x, rank y < rank x := by
  classical
  -- the rank of a vertex is the number of vertices that a path from it leads to
  let below (x : V) : Finset V := univ.toFinset.filter (Relation.TransGen (Edge succ) x)
  refine ⟨fun x => (below x).card, fun x hx => ?_, fun x hx y hy => ?_⟩
  · have hsub : below x ⊂ univ.toFinset := by
      refine Finset.filter_ssubset.2 ⟨x, List.mem_toFinset.2 hx, (hground x hx).irrefl⟩
    exact Nat.lt_of_lt_of_le (Finset.card_lt_card hsub) (List.toFinset_card_le univ)
  · have hyu : y ∈ univ := hclosed x hx y hy
    refine Finset.card_lt_card ((Finset.ssubset_iff_of_subset fun z hz => ?_).2 ⟨y, ?_, ?_⟩)
    · have hz' := Finset.mem_filter.1 hz
      exact Finset.mem_filter.2 ⟨hz'.1, Relation.TransGen.head hy hz'.2⟩
    · exact Finset.mem_filter.2 ⟨List.mem_toFinset.2 hyu, Relation.TransGen.single hy⟩
    · intro hmem
      exact (hground y hyu).irrefl (Finset.mem_filter.1 hmem).2

end Ranks

end StrategyBuilder.Lib
