import StrategyBuilder.Indexer.Ticks
import StrategyBuilder.Indexer.ExactlyOnce

/-!
# Complete flows

A failure in the flow part of a window is swallowed and the cursor passes the window, so a flow can be
lost for good (`flow_lost`). A flow has exactly one row unless the flow part is disturbed in the tick in
which the cursor passes its block, whatever fails else (`flows_indexed_once`). The subscriptions are
fixed, and every source answers.
-/

set_option autoImplicit false

namespace StrategyBuilder.Indexer

open StrategyBuilder.Contracts
open StrategyBuilder.Lib
open StrategyBuilder.Lib.Async
open StrategyBuilder.Lib.Transition
open StrategyBuilder.Indexer.VaultInterface

section Definitions

variable (cfg : Config) (H : History) (outside : Nat → Moment) (subs : List LogSubscription)
  (vaults : VaultMap) (owed lost : Nat → Prop)

/-- The block has been confirmed by then. -/
def ConfirmedBy (b i : Nat) : Prop := ∃ t ≤ i, (b : Int) + cfg.confirmations ≤ (outside t).head

/-- The step is a tick that plans the window, with the head and the cursor that it finds. -/
def Plans (s : Nat × World) (event : Event) (range : BlockRange) : Prop :=
  event = .tick ∧ ∃ c ranges, s.2.cursor = some c ∧ RangePlanner.plan (outside s.1).head
    c.lastProcessedBlock cfg.maxRange cfg.confirmations = some ranges ∧ range ∈ ranges

/-- The moments of a step. -/
def During (s : Nat × World) (event : Event) (i : Nat) : Prop :=
  s.1 ≤ i ∧ i < (step cfg outside s event).1

/-- The step scans a window of the block, and a subscription is disturbed in it meanwhile. -/
def LostIn (s : Nat × World) (event : Event) (n : Nat) : Prop :=
  ∃ range, Plans cfg outside s event range ∧ range.fromBlock ≤ n ∧ n ≤ range.toBlock ∧
    ∃ sub ∈ subs, Disturbed H vaults outside (During cfg outside s event) range sub

/-- The cursor is at the block or beyond it. -/
def Passed (w : World) (n : Nat) : Prop := ∃ c, w.cursor = some c ∧ n ≤ c.lastProcessedBlock

/-- If the cursor passes the block in the step, no subscription is disturbed. -/
def Undisturbed (n : Nat) (s : Nat × World) (event : Event) : Prop :=
  Passed (step cfg outside s event).2 n → ¬ LostIn cfg H outside subs vaults s event n

/-- The row stands for a flow of a vault. -/
def FlowRow.Stands (r : FlowRow) : Prop :=
  ∃ sub ∈ subs, ∃ v ∈ vaults, ∃ l ∈ H.blocks r.blockNumber, sub.Matches v.address l ∧
    sub.toDraft l.topics l.data = .draft r.draft ∧ r.vaultId = v.id ∧ r.txHash = l.transactionHash ∧
      r.logIndex = l.index

/-- The invariant of the flows; `low` is a block that the cursor has reached. -/
structure FlowInv (low : Option Nat) (w : World) : Prop where
  fixed : w.vaults = vaults
  cached : ∀ resolved, w.flowSubs = some resolved → resolved = subs
  sound : ∀ r ∈ w.protocolFlows, r.Stands H subs vaults
  complete : ∀ n, Passed w n → owed n → ¬ lost n → ∀ sub ∈ subs, ∀ v ∈ vaults, ∀ l ∈ H.blocks n,
    sub.Matches v.address l → ∀ draft, sub.toDraft l.topics l.data = .draft draft →
      w.protocolFlows.Has (l.transactionHash, l.index)
  floor : ∀ b, low = some b → Passed w b

/-- Between two windows. -/
structure FlowScanning (low : Option Nat) (start : Nat) (w : World) : Prop where
  inv : FlowInv H subs vaults owed lost low w
  cursor : ∃ c, w.cursor = some c ∧ c.lastProcessedBlock + 1 = start

end Definitions

variable {cfg : Config} {H : History} {outside : Nat → Moment} {subs : List LogSubscription}
  {vaults : VaultMap} {owed lost : Nat → Prop} {low : Option Nat}

/-! ## Changes that keep the invariant -/

/-- Rows of logs keep the invariant. -/
theorem FlowInv.storeFlows {w : World} {data : List FlowRow}
    (h : FlowInv H subs vaults owed lost low w)
    (hdata : ∀ r ∈ data, ∃ sub ∈ subs, ∃ n, ∃ l ∈ H.blocks n, r.IsOf vaults sub l) :
    FlowInv H subs vaults owed lost low
      { w with protocolFlows := w.protocolFlows.insertMany data } := by
  refine ⟨h.fixed, h.cached, fun r hr => ?_,
    fun n hn howed hkept sub hsub v hv l hl hmatch draft hdraft => ?_, h.floor⟩
  · rcases Table.mem_of_mem_insertMany hr with hr | hr
    · exact h.sound r hr
    · obtain ⟨sub, hsub, n, l, hl, v, hv, d, usd, hof, rfl⟩ := hdata r hr
      have hnum : (flowOf vaults d usd).blockNumber = n :=
        hof.blockNumber.trans (H.blockNumber n l hl)
      refine ⟨sub, hsub, v, hv, l, ?_, hof.log, hof.draft, ?_, hof.txHash, hof.logIndex⟩
      · rw [hnum]
        exact hl
      · exact (congrArg _ hof.vaultAddress).trans (vaultIdOf_address hv)
  · exact Table.has_insertMany.2
      (Or.inl (h.complete n hn howed hkept sub hsub v hv l hl hmatch draft hdraft))

/-- When the flows of a window are stored, or its blocks are lost, the cursor may pass it. -/
theorem FlowScanning.advance {range : BlockRange} {w : World} {ts : Nat}
    (h : FlowScanning H subs vaults owed lost low range.fromBlock w)
    (hle : range.fromBlock ≤ range.toBlock)
    (hall : (∀ sub ∈ subs, FlowsStored H vaults range sub w) ∨
      ∀ n, range.fromBlock ≤ n → n ≤ range.toBlock → lost n) :
    FlowScanning H subs vaults owed lost low (range.toBlock + 1)
      { w with cursor := some ⟨range.toBlock, some ts⟩ } := by
  obtain ⟨c, hc, hstart⟩ := h.cursor
  refine ⟨⟨h.inv.fixed, h.inv.cached, h.inv.sound, ?_, fun b hb => ?_⟩, _, rfl, rfl⟩
  · rintro n ⟨c', hc', hn⟩ howed hkept sub hsub v hv l hl hmatch draft hdraft
    cases hc'
    by_cases hold : n < range.fromBlock
    · exact h.inv.complete n ⟨c, hc, by omega⟩ howed hkept sub hsub v hv l hl hmatch draft hdraft
    · have hfrom := Nat.le_of_not_lt hold
      rcases hall with hstored | hlost
      · exact hstored sub hsub n hfrom hn l hl ⟨v, hv, hmatch⟩ draft hdraft
      · exact absurd (hlost n hfrom hn) hkept
  · obtain ⟨c', hc', hb'⟩ := h.inv.floor b hb
    rw [hc] at hc'
    cases hc'
    exact ⟨_, rfl, by simp only; omega⟩

/-! ## Windows -/

/-- Every source answers its subscriptions. -/
def Resolves (cfg : Config) (outside : Nat → Moment) (sources : Nat → List LogSubscription) : Prop :=
  ∀ t, ∀ k < cfg.flowSources, (outside t).logSubscriptions k = some (sources k) ∧
    ∀ effect, (outside t).fate (.logSubscriptions k) ≠ .failed effect

/-- The subscriptions of all sources. -/
def allSubscriptions (cfg : Config) (sources : Nat → List LogSubscription) : List LogSubscription :=
  (List.range cfg.flowSources).flatMap sources

section Windows

variable {sources : Nat → List LogSubscription} {R : Nat → Prop} {b start : Nat}

/-- A source answers its subscriptions, or not at all. -/
theorem Resolves.answer (h : Resolves cfg outside sources) {k : Nat} (hk : k < cfg.flowSources)
    {more : List LogSubscription} (hmore : Answers outside R k more) : more = sources k := by
  rcases hmore with ⟨i, -, hi⟩ | ⟨-, ⟨i, effect, -, hfate⟩ | ⟨i, -, hi⟩⟩
  · rw [(h i k hk).1] at hi
    cases hi
    rfl
  · exact absurd hfate ((h i k hk).2 effect)
  · rw [(h i k hk).1] at hi
    cases hi

/-- What is known of the subscriptions while sources are left. -/
def ResolvedSoFar (cfg : Config) (sources : Nat → List LogSubscription) (rest : List Nat)
    (resolved : List LogSubscription) : Prop :=
  (∀ k ∈ rest, k < cfg.flowSources) ∧ resolved ++ rest.flatMap sources = allSubscriptions cfg sources

/-- One more source has been asked. -/
theorem ResolvedSoFar.next (h : Resolves cfg outside sources) {source : Nat} {rest : List Nat}
    {resolved more : List LogSubscription} (hmore : Answers outside R source more)
    (hsofar : ResolvedSoFar cfg sources (source :: rest) resolved) :
    ResolvedSoFar cfg sources rest (resolved ++ more) := by
  obtain ⟨hlt, hresolved⟩ := hsofar
  refine ⟨fun k hk => hlt k (List.mem_cons_of_mem _ hk), ?_⟩
  rw [h.answer (hlt source (List.mem_cons_self ..)) hmore, List.append_assoc, ← hresolved,
    List.flatMap_cons]

theorem ResolvedSoFar.all {resolved : List LogSubscription}
    (h : ResolvedSoFar cfg sources [] resolved) : resolved = allSubscriptions cfg sources := by
  rw [← h.2, List.flatMap_nil, List.append_nil]

theorem ConfirmedBy.sees {i : Nat} (h : ConfirmedBy cfg outside b i)
    (hH : Confirms cfg.confirmations H outside) : (outside i).Sees H b := by
  obtain ⟨t, ht, hb⟩ := h
  intro n hn
  exact hH t i ht n (by omega)

theorem stable_of_fixed {P : World → Prop} (hfixed : ∀ t, (outside t).registered = []) :
    Stable outside R P := by
  intro i w _ hw
  rw [hfixed]
  exact hw

/-- After the flow part of a window its flows are stored, or it was disturbed. -/
theorem triple_flowPart {range : BlockRange} (hfixed : ∀ t, (outside t).registered = [])
    (hsources : Resolves cfg outside sources) (hH : Confirms cfg.confirmations H outside)
    (hR : ∀ i, R i → ConfirmedBy cfg outside b i) (hto : range.toBlock ≤ b) {T : World → Prop} :
    Triple outside R
      (FlowScanning H (allSubscriptions cfg sources) vaults owed lost low start)
      (indexProtocolFlows cfg range vaults)
      (fun _ w => FlowScanning H (allSubscriptions cfg sources) vaults owed lost low start w ∧
        ((∀ sub ∈ allSubscriptions cfg sources, FlowsStored H vaults range sub w) ∨
          ∃ sub ∈ allSubscriptions cfg sources, Disturbed H vaults outside R range sub)) T
      (FlowInv H (allSubscriptions cfg sources) vaults owed lost low) := by
  apply (triple_indexProtocolFlows (K := ResolvedSoFar cfg sources) (stable_of_fixed hfixed)
    (fun i hi => (hR i hi).sees hH) hto ?_ ?_ ?_ ?_ ?_ ?_).post
  · rintro - w ⟨hw, resolved, hresolved, hflows⟩
    rw [hresolved.all] at hflows
    exact ⟨hw, hflows⟩
  · exact ⟨fun k hk => List.mem_range.1 hk, rfl⟩
  · intro source rest resolved more hmore hsofar
    exact hsofar.next hsources hmore
  -- a cache of an earlier tick has all subscriptions, since every source answers
  · intro w resolved hw hcached
    refine ⟨fun k hk => absurd hk List.not_mem_nil, ?_⟩
    rw [hw.inv.cached resolved hcached, List.flatMap_nil, List.append_nil]
  · rintro w resolved hresolved ⟨hw, hcursor⟩
    refine ⟨⟨hw.fixed, fun subs hsubs => ?_, hw.sound, hw.complete, hw.floor⟩, hcursor⟩
    cases hsubs
    exact hresolved.all
  · rintro w resolved data hresolved hdata ⟨hw, hcursor⟩
    rw [hresolved.all] at hdata
    exact ⟨hw.storeFlows hdata, hcursor⟩
  · intro w hw
    exact hw.inv

/-- **A window keeps the flows**: where it loses one it was disturbed. -/
theorem triple_indexRange_flows {range : BlockRange} (hfixed : ∀ t, (outside t).registered = [])
    (hsources : Resolves cfg outside sources) (hH : Confirms cfg.confirmations H outside)
    (hR : ∀ i, R i → ConfirmedBy cfg outside b i)
    (hlost : ∀ sub ∈ allSubscriptions cfg sources, Disturbed H vaults outside R range sub →
      ∀ n, range.fromBlock ≤ n → n ≤ range.toBlock → lost n)
    (hle : range.fromBlock ≤ range.toBlock) (hto : range.toBlock ≤ b) :
    Triple outside R
      (FlowScanning H (allSubscriptions cfg sources) vaults owed lost low range.fromBlock)
      (indexRange cfg vaults range)
      (fun _ => FlowScanning H (allSubscriptions cfg sources) vaults owed lost low
        (range.toBlock + 1))
      (FlowInv H (allSubscriptions cfg sources) vaults owed lost low)
      (FlowInv H (allSubscriptions cfg sources) vaults owed lost low) := by
  have hend : ∀ w, FlowScanning H (allSubscriptions cfg sources) vaults owed lost low
      range.fromBlock w → FlowInv H (allSubscriptions cfg sources) vaults owed lost low w :=
    fun w hw => hw.inv
  rw [indexRange]
  apply Triple.bind (triple_fetchLogs (stable_of_fixed hfixed) (fun i hi => (hR i hi).sees hH) hto
    hend hend)
  intro logs
  apply Triple.assume
  intro
  apply Triple.bind (triple_persistLogs (stable_of_fixed hfixed) ?_ ?_ hend hend)
  · intro
    apply Triple.bind (Triple.imp (triple_flowPart hfixed hsources hH hR hto) (fun w hw => hw.1)
      fun _ w hw => hw)
    intro
    apply Triple.bind (triple_blockTimestamp (stable_of_fixed hfixed) (fun _ w hw => hend w hw.1)
      fun w hw => hend w hw.1)
    intro toTs
    apply triple_advance (stable_of_fixed hfixed)
    · rintro w ⟨hw, hstored | ⟨sub, hsub, hdisturbed⟩⟩
      · exact hw.advance hle (Or.inl hstored)
      · exact hw.advance hle (Or.inr (hlost sub hsub hdisturbed))
    · rintro w (hw | hw)
      · exact hw.1.inv
      · exact hw.inv
    · rintro w (hw | hw)
      · exact hw.1.inv
      · exact hw.inv
  -- executions, deposits and withdrawals are no flows
  · rintro w data failures - ⟨hw, hcursor⟩
    exact ⟨⟨hw.fixed, hw.cached, hw.sound, hw.complete, hw.floor⟩, hcursor⟩
  · rintro w data - ⟨hw, hcursor⟩
    exact ⟨⟨hw.fixed, hw.cached, hw.sound, hw.complete, hw.floor⟩, hcursor⟩

/-- The windows of a tick. -/
theorem triple_indexRanges_flows {ranges : List BlockRange}
    (hfixed : ∀ t, (outside t).registered = []) (hsources : Resolves cfg outside sources)
    (hH : Confirms cfg.confirmations H outside) (hR : ∀ i, R i → ConfirmedBy cfg outside b i)
    (hlost : ∀ range ∈ ranges, ∀ sub ∈ allSubscriptions cfg sources,
      Disturbed H vaults outside R range sub → ∀ n, range.fromBlock ≤ n → n ≤ range.toBlock → lost n)
    (hcovers : RangePlanner.Covers b start ranges) :
    Triple outside R
      (FlowScanning H (allSubscriptions cfg sources) vaults owed lost low start)
      (ranges.forM (indexRange cfg vaults))
      (fun _ => FlowInv H (allSubscriptions cfg sources) vaults owed lost low)
      (FlowInv H (allSubscriptions cfg sources) vaults owed lost low)
      (FlowInv H (allSubscriptions cfg sources) vaults owed lost low) := by
  apply (Triple.forM (I := fun rest w => ∃ start, RangePlanner.Covers b start rest ∧
    (∀ range ∈ rest, range ∈ ranges) ∧
      FlowScanning H (allSubscriptions cfg sources) vaults owed lost low start w) ?_).imp
  · intro w hw
    exact ⟨start, hcovers, fun _ h => h, hw⟩
  · rintro - w ⟨_, _, _, hw⟩
    exact hw.inv
  · rintro range rest t w ⟨start, ⟨rfl, hle, hto, hrest⟩, hmem, hw⟩ hmoments
    refine ((triple_indexRange_flows hfixed hsources hH hR
      (hlost range (hmem range (List.mem_cons_self ..))) hle hto).post fun _ w h => ?_) t w hw hmoments
    exact ⟨_, hrest, fun r hr => hmem r (List.mem_cons_of_mem _ hr), h⟩

end Windows

/-! ## Runs -/

section Runs

variable {sources : Nat → List LogSubscription}

/-- Where no vault is registered the world stays. -/
theorem registerUntil_of_fixed (hfixed : ∀ t, (outside t).registered = []) (w : World) (t k : Nat) :
    w.registerUntil outside t k = w := by
  induction k with
  | zero => rfl
  | succ k ih =>
    rw [World.registerUntil]
    rw [ih, hfixed]
    rfl

/-- Where fewer blocks are lost, the invariant says more. -/
theorem FlowInv.mono {lost' : Nat → Prop} {w : World} (h : FlowInv H subs vaults owed lost low w)
    (hmono : ∀ n, Passed w n → owed n → lost n → lost' n) :
    FlowInv H subs vaults owed lost' low w :=
  ⟨h.fixed, h.cached, h.sound,
    fun n hn howed hkept => h.complete n hn howed fun hlost => hkept (hmono n hn howed hlost), h.floor⟩

/-- **What a step keeps of the flows**: none is lost but those of blocks that the cursor passes in it
while the flow part is disturbed. -/
theorem step_flowInv (hH : Confirms cfg.confirmations H outside)
    (hfixed : ∀ t, (outside t).registered = []) (hsources : Resolves cfg outside sources)
    (howed : low = none → ∀ n, ¬ owed n) {s : Nat × World} (event : Event)
    (hund : ∀ n, owed n → Undisturbed cfg H outside (allSubscriptions cfg sources) vaults n s event)
    (h : FlowInv H (allSubscriptions cfg sources) vaults owed (fun _ => False) low s.2) :
    FlowInv H (allSubscriptions cfg sources) vaults owed (fun _ => False) low
      (step cfg outside s event).2 := by
  have hinv : FlowInv H (allSubscriptions cfg sources) vaults owed
      (LostIn cfg H outside (allSubscriptions cfg sources) vaults s event) low s.2 :=
    h.mono fun _ _ _ hlost => hlost.elim
  suffices hstep : FlowInv H (allSubscriptions cfg sources) vaults owed
      (LostIn cfg H outside (allSubscriptions cfg sources) vaults s event) low
        (step cfg outside s event).2 from
    hstep.mono fun n hn howed hlost => hund n howed hn hlost
  apply step_keeps
  · intro w hw
    exact ⟨hw.fixed, nofun, hw.sound, hw.complete, hw.floor⟩
  · intro k _
    rw [registerUntil_of_fixed hfixed]
    exact hinv
  · intro hnone k _
    rw [registerUntil_of_fixed hfixed]
    -- without a cursor there is no block that the cursor has reached, so nothing is owed
    have hlow : low = none := by
      cases hlow : low with
      | none => rfl
      | some b =>
        obtain ⟨c, hc, -⟩ := h.floor b hlow
        rw [hnone] at hc
        cases hc
    refine ⟨h.fixed, h.cached, h.sound, fun n _ hn => absurd hn (howed hlow n), fun b hb => ?_⟩
    rw [hlow] at hb
    cases hb
  -- no vault comes or goes, so the tick reads `vaults`
  · rintro htick c ranges hcursor hplan hne r hr hend
    rw [registerUntil_of_fixed hfixed, h.fixed] at hr
    obtain ⟨b, hb, hlt, hcovers⟩ := RangePlanner.plan_covers hplan hne
    have hconfirmed : ∀ i, During cfg outside s event i → ConfirmedBy cfg outside b i := by
      rintro i ⟨hi, -⟩
      exact ⟨s.1, hi, by omega⟩
    have hscan := triple_indexRanges_flows hfixed hsources hH hconfirmed
      (fun range hrange sub hsub hdisturbed n hfrom hto =>
        ⟨range, ⟨htick, c, ranges, hcursor, hplan, hrange⟩, hfrom, hto, sub, hsub, hdisturbed⟩)
      hcovers (s.1 + 3) s.2 ⟨hinv, c, hcursor, rfl⟩
      fun i hge hlt => ⟨by omega, by rw [hend, ← hr]; exact hlt⟩
    rw [hr] at hscan
    exact hscan.elim

/-- The invariant holds after every undisturbed run. -/
theorem run_flowInv (hH : Confirms cfg.confirmations H outside)
    (hfixed : ∀ t, (outside t).registered = []) (hsources : Resolves cfg outside sources)
    (howed : low = none → ∀ n, ¬ owed n) {s : Nat × World}
    (h : FlowInv H (allSubscriptions cfg sources) vaults owed (fun _ => False) low s.2)
    {events : List Event} (hund : Admitted (step cfg outside) (fun s event => ∀ n, owed n →
      Undisturbed cfg H outside (allSubscriptions cfg sources) vaults n s event) s events) :
    FlowInv H (allSubscriptions cfg sources) vaults owed (fun _ => False) low
      (run (step cfg outside) s events).2 :=
  run_invariant (I := fun s : Nat × World =>
      FlowInv H (allSubscriptions cfg sources) vaults owed (fun _ => False) low s.2)
    (fun _ event hs hund => step_flowInv hH hfixed hsources howed event hund hs) h hund

end Runs

/-- **Every flow has exactly one row**, unless the flow part is disturbed in the step in which the cursor
passes its block: `s` is any state of a run and `s'` any later one. -/
theorem flows_indexed_once (cfg : Config) (H : History) (outside : Nat → Moment)
    (hH : Confirms cfg.confirmations H outside) (vaults : VaultMap)
    (hfixed : ∀ t, (outside t).registered = []) (sources : Nat → List LogSubscription)
    (hsources : Resolves cfg outside sources) (cursor : Option Cursor)
    (failures : List ExecutionFailure) (before after : List Event) :
    let subs := allSubscriptions cfg sources
    let s := run (step cfg outside) (0, World.initial vaults cursor failures) before
    let s' := run (step cfg outside) s after
    (s'.2.protocolFlows.rows.map FlowRow.key).Nodup ∧
    (∀ r ∈ s'.2.protocolFlows, r.Stands H subs vaults) ∧
    ∀ c c', s.2.cursor = some c → s'.2.cursor = some c' → ∀ n, c.lastProcessedBlock < n →
      n ≤ c'.lastProcessedBlock →
        Admitted (step cfg outside) (Undisturbed cfg H outside subs vaults n) s after →
          ∀ sub ∈ subs, ∀ v ∈ vaults, ∀ l ∈ H.blocks n, sub.Matches v.address l → ∀ draft,
            sub.toDraft l.topics l.data = .draft draft →
              OneRow s'.2.protocolFlows (l.transactionHash, l.index) := by
  intro subs s s'
  have hnothing (s₀ : Nat × World) (events : List Event) : Admitted (step cfg outside)
      (fun s event => ∀ n, False → Undisturbed cfg H outside subs vaults n s event) s₀ events :=
    admitted_of_true _ (fun _ _ _ => False.elim) s₀ events
  have hinitial : FlowInv H subs vaults (fun _ => False) (fun _ => False) none
      (World.initial vaults cursor failures) :=
    ⟨rfl, nofun, fun r hr => absurd hr (Table.notMem_empty r), fun n _ howed => howed.elim, nofun⟩
  have hs : FlowInv H subs vaults (fun _ => False) (fun _ => False) none s.2 :=
    run_flowInv hH hfixed hsources (fun _ _ h => h) hinitial (hnothing _ before)
  refine ⟨s'.2.protocolFlows.nodup,
    (run_flowInv hH hfixed hsources (fun _ _ h => h) hs (hnothing _ after)).sound, ?_⟩
  intro c c' hc hc' n hlt hle hund sub hsub v hv l hl hmatch draft hdraft
  -- the block is owed, as it lies after the cursor of `s`
  have hfrom : FlowInv H subs vaults (fun m => m = n) (fun _ => False) (some c.lastProcessedBlock)
      s.2 := by
    refine ⟨hs.fixed, hs.cached, hs.sound, ?_, fun b hb => ?_⟩
    · rintro m ⟨c₁, hc₁, hm⟩ rfl
      rw [hc] at hc₁
      cases hc₁
      exact absurd hm (Nat.not_le.2 hlt)
    · cases hb
      exact ⟨c, hc, Nat.le_refl _⟩
  have hs' := run_flowInv hH hfixed hsources nofun hfrom
    (hund.imp fun s event h m hm => hm ▸ h)
  exact oneRow_of_has (hs'.complete n ⟨c', hc', hle⟩ rfl id sub hsub v hv l hl hmatch draft hdraft)

/-! ## A supply to Aave -/

/-- The subscription of the pool at address 10 to its `Supply` event. -/
def supplySubscription : LogSubscription where
  address := ⟨10⟩
  topic0 := "0x2b627736bca15cd5381dcf80b0bf11fd197d01a037c52b927a881a10fb73ba61"
  vaultTopicIndex := 2
  indexed := by decide
  toDraft topics data :=
    -- `parseLog` answers nothing of another event, and throws on data that it cannot decode
    if topics.head? ≠ some "0x2b627736bca15cd5381dcf80b0bf11fd197d01a037c52b927a881a10fb73ba61" then
      .skipped
    else match indexedAddress topics 1, Abi.wordAt data 32 with
      | some reserve, some amount => .draft ⟨"aave-v3", "AAVE_SUPPLY", reserve, amount⟩
      | _, _ => .thrown

/-- The vault at address 7 supplies 500 of the token at address 9. -/
def supplyLog : RawLog where
  address := ⟨10⟩
  transactionHash := "0xf1"
  blockNumber := 6
  index := 0
  topics := ["0x2b627736bca15cd5381dcf80b0bf11fd197d01a037c52b927a881a10fb73ba61",
    "0x0000000000000000000000000000000000000000000000000000000000000009",
    "0x0000000000000000000000000000000000000000000000000000000000000007",
    "0x0000000000000000000000000000000000000000000000000000000000000000"]
  data := Abi.encodeWord 7 ++ Abi.encodeWord 500

theorem supplyLog_matches : supplySubscription.Matches vaultSeven.address supplyLog := by
  refine ⟨rfl, ⟨_, rfl, rfl⟩, ⟨_, rfl, ?_⟩⟩
  decide

theorem supplyLog_draft : supplySubscription.toDraft supplyLog.topics supplyLog.data =
    .draft ⟨"aave-v3", "AAVE_SUPPLY", ⟨9⟩, 500⟩ := by
  decide

/-- The source answers its subscription, and one call fails. -/
def failingCall (t : Nat) (call : Call) (i : Nat) : Moment :=
  { answeredMoment (oneLogChain supplyLog) 20 with
    fate := fun c => if i = t ∧ c = call then .failed false else .answered
    logSubscriptions := fun _ => some [supplySubscription] }

/-- A call that fails once leaves the subscriptions. -/
theorem failingCall_resolves {t : Nat} {call : Call} (hcall : ∀ k, Call.logSubscriptions k ≠ call) :
    Resolves (defaultConfig 1) (failingCall t call) fun _ => [supplySubscription] := by
  intro i k _
  refine ⟨rfl, fun effect h => ?_⟩
  change (if i = t ∧ Call.logSubscriptions k = call then Fate.failed false else .answered) =
    .failed effect at h
  rw [if_neg fun heq => hcall k heq.2] at h
  cases h

set_option maxRecDepth 2000 in
/-- The timestamp of the last block is not read at first: the second tick passes the window. -/
theorem flows_indexed_once_supply :
    OneRow (run (step (defaultConfig 1) (failingCall 13 (.getBlock 15)))
      (run (step (defaultConfig 1) (failingCall 13 (.getBlock 15)))
        (0, World.initial onlyVaultSeven none []) [.start]) [.tick, .tick]).2.protocolFlows
          ("0xf1", 0) := by
  obtain ⟨-, -, honce⟩ := flows_indexed_once (defaultConfig 1) (oneLogChain supplyLog)
    (failingCall 13 (.getBlock 15)) (fun _ _ _ _ _ => rfl) onlyVaultSeven (fun _ => rfl)
    (fun _ => [supplySubscription]) (failingCall_resolves nofun) none [] [.start] [.tick, .tick]
  have hseeded : (run (step (defaultConfig 1) (failingCall 13 (.getBlock 15)))
      (0, World.initial onlyVaultSeven none []) [.start]).2.cursor = some ⟨3, none⟩ := by decide
  have hpassed : (run (step (defaultConfig 1) (failingCall 13 (.getBlock 15)))
      (run (step (defaultConfig 1) (failingCall 13 (.getBlock 15)))
        (0, World.initial onlyVaultSeven none []) [.start]) [.tick, .tick]).2.cursor =
          some ⟨15, some 180000⟩ := by decide
  -- the call that fails is outside the flow part
  have hundisturbed (s : Nat × World) (event : Event) : Undisturbed (defaultConfig 1)
      (oneLogChain supplyLog) (failingCall 13 (.getBlock 15)) [supplySubscription] onlyVaultSeven 6 s
        event := by
    rintro - ⟨range, -, -, -, sub, hsub, hdisturbed⟩
    rw [List.mem_singleton.1 hsub] at hdisturbed
    have hanswered (call : FlowCall) {R : Nat → Prop} :
        ¬ Fails (failingCall 13 (.getBlock 15)) R (.flow range call) := by
      rintro ⟨i, effect, -, hfate⟩
      change (if i = 13 ∧ Call.flow range call = .getBlock 15 then Fate.failed false
        else .answered) = .failed effect at hfate
      rw [if_neg nofun] at hfate
      cases hfate
    rcases hdisturbed with hfails | ⟨l, hl, hfails | ⟨i, -, hnone⟩ | hthrown | ⟨-, hfails⟩⟩
    · exact hanswered _ hfails
    · exact hanswered _ hfails
    · cases hnone
    · obtain ⟨n, -, -, hn⟩ := hl.block
      change l ∈ if n = 6 then [supplyLog] else [] at hn
      split at hn
      · rw [List.mem_singleton.1 hn, supplyLog_draft] at hthrown
        cases hthrown
      · cases hn
    · rcases hfails with hfails | hfails | hfails
      · exact hanswered _ hfails
      · exact hanswered _ hfails
      · exact hanswered _ hfails
  exact honce _ _ hseeded hpassed 6 (by decide) (by decide)
    (admitted_of_true _ hundisturbed _ _) supplySubscription
    (List.mem_singleton_self _) vaultSeven (List.mem_singleton_self _) supplyLog
    (List.mem_singleton_self _) supplyLog_matches _ supplyLog_draft

/-- The logs of the flow part are not read: the cursor passes the supply all the same. -/
theorem flow_lost :
    (Confirms (defaultConfig 1).confirmations (oneLogChain supplyLog)
        (failingCall 8 (.flow ⟨4, 15⟩ .getLogs)) ∧
      (∀ t, (failingCall 8 (.flow ⟨4, 15⟩ .getLogs) t).registered = []) ∧
      Resolves (defaultConfig 1) (failingCall 8 (.flow ⟨4, 15⟩ .getLogs))
        fun _ => [supplySubscription]) ∧
    ¬ ∀ c c', (run (step (defaultConfig 1) (failingCall 8 (.flow ⟨4, 15⟩ .getLogs)))
        (0, World.initial onlyVaultSeven none []) [.start]).2.cursor = some c →
      (run (step (defaultConfig 1) (failingCall 8 (.flow ⟨4, 15⟩ .getLogs)))
        (0, World.initial onlyVaultSeven none []) [.start, .tick]).2.cursor = some c' →
      ∀ n, c.lastProcessedBlock < n → n ≤ c'.lastProcessedBlock →
        ∀ sub ∈ allSubscriptions (defaultConfig 1) fun _ => [supplySubscription],
        ∀ v ∈ onlyVaultSeven, ∀ l ∈ (oneLogChain supplyLog).blocks n, sub.Matches v.address l →
          ∀ draft, sub.toDraft l.topics l.data = .draft draft →
            OneRow (run (step (defaultConfig 1) (failingCall 8 (.flow ⟨4, 15⟩ .getLogs)))
              (0, World.initial onlyVaultSeven none []) [.start, .tick]).2.protocolFlows
                (l.transactionHash, l.index) := by
  refine ⟨⟨fun _ _ _ _ _ => rfl, fun _ => rfl, failingCall_resolves nofun⟩, fun honce => ?_⟩
  have hseeded : (run (step (defaultConfig 1) (failingCall 8 (.flow ⟨4, 15⟩ .getLogs)))
      (0, World.initial onlyVaultSeven none []) [.start]).2.cursor = some ⟨3, none⟩ := by decide
  -- the cursor is behind block 6, where the supply is
  have hpassed : (run (step (defaultConfig 1) (failingCall 8 (.flow ⟨4, 15⟩ .getLogs)))
      (0, World.initial onlyVaultSeven none []) [.start, .tick]).2.cursor =
        some ⟨15, some 180000⟩ := by decide
  have hnone : ¬ (run (step (defaultConfig 1) (failingCall 8 (.flow ⟨4, 15⟩ .getLogs)))
      (0, World.initial onlyVaultSeven none []) [.start, .tick]).2.protocolFlows.Has ("0xf1", 0) := by
    decide
  obtain ⟨r, hr, -⟩ := honce _ _ hseeded hpassed 6 (by decide) (by decide) supplySubscription
    (List.mem_singleton_self _) vaultSeven (List.mem_singleton_self _) supplyLog
    (List.mem_singleton_self _) supplyLog_matches _ supplyLog_draft
  exact hnone ⟨r, hr.1, hr.2⟩

end StrategyBuilder.Indexer
