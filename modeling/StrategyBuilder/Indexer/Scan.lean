import StrategyBuilder.Indexer.FlowWindow

/-!
# What a scan keeps

The invariant of the tables (`Inv`): no row is there without its log, and every log that a vault is
owed has its row up to the cursor. Which blocks are owed is left open. Between the windows of a tick the
invariant holds together with what the tick knows (`Scanning`), and a window moves that to the next one
(`triple_indexRange`). A vault that is registered in between must have emitted nothing so far
(`Silent`).
-/

set_option autoImplicit false

namespace StrategyBuilder.Indexer

open StrategyBuilder.Contracts
open StrategyBuilder.Lib
open StrategyBuilder.Lib.Async

section Definitions

variable (cfg : Config) (H : History) (owed : VaultEntry → Nat → Prop)

/-- The vault emitted nothing that counts in the blocks it is owed, up to `b`. -/
def Silent (b : Nat) (v : VaultEntry) : Prop :=
  ∀ n ≤ b, owed v n → ∀ l event, ¬ Relevant cfg H v.address n l event

/-- Every log that a vault is owed has its row, up to `b`. -/
def Complete (w : World) (b : Nat) : Prop :=
  ∀ v ∈ w.vaults, ∀ n ≤ b, owed v n → ∀ l event, Relevant cfg H v.address n l event →
    Indexed w l event

/-- The invariant; `J` is what is known of the table of vaults, `low` is a block that the cursor has
reached. -/
structure Inv (J : VaultMap → Prop) (low : Option Nat) (w : World) : Prop where
  vaults : J w.vaults
  sound : Sound cfg H w
  complete : ∀ c, w.cursor = some c → Complete cfg H owed w c.lastProcessedBlock
  floor : ∀ b, low = some b → ∃ c, w.cursor = some c ∧ b ≤ c.lastProcessedBlock

/-- Between two windows: the next one starts at `start`, the vaults were read as `V` and the last block
of the tick is `b`. -/
structure Scanning (J : VaultMap → Prop) (low : Option Nat) (V : VaultMap) (b start : Nat)
    (w : World) : Prop where
  inv : Inv cfg H owed J low w
  known : ∀ v ∈ V, v ∈ w.vaults
  late : ∀ v ∈ w.vaults, v ∈ V ∨ Silent cfg H owed b v
  cursor : ∃ c, w.cursor = some c ∧ c.lastProcessedBlock + 1 = start
  le : start ≤ b + 1

end Definitions

variable {cfg : Config} {H : History} {owed : VaultEntry → Nat → Prop} {J : VaultMap → Prop}
  {low : Option Nat}

/-! ## Changes that keep the invariant -/

section Changes

variable {w : World}

/-- A new vault keeps the rows sound. -/
theorem Sound.register (h : Sound cfg H w) (vaults : List VaultEntry) :
    Sound cfg H (w.register vaults) := by
  constructor
  · intro r hr
    obtain ⟨v, hv, hlog⟩ := h.executions r hr
    exact ⟨v, Table.mem_insertMany_of_mem _ hv, hlog⟩
  · intro r hr
    obtain ⟨v, hv, hlog⟩ := h.vaultEvents r hr
    exact ⟨v, Table.mem_insertMany_of_mem _ hv, hlog⟩

/-- A vault may be registered that emitted nothing up to the cursor. -/
theorem Inv.register {vaults : List VaultEntry} (h : Inv cfg H owed J low w)
    (hJ : J (w.vaults.insertMany vaults))
    (hsilent : ∀ v ∈ vaults, ∀ c, w.cursor = some c → Silent cfg H owed c.lastProcessedBlock v) :
    Inv cfg H owed J low (w.register vaults) := by
  refine ⟨hJ, h.sound.register vaults, fun c hc v hv n hn howed l event hl => ?_, h.floor⟩
  rcases Table.mem_of_mem_insertMany hv with hv | hv
  · exact h.complete c hc v hv n hn howed l event hl
  · exact absurd hl (hsilent v hv c hc n hn howed l event)

/-- What is indexed stays indexed. -/
theorem Indexed.storeExecutions {l : RawLog} {event : VaultEvent} {data : List ExecutionRow}
    {failures : List ExecutionFailure} (h : Indexed w l event) :
    Indexed { w with executions := w.executions.insertMany data, failures := failures } l event := by
  rw [Indexed] at h ⊢
  cases hname : event.name with
  | automationExecuted =>
    rw [hname] at h
    exact Table.has_insertMany.2 (Or.inl h)
  | gasCompSettled =>
    rw [hname] at h
    exact h
  | deposited =>
    rw [hname] at h
    exact h
  | withdrawn =>
    rw [hname] at h
    exact h

/-- What is indexed stays indexed. -/
theorem Indexed.storeVaultEvents {l : RawLog} {event : VaultEvent} {data : List VaultEventRow}
    (h : Indexed w l event) :
    Indexed { w with vaultEvents := w.vaultEvents.insertMany data } l event := by
  rw [Indexed] at h ⊢
  cases hname : event.name with
  | automationExecuted =>
    rw [hname] at h
    exact h
  | gasCompSettled =>
    rw [hname] at h
    exact Table.has_insertMany.2 (Or.inl h)
  | deposited =>
    rw [hname] at h
    exact Table.has_insertMany.2 (Or.inl h)
  | withdrawn =>
    rw [hname] at h
    exact Table.has_insertMany.2 (Or.inl h)

/-- Rows of executions keep the invariant. -/
theorem Inv.storeExecutions {data : List ExecutionRow} {failures : List ExecutionFailure}
    (h : Inv cfg H owed J low w) (hdata : ∀ r ∈ data, r.Stands cfg H w.vaults) :
    Inv cfg H owed J low
      { w with executions := w.executions.insertMany data, failures := failures } := by
  refine ⟨h.vaults, ⟨fun r hr => ?_, h.sound.vaultEvents⟩,
    fun c hc v hv n hn howed l event hl => ?_, h.floor⟩
  · rcases Table.mem_of_mem_insertMany hr with hr | hr
    · exact h.sound.executions r hr
    · exact hdata r hr
  · exact (h.complete c hc v hv n hn howed l event hl).storeExecutions

/-- Rows of deposits and withdrawals keep the invariant. -/
theorem Inv.storeVaultEvents {data : List VaultEventRow} (h : Inv cfg H owed J low w)
    (hdata : ∀ r ∈ data, r.Stands cfg H w.vaults) :
    Inv cfg H owed J low { w with vaultEvents := w.vaultEvents.insertMany data } := by
  refine ⟨h.vaults, ⟨h.sound.executions, fun r hr => ?_⟩,
    fun c hc v hv n hn howed l event hl => ?_, h.floor⟩
  · rcases Table.mem_of_mem_insertMany hr with hr | hr
    · exact h.sound.vaultEvents r hr
    · exact hdata r hr
  · exact (h.complete c hc v hv n hn howed l event hl).storeVaultEvents

/-- The invariant says nothing about flows. -/
theorem Inv.flows (h : Inv cfg H owed J low w) (flows : Table FlowRow FlowRow.key)
    (subs : Option (List LogSubscription)) :
    Inv cfg H owed J low { w with protocolFlows := flows, flowSubs := subs } :=
  ⟨h.vaults, ⟨h.sound.executions, h.sound.vaultEvents⟩, h.complete, h.floor⟩

end Changes

/-! ## Rows of a window -/

section Rows

variable {V V' : VaultMap} {range : BlockRange} {logs : List RawLog} {p : ParsedVaultLog}

theorem vaultIdOf_address {v : VaultEntry} (hv : v ∈ V) : vaultIdOf V v.address = v.id := by
  rw [vaultIdOf]
  rw [Table.find?_eq_some.2 ⟨hv, rfl⟩]
  rfl

/-- A decoded log of a window is a log of a known vault. -/
theorem relevant_of_parsed (hlogs : ∀ l, l ∈ logs ↔ InRange cfg H range l)
    (hp : p ∈ parsedLogs cfg V logs) (hname : p.event.name ≠ .gasCompSettled) :
    ∃ v ∈ V, ∃ l, p.address = v.address ∧ p.txHash = l.transactionHash ∧ p.logIndex = l.index ∧
      Relevant cfg H v.address p.blockNumber l p.event := by
  obtain ⟨l, hl, ⟨v, hv, hva⟩, event, hevent, rfl⟩ := mem_parsedLogs.1 hp
  obtain ⟨⟨n, -, -, hn⟩, -⟩ := (hlogs l).1 hl
  have hnum := H.blockNumber n l hn
  subst hnum
  exact ⟨v, hv, l, hva.symm, rfl, rfl, hn, hva.symm, hevent, hname⟩

/-- The row of a parsed log of the range is one of the chain. -/
theorem executionOf_stands {d : ExecutionRowData} {usd : Option String}
    (hlogs : ∀ l, l ∈ logs ↔ InRange cfg H range l) (hp : p ∈ parsedLogs cfg V logs)
    (hof : ExecutionRowData.IsOf p d) (hV : ∀ v ∈ V, v ∈ V') :
    (executionOf V d usd).Stands cfg H V' := by
  have hname : p.event.name ≠ .gasCompSettled := by
    rw [hof.event]
    exact nofun
  obtain ⟨v, hv, l, haddress, hhash, hindex, hl⟩ := relevant_of_parsed hlogs hp hname
  rw [hof.event, ← hof.blockNumber] at hl
  refine ⟨v, hV v hv, l, ?_, hof.txHash.trans hhash, hof.logIndex.trans hindex, hl⟩
  exact (congrArg _ (hof.vaultAddress.trans haddress)).trans (vaultIdOf_address hv)

/-- The row of a parsed log of the range is one of the chain. -/
theorem vaultEventOf_stands {d : VaultEventRowData} {usd : Option String}
    (hlogs : ∀ l, l ∈ logs ↔ InRange cfg H range l) (hp : p ∈ parsedLogs cfg V logs)
    (hof : VaultEventRowData.IsOf p d) (hV : ∀ v ∈ V, v ∈ V') :
    (vaultEventOf V d usd).Stands cfg H V' := by
  have hname : p.event.name ≠ .gasCompSettled := by
    intro hname
    have hevent := hof.event
    cases hp : p.event with
    | gasCompSettled id executor token tokens =>
      rw [hp] at hevent
      exact hevent
    | automationExecuted id executor =>
      rw [hp] at hname
      cases hname
    | deposited token amount =>
      rw [hp] at hname
      cases hname
    | withdrawn token amount fee recipient =>
      rw [hp] at hname
      cases hname
  obtain ⟨v, hv, l, haddress, hhash, hindex, hl⟩ := relevant_of_parsed hlogs hp hname
  rw [← hof.blockNumber] at hl
  refine ⟨v, hV v hv, l, p.event, ?_, hof.txHash.trans hhash, hof.logIndex.trans hindex, hof.event, hl⟩
  exact (congrArg _ (hof.vaultAddress.trans haddress)).trans (vaultIdOf_address hv)

/-- Once the decoded logs of a window are stored, its logs are indexed. -/
theorem indexed_of_allStored {w : World} (hlogs : ∀ l, l ∈ logs ↔ InRange cfg H range l)
    (hstored : AllStored (parsedLogs cfg V logs) w) {v : VaultEntry} (hv : v ∈ V) {n : Nat}
    (hfrom : range.fromBlock ≤ n) (hto : n ≤ range.toBlock) {l : RawLog} {event : VaultEvent}
    (hl : Relevant cfg H v.address n l event) : Indexed w l event := by
  have hmem : l ∈ logs := (hlogs l).2 ⟨⟨n, hfrom, hto, hl.emitted⟩, hl.hasTopic⟩
  have hparsed : (⟨event, l.address, l.transactionHash, l.blockNumber, l.index⟩ : ParsedVaultLog) ∈
      parsedLogs cfg V logs :=
    mem_parsedLogs.2 ⟨l, hmem, ⟨v, hv, hl.address.symm⟩, event, hl.decoded, rfl⟩
  obtain ⟨hexecution, hevent⟩ := hstored _ hparsed
  rw [Indexed]
  cases hname : event.name with
  | automationExecuted => exact hexecution hname
  | gasCompSettled => exact absurd hname hl.counts
  | deposited => exact hevent (Or.inl hname)
  | withdrawn => exact hevent (Or.inr hname)

end Rows

/-! ## Windows -/

section Windows

variable {outside : Nat → Moment} {R : Nat → Prop} {V : VaultMap} {b start : Nat}

/-- The moments of a scan: the node has the blocks, and no vault is late. -/
structure Steady (cfg : Config) (H : History) (owed : VaultEntry → Nat → Prop) (J : VaultMap → Prop)
    (b : Nat) (m : Moment) : Prop where
  sees : m.Sees H b
  vaults : ∀ V, J V → J (V.insertMany m.registered)
  silent : ∀ v ∈ m.registered, Silent cfg H owed b v

theorem Silent.mono {b' : Nat} {v : VaultEntry} (h : Silent cfg H owed b v) (hle : b' ≤ b) :
    Silent cfg H owed b' v :=
  fun n hn => h n (Nat.le_trans hn hle)

/-- Vaults that are registered meanwhile do not disturb a scan. -/
theorem Scanning.stable (hR : ∀ i, R i → Steady cfg H owed J b (outside i)) :
    Stable outside R (Scanning cfg H owed J low V b start) := by
  intro i w hi h
  obtain ⟨c, hc, hstart⟩ := h.cursor
  -- the cursor is before the next window, and that is at most one block after the last one:
  -- what is silent up to the last block is silent up to the cursor
  refine ⟨h.inv.register ((hR i hi).vaults _ h.inv.vaults) fun v hv c' hc' => ?_, fun v hv => ?_,
    fun v hv => ?_, h.cursor, h.le⟩
  · rw [hc] at hc'
    cases hc'
    have hle := h.le
    exact ((hR i hi).silent v hv).mono (by omega)
  · exact Table.mem_insertMany_of_mem _ (h.known v hv)
  · rcases Table.mem_of_mem_insertMany hv with hv | hv
    · exact h.late v hv
    · exact Or.inr ((hR i hi).silent v hv)

/-- When the logs of a window are indexed the cursor may pass it. -/
theorem Scanning.advance {range : BlockRange} {w : World} {ts : Nat}
    (h : Scanning cfg H owed J low V b range.fromBlock w) (hle : range.fromBlock ≤ range.toBlock)
    (hto : range.toBlock ≤ b)
    (hall : ∀ v ∈ V, ∀ n, range.fromBlock ≤ n → n ≤ range.toBlock → ∀ l event,
      Relevant cfg H v.address n l event → Indexed w l event) :
    Scanning cfg H owed J low V b (range.toBlock + 1)
      { w with cursor := some ⟨range.toBlock, some ts⟩ } := by
  obtain ⟨c, hc, hstart⟩ := h.cursor
  refine ⟨⟨h.inv.vaults, ⟨h.inv.sound.executions, h.inv.sound.vaultEvents⟩, ?_,
    fun b' hb' => ?_⟩, h.known, h.late,
    ⟨_, rfl, rfl⟩, Nat.succ_le_succ hto⟩
  · rintro c' hc' v hv n hn howed l event hl
    cases hc'
    -- before the window the rows were complete; in it a vault was read by the tick, or it is silent
    by_cases hold : n < range.fromBlock
    · exact h.inv.complete c hc v hv n (by omega) howed l event hl
    · rcases h.late v hv with hknown | hsilent
      · exact hall v hknown n (Nat.le_of_not_lt hold) hn l event hl
      · exact absurd hl (hsilent n (Nat.le_trans hn hto) howed l event)
  · obtain ⟨c', hc', hb'⟩ := h.inv.floor b' hb'
    rw [hc] at hc'
    cases hc'
    exact ⟨_, rfl, by simp only; omega⟩

/-- **A window that is scanned**, whatever fails in it. -/
theorem triple_indexRange {range : BlockRange} (hR : ∀ i, R i → Steady cfg H owed J b (outside i))
    (hle : range.fromBlock ≤ range.toBlock) (hto : range.toBlock ≤ b) :
    Triple outside R (Scanning cfg H owed J low V b range.fromBlock) (indexRange cfg V range)
      (fun _ => Scanning cfg H owed J low V b (range.toBlock + 1)) (Inv cfg H owed J low)
      (Inv cfg H owed J low) := by
  have hP : Stable outside R (Scanning cfg H owed J low V b range.fromBlock) := Scanning.stable hR
  have hend : ∀ w, Scanning cfg H owed J low V b range.fromBlock w → Inv cfg H owed J low w :=
    fun w hw => hw.inv
  have hsees : ∀ i, R i → (outside i).Sees H b := fun i hi => (hR i hi).sees
  rw [indexRange]
  apply Triple.bind (triple_fetchLogs hP hsees hto hend hend)
  intro logs
  apply Triple.assume
  intro hlogs
  apply Triple.bind (triple_persistLogs hP ?_ ?_ hend hend)
  · intro
    -- the rows of the window are there from here on
    have hstored : Stable outside R fun w => Scanning cfg H owed J low V b range.fromBlock w ∧
        AllStored (parsedLogs cfg V logs) w :=
      hP.and fun _ _ _ hw => hw
    apply Triple.bind (triple_indexProtocolFlows (K := fun _ _ => True) hstored hsees hto trivial
      (fun _ _ _ _ _ _ => trivial) (fun _ _ _ _ => trivial) ?_ ?_ (fun w hw => hend w hw.1))
    · intro
      have hlast : Triple outside R
          (fun w => Scanning cfg H owed J low V b range.fromBlock w ∧
            AllStored (parsedLogs cfg V logs) w)
          (do
            let toTs ← blockTimestamp (.getBlock range.toBlock) range.toBlock
            IndexerCursorStore.advance range.toBlock (toTs * 1000))
          (fun _ => Scanning cfg H owed J low V b (range.toBlock + 1)) (Inv cfg H owed J low)
          (Inv cfg H owed J low) := by
        apply Triple.bind (triple_blockTimestamp hstored (fun _ w hw => hend w hw.1)
          fun w hw => hend w hw.1)
        intro toTs
        -- the call that moves the cursor may fail before its effect or after it
        apply triple_advance hstored
        · rintro w ⟨hw, hall⟩
          exact hw.advance hle hto fun v hv n hfrom hn l event hl =>
            indexed_of_allStored hlogs hall hv hfrom hn hl
        · rintro w (hw | hw)
          · exact hw.1.inv
          · exact hw.inv
        · rintro w (hw | hw)
          · exact hw.1.inv
          · exact hw.inv
      apply hlast.imp
      · intro w hw
        exact hw.1
      · intro _ w hw
        exact hw
    -- neither the cached subscriptions nor the flows matter to the other rows
    · rintro w subs - ⟨hw, hall⟩
      exact ⟨⟨hw.inv.flows _ _, hw.known, hw.late, hw.cursor, hw.le⟩, hall⟩
    · rintro w - data - - ⟨hw, hall⟩
      exact ⟨⟨hw.inv.flows _ _, hw.known, hw.late, hw.cursor, hw.le⟩, hall⟩
  · intro w data failures hdata hw
    refine ⟨hw.inv.storeExecutions fun r hr => ?_, hw.known, hw.late, hw.cursor, hw.le⟩
    obtain ⟨p, hp, d, usd, hof, rfl⟩ := hdata r hr
    exact executionOf_stands hlogs hp hof hw.known
  · intro w data hdata hw
    refine ⟨hw.inv.storeVaultEvents fun r hr => ?_, hw.known, hw.late, hw.cursor, hw.le⟩
    obtain ⟨p, hp, d, usd, hof, rfl⟩ := hdata r hr
    exact vaultEventOf_stands hlogs hp hof hw.known

/-- The windows of a tick. -/
theorem triple_indexRanges {ranges : List BlockRange}
    (hR : ∀ i, R i → Steady cfg H owed J b (outside i))
    (hcovers : RangePlanner.Covers b start ranges) :
    Triple outside R (Scanning cfg H owed J low V b start) (ranges.forM (indexRange cfg V))
      (fun _ => Inv cfg H owed J low) (Inv cfg H owed J low) (Inv cfg H owed J low) := by
  -- the windows that are left cover the blocks from where the cursor stands
  apply (Triple.forM (I := fun rest w => ∃ start, RangePlanner.Covers b start rest ∧
    Scanning cfg H owed J low V b start w) ?_).imp
  · intro w hw
    exact ⟨start, hcovers, hw⟩
  · rintro - w ⟨_, _, hw⟩
    exact hw.inv
  · rintro range rest t w ⟨start, hcovers, hw⟩ hmoments
    obtain ⟨rfl, hle, hto, hrest⟩ := hcovers
    refine ((triple_indexRange hR hle hto).post fun _ w h => ?_) t w hw hmoments
    exact ⟨_, hrest, h⟩

end Windows

end StrategyBuilder.Indexer
