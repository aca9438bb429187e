import StrategyBuilder.Indexer.BlockScan

/-!
# The parts of a window

What an assertion has to survive for a part of `indexRange` to keep it, and what the part adds to it:
`fetchLogs` finds the logs of the range (`triple_fetchLogs`), and after the persisting of the decoded
logs every log that counts has a row (`triple_persistLogs`).
-/

set_option autoImplicit false

namespace StrategyBuilder.Indexer

open StrategyBuilder.Contracts
open StrategyBuilder.Lib
open StrategyBuilder.Lib.Async
open StrategyBuilder.Lib.Js

variable {cfg : Config} {H : History} {outside : Nat → Moment} {R : Nat → Prop}
  {P T S : World → Prop}

/-! ## Fetching -/

/-- The node has the blocks of the history up to a block. -/
def Moment.Sees (H : History) (b : Nat) (m : Moment) : Prop := ∀ n ≤ b, m.blocks n = H.blocks n

theorem mem_logsOf {range : BlockRange} {l : RawLog} :
    l ∈ logsOf cfg H.blocks range ↔ InRange cfg H range l := by
  rw [logsOf, List.mem_filter, mem_logsIn]
  rfl

/-- All logs of the range are read, or the read throws. -/
theorem triple_fetchLogs {b : Nat} {range : BlockRange} (hP : Stable outside R P)
    (hR : ∀ i, R i → (outside i).Sees H b) (hto : range.toBlock ≤ b) (hT : ∀ w, P w → T w)
    (hS : ∀ w, P w → S w) :
    Triple outside R P (fetchLogs cfg range)
      (fun logs w => (∀ l, l ∈ logs ↔ InRange cfg H range l) ∧ P w) T S := by
  apply (fetchLogs_scan hP hR hto (fun _ => hT) (fun _ => hS)).post
  rintro logs w ⟨rfl, hw⟩
  exact ⟨fun l => mem_logsOf, hw⟩

/-! ## Persisting -/

section Persist

variable {V : VaultMap}

/-- The executions are stored, and resolve the failures. -/
theorem triple_storeExecutions {data : List ExecutionRow} {keys : List (String × Nat)}
    (hP : Stable outside R P)
    (hstore : ∀ w failures, P w →
      P { w with executions := w.executions.insertMany data, failures := failures })
    (hT : ∀ w, P w → T w) (hS : ∀ w, P w → S w) :
    Triple outside R (fun w => P w ∧ ∀ k ∈ keys, w.executions.Has k) (storeExecutions data)
      (fun _ w => P w ∧ (∀ k ∈ keys, w.executions.Has k) ∧ ∀ r ∈ data, w.executions.Has r.key)
      T S := by
  have hall : Stable outside R fun w =>
      P w ∧ (∀ k ∈ keys, w.executions.Has k) ∧ ∀ r ∈ data, w.executions.Has r.key :=
    hP.and fun _ _ _ hw => hw
  rw [storeExecutions]
  apply Triple.bind (triple_store hP ?_ ?_ ?_ (fun _ => hT) hS)
  · intro
    apply (triple_query hall (fun _ w hw => hT w hw.1) (fun w hw => hS w hw.1)).post
    rintro - w ⟨hw, -⟩
    exact hw
  · intro w vaults
    rfl
  · intro m w
    rfl
  · intro m w hw
    exact hstore w _ hw

/-- After `persist` every execution has its row. -/
theorem triple_persist {rows : List ExecutionRowData} (hP : Stable outside R P)
    (hstore : ∀ w (data : List ExecutionRow) failures,
      (∀ r ∈ data, ∃ d ∈ rows, ∃ usd, r = executionOf V d usd) → P w →
        P { w with executions := w.executions.insertMany data, failures := failures })
    (hT : ∀ w, P w → T w) (hS : ∀ w, P w → S w) :
    Triple outside R P (persist rows V)
      (fun _ w => P w ∧ ∀ d ∈ rows, w.executions.Has (d.txHash, d.logIndex)) T S := by
  rw [persist]
  apply triple_persistNew hP
  · intro w vaults
    rfl
  · intro d usd
    rfl
  · intro data keys hdata
    exact triple_storeExecutions hP (fun w failures => hstore w data failures hdata) hT hS
  · exact fun _ => hT
  · exact hS

/-- After `persistVaultEvents` every deposit and every withdrawal has its row. -/
theorem triple_persistVaultEvents {rows : List VaultEventRowData} (hP : Stable outside R P)
    (hstore : ∀ w (data : List VaultEventRow),
      (∀ r ∈ data, ∃ d ∈ rows, ∃ usd, r = vaultEventOf V d usd) → P w →
        P { w with vaultEvents := w.vaultEvents.insertMany data })
    (hT : ∀ w, P w → T w) (hS : ∀ w, P w → S w) :
    Triple outside R P (persistVaultEvents rows V)
      (fun _ w => P w ∧ ∀ d ∈ rows, w.vaultEvents.Has (d.txHash, d.logIndex)) T S := by
  rw [persistVaultEvents]
  split
  · rename_i hnone
    apply Triple.pure
    intro w hw
    refine ⟨hw, fun d hd => ?_⟩
    rw [List.length_eq_zero_iff.1 hnone] at hd
    cases hd
  -- rows that are there already count as stored
  · apply triple_persistNew hP
    · intro w vaults
      rfl
    · intro d usd
      rfl
    · intro data keys hdata
      exact triple_store hP (fun _ _ => rfl) (fun _ _ => rfl) (fun _ w => hstore w data hdata)
        (fun _ => hT) hS
    · exact fun _ => hT
    · exact hS

/-- The rate is read where there are deposits, and never fails. -/
theorem triple_depositFeeBpsOf {parsed : List ParsedVaultLog} (hP : Stable outside R P)
    (hS : ∀ w, P w → S w) : Triple outside R P (depositFeeBpsOf cfg parsed) (fun _ => P) T S := by
  rw [depositFeeBpsOf]
  split
  · exact triple_readDepositFeeBps hP hS
  · exact Triple.pure fun w hw => hw

/-- Every decoded log that counts has a row. -/
def AllStored (parsed : List ParsedVaultLog) (w : World) : Prop :=
  ∀ p ∈ parsed,
    (p.event.name = .automationExecuted → w.executions.Has (p.txHash, p.logIndex)) ∧
      (p.event.name = .deposited ∨ p.event.name = .withdrawn →
        w.vaultEvents.Has (p.txHash, p.logIndex))

/-- What was parsed is stored, each kind in its table. -/
theorem triple_persistLogs {parsed : List ParsedVaultLog} (hP : Stable outside R P)
    (hexecutions : ∀ w (data : List ExecutionRow) failures,
      (∀ r ∈ data, ∃ p ∈ parsed, ∃ d usd, ExecutionRowData.IsOf p d ∧ r = executionOf V d usd) →
        P w → P { w with executions := w.executions.insertMany data, failures := failures })
    (hevents : ∀ w (data : List VaultEventRow),
      (∀ r ∈ data, ∃ p ∈ parsed, ∃ d usd, VaultEventRowData.IsOf p d ∧ r = vaultEventOf V d usd) →
        P w → P { w with vaultEvents := w.vaultEvents.insertMany data })
    (hT : ∀ w, P w → T w) (hS : ∀ w, P w → S w) :
    Triple outside R P (persistLogs cfg parsed V) (fun _ w => P w ∧ AllStored parsed w) T S := by
  rw [persistLogs]
  split
  · apply Triple.bind (triple_resolveTimestamps hP (fun _ => hT) hS)
    intro blockTimestamps
    apply Triple.assume
    intro
    cases hbuild : buildExecutionRows parsed blockTimestamps with
    | error e => exact Triple.throw hT
    | ok execRows =>
      -- the executions are stored before the rows of deposits and withdrawals are built
      have hexecRows := executionRows_of hbuild
      apply Triple.bind (triple_persist hP ?_ hT hS)
      · intro
        -- the executions are stored, whatever happens from here on
        have hstored : Stable outside R fun w =>
            P w ∧ ∀ d ∈ execRows, w.executions.Has (d.txHash, d.logIndex) :=
          hP.and fun _ _ _ hw => hw
        apply Triple.bind (triple_depositFeeBpsOf hstored fun w hw => hS w hw.1)
        intro depositFeeBps
        cases hbuild' : buildVaultEventRows blockTimestamps depositFeeBps parsed with
        | error e => exact Triple.throw fun w hw => hT w hw.1
        | ok eventRows =>
          have heventRows := vaultEventRows_of hbuild'
          apply (triple_persistVaultEvents hstored ?_ (fun w hw => hT w hw.1)
            (fun w hw => hS w hw.1)).post
          · rintro - w ⟨⟨hw, hexec⟩, hevent⟩
            refine ⟨hw, fun p hp => ⟨fun hname => ?_, fun hname => ?_⟩⟩
            · obtain ⟨d, hd, hof⟩ := hexecRows.row p hp hname
              rw [← hof.txHash, ← hof.logIndex]
              exact hexec d hd
            · obtain ⟨d, hd, hof⟩ := heventRows.row p hp hname
              rw [← hof.txHash, ← hof.logIndex]
              exact hevent d hd
          · rintro w data hdata ⟨hw, hexec⟩
            refine ⟨hevents w data (fun r hr => ?_) hw, hexec⟩
            obtain ⟨d, hd, usd, rfl⟩ := hdata r hr
            obtain ⟨p, hp, hof⟩ := heventRows.log d hd
            exact ⟨p, hp, d, usd, hof, rfl⟩
      · intro w data failures hdata hw
        refine hexecutions w data failures (fun r hr => ?_) hw
        obtain ⟨d, hd, usd, rfl⟩ := hdata r hr
        obtain ⟨p, hp, hof⟩ := hexecRows.log d hd
        exact ⟨p, hp, d, usd, hof, rfl⟩
  · rename_i hnone
    apply Triple.pure
    intro w hw
    refine ⟨hw, fun p hp => ?_⟩
    -- without a decoded log there is nothing to store
    exact absurd (List.length_pos_of_mem hp) hnone

end Persist

/-! ## Advancing -/

/-- The cursor moves, or the tick ends as it was. -/
theorem triple_advance {Q : World → Prop} {block blockTimestamp : Nat} (hP : Stable outside R P)
    (hadvance : ∀ w, P w → Q { w with cursor := some ⟨block, some blockTimestamp⟩ })
    (hT : ∀ w, P w ∨ Q w → T w) (hS : ∀ w, P w ∨ Q w → S w) :
    Triple outside R P (IndexerCursorStore.advance block blockTimestamp) (fun _ => Q) T S := by
  apply triple_await hP
  · intro i w a w' _ hw heq
    cases hcursor : w.cursor with
    | none =>
      rw [hcursor] at heq
      cases heq
    | some c =>
      rw [hcursor] at heq
      cases heq
      exact hadvance w hw
  · intro i w _ hw _
    exact hT w (Or.inl hw)
  · rintro - w (hw | ⟨-, hw⟩)
    · exact hT w (Or.inl hw)
    · exact hT w (Or.inr hw)
  · rintro w (hw | ⟨-, hw⟩)
    · exact hS w (Or.inl hw)
    · exact hS w (Or.inr hw)

end StrategyBuilder.Indexer
