import StrategyBuilder.Indexer.Ticks
import StrategyBuilder.Indexer.VaultInterface

/-!
# Exactly once

One indexer, a fixed set of vaults, and any pattern of failing calls and stopped processes: every log of
a vault from the initial cursor on has exactly one row (`indexed_exactly_once`). From a cursor on the
invariant owes every vault the blocks after it, whatever was before.
-/

set_option autoImplicit false

namespace StrategyBuilder.Indexer

open StrategyBuilder.Contracts
open StrategyBuilder.Lib
open StrategyBuilder.Lib.Transition
open StrategyBuilder.Indexer.VaultInterface

section

variable {cfg : Config} {H : History} {owed : VaultEntry → Nat → Prop} {J : VaultMap → Prop}
  {low : Option Nat} {outside : Nat → Moment}

/-- Without registrations a step is timely, once there is a cursor or where nothing is owed. -/
theorem timely_of_fixed (hfixed : ∀ t, (outside t).registered = []) {s : Nat × World} {event : Event}
    (hseed : s.2.cursor = none → ∀ v n, ¬ owed v n) : Timely cfg H owed outside s event := by
  constructor
  · intro c _ i _ _ v hv
    rw [hfixed] at hv
    cases hv
  · intro c _ _ i _ _ b _ v hv
    rw [hfixed] at hv
    cases hv
  · intro hnone v _ n _ howed
    exact absurd howed (hseed hnone v n)

theorem kept_of_fixed (hfixed : ∀ t, (outside t).registered = []) : Kept J outside := by
  intro i V hV
  rw [hfixed]
  exact hV

/-- What a run keeps when no vault is registered in it. -/
theorem run_inv_of_fixed (hH : Confirms cfg.confirmations H outside)
    (hfixed : ∀ t, (outside t).registered = []) {s : Nat × World} (h : Inv cfg H owed J low s.2)
    (hseed : low = none → ∀ v n, ¬ owed v n) (events : List Event) :
    Inv cfg H owed J low (run (step cfg outside) s events).2 := by
  refine run_invariant (I := fun s : Nat × World => Inv cfg H owed J low s.2)
    (fun s event hs (_ : True) => ?_) h (admitted_true _ _ _)
  refine step_inv hH (kept_of_fixed hfixed) hs (timely_of_fixed hfixed fun hnone => ?_)
  apply hseed
  -- a block that the cursor has reached can only be there with a cursor
  cases hlow : low with
  | none => rfl
  | some b =>
    obtain ⟨c, hc, -⟩ := hs.floor b hlow
    rw [hnone] at hc
    cases hc

/-- Before there is a cursor nothing is owed. -/
theorem initial_inv (vaults : VaultMap) (cursor : Option Cursor) (failures : List ExecutionFailure) :
    Inv cfg H (fun _ _ => False) (· = vaults) none (World.initial vaults cursor failures) := by
  refine ⟨rfl, ⟨fun r hr => ?_, fun r hr => ?_⟩, fun c _ v _ n _ howed => howed.elim, nofun⟩
  · exact absurd hr (Table.notMem_empty r)
  · exact absurd hr (Table.notMem_empty r)

/-- From a cursor on the blocks after it are owed. -/
theorem Inv.fromCursor {w : World} {c : Cursor} (h : Inv cfg H (fun _ _ => False) J none w)
    (hc : w.cursor = some c) :
    Inv cfg H (fun _ n => c.lastProcessedBlock < n) J (some c.lastProcessedBlock) w := by
  refine ⟨h.vaults, h.sound, fun c' hc' v _ n hn howed => ?_, fun b hb => ?_⟩
  · rw [hc] at hc'
    cases hc'
    exact absurd howed (Nat.not_lt.2 hn)
  · cases hb
    exact ⟨c, hc, Nat.le_refl _⟩

end

/-- Exactly one row of a table has the key. -/
def OneRow {Row : Type} {key : Row → String × Nat} (table : Table Row key) (k : String × Nat) : Prop :=
  ∃! r, r ∈ table ∧ key r = k

theorem oneRow_of_has {Row : Type} {key : Row → String × Nat} {table : Table Row key}
    {k : String × Nat} (h : table.Has k) : OneRow table k := by
  obtain ⟨r, hr, hk⟩ := h
  exact ⟨r, ⟨hr, hk⟩, fun r' hr' => Table.eq_of_key hr'.1 hr (hr'.2.trans hk.symm)⟩

/-- The log has exactly one row. -/
def IndexedOnce (w : World) (l : RawLog) (event : VaultEvent) : Prop :=
  match event.name with
  | .automationExecuted => OneRow w.executions (l.transactionHash, l.index)
  | _ => OneRow w.vaultEvents (l.transactionHash, l.index)

/-- What is indexed is indexed once. -/
theorem Indexed.once {w : World} {l : RawLog} {event : VaultEvent} (h : Indexed w l event) :
    IndexedOnce w l event := by
  rw [Indexed] at h
  rw [IndexedOnce]
  cases hname : event.name with
  | automationExecuted =>
    rw [hname] at h
    exact oneRow_of_has h
  | gasCompSettled =>
    rw [hname] at h
    exact oneRow_of_has h
  | deposited =>
    rw [hname] at h
    exact oneRow_of_has h
  | withdrawn =>
    rw [hname] at h
    exact oneRow_of_has h

/-- **The indexer indexes exactly once**: `s` is any state of a run and `s'` any later one. -/
theorem indexed_exactly_once (cfg : Config) (H : History) (outside : Nat → Moment)
    (hH : Confirms cfg.confirmations H outside) (vaults : VaultMap)
    (hfixed : ∀ t, (outside t).registered = []) (cursor : Option Cursor)
    (failures : List ExecutionFailure) (before after : List Event) :
    let s := run (step cfg outside) (0, World.initial vaults cursor failures) before
    let s' := run (step cfg outside) s after
    (∀ c, s.2.cursor = some c →
      ∃ c', s'.2.cursor = some c' ∧ c.lastProcessedBlock ≤ c'.lastProcessedBlock) ∧
    (s'.2.executions.rows.map ExecutionRow.key).Nodup ∧
    (s'.2.vaultEvents.rows.map VaultEventRow.key).Nodup ∧
    (∀ r ∈ s'.2.executions, r.Stands cfg H vaults) ∧
    (∀ r ∈ s'.2.vaultEvents, r.Stands cfg H vaults) ∧
    ∀ c c', s.2.cursor = some c → s'.2.cursor = some c' → ∀ v ∈ vaults, ∀ n,
      c.lastProcessedBlock < n → n ≤ c'.lastProcessedBlock → ∀ l event,
        Relevant cfg H v.address n l event → IndexedOnce s'.2 l event := by
  intro s s'
  have hs : Inv cfg H (fun _ _ => False) (· = vaults) none s.2 :=
    run_inv_of_fixed hH hfixed (initial_inv vaults cursor failures) (fun _ _ _ h => h) before
  have hs' : Inv cfg H (fun _ _ => False) (· = vaults) none s'.2 :=
    run_inv_of_fixed hH hfixed hs (fun _ _ _ h => h) after
  have hvaults : s'.2.vaults = vaults := hs'.vaults
  -- what holds from a cursor of `s` on
  have hfrom : ∀ c, s.2.cursor = some c → Inv cfg H (fun _ n => c.lastProcessedBlock < n)
      (· = vaults) (some c.lastProcessedBlock) s'.2 := by
    intro c hc
    exact run_inv_of_fixed hH hfixed (hs.fromCursor hc) nofun after
  refine ⟨fun c hc => (hfrom c hc).floor _ rfl, s'.2.executions.nodup, s'.2.vaultEvents.nodup,
    fun r hr => ?_, fun r hr => ?_, fun c c' hc hc' v hv n hlt hle l event hl => ?_⟩
  · rw [← hvaults]
    exact hs'.sound.executions r hr
  · rw [← hvaults]
    exact hs'.sound.vaultEvents r hr
  · rw [← hvaults] at hv
    exact ((hfrom c hc).complete c' hc' v hv n hle hlt l event hl).once

/-! ## A tick that fails after its effect -/

/-- The row of the deposit is stored, but the answer of the database is lost. -/
def lostAnswer (t : Nat) : Moment :=
  -- call 11 is the `createMany` of the first tick
  { answeredMoment (oneLogChain depositLog) 20 with
    fate := fun _ => if t = 11 then .failed true else .answered }

set_option maxRecDepth 2000 in
/-- The next tick does not store the deposit again. -/
theorem indexed_exactly_once_deposit :
    IndexedOnce (run (step (defaultConfig 0) lostAnswer) (run (step (defaultConfig 0) lostAnswer)
      (0, World.initial onlyVaultSeven none []) [.start]) [.tick, .tick]).2 depositLog
        (.deposited ⟨9⟩ 1000) := by
  obtain ⟨-, -, -, -, -, honce⟩ := indexed_exactly_once (defaultConfig 0) (oneLogChain depositLog)
    lostAnswer (fun _ _ _ _ _ => rfl) onlyVaultSeven (fun _ => rfl) none [] [.start] [.tick, .tick]
  have hseeded : (run (step (defaultConfig 0) lostAnswer)
      (0, World.initial onlyVaultSeven none []) [.start]).2.cursor = some ⟨3, none⟩ := by decide
  have hpassed : (run (step (defaultConfig 0) lostAnswer) (run (step (defaultConfig 0) lostAnswer)
      (0, World.initial onlyVaultSeven none []) [.start]) [.tick, .tick]).2.cursor =
        some ⟨15, some 180000⟩ := by decide
  exact honce _ _ hseeded hpassed vaultSeven (List.mem_singleton_self _) 6 (by decide) (by decide)
    _ _ (depositLog_relevant rfl)

end StrategyBuilder.Indexer
