import StrategyBuilder.Indexer.Ticks
import StrategyBuilder.Indexer.VaultInterface

/-!
# Vaults that are registered late

The cursor is one for all vaults and does not go back, so a vault that is registered after the cursor has
passed its logs does not get their rows (`lateDeposit_lost`). In a run in which every vault is timely
every log since its creation has a row (`indexed_since_creation`).
-/

set_option autoImplicit false

namespace StrategyBuilder.Indexer

open StrategyBuilder.Contracts
open StrategyBuilder.Lib
open StrategyBuilder.Lib.Transition
open StrategyBuilder.Indexer.VaultInterface

/-- A vault is owed the blocks from its creation on. -/
def SinceCreation (v : VaultEntry) (n : Nat) : Prop := v.createdAtBlock ≤ n

/-- Without a cursor no block is passed. -/
theorem initial_inv_sinceCreation (cfg : Config) (H : History) (vaults : VaultMap)
    (failures : List ExecutionFailure) :
    Inv cfg H SinceCreation (fun _ => True) none (World.initial vaults none failures) := by
  refine ⟨trivial, ⟨fun r hr => ?_, fun r hr => ?_⟩, nofun, nofun⟩
  · exact absurd hr (Table.notMem_empty r)
  · exact absurd hr (Table.notMem_empty r)

/-- **In a run whose vaults are timely the rows are complete since the creation of every vault.** -/
theorem indexed_since_creation (cfg : Config) (H : History) (outside : Nat → Moment)
    (hH : Confirms cfg.confirmations H outside) (vaults : VaultMap)
    (failures : List ExecutionFailure) (events : List Event)
    (htimely : Admitted (step cfg outside) (Timely cfg H SinceCreation outside)
      (0, World.initial vaults none failures) events) :
    let s := run (step cfg outside) (0, World.initial vaults none failures) events
    ∀ c, s.2.cursor = some c → Complete cfg H SinceCreation s.2 c.lastProcessedBlock := by
  intro s
  have hinv : Inv cfg H SinceCreation (fun _ => True) none s.2 :=
    run_invariant (I := fun s : Nat × World => Inv cfg H SinceCreation (fun _ => True) none s.2)
      (fun s event hs ht => step_inv hH (fun _ _ _ => trivial) hs ht)
      (initial_inv_sinceCreation cfg H vaults failures) htimely
  exact hinv.complete

/-! ## Two runs -/

/-- The head goes from 3 to 20 after the start; the vault of the deposit is registered when the call
`i` is made. -/
def registeredAt (i t : Nat) : Moment :=
  -- the start makes four calls; the first tick makes 4 to 9
  { answeredMoment (oneLogChain depositLog) (if t < 4 then 3 else 20) with
    registered := if t = i then [vaultSeven] else [] }

set_option maxRecDepth 2000 in
/-- A vault that is registered before the tick reads the vaults. -/
theorem indexed_since_creation_deposit :
    Complete (defaultConfig 0) (oneLogChain depositLog) SinceCreation
      (run (step (defaultConfig 0) (registeredAt 4)) (0, World.initial Table.empty none [])
        [.start, .tick]).2 15 := by
  have hlate {i : Nat} {v : VaultEntry} (hv : v ∈ (registeredAt 4 i).registered) :
      i = 4 ∧ v = vaultSeven := by
    change v ∈ if i = 4 then [vaultSeven] else [] at hv
    split at hv
    · rename_i hi
      exact ⟨hi, List.mem_singleton.1 hv⟩
    · cases hv
  have hstart : (step (defaultConfig 0) (registeredAt 4)
      (0, World.initial Table.empty none []) .start).1 = 4 := by decide
  have hseeded : (step (defaultConfig 0) (registeredAt 4)
      (0, World.initial Table.empty none []) .start).2.cursor = some ⟨3, none⟩ := by decide
  have hpassed : (run (step (defaultConfig 0) (registeredAt 4)) (0, World.initial Table.empty none [])
      [.start, .tick]).2.cursor = some ⟨15, some 180000⟩ := by decide
  refine indexed_since_creation (defaultConfig 0) (oneLogChain depositLog) (registeredAt 4)
    (fun _ _ _ _ _ => rfl) Table.empty [] [.start, .tick] ⟨⟨nofun, nofun, fun _ v hv => ?_⟩,
      ⟨fun c hc i _ _ v hv => ?_, fun c _ _ i hi _ b _ v hv => ?_, fun hnone => ?_⟩, trivial⟩ _ hpassed
  · rcases hv with hv | ⟨i, -, hi, hv⟩
    · exact absurd hv (Table.notMem_empty v)
    · rw [hstart] at hi
      exact absurd (hlate hv).1 (Nat.ne_of_lt hi)
  · rw [hseeded] at hc
    cases hc
    obtain ⟨-, rfl⟩ := hlate hv
    -- the vault was created after the cursor
    intro n hn howed
    have hpassed : n ≤ 3 := hn
    have hcreated : (4 : Int) ≤ n := howed
    omega
  · rw [hstart] at hi
    have hfour := (hlate hv).1
    omega
  · rw [hseeded] at hnone
    cases hnone

/-- A vault that is registered after the cursor has passed its deposit. -/
theorem lateDeposit_lost :
    Confirms (defaultConfig 0).confirmations (oneLogChain depositLog) (registeredAt 10) ∧
      ¬ ∀ c, (run (step (defaultConfig 0) (registeredAt 10)) (0, World.initial Table.empty none [])
        [.start, .tick, .tick]).2.cursor = some c →
          Complete (defaultConfig 0) (oneLogChain depositLog) SinceCreation
            (run (step (defaultConfig 0) (registeredAt 10)) (0, World.initial Table.empty none [])
              [.start, .tick, .tick]).2 c.lastProcessedBlock := by
  refine ⟨fun _ _ _ _ _ => rfl, fun hcomplete => ?_⟩
  have hcursor : (run (step (defaultConfig 0) (registeredAt 10))
      (0, World.initial Table.empty none []) [.start, .tick, .tick]).2.cursor =
        some ⟨15, some 180000⟩ := by decide
  have hvault : vaultSeven ∈ (run (step (defaultConfig 0) (registeredAt 10))
      (0, World.initial Table.empty none []) [.start, .tick, .tick]).2.vaults.rows := by
    decide
  have hnone : ¬ (run (step (defaultConfig 0) (registeredAt 10))
      (0, World.initial Table.empty none []) [.start, .tick, .tick]).2.vaultEvents.Has
        ("0xd1", 0) := by decide
  have hcreated : SinceCreation vaultSeven 6 := by
    unfold SinceCreation
    decide
  have hindexed := hcomplete _ hcursor vaultSeven hvault 6 (by decide) hcreated depositLog
    (.deposited ⟨9⟩ 1000) (depositLog_relevant rfl)
  exact hnone hindexed

end StrategyBuilder.Indexer
