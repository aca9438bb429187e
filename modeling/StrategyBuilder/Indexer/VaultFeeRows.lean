import StrategyBuilder.Contracts.VaultFees
import StrategyBuilder.Indexer.EventMapper

/-!
# Fees on chain and in the rows

The fee that the indexer reports for a deposit or a withdrawal is the one that the vault paid
(`fees_conserved`). A `Deposited` event carries no fee, so the indexer computes it again from the deposit
rate; a `Withdrawn` event carries it.
-/

set_option autoImplicit false

namespace StrategyBuilder.Indexer

open StrategyBuilder.Contracts
open StrategyBuilder.Contracts.FeeRegistry (Registry)
open StrategyBuilder.Contracts.VaultFees
open StrategyBuilder.Lib.Js

/-- The event that the decoder reads off a log of the vault. -/
def fundsEvent : FundsLog → VaultEvent
  | .deposited token amount => .deposited token amount
  | .withdrawn token amount fee recipient => .withdrawn token amount fee recipient

/-- The row of a log: its amounts, under the place of the log. -/
structure RowReports (log : ParsedVaultLog) (eventType : VaultEventType) (token : Address)
    (amount fee : Nat) (row : VaultEventRowData) : Prop where
  eventType : row.eventType = eventType
  token : row.token = token
  amount : row.amount = amount
  feeAmount : row.feeAmount = fee
  place : row.vaultAddress = log.address ∧ row.txHash = log.txHash ∧
    row.blockNumber = log.blockNumber ∧ row.logIndex = log.logIndex

/-- Wherever the event is among logs whose blocks have a timestamp, its row reports the amounts. -/
def Reports (depositFeeBps : Nat) (event : VaultEvent) (eventType : VaultEventType) (token : Address)
    (amount fee : Nat) : Prop :=
  ∀ (blockTimestamps : Map Nat Nat) (logs : List ParsedVaultLog),
    (∀ log ∈ logs, (blockTimestamps log.blockNumber).isSome = true) →
    ∃ rows, buildVaultEventRows blockTimestamps depositFeeBps logs = .ok rows ∧
      ∀ log ∈ logs, log.event = event → ∃ row ∈ rows, RowReports log eventType token amount fee row

section Rows

variable {blockTimestamps : Map Nat Nat} {depositFeeBps : Nat}

/-- With the time of its block an event has its row. -/
theorem vaultEventRow_reports {log : ParsedVaultLog} (eventType : VaultEventType) (token : Address)
    (amount feeAmount feeBps : Nat) (h : (blockTimestamps log.blockNumber).isSome = true) :
    ∃ row, vaultEventRow blockTimestamps log eventType token amount feeAmount feeBps = .ok row ∧
      RowReports log eventType token amount feeAmount row := by
  obtain ⟨ts, hts⟩ := Option.isSome_iff_exists.1 h
  simp only [vaultEventRow, hts, Except.ok.injEq, exists_eq_left']
  exact ⟨rfl, rfl, rfl, rfl, rfl, rfl, rfl, rfl⟩

/-- What a deposit or a withdrawal puts into its row. -/
def rowOf (depositFeeBps : Nat) : VaultEvent → Option (VaultEventType × Address × Nat × Nat)
  | .deposited token amount => some (.deposit, token, amount, amount * depositFeeBps / 10000)
  | .withdrawn token amount fee _ => some (.withdraw, token, amount, fee)
  | _ => none

/-- Every deposit and every withdrawal among the logs has its row. -/
def AllReported (depositFeeBps : Nat) (logs : List ParsedVaultLog) (rows : List VaultEventRowData) :
    Prop :=
  ∀ log ∈ logs, ∀ r, rowOf depositFeeBps log.event = some r →
    ∃ row ∈ rows, RowReports log r.1 r.2.1 r.2.2.1 r.2.2.2 row

section AllReported

variable {logs : List ParsedVaultLog} {rows : List VaultEventRowData} {log : ParsedVaultLog}

theorem AllReported.cons (h : AllReported depositFeeBps logs rows)
    {r : VaultEventType × Address × Nat × Nat} (hevent : rowOf depositFeeBps log.event = some r)
    {row : VaultEventRowData} (hrow : RowReports log r.1 r.2.1 r.2.2.1 r.2.2.2 row) :
    AllReported depositFeeBps (log :: logs) (row :: rows) := by
  intro l hl r' hr'
  rcases List.mem_cons.1 hl with rfl | hl
  · rw [hevent] at hr'
    cases hr'
    exact ⟨row, List.mem_cons_self, hrow⟩
  · obtain ⟨row', hmem, hrow'⟩ := h l hl r' hr'
    exact ⟨row', List.mem_cons_of_mem _ hmem, hrow'⟩

/-- An execution or a settlement has no row here. -/
theorem AllReported.skip (h : AllReported depositFeeBps logs rows)
    (hevent : rowOf depositFeeBps log.event = none) : AllReported depositFeeBps (log :: logs) rows := by
  intro l hl r hr
  rcases List.mem_cons.1 hl with rfl | hl
  · rw [hevent] at hr
    cases hr
  · exact h l hl r hr

end AllReported

/-- With the times of their blocks all events have their rows. -/
theorem buildVaultEventRows_reports {logs : List ParsedVaultLog}
    (h : ∀ log ∈ logs, (blockTimestamps log.blockNumber).isSome = true) :
    ∃ rows, buildVaultEventRows blockTimestamps depositFeeBps logs = .ok rows ∧
      AllReported depositFeeBps logs rows := by
  induction logs with
  | nil => exact ⟨[], rfl, fun log hlog => (List.not_mem_nil hlog).elim⟩
  | cons log logs ih =>
    obtain ⟨rows, hrows, hall⟩ := ih fun l hl => h l (List.mem_cons_of_mem _ hl)
    have hts := h log List.mem_cons_self
    rw [buildVaultEventRows]
    cases hevent : log.event with
    | deposited token amount =>
      obtain ⟨row, hrow, hreports⟩ := vaultEventRow_reports .deposit token amount
        (amount * depositFeeBps / 10000) depositFeeBps hts
      exact ⟨row :: rows, by simp only [hrow, hrows]; rfl, hall.cons (by rw [hevent]; rfl) hreports⟩
    | withdrawn token amount fee recipient =>
      obtain ⟨row, hrow, hreports⟩ := vaultEventRow_reports .withdraw token amount fee
        (if 0 < amount then fee * 10000 / amount else 0) hts
      exact ⟨row :: rows, by simp only [hrow, hrows]; rfl, hall.cons (by rw [hevent]; rfl) hreports⟩
    -- an execution or a settlement
    | _ => exact ⟨rows, hrows, hall.skip (by rw [hevent]; rfl)⟩

/-- A row reports the event that it was made from. -/
theorem reports_of_rowOf {event : VaultEvent} {eventType : VaultEventType} {token : Address}
    {amount fee : Nat} (h : rowOf depositFeeBps event = some (eventType, token, amount, fee)) :
    Reports depositFeeBps event eventType token amount fee := by
  intro blockTimestamps logs hts
  obtain ⟨rows, hrows, hall⟩ := @buildVaultEventRows_reports _ depositFeeBps _ hts
  refine ⟨rows, hrows, fun log hlog hevent => ?_⟩
  exact hall log hlog _ (by rw [hevent]; exact h)

end Rows

/-- **Fees conserve tokens**, and the three ways to compute them agree. Whatever the deposit fee takes
of an amount goes from the owner to the registry, and the vault gets the rest; `withdraw` and the
transfer action split an amount in the same way, to the same fee, and leave no allowance for the registry
behind. The row of the event of the vault has that amount and that fee. -/
theorem fees_conserved (v : VaultAccount) {w : FeeRegistry.World} (hrates : RatesBounded w) :
    (∀ msg token amount w' log, deposit v msg token amount w = .ok (w', log) →
      let rate := rateFor Registry.depositFeeBps v.feeRegistry w
      Split w w' token v.owner v.self amount (amount * rate / 10000) ∧
        Reports rate (fundsEvent log) .deposit token amount (amount * rate / 10000)) ∧
    (∀ msg token amount recipient w' log, withdraw v msg token amount recipient w = .ok (w', log) →
      let rate := rateFor Registry.withdrawFeeBps v.feeRegistry w
      Split w w' token v.self recipient amount (amount * rate / 10000) ∧
        NothingApproved w w' token v.self (amount * rate / 10000) ∧
        ∀ depositFeeBps, Reports depositFeeBps (fundsEvent log) .withdraw token amount
          (amount * rate / 10000)) ∧
    (∀ msg (p : ERC20TransferAction.Params) ctx amount w' diff, p.feeRegistry = v.feeRegistry →
      ERC20TransferAction.transferAmount p ctx (w.erc20.balanceOf p.token v.self) = .ok amount →
      ERC20TransferAction.execute v.self msg p ctx w = .ok (w', diff) →
      let rate := rateFor Registry.withdrawFeeBps v.feeRegistry w
      Split w w' p.token v.self p.recipient amount (amount * rate / 10000) ∧
        NothingApproved w w' p.token v.self (amount * rate / 10000)) := by
  refine ⟨?_, ?_, ?_⟩
  · intro msg token amount w' log h rate
    obtain ⟨hlog, hsplit⟩ := deposit_split hrates h
    obtain rfl : log = .deposited token amount := hlog
    exact ⟨hsplit, reports_of_rowOf rfl⟩
  · intro msg token amount recipient w' log h rate
    obtain ⟨hlog, hsplit, hnothing⟩ := withdraw_split h
    obtain rfl : log = .withdrawn token amount (feeAt rate amount) recipient := hlog
    exact ⟨hsplit, hnothing, fun depositFeeBps => reports_of_rowOf rfl⟩
  · intro msg p ctx amount w' diff hreg hamount h rate
    -- the action is given the registry of the vault
    have hsplit := ERC20TransferAction.execute_split hrates hamount h
    rw [hreg] at hsplit
    exact hsplit

/-- The registry at 1 takes a quarter of a percent of deposits. The vault at 5 belongs to 3, which holds
1000 of every token and has allowed the vault to take them. -/
def ratedWorld : FeeRegistry.World where
  self := ⟨1⟩
  registry := { Registry.deployed ⟨2⟩ with depositFeeBps := 25, withdrawFeeBps := 50 }
  erc20 := ⟨fun _ a => if a = ⟨3⟩ then 1000 else 0, fun _ a _ => if a = ⟨3⟩ then 1000 else 0⟩
  logs := []

/-- A vault with its registry and its owner. -/
def ratedVault : VaultAccount := ⟨⟨5⟩, ⟨3⟩, ⟨1⟩⟩

theorem fees_conserved_sample : ∃ r, deposit ratedVault ⟨⟨3⟩, 1, fun _ _ => .reverted⟩ ⟨4⟩ 1000
      ratedWorld = .ok r ∧
    Split ratedWorld r.1 ⟨4⟩ ⟨3⟩ ⟨5⟩ 1000 2 ∧ Reports 25 (fundsEvent r.2) .deposit ⟨4⟩ 1000 2 := by
  have hok : ∃ r, deposit ratedVault ⟨⟨3⟩, 1, fun _ _ => .reverted⟩ ⟨4⟩ 1000 ratedWorld = .ok r :=
    ⟨_, rfl⟩
  obtain ⟨⟨w', log⟩, h⟩ := hok
  have hrates : RatesBounded ratedWorld := ⟨by decide, by decide⟩
  exact ⟨_, h, (fees_conserved ratedVault hrates).1 _ _ _ _ _ h⟩

end StrategyBuilder.Indexer
