import StrategyBuilder.Contracts.VaultSteps

/-!
# The keeper

`execute-automations.ts`: a pass over the automations of one vault. The keeper reads each automation,
asks `isTriggerMet`, executes what is met, and reports to the ingest endpoint what has thrown. Other
accounts may transact between two automations, and every call of the node may throw (`Moment`).

A check that reverts does not make `isTriggerMet` revert, so it is not among what throws
(`broken_trigger_reported_iff`).
-/

set_option autoImplicit false

namespace StrategyBuilder.Contracts.Scripts

open StrategyBuilder.Contracts
open StrategyBuilder.Contracts.Vault
open StrategyBuilder.Lib.Abi
open StrategyBuilder.Lib.Transition

/-- What the keeper reads off an error. `rawData` is `error.data ?? error.info.error.data`. -/
structure Thrown where
  rawData : Option String
  shortMessage : Option String
  message : Option String
deriving DecidableEq, Repr

/-- Where the script fails. -/
inductive FailurePath where
  | execution
  | triggerCheck
deriving DecidableEq, Repr

/-- The body of a report, without its timestamp. -/
structure Report where
  vaultAddress : Address
  automationId : Nat
  executorAddress : Address
  failurePath : FailurePath
  txHash : Option String
  errorData : Option String
  errorMessageFallback : String
deriving DecidableEq, Repr

/-- The keeper's configuration for one vault. -/
structure Keeper where
  vaultAddress : Address
  executor : Address
  ingestSecret : Option String

/-- `INGEST_SECRET` is set, and not empty. -/
def Keeper.reporting (k : Keeper) : Bool :=
  match k.ingestSecret with
  | none => false
  | some secret => secret ≠ ""

/-- What happens while the keeper handles one automation: the transactions of others since the last
one, which calls of the node throw, and the worlds in which check and execution run. -/
structure Moment where
  others : List Tx
  readThrows : Bool
  checkThrows : Option Thrown
  checkEnv : Env
  sendThrows : Option Thrown
  executeEnv : Env
  txHash : String
  waitThrows : Option Thrown
  /-- The error that a contract's revert is thrown as. -/
  reverted : Revert VaultError → Thrown

/-- The vault, the reports that were posted, and whether `main` has ended with an error. -/
structure Pass where
  vault : State
  reports : List Report
  aborted : Bool

/-- `reportFailure` -/
def Keeper.reportFailure (k : Keeper) (id : Nat) (failurePath : FailurePath) (txHash : Option String)
    (error : Thrown) : List Report :=
  if k.reporting then
    [{ vaultAddress := k.vaultAddress
       automationId := id
       executorAddress := k.executor
       failurePath := failurePath
       txHash := txHash
       errorData := error.rawData
       errorMessageFallback :=
        (error.shortMessage.orElse fun _ => error.message).getD "reverted" }]
  else []

/-- `await vault.isTriggerMet(id)` -/
def Moment.isTriggerMet (m : Moment) (id : Nat) (v : State) : Except Thrown Bool :=
  match m.checkThrows with
  | some e => .error e
  | none =>
    match Vault.isTriggerMet m.checkEnv id v with
    | .ok met => .ok met
    | .error r => .error (m.reverted r)

/-- `executeAutomation` and `tx.wait()`: the vault after it, and what is reported. -/
def Keeper.execute (k : Keeper) (m : Moment) (id : Nat) (v : State) : State × List Report :=
  match m.sendThrows with
  | some e => (v, k.reportFailure id .execution none e)
  | none =>
    match executeAutomation m.executeEnv k.executor id v with
    | .error r => (v, k.reportFailure id .execution (some m.txHash) (m.reverted r))
    | .ok v' =>
      match m.waitThrows with
      | some e => (v', k.reportFailure id .execution (some m.txHash) e)
      | none => (v', [])

/-- What the keeper does with one automation that it has read. -/
def Keeper.handle (k : Keeper) (m : Moment) (id : Nat) (a : Automation) (v : State) :
    State × List Report :=
  if a.active = false then (v, [])
  else if a.ownerOnly = true then (v, [])
  else match m.isTriggerMet id v with
    | .error e => (v, k.reportFailure id .triggerCheck none e)
    | .ok false => (v, [])
    | .ok true => k.execute m id v

/-- One round of the loop over the automations. -/
def Keeper.round (k : Keeper) (ms : Nat → Moment) (p : Pass) (id : Nat) : Pass :=
  if p.aborted then p
  else
    let v := run step p.vault (ms id).others
    if (ms id).readThrows then { p with vault := v, aborted := true }
    else match getAutomation id v with
      | .error _ => { p with vault := v, aborted := true }
      | .ok a =>
        let r := k.handle (ms id) id a v
        { p with vault := r.1, reports := p.reports ++ r.2 }

/-- The loop over the automations with these ids. -/
def Keeper.loop (k : Keeper) (ms : Nat → Moment) (v : State) (ids : List Nat) : Pass :=
  ids.foldl (k.round ms) ⟨v, [], false⟩

/-- A pass over the vault, once `automationCount` is read. -/
def Keeper.pass (k : Keeper) (ms : Nat → Moment) (v : State) : Pass :=
  k.loop ms v (List.range v.automationCount)

/-- The vault when the keeper comes to an automation. -/
def Keeper.vaultAt (k : Keeper) (ms : Nat → Moment) (v : State) (id : Nat) : State :=
  run step (k.loop ms v (List.range id)).vault (ms id).others

/-! ## What a pass reports -/

section Rounds

variable {k : Keeper} {ms : Nat → Moment} {p : Pass} {v : State} {id : Nat}

/-- A report is of the automation that failed. -/
theorem reportFailure_id {path : FailurePath} {txHash : Option String} {e : Thrown} :
    ∀ r ∈ k.reportFailure id path txHash e, r.automationId = id := by
  intro r hr
  rw [Keeper.reportFailure] at hr
  split_ifs at hr
  · rw [List.mem_singleton.1 hr]
  · cases hr

/-- An execution reports its own automation. -/
theorem execute_id {m : Moment} : ∀ r ∈ (k.execute m id v).2, r.automationId = id := by
  rw [Keeper.execute]
  cases m.sendThrows with
  | some e => exact reportFailure_id
  | none =>
    cases executeAutomation m.executeEnv k.executor id v with
    | error r => exact reportFailure_id
    | ok v' =>
      cases m.waitThrows with
      | some e => exact reportFailure_id
      | none => exact List.forall_mem_nil _

/-- A round reports its own automation. -/
theorem handle_id {m : Moment} {a : Automation} :
    ∀ r ∈ (k.handle m id a v).2, r.automationId = id := by
  rw [Keeper.handle]
  split_ifs
  · exact List.forall_mem_nil _
  · exact List.forall_mem_nil _
  · cases m.isTriggerMet id v with
    | error e => exact reportFailure_id
    | ok met =>
      cases met with
      | true => exact execute_id
      | false => exact List.forall_mem_nil _

/-- No transaction takes an automation away. -/
theorem step_automationCount (v : State) (tx : Tx) :
    v.automationCount ≤ (step v tx).automationCount := by
  rcases step_effect v tx with h | h
  · rw [h]
  generalize step v tx = v' at h
  cases h with
  | created => exact Nat.le_succ _
  | stepsUpdated => exact Nat.le_refl _
  | activeChanged => exact Nat.le_refl _
  | contextSet _ h _ => exact Nat.le_of_eq h.automationCount.symm
  | contextSlotSet _ _ h _ => exact Nat.le_of_eq h.automationCount.symm
  | minFeeDeposit _ h _ => exact Nat.le_of_eq h.automationCount.symm
  | executed _ _ h _ => exact Nat.le_of_eq h.automationCount.symm

theorem run_automationCount (v : State) (txs : List Tx) :
    v.automationCount ≤ (run step v txs).automationCount :=
  le_run (I := fun _ => True) (fun _ _ _ _ => trivial) (fun s tx _ _ => step_automationCount s tx)
    trivial (admitted_true step v txs)

/-- No automation disappears. -/
theorem handle_automationCount {m : Moment} {a : Automation} :
    v.automationCount ≤ (k.handle m id a v).1.automationCount := by
  rw [Keeper.handle]
  split_ifs
  · exact Nat.le_refl _
  · exact Nat.le_refl _
  · cases m.isTriggerMet id v with
    | error e => exact Nat.le_refl _
    | ok met =>
      cases met with
      | false => exact Nat.le_refl _
      | true =>
        change _ ≤ (k.execute m id v).1.automationCount
        rw [Keeper.execute]
        cases m.sendThrows with
        | some e => exact Nat.le_refl _
        | none =>
          cases hexec : executeAutomation m.executeEnv k.executor id v with
          | error r => exact Nat.le_refl _
          | ok v' =>
            obtain ⟨s, -, hsame, -⟩ := executeAutomation_ok hexec
            cases m.waitThrows with
            | some e => exact Nat.le_of_eq hsame.automationCount.symm
            | none => exact Nat.le_of_eq hsame.automationCount.symm

/-- **One round**: it ends the pass where its read throws, and else adds what handling the automation
reports. -/
theorem round_eq (hid : id < p.vault.automationCount) (hp : p.aborted = false) :
    k.round ms p id =
      let w := run step p.vault (ms id).others
      if (ms id).readThrows then ⟨w, p.reports, true⟩
      else
        let r := k.handle (ms id) id (w.automations id) w
        ⟨r.1, p.reports ++ r.2, false⟩ := by
  have hlt : id < (run step p.vault (ms id).others).automationCount :=
    Nat.lt_of_lt_of_le hid (run_automationCount p.vault (ms id).others)
  have hget : getAutomation id (run step p.vault (ms id).others) =
      .ok ((run step p.vault (ms id).others).automations id) := by
    rw [getAutomation, revertIf_of_not (Nat.not_le_of_lt hlt)]
    rfl
  simp only [Keeper.round, hp, hget]
  rfl

theorem round_aborted (hp : p.aborted = true) : k.round ms p id = p := by
  rw [Keeper.round, hp, if_pos rfl]

/-- The loop invariant: the automations are still there, the pass goes on exactly where no read has
thrown, and the reports are about automations that were handled. -/
structure Handled (ms : Nat → Moment) (n done : Nat) (p : Pass) : Prop where
  automationCount : n ≤ p.vault.automationCount
  aborted : p.aborted = false ↔ ∀ j < done, (ms j).readThrows = false
  reports : ∀ r ∈ p.reports, r.automationId < done

/-- A round handles one more. -/
theorem Handled.round {n done : Nat} (h : Handled ms n done p) (hdone : done < n) :
    Handled ms n (done + 1) (k.round ms p done) := by
  have hsucc : (∀ j < done + 1, (ms j).readThrows = false) ↔
      (∀ j < done, (ms j).readThrows = false) ∧ (ms done).readThrows = false :=
    Nat.forall_lt_succ_right
  cases hp : p.aborted with
  | true =>
    rw [round_aborted hp]
    refine ⟨h.automationCount, ?_, fun r hr => Nat.lt_succ_of_lt (h.reports r hr)⟩
    rw [hsucc, ← h.aborted, hp]
    simp
  | false =>
    -- what others do in between never takes an automation away
    have hcount := run_automationCount p.vault (ms done).others
    have hle : n ≤ (run step p.vault (ms done).others).automationCount :=
      Nat.le_trans h.automationCount hcount
    rw [round_eq (Nat.lt_of_lt_of_le hdone h.automationCount) hp]
    cases hread : (ms done).readThrows with
    | true =>
      refine ⟨hle, ?_, fun r hr => Nat.lt_succ_of_lt (h.reports r hr)⟩
      rw [hsucc, hread]
      simp
    | false =>
      refine ⟨Nat.le_trans hle handle_automationCount, ?_, fun r hr => ?_⟩
      · rw [hsucc, ← h.aborted, hp, hread]
        simp
      · rcases List.mem_append.1 hr with hr | hr
        · exact Nat.lt_succ_of_lt (h.reports r hr)
        · rw [handle_id r hr]
          exact Nat.lt_succ_self done

theorem loop_succ (k : Keeper) (ms : Nat → Moment) (v : State) (n : Nat) :
    k.loop ms v (List.range (n + 1)) = k.round ms (k.loop ms v (List.range n)) n := by
  rw [Keeper.loop, List.range_succ, List.foldl_append]
  rfl

/-- The loop over the first `done` automations. -/
theorem loop_handled (k : Keeper) (ms : Nat → Moment) (v : State) {done : Nat}
    (hdone : done ≤ v.automationCount) :
    Handled ms v.automationCount done (k.loop ms v (List.range done)) := by
  induction done with
  | zero =>
    refine ⟨Nat.le_refl _, ?_, List.forall_mem_nil _⟩
    simp [Keeper.loop]
  | succ done ih =>
    rw [loop_succ]
    exact (ih (by omega)).round (by omega)

/-- A report about an automation comes from the round of that automation. -/
theorem loop_reports_iff {n : Nat} (hn : id < n)
    (hle : n ≤ v.automationCount) :
    (∃ r ∈ (k.loop ms v (List.range n)).reports, r.automationId = id) ↔
      ∃ r ∈ (k.loop ms v (List.range (id + 1))).reports, r.automationId = id := by
  induction n, hn using Nat.le_induction with
  | base => rfl
  | succ n hn ih =>
    rw [← ih (by omega), loop_succ]
    have hdone := loop_handled k ms v (Nat.le_trans (Nat.le_succ n) hle)
    generalize k.loop ms v (List.range n) = p at hdone
    cases hp : p.aborted with
    | true => rw [round_aborted hp]
    | false =>
      rw [round_eq (Nat.lt_of_lt_of_le hle hdone.automationCount) hp]
      cases (ms n).readThrows with
      | true => rfl
      | false =>
        constructor
        · rintro ⟨r, hr, hrid⟩
          rcases List.mem_append.1 hr with hr | hr
          · exact ⟨r, hr, hrid⟩
          -- a later round reports under its own id
          · have := handle_id r hr
            omega
        · rintro ⟨r, hr, hrid⟩
          exact ⟨r, List.mem_append_left _ hr, hrid⟩

end Rounds

/-! ## Broken triggers -/

/-- The check of the automation's first step reverts. -/
def CheckReverts (env : Env) (v : State) (id : Nat) : Prop :=
  ∃ first reason, (v.automations id).steps[0]? = some first ∧
    env.staticcall 0 first.target first.selector first.data v.ctx = .failure reason

section

variable {v : State} {id : Nat}

/-- **The vault swallows the revert of a check.** -/
theorem isTriggerMet_of_checkReverts {env : Env} (hpublic : (v.automations id).ownerOnly = false)
    (h : CheckReverts env v id) : isTriggerMet env id v = .ok false := by
  obtain ⟨first, reason, hfirst, hcall⟩ := h
  have hread : (readAt (v.automations id).steps 0 : Result VaultError Step) = .ok first :=
    readAt_eq_ok.2 hfirst
  rw [isTriggerMet]
  by_cases hcount : v.automationCount ≤ id
  · rw [if_pos hcount]
    rfl
  rw [if_neg hcount]
  by_cases hinactive : (v.automations id).active = false ∨ (v.automations id).steps.length = 0
  · simp only [if_pos hinactive]
    rfl
  · simp only [if_neg hinactive, bind_eq_ok, hread, hpublic, loadCtx_eq, Bool.false_eq_true,
      false_and, if_false, Except.ok.injEq]
    refine ⟨first, rfl, v.ctx, rfl, ?_⟩
    rw [hcall]
    rfl

/-- What the keeper reports about an automation whose check reverts. -/
theorem handle_checkReverts {k : Keeper} {m : Moment} (hactive : (v.automations id).active = true)
    (hpublic : (v.automations id).ownerOnly = false) (h : CheckReverts m.checkEnv v id) :
    k.handle m id (v.automations id) v =
      (v, m.checkThrows.elim [] (k.reportFailure id .triggerCheck none)) := by
  rw [Keeper.handle, if_neg (by simp [hactive]), if_neg (by simp [hpublic]), Moment.isTriggerMet]
  cases m.checkThrows with
  | some e => rfl
  | none =>
    rw [isTriggerMet_of_checkReverts hpublic h]
    rfl

/-- **When a broken trigger is reported.** The check of an active public automation reverts as the
keeper comes to it. Then the pass reports the automation if and only if the node fails the call of
`isTriggerMet` for a reason of its own, no read has ended the pass before, and there is a secret. -/
theorem broken_trigger_reported_iff (k : Keeper) (ms : Nat → Moment) (v : State) {id : Nat}
    (hid : id < v.automationCount)
    (hactive : ((k.vaultAt ms v id).automations id).active = true)
    (hpublic : ((k.vaultAt ms v id).automations id).ownerOnly = false)
    (hreverts : CheckReverts (ms id).checkEnv (k.vaultAt ms v id) id) :
    (∃ r ∈ (k.pass ms v).reports, r.automationId = id) ↔
      (∀ j ≤ id, (ms j).readThrows = false) ∧ (ms id).checkThrows ≠ none ∧ k.reporting = true := by
  rw [Keeper.pass, loop_reports_iff hid (Nat.le_refl _), loop_succ]
  have hdone := loop_handled k ms v (Nat.le_of_lt hid)
  have hreads : (∀ j ≤ id, (ms j).readThrows = false) ↔
      (k.loop ms v (List.range id)).aborted = false ∧ (ms id).readThrows = false := by
    rw [hdone.aborted, ← Nat.forall_lt_succ_right]
    simp only [Nat.lt_succ_iff]
  rw [hreads]
  rw [Keeper.vaultAt] at hactive hpublic hreverts
  generalize k.loop ms v (List.range id) = p at hdone hactive hpublic hreverts
  -- nothing was reported about the automation before its own round
  have hbefore : ¬ ∃ r ∈ p.reports, r.automationId = id := by
    rintro ⟨r, hr, hrid⟩
    have := hdone.reports r hr
    omega
  cases hp : p.aborted with
  | true =>
    rw [round_aborted hp]
    simpa using hbefore
  | false =>
    rw [round_eq (Nat.lt_of_lt_of_le hid hdone.automationCount) hp]
    cases hread : (ms id).readThrows with
    | true => simpa using hbefore
    | false =>
      simp only [Bool.false_eq_true, if_false, handle_checkReverts hactive hpublic hreverts,
        true_and]
      cases hthrows : (ms id).checkThrows with
      | none => simpa using hbefore
      | some e =>
        simp only [Option.elim_some, ne_eq, reduceCtorEq, not_false_eq_true, true_and]
        rw [Keeper.reportFailure]
        cases hk : k.reporting with
        | false => simpa using hbefore
        | true => simp

end

/-- A world in which every call of a contract reverts. -/
def revertingEnv : Env :=
  { sampleEnv [] with staticcall := fun _ _ _ _ _ => .failure [] }

/-- Nobody else transacts, and the node throws this when it is asked for the trigger. -/
def brokenTrigger (checkThrows : Option Thrown) : Moment where
  others := []
  readThrows := false
  checkThrows := checkThrows
  checkEnv := revertingEnv
  sendThrows := none
  executeEnv := revertingEnv
  txHash := "0x01"
  waitThrows := none
  reverted := fun _ => ⟨none, some "execution reverted", none⟩

/-- A keeper with a secret. -/
def sampleKeeper : Keeper := ⟨⟨9⟩, ⟨2⟩, some "secret"⟩

theorem sampleVault_checkReverts : CheckReverts revertingEnv sampleVault 0 :=
  ⟨⟨.condition, ⟨7⟩, 0xd89f1e36, DONE, DONE, []⟩, [], rfl, rfl⟩

theorem broken_trigger_reported_iff_sample :
    let ms : Nat → Moment := fun _ => brokenTrigger (some ⟨none, some "timeout", none⟩)
    (∃ r ∈ (sampleKeeper.pass ms sampleVault).reports, r.automationId = 0) ↔
      (∀ j ≤ 0, (ms j).readThrows = false) ∧ (ms 0).checkThrows ≠ none ∧
        sampleKeeper.reporting = true :=
  broken_trigger_reported_iff sampleKeeper _ sampleVault (by decide) rfl rfl
    sampleVault_checkReverts

/-- With a node that never throws, a keeper with a secret reports nothing about a trigger whose check
reverts. -/
theorem broken_trigger_unreported :
    ¬ ∀ (k : Keeper) (ms : Nat → Moment) (v : State) (id : Nat), k.reporting = true →
      (∀ j, (ms j).readThrows = false ∧ (ms j).checkThrows = none ∧ (ms j).sendThrows = none ∧
        (ms j).waitThrows = none) →
      id < v.automationCount →
      ((k.vaultAt ms v id).automations id).active = true →
      ((k.vaultAt ms v id).automations id).ownerOnly = false →
      CheckReverts (ms id).checkEnv (k.vaultAt ms v id) id →
      ∃ r ∈ (k.pass ms v).reports, r.automationId = id := by
  intro h
  obtain ⟨r, hr, -⟩ := h sampleKeeper (fun _ => brokenTrigger none) sampleVault 0 (by decide)
    (fun _ => ⟨rfl, rfl, rfl, rfl⟩) (by decide) rfl rfl sampleVault_checkReverts
  have hnone : (sampleKeeper.pass (fun _ => brokenTrigger none) sampleVault).reports = [] := rfl
  rw [hnone] at hr
  cases hr

end StrategyBuilder.Contracts.Scripts
