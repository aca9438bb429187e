import StrategyBuilder.Indexer.FailureIngest
import StrategyBuilder.Lib.Transition

/-!
# Reports and successes that interleave

Any number of reports are in progress at a time, each before one of its database steps; between two
steps the indexer may persist successes. The indexer lags behind the chain, so a success that it
persists may be older than a failure that was reported.

No attempt is lost or counted twice (`attempts_counted`). A row is resolved only by a later success
where every step is timely (`open_while_unresolved`), and a step that is not breaks that
(`step_resolvedLater`).
-/

set_option autoImplicit false

namespace StrategyBuilder.Indexer

open StrategyBuilder.Lib
open StrategyBuilder.Lib.Js
open StrategyBuilder.Lib.Transition

/-! ## The system -/

/-- The tables, the calls in progress, the automations of the writes that were committed, and the rows
that calls returned. -/
structure IngestWorld where
  vaults : Map String String
  executions : Table ExecutionRow ExecutionRow.key
  failures : FailureTable
  calls : List IngestCall
  committed : List (String × Nat)
  returned : List FailureRow

/-- Reports, steps of calls in progress, and successes that are stored. -/
inductive IngestEvent where
  /-- A report arrives. -/
  | receive (dto : FailureIngestDto)
  /-- The `k`-th call in progress takes its next database step. -/
  | next (k : Nat) (moment : IngestMoment)
  /-- The transaction of `persist` with new successes. -/
  | persist (rows : List ExecutionRow) (now : Nat)

namespace IngestWorld

/-- Before the first report. -/
def start (vaults : Map String String) (executions : Table ExecutionRow ExecutionRow.key) :
    IngestWorld :=
  ⟨vaults, executions, FailureTable.empty, [], [], []⟩

/-- The calls in progress after the `k`-th one has gone on. -/
def settle (w : IngestWorld) (k : Nat) : Progress → IngestWorld
  | .running call => { w with calls := w.calls.set k call }
  | .returned row => { w with calls := w.calls.eraseIdx k, returned := w.returned ++ [row] }
  | .badRequest _ => { w with calls := w.calls.eraseIdx k }
  | .failed => { w with calls := w.calls.eraseIdx k }

/-- One event. -/
def step (services : IngestServices) (w : IngestWorld) : IngestEvent → IngestWorld
  | .receive dto =>
      match ingest services dto with
      | .running call => { w with calls := w.calls ++ [call] }
      | _ => w
  | .next k m =>
      match w.calls[k]? with
      | none => w
      | some call =>
          match call.next services w.vaults m w.failures with
          | (progress, failures, written) =>
              settle { w with
                failures := failures
                committed := w.committed ++ written.toList } k progress
  | .persist rows now =>
      { w with
        executions := w.executions.insertMany rows
        failures := w.failures.resolve rows now }

@[simp] theorem settle_committed (w : IngestWorld) (k : Nat) (p : Progress) :
    (w.settle k p).committed = w.committed := by
  cases p <;> rfl

end IngestWorld

/-! ## What a write does -/

namespace FailureTable

/-- The rows after one has changed. -/
theorem mem_update {t : FailureTable} {id : String} {g : FailureRow → FailureRow}
    {hid : ∀ f, (g f).id = f.id} {hopen : ∀ f, (g f).isOpen = f.isOpen}
    {hautomation : ∀ f, (g f).automation = f.automation} {f : FailureRow} :
    f ∈ t.update id g hid hopen hautomation ↔
      (f ∈ t ∧ f.id ≠ id) ∨ ∃ f' ∈ t, f'.id = id ∧ g f' = f :=
  @Table.mem_update _ _ _ _ t.table id g hid f

/-- What a `create` that is not refused does. -/
theorem create_eq_some {t t' : FailureTable} {f : FailureRow} (h : t.create f = some t') :
    t'.table.rows = t.table.rows ++ [f] ∧ (f.isOpen = true → t.findOpen f.automation = none) := by
  rw [create] at h
  split at h
  · cases h
  · rename_i hid
    split at h
    · cases h
    · rename_i hindex
      cases h
      constructor
      · exact congrArg Table.rows (dif_neg hid)
      · intro hopen
        apply List.find?_eq_none.2
        intro f' hf' hfound
        rw [Bool.and_eq_true, decide_eq_true_eq] at hfound
        exact hindex ⟨hopen, mem_openAutomations.2 ⟨f', hf', hfound⟩⟩

theorem mem_create {t t' : FailureTable} {f f' : FailureRow} (h : t.create f = some t') :
    f' ∈ t' ↔ f' ∈ t ∨ f' = f := by
  rw [← mem_table, ← Table.mem_rows, (create_eq_some h).1, List.mem_append, List.mem_singleton]
  rfl

theorem mem_resolve {t : FailureTable} {rows : List ExecutionRow} {now : Nat} {f : FailureRow} :
    f ∈ t.resolve rows now ↔ ∃ f' ∈ t,
      { f' with toExecutionFailure := resolveFailures rows now f'.toExecutionFailure } = f :=
  List.mem_map

theorem findOpen_eq_some {t : FailureTable} {p : String × Nat} {f : FailureRow}
    (h : t.findOpen p = some f) : f ∈ t ∧ f.isOpen = true ∧ f.automation = p := by
  have hfound := List.find?_some h
  rw [Bool.and_eq_true, decide_eq_true_eq] at hfound
  exact ⟨List.mem_of_find?_eq_some h, hfound⟩

end FailureTable

/-- The row is open and one of the successes is its automation's. -/
def FailureRow.ResolvedBy (f : FailureRow) (rows : List ExecutionRow) : Prop :=
  f.resolvedAt = none ∧ ∃ r ∈ rows, r.automation = f.automation

/-- A failure with a success is resolved. -/
theorem resolveFailures_of_resolvedBy {rows : List ExecutionRow} {f : FailureRow} (now : Nat)
    (h : f.ResolvedBy rows) : resolveFailures rows now f.toExecutionFailure =
      { f.toExecutionFailure with resolvedAt := some now } := by
  obtain ⟨hopen, r, hr, hautomation⟩ := h
  apply if_pos
  refine ⟨hopen, List.any_eq_true.2 ⟨r, hr, ?_⟩⟩
  rw [ExecutionRow.automation, FailureRow.automation, Prod.mk.injEq] at hautomation
  simp only [hautomation, decide_true, Bool.and_self]

/-- A failure without one stays as it is. -/
theorem resolveFailures_of_not {rows : List ExecutionRow} {f : FailureRow} (now : Nat)
    (h : ¬ f.ResolvedBy rows) :
    resolveFailures rows now f.toExecutionFailure = f.toExecutionFailure := by
  apply if_neg
  rintro ⟨hopen, hany⟩
  obtain ⟨r, hr, hsame⟩ := List.any_eq_true.1 hany
  rw [Bool.and_eq_true, decide_eq_true_eq, decide_eq_true_eq] at hsame
  exact h ⟨hopen, r, hr, Prod.ext hsame.1 hsame.2⟩

/-- A write creates a row, or it updates one that is there. -/
theorem FailureReport.write_cases {r : FailureReport} {found : Option FailureRow} {id : String}
    {t t' : FailureTable} {row : FailureRow} (h : r.write found id t = some (t', row)) :
    ∃ failedAt, r.failedAt = some failedAt ∧
      ((found = none ∧ row = r.row failedAt id ∧ t.create row = some t') ∨
        ∃ f₀ f, found = some f₀ ∧ f ∈ t ∧ f.id = f₀.id ∧ row = r.apply failedAt f₀ f ∧
          t' = t.update f₀.id (r.apply failedAt f₀) (fun _ => rfl) (fun _ => rfl) fun _ => rfl) := by
  rw [FailureReport.write] at h
  cases hat : r.failedAt with
  | none =>
    rw [hat] at h
    cases h
  | some failedAt =>
    refine ⟨failedAt, rfl, ?_⟩
    rw [hat] at h
    cases found with
    | none =>
      obtain ⟨t₁, ht₁, heq⟩ := Option.map_eq_some_iff.1 h
      cases heq
      exact Or.inl ⟨rfl, rfl, ht₁⟩
    | some f₀ =>
      obtain ⟨f, hf, heq⟩ := Option.map_eq_some_iff.1 h
      cases heq
      obtain ⟨hmem, hid⟩ := Table.find?_eq_some.1 hf
      exact Or.inr ⟨f₀, f, rfl, hmem, hid, rfl, rfl⟩

/-- The row that a write returns is in the table. -/
theorem FailureReport.write_row {r : FailureReport} {found : Option FailureRow} {id : String}
    {t t' : FailureTable} {row : FailureRow} (h : r.write found id t = some (t', row)) : row ∈ t' := by
  obtain ⟨failedAt, -, ⟨-, -, hcreate⟩ | ⟨f₀, f, -, hf, hid, rfl, rfl⟩⟩ := FailureReport.write_cases h
  · exact (FailureTable.mem_create hcreate).2 (Or.inr rfl)
  · exact FailureTable.mem_update.2 (Or.inr ⟨f, hf, hid, rfl⟩)

/-- Rows that are there stay, with their ids and automations. -/
theorem FailureReport.write_kept {r : FailureReport} {found : Option FailureRow} {id : String}
    {t t' : FailureTable} {row : FailureRow} (h : r.write found id t = some (t', row)) {f : FailureRow}
    (hf : f ∈ t) : ∃ f' ∈ t', f'.id = f.id ∧ f'.automation = f.automation := by
  obtain ⟨failedAt, -, ⟨-, -, hcreate⟩ | ⟨f₀, f₁, -, -, -, -, rfl⟩⟩ := FailureReport.write_cases h
  · exact ⟨f, (FailureTable.mem_create hcreate).2 (Or.inl hf), rfl, rfl⟩
  · by_cases hid : f.id = f₀.id
    · exact ⟨r.apply failedAt f₀ f, FailureTable.mem_update.2 (Or.inr ⟨f, hf, hid, rfl⟩), rfl, rfl⟩
    · exact ⟨f, FailureTable.mem_update.2 (Or.inl ⟨hf, hid⟩), rfl, rfl⟩

/-- No failure disappears. -/
theorem FailureTable.resolve_kept {t : FailureTable} (rows : List ExecutionRow) (now : Nat)
    {f : FailureRow} (hf : f ∈ t) :
    ∃ f' ∈ t.resolve rows now, f'.id = f.id ∧ f'.automation = f.automation := by
  refine ⟨_, FailureTable.mem_resolve.2 ⟨f, hf, rfl⟩, rfl, ?_⟩
  by_cases h : f.ResolvedBy rows
  · rw [resolveFailures_of_resolvedBy now h]
    rfl
  · rw [resolveFailures_of_not now h]

/-- What the next step of a call does: its write is committed, or the table stays as it is. -/
theorem IngestCall.next_cases (services : IngestServices) (vaults : Map String String)
    (m : IngestMoment) (t : FailureTable) (call : IngestCall) :
    (∃ r found t' row, call = .write r found ∧ committed m.fate = true ∧
        r.write found m.id t = some (t', row) ∧
        (call.next services vaults m t = (.returned row, t', some r.automation) ∨
          call.next services vaults m t = (.failed, t', some r.automation))) ∨
      ∃ progress, call.next services vaults m t = (progress, t, none) ∧
        (∀ row, progress ≠ .returned row) ∧
        ∀ r f₀, progress = .running (.write r (some f₀)) → t.findOpen r.automation = some f₀ := by
  cases call with
  | findVault dto vaultAddress =>
    right
    by_cases hfate : m.fate = .answered
    · cases hvault : vaults vaultAddress with
      | none =>
        refine ⟨.badRequest "VAULT_NOT_FOUND", ?_, fun _ => nofun, fun _ _ => nofun⟩
        simp only [IngestCall.next, hfate, hvault, if_true]
      | some vaultId =>
        refine ⟨.running (.findOpen (report services m.now vaultId dto)), ?_, fun _ => nofun,
          fun _ _ => nofun⟩
        simp only [IngestCall.next, hfate, hvault, if_true]
    · refine ⟨.failed, ?_, fun _ => nofun, fun _ _ => nofun⟩
      simp only [IngestCall.next, hfate, if_false]
  | findOpen report =>
    right
    by_cases hfate : m.fate = .answered
    -- the open row is read here, and written in a later step
    · refine ⟨.running (.write report (t.findOpen report.automation)), ?_, fun _ => nofun, ?_⟩
      · simp only [IngestCall.next, hfate, if_true]
      · intro r f₀ heq
        rw [Progress.running.injEq, IngestCall.write.injEq] at heq
        rw [← heq.1, heq.2]
    · refine ⟨.failed, ?_, fun _ => nofun, fun _ _ => nofun⟩
      simp only [IngestCall.next, hfate, if_false]
  | write report found =>
    cases hwrite : report.write found m.id t with
    | none =>
      refine Or.inr ⟨.failed, ?_, fun _ => nofun, fun _ _ => nofun⟩
      simp only [IngestCall.next, hwrite]
    | some written =>
      obtain ⟨t', row⟩ := written
      -- a call that is not answered may have written
      by_cases hcommitted : committed m.fate = true
      · refine Or.inl ⟨report, found, t', row, rfl, hcommitted, hwrite, ?_⟩
        by_cases hfate : m.fate = .answered
        · left
          simp only [IngestCall.next, hwrite, if_pos hcommitted, if_pos hfate]
        · right
          simp only [IngestCall.next, hwrite, if_pos hcommitted, if_neg hfate]
      · refine Or.inr ⟨.failed, ?_, fun _ => nofun, fun _ _ => nofun⟩
        simp only [IngestCall.next, hwrite, if_neg hcommitted]

/-! ## What a step does -/

namespace IngestWorld

/-- A step that writes no table. -/
structure Quiet (w w' : IngestWorld) : Prop where
  failures : w'.failures = w.failures
  executions : w'.executions = w.executions
  committed : w'.committed = w.committed
  returned : w'.returned = w.returned
  calls : ∀ r f₀, .write r (some f₀) ∈ w'.calls →
    .write r (some f₀) ∈ w.calls ∨ w.failures.findOpen r.automation = some f₀

/-- A step that commits the write of a call. -/
structure Written (w w' : IngestWorld) (r : FailureReport) (found : Option FailureRow)
    (row : FailureRow) : Prop where
  call : .write r found ∈ w.calls
  failures : ∃ id, r.write found id w.failures = some (w'.failures, row)
  executions : w'.executions = w.executions
  committed : w'.committed = w.committed ++ [r.automation]
  returned : ∀ r' ∈ w'.returned, r' ∈ w.returned ∨ r' = row
  calls : ∀ c ∈ w'.calls, c ∈ w.calls

/-- Nothing has changed. -/
theorem Quiet.refl (w : IngestWorld) : Quiet w w := by
  constructor
  · rfl
  · rfl
  · rfl
  · rfl
  · intro r f₀ h
    exact Or.inl h

/-- A call that goes on without a write. -/
theorem settle_quiet {w : IngestWorld} {k : Nat} {p : Progress} (hreturned : ∀ row, p ≠ .returned row)
    (hfound : ∀ r f₀, p = .running (.write r (some f₀)) →
      w.failures.findOpen r.automation = some f₀) : Quiet w (w.settle k p) := by
  have herased : Quiet w { w with calls := w.calls.eraseIdx k } := by
    refine ⟨rfl, rfl, rfl, rfl, fun r f₀ h => ?_⟩
    exact Or.inl (List.mem_of_mem_eraseIdx h)
  cases p with
  | running call =>
    refine ⟨rfl, rfl, rfl, rfl, fun r f₀ h => ?_⟩
    rcases List.mem_or_eq_of_mem_set h with h | h
    · exact Or.inl h
    · exact Or.inr (hfound r f₀ (congrArg Progress.running h.symm))
  | returned row => exact absurd rfl (hreturned row)
  | badRequest message => exact herased
  | failed => exact herased

/-- **What a step does**: it writes no table, it commits the write of a call, or it persists
successes. -/
theorem step_cases (services : IngestServices) (w : IngestWorld) (event : IngestEvent) :
    Quiet w (step services w event) ∨
      (∃ k m r found row, event = .next k m ∧ w.calls[k]? = some (.write r found) ∧
        Indexer.committed m.fate = true ∧ Written w (step services w event) r found row) ∨
      ∃ rows now, event = .persist rows now := by
  cases event with
  | receive dto =>
    left
    rw [step, ingest]
    cases services.getAddress dto.vaultAddress with
    | none => exact Quiet.refl w
    | some vaultAddress =>
      refine ⟨rfl, rfl, rfl, rfl, fun r f₀ h => ?_⟩
      rcases List.mem_append.1 h with h | h
      · exact Or.inl h
      · cases List.mem_singleton.1 h
  | persist rows now => exact Or.inr (Or.inr ⟨rows, now, rfl⟩)
  | next k m =>
    cases hcall : w.calls[k]? with
    | none =>
      left
      simp only [step, hcall]
      exact Quiet.refl w
    | some call =>
      -- the call either commits its write or moves on without one
      rcases IngestCall.next_cases services w.vaults m w.failures call with
        ⟨r, found, t', row, rfl, hcommitted, hwrite, hnext⟩ | ⟨p, hnext, hreturned, hfound⟩
      · refine Or.inr (Or.inl ⟨k, m, r, found, row, rfl, hcall, hcommitted, ?_⟩)
        have hmem := List.mem_of_getElem? hcall
        rcases hnext with hnext | hnext
        · simp only [step, hcall, hnext]
          refine ⟨hmem, ⟨m.id, hwrite⟩, rfl, rfl, fun r' hr' => ?_, fun c hc => ?_⟩
          · rcases List.mem_append.1 hr' with hr' | hr'
            · exact Or.inl hr'
            · exact Or.inr (List.mem_singleton.1 hr')
          · exact List.mem_of_mem_eraseIdx hc
        · simp only [step, hcall, hnext]
          refine ⟨hmem, ⟨m.id, hwrite⟩, rfl, rfl, fun r' hr' => Or.inl hr', fun c hc => ?_⟩
          exact List.mem_of_mem_eraseIdx hc
      · left
        simp only [step, hcall, hnext, Option.toList_none, List.append_nil]
        exact settle_quiet hreturned hfound

/-- Rows that are there stay, with their ids and automations. -/
theorem step_kept (services : IngestServices) (w : IngestWorld) (event : IngestEvent) {f : FailureRow}
    (hf : f ∈ w.failures) :
    ∃ f' ∈ (step services w event).failures, f'.id = f.id ∧ f'.automation = f.automation := by
  rcases step_cases services w event with
    hquiet | ⟨k, m, r, found, row, -, -, -, hwritten⟩ | ⟨rows, now, rfl⟩
  · rw [hquiet.failures]
    exact ⟨f, hf, rfl, rfl⟩
  · obtain ⟨id, hwrite⟩ := hwritten.failures
    exact FailureReport.write_kept hwrite hf
  · exact FailureTable.resolve_kept rows now hf

/-- The rows that calls have read or returned are still there. -/
structure Sound (w : IngestWorld) : Prop where
  found : ∀ r f₀, .write r (some f₀) ∈ w.calls →
    ∃ f ∈ w.failures, f.id = f₀.id ∧ f.automation = r.automation
  returned : ∀ r ∈ w.returned, ∃ f ∈ w.failures, f.id = r.id ∧ f.automation = r.automation

/-- The tables are sound at the start. -/
theorem start_sound (vaults : Map String String)
    (executions : Table ExecutionRow ExecutionRow.key) : (start vaults executions).Sound := by
  constructor
  · intro r f₀ h
    cases h
  · intro r h
    cases h

/-- A step keeps the tables sound. -/
theorem step_sound (services : IngestServices) (w : IngestWorld) (event : IngestEvent)
    (h : w.Sound) : (step services w event).Sound := by
  -- a row with these is there after the step if it was there before
  have hkept {id : String} {p : String × Nat}
      (hrow : ∃ f ∈ w.failures, f.id = id ∧ f.automation = p) :
      ∃ f ∈ (step services w event).failures, f.id = id ∧ f.automation = p := by
    obtain ⟨f, hf, hid, hautomation⟩ := hrow
    obtain ⟨f', hf', hid', hautomation'⟩ := step_kept services w event hf
    exact ⟨f', hf', hid'.trans hid, hautomation'.trans hautomation⟩
  rcases step_cases services w event with
    hquiet | ⟨k, m, r, found, row, -, -, -, hwritten⟩ | ⟨rows, now, rfl⟩
  · constructor
    · intro r f₀ hcall
      rcases hquiet.calls r f₀ hcall with hcall | hfound
      · exact hkept (h.found r f₀ hcall)
      · obtain ⟨hmem, -, hautomation⟩ := FailureTable.findOpen_eq_some hfound
        exact hkept ⟨f₀, hmem, rfl, hautomation⟩
    · intro r hr
      rw [hquiet.returned] at hr
      exact hkept (h.returned r hr)
  · constructor
    · intro r' f₀ hcall
      exact hkept (h.found r' f₀ (hwritten.calls _ hcall))
    · intro r' hr'
      rcases hwritten.returned r' hr' with hr' | rfl
      · exact hkept (h.returned r' hr')
      · obtain ⟨id, hwrite⟩ := hwritten.failures
        exact ⟨r', FailureReport.write_row hwrite, rfl, rfl⟩
  · constructor
    · intro r f₀ hcall
      exact hkept (h.found r f₀ hcall)
    · intro r hr
      exact hkept (h.returned r hr)

end IngestWorld

/-! ## Attempts -/

/-- The sum of `attemptCount` over the rows of an automation. -/
def FailureTable.attempts (t : FailureTable) (p : String × Nat) : Nat :=
  ((t.table.rows.filter fun f => f.automation = p).map FailureRow.attemptCount).sum

/-- What a row adds to the attempts of an automation. -/
def FailureRow.attemptsFor (f : FailureRow) (p : String × Nat) : Nat :=
  if f.automation = p then f.attemptCount else 0

namespace FailureTable

/-- The attempts of an automation are those of its rows. -/
theorem attempts_eq (t : FailureTable) (p : String × Nat) :
    t.attempts p = (t.table.rows.map fun f => f.attemptsFor p).sum := by
  rw [attempts]
  induction t.table.rows with
  | nil => rfl
  | cons f rows ih =>
    rw [List.filter_cons, List.map_cons, List.sum_cons, ← ih]
    by_cases h : f.automation = p
    · rw [if_pos (decide_eq_true h), List.map_cons, List.sum_cons, FailureRow.attemptsFor, if_pos h]
    · rw [if_neg (by simpa using h), FailureRow.attemptsFor, if_neg h, Nat.zero_add]

/-- To resolve failures keeps the attempts. -/
theorem attempts_resolve (t : FailureTable) (rows : List ExecutionRow) (now : Nat)
    (p : String × Nat) : (t.resolve rows now).attempts p = t.attempts p := by
  rw [attempts_eq, attempts_eq]
  have hrow (f : FailureRow) : ({ f with
      toExecutionFailure := resolveFailures rows now f.toExecutionFailure } : FailureRow).attemptsFor p =
        f.attemptsFor p := by
    by_cases h : f.ResolvedBy rows
    · rw [resolveFailures_of_resolvedBy now h]
      rfl
    · rw [resolveFailures_of_not now h]
  have hrows : (t.resolve rows now).table.rows = t.table.rows.map fun f =>
      { f with toExecutionFailure := resolveFailures rows now f.toExecutionFailure } := rfl
  rw [hrows, List.map_map]
  exact congrArg List.sum (List.map_congr_left fun f _ => hrow f)

/-- **A write adds one attempt** to its automation. -/
theorem attempts_write {t t' : FailureTable} {r : FailureReport} {found : Option FailureRow}
    {id : String} {row : FailureRow} (h : r.write found id t = some (t', row))
    (hfound : ∀ f₀, found = some f₀ → ∃ f ∈ t, f.id = f₀.id ∧ f.automation = r.automation)
    (p : String × Nat) : t'.attempts p = t.attempts p + if r.automation = p then 1 else 0 := by
  obtain ⟨failedAt, -, ⟨-, rfl, hcreate⟩ | ⟨f₀, f, rfl, hf, hid, -, rfl⟩⟩ :=
    FailureReport.write_cases h
  · rw [attempts_eq, attempts_eq, (create_eq_some hcreate).1, List.map_append, List.sum_append,
      List.map_singleton, List.sum_singleton]
    rfl
  · -- the row that is updated is the automation's
    obtain ⟨f', hf', hid', hautomation⟩ := hfound f₀ rfl
    have hsame : f = f' := Table.eq_of_key hf hf' (hid.trans hid'.symm)
    subst hsame
    rw [attempts_eq, attempts_eq, ← hautomation]
    have hadd : (r.apply failedAt f₀ f).attemptsFor p =
        f.attemptsFor p + if f.automation = p then 1 else 0 := by
      rw [FailureRow.attemptsFor, FailureRow.attemptsFor]
      by_cases hp : f.automation = p
      · rw [if_pos hp, if_pos hp, if_pos (show (r.apply failedAt f₀ f).automation = p from hp)]
        rfl
      · rw [if_neg hp, if_neg hp, if_neg (show (r.apply failedAt f₀ f).automation ≠ p from hp)]
    have hsum := Table.sum_map_update (f := r.apply failedAt f₀) (w := fun f => f.attemptsFor p)
      (fun _ => rfl) hf hadd
    rw [hid] at hsum
    exact hsum

end FailureTable

/-- The attempts of every automation are its committed writes. -/
structure IngestWorld.Counted (w : IngestWorld) : Prop extends IngestWorld.Sound w where
  counted : ∀ p, w.failures.attempts p = w.committed.count p

namespace IngestWorld

theorem start_counted (vaults : Map String String)
    (executions : Table ExecutionRow ExecutionRow.key) : (start vaults executions).Counted := by
  refine ⟨start_sound vaults executions, fun p => ?_⟩
  rfl

/-- A step keeps the count of the reports. -/
theorem step_counted (services : IngestServices) (w : IngestWorld) (event : IngestEvent)
    (h : w.Counted) : (step services w event).Counted := by
  refine ⟨step_sound services w event h.toSound, fun p => ?_⟩
  rcases step_cases services w event with
    hquiet | ⟨k, m, r, found, row, -, -, -, hwritten⟩ | ⟨rows, now, rfl⟩
  · rw [hquiet.failures, hquiet.committed]
    exact h.counted p
  · obtain ⟨id, hwrite⟩ := hwritten.failures
    -- what the call found when it read is still there, with the automation of the report
    have hfound (f₀ : FailureRow) (heq : found = some f₀) :
        ∃ f ∈ w.failures, f.id = f₀.id ∧ f.automation = r.automation := by
      apply h.found r f₀
      rw [← heq]
      exact hwritten.call
    rw [FailureTable.attempts_write hwrite hfound, hwritten.committed, List.count_append, h.counted p,
      List.count_singleton]
    simp only [beq_iff_eq]
  · exact (FailureTable.attempts_resolve w.failures rows now p).trans (h.counted p)

end IngestWorld

/-- The open rows of an automation are at most one. -/
theorem FailureTable.open_le_one (t : FailureTable) (p : String × Nat) :
    (t.table.rows.filter fun f => f.isOpen && f.automation = p).length ≤ 1 := by
  have hcount := List.nodup_iff_count_le_one.1 t.openUnique p
  rw [openAutomations, List.count_eq_countP, List.countP_map, List.countP_filter] at hcount
  rw [← List.countP_eq_length_filter]
  refine le_of_eq_of_le (List.countP_congr fun f _ => ?_) hcount
  simp only [Function.comp_apply, Bool.and_eq_true, decide_eq_true_eq, beq_iff_eq]
  exact and_comm

/-- **No attempt is lost**: in every run no automation has two open rows, and the attempts of its rows
are as many as its committed writes. -/
theorem attempts_counted (services : IngestServices) (vaults : Map String String)
    (executions : Table ExecutionRow ExecutionRow.key) (events : List IngestEvent) (vaultId : String)
    (automationId : Nat) :
    ((run (IngestWorld.step services) (.start vaults executions) events).failures.table.rows.filter
        fun f => f.isOpen && f.automation = (vaultId, automationId)).length ≤ 1 ∧
      (run (IngestWorld.step services) (.start vaults executions) events).failures.attempts
          (vaultId, automationId) =
        (run (IngestWorld.step services) (.start vaults executions) events).committed.count
          (vaultId, automationId) := by
  have hcounted : (run (IngestWorld.step services) (.start vaults executions) events).Counted :=
    run_invariant (fun w event h _ => IngestWorld.step_counted services w event h)
      (IngestWorld.start_counted vaults executions) (admitted_true _ _ events)
  exact ⟨FailureTable.open_le_one _ _, hcounted.counted _⟩

/-! ## Resolved by later successes -/

namespace IngestWorld

/-- A success of the automation at a time or later has been persisted. -/
def Succeeded (w : IngestWorld) (p : String × Nat) (time : Nat) : Prop :=
  ∃ s ∈ w.executions, s.automation = p ∧ time ≤ s.blockTimestamp

/-- A resolved row has a success that is not earlier than its last failure. -/
def ResolvedLater (w : IngestWorld) : Prop :=
  ∀ f ∈ w.failures, f.resolvedAt ≠ none → w.Succeeded f.automation f.lastFailedAt

/-- A row is open exactly while it is unresolved: without calls in progress a resolved row has a later
success, and what a call has reported is open or has one. -/
structure OpenWhileUnresolved (w : IngestWorld) : Prop where
  resolved : w.calls = [] → w.ResolvedLater
  reported : ∀ r ∈ w.returned, (∃ f ∈ w.failures, f.automation = r.automation ∧ f.resolvedAt = none) ∨
    ∃ f ∈ w.failures, f.id = r.id ∧ w.Succeeded f.automation f.lastFailedAt

/-- The step is timely: successes resolve a row only if one of them, or an earlier one, is not earlier
than the row's last failure, and a report is written to a resolved row only if such a success of the
reported failure is there. -/
def Timely (w : IngestWorld) : IngestEvent → Prop
  | .receive _ => True
  | .next k m => ∀ r f₀ failedAt, w.calls[k]? = some (.write r (some f₀)) →
      Indexer.committed m.fate = true → r.failedAt = some failedAt →
      ∀ f ∈ w.failures, f.id = f₀.id → f.resolvedAt ≠ none → w.Succeeded f.automation failedAt
  | .persist rows _ => ∀ f ∈ w.failures, f.ResolvedBy rows →
      ∃ s ∈ w.executions.insertMany rows, s.automation = f.automation ∧ f.lastFailedAt ≤ s.blockTimestamp

/-- Where a success is stored, it resolves the failures before it exactly if it is timely. -/
theorem resolvedLater_resolve {w : IngestWorld} (services : IngestServices) (rows : List ExecutionRow)
    (now : Nat) (h : w.ResolvedLater) :
    (step services w (.persist rows now)).ResolvedLater ↔ w.Timely (.persist rows now) := by
  constructor
  · intro hlater f hf hresolved
    have hrow := hlater _ (FailureTable.mem_resolve.2 ⟨f, hf, rfl⟩)
    rw [resolveFailures_of_resolvedBy now hresolved] at hrow
    exact hrow (Option.some_ne_none now)
  · intro htimely f hf hresolved
    obtain ⟨f', hf', rfl⟩ := FailureTable.mem_resolve.1 hf
    by_cases hby : f'.ResolvedBy rows
    · rw [resolveFailures_of_resolvedBy now hby]
      exact htimely f' hf' hby
    · rw [resolveFailures_of_not now hby] at hresolved ⊢
      obtain ⟨s, hs, hautomation, htime⟩ := h f' hf' hresolved
      exact ⟨s, Table.mem_insertMany_of_mem rows hs, hautomation, htime⟩

/-- A write to a row that is there keeps it open, or resolved with its new time. -/
theorem resolvedLater_write {w w' : IngestWorld} {r : FailureReport} {found : Option FailureRow}
    {row : FailureRow} (h : w.ResolvedLater) (hwritten : Written w w' r found row) :
    w'.ResolvedLater ↔ ∀ f₀ failedAt, found = some f₀ → r.failedAt = some failedAt →
      ∀ f ∈ w.failures, f.id = f₀.id → f.resolvedAt ≠ none → w.Succeeded f.automation failedAt := by
  have hsucceeded (p : String × Nat) (time : Nat) : w'.Succeeded p time ↔ w.Succeeded p time := by
    rw [Succeeded, hwritten.executions]
    rfl
  obtain ⟨id, hwrite⟩ := hwritten.failures
  obtain ⟨failedAt, hat, ⟨rfl, rfl, hcreate⟩ | ⟨f₀, f₁, rfl, hf₁, hid₁, -, hfailures⟩⟩ :=
    FailureReport.write_cases hwrite
  · -- a new row is open
    constructor
    · intro _ f₀ failedAt' hfound
      cases hfound
    · intro _ f hf hresolved
      rcases (FailureTable.mem_create hcreate).1 hf with hf | rfl
      · exact (hsucceeded _ _).2 (h f hf hresolved)
      · exact absurd rfl hresolved
  -- an update keeps `resolvedAt` of the row that is there by now, and moves its last failure
  · rw [ResolvedLater, hfailures]
    constructor
    · intro hlater f₀' failedAt' hfound hat' f hf hid hresolved
      cases hfound
      rw [hat, Option.some.injEq] at hat'
      subst hat'
      have hrow := hlater (r.apply failedAt f₀ f) (FailureTable.mem_update.2 (Or.inr ⟨f, hf, hid, rfl⟩))
      exact (hsucceeded _ _).1 (hrow hresolved)
    · intro htimely f hf hresolved
      rcases FailureTable.mem_update.1 hf with ⟨hf, -⟩ | ⟨f', hf', hid, rfl⟩
      · exact (hsucceeded _ _).2 (h f hf hresolved)
      · exact (hsucceeded _ _).2 (htimely f₀ failedAt rfl hat f' hf' hid hresolved)

/-- A call whose row is there writes. -/
theorem step_committed (services : IngestServices) {w : IngestWorld} {k : Nat} {m : IngestMoment}
    {r : FailureReport} {f₀ f : FailureRow} {failedAt : Nat}
    (hcall : w.calls[k]? = some (.write r (some f₀))) (hcommitted : Indexer.committed m.fate = true)
    (hat : r.failedAt = some failedAt) (hf : f ∈ w.failures) (hid : f.id = f₀.id) :
    (step services w (.next k m)).committed = w.committed ++ [r.automation] := by
  have hfind : w.failures.table.find? f₀.id = some f := Table.find?_eq_some.2 ⟨hf, hid⟩
  have hwrite : r.write (some f₀) m.id w.failures = some (w.failures.update f₀.id
      (r.apply failedAt f₀) (fun _ => rfl) (fun _ => rfl) fun _ => rfl, r.apply failedAt f₀ f) := by
    simp only [FailureReport.write, hat, hfind, Option.map_some]
  simp only [step, hcall, IngestCall.next, hwrite, if_pos hcommitted, settle_committed]
  rfl

/-- **What keeps resolved rows right**: after a step they have later successes exactly if the step was
timely. -/
theorem step_resolvedLater {w : IngestWorld} (services : IngestServices) (event : IngestEvent)
    (h : w.ResolvedLater) : (step services w event).ResolvedLater ↔ w.Timely event := by
  -- a step that writes no table changes nothing
  have hquietLater (hquiet : Quiet w (step services w event)) :
      (step services w event).ResolvedLater := by
    intro f hf hresolved
    rw [hquiet.failures] at hf
    rw [Succeeded, hquiet.executions]
    exact h f hf hresolved
  rcases step_cases services w event with
    hquiet | ⟨k, m, r, found, row, rfl, hcall, hcommitted, hwritten⟩ | ⟨rows, now, rfl⟩
  · cases event with
    | receive dto => exact iff_of_true (hquietLater hquiet) trivial
    | persist rows now => exact resolvedLater_resolve services rows now h
    | next k m =>
      apply iff_of_true (hquietLater hquiet)
      -- a call that finds its row and is committed would not have been quiet
      intro r f₀ failedAt hcall hcommitted hat f hf hid
      have hlength := congrArg List.length
        ((step_committed services hcall hcommitted hat hf hid).symm.trans hquiet.committed)
      simp only [List.length_append, List.length_singleton] at hlength
      omega
  · rw [resolvedLater_write h hwritten]
    constructor
    · intro hrow r' f₀ failedAt hcall' _ hat
      rw [hcall, Option.some.injEq, IngestCall.write.injEq] at hcall'
      obtain ⟨rfl, rfl⟩ := hcall'
      exact hrow f₀ failedAt rfl hat
    · intro htimely f₀ failedAt hfound hat
      subst hfound
      exact htimely r f₀ failedAt hcall hcommitted hat
  · exact resolvedLater_resolve services rows now h

/-- What runs of timely steps keep. -/
structure Right (w : IngestWorld) : Prop extends IngestWorld.Sound w where
  later : w.ResolvedLater

theorem start_right (vaults : Map String String)
    (executions : Table ExecutionRow ExecutionRow.key) : (start vaults executions).Right := by
  refine ⟨start_sound vaults executions, fun f hf => ?_⟩
  exact absurd hf (FailureTable.notMem_empty f)

theorem step_right (services : IngestServices) (w : IngestWorld) (event : IngestEvent) (h : w.Right)
    (htimely : w.Timely event) : (step services w event).Right :=
  ⟨step_sound services w event h.toSound, (step_resolvedLater services event h.later).2 htimely⟩

/-- A failure without a success is open. -/
theorem Right.openWhileUnresolved {w : IngestWorld} (h : w.Right) : w.OpenWhileUnresolved := by
  refine ⟨fun _ => h.later, fun r hr => ?_⟩
  obtain ⟨f, hf, hid, hautomation⟩ := h.returned r hr
  by_cases hopen : f.resolvedAt = none
  · exact Or.inl ⟨f, hf, hautomation, hopen⟩
  · exact Or.inr ⟨f, hf, hid, h.later f hf hopen⟩

end IngestWorld

/-- **A failure row is open exactly while it is unresolved**, in every run of timely steps. -/
theorem open_while_unresolved (services : IngestServices) (vaults : Map String String)
    (executions : Table ExecutionRow ExecutionRow.key) (events : List IngestEvent)
    (h : Admitted (IngestWorld.step services) IngestWorld.Timely (.start vaults executions) events) :
    (run (IngestWorld.step services) (.start vaults executions) events).OpenWhileUnresolved := by
  have hright : (run (IngestWorld.step services) (.start vaults executions) events).Right :=
    run_invariant (IngestWorld.step_right services) (IngestWorld.start_right vaults executions) h
  exact hright.openWhileUnresolved

section Sample

/-- One vault and one event time. -/
def sampleServices : IngestServices where
  getAddress a := if a = "0x1111111111111111111111111111111111111111" then some a else none
  parseDate text := if text = "2026-06-05T17:00:00.000Z" then some 1780678800000 else none
  decodeRevert _ fallback := fallback.getD "Execution reverted"

/-- One vault. -/
def sampleVaults : Map String String :=
  Map.empty.set "0x1111111111111111111111111111111111111111" "v1"

/-- A report of an execution that failed. -/
def sampleReport : FailureIngestDto where
  vaultAddress := "0x1111111111111111111111111111111111111111"
  automationId := 5
  txHash := none
  executorAddress := "0x1111111111111111111111111111111111111111"
  errorData := none
  errorMessageFallback := some "reverted"
  failurePath := .execution
  timestamp := some "2026-06-05T17:00:00.000Z"

/-- A success of the automation that is reported. -/
def sampleSuccess (blockTimestamp : Nat) : ExecutionRow where
  vaultId := "v1"
  automationId := 5
  executorAddress := Contracts.Address.zero
  txHash := "0x0a"
  blockNumber := 10
  logIndex := 0
  blockTimestamp := blockTimestamp
  gasCompAmount := none
  gasCompToken := none
  gasCompUsd := none

/-- The failure is reported, and then a success is persisted. -/
def sampleEvents (blockTimestamp : Nat) : List IngestEvent :=
  [.receive sampleReport, .next 0 ⟨.answered, 1780678801000, "f1"⟩,
    .next 0 ⟨.answered, 1780678801000, "f1"⟩, .next 0 ⟨.answered, 1780678801000, "f1"⟩,
    .persist [sampleSuccess blockTimestamp] 1780678815000]

end Sample

/-- The success is a second younger than the failure. -/
theorem open_while_unresolved_sample : (run (IngestWorld.step sampleServices)
    (.start sampleVaults Table.empty) (sampleEvents 1780678801000)).OpenWhileUnresolved := by
  refine open_while_unresolved sampleServices sampleVaults Table.empty (sampleEvents 1780678801000)
    ⟨trivial, ?_, ?_, ?_, ?_, trivial⟩
  · intro r f₀ failedAt hcall
    cases hcall
  · intro r f₀ failedAt hcall
    cases hcall
  · intro r f₀ failedAt hcall
    cases hcall
  · intro f hf _
    refine ⟨sampleSuccess 1780678801000, List.mem_singleton_self _, ?_⟩
    have hrow := List.mem_singleton.1 hf
    subst hrow
    decide

/-- The indexer lags: it persists a success that is a minute older than the failure, and the row is
resolved. -/
theorem lagging_success_resolves : ¬ (run (IngestWorld.step sampleServices)
    (.start sampleVaults Table.empty) (sampleEvents 1780678740000)).OpenWhileUnresolved := by
  intro h
  obtain ⟨s, hs, -, htime⟩ := h.resolved rfl _ (List.mem_singleton_self _) (Option.some_ne_none _)
  have hsuccess : s = sampleSuccess 1780678740000 := List.mem_singleton.1 hs
  subst hsuccess
  exact absurd htime (by decide)

end StrategyBuilder.Indexer
