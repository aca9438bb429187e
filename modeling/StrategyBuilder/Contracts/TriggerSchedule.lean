import StrategyBuilder.Contracts.Conditions
import StrategyBuilder.Contracts.VaultSteps
import Mathlib.Algebra.Group.Nat.Defs

/-!
# Trigger schedules

What the updatable conditions promise over whole runs of a vault, where step 0 of an automation is
one of them. A transaction fires the trigger when it executes the automation, step 0 answers `true`
and the execution succeeds (`fired`); `WrittenByOther` is a change of the trigger's slot that is not
the work of the automation's own `afterExecution`.

Between two transactions that write it, a slot keeps what the trigger left there
(`kept_or_written`). The laws of the three conditions follow: a timer with a positive delay fires
once per start, an interval that advances keeps its rate, and the cooldown of the rebalance trigger
is respected.
-/

set_option autoImplicit false

namespace StrategyBuilder.Contracts.Vault

open StrategyBuilder.Contracts
open StrategyBuilder.Lib
open StrategyBuilder.Lib.Abi
open StrategyBuilder.Lib.Transition

universe u

/-! ## The trigger of an execution -/

/-- Step 0 of the automation `id` is the condition `c` with the parameters `data`. -/
def TriggerIs {ε : Type u} (c : UpdatableCondition ε) (id : Nat) (data : Bytes) (v : State)
    (tx : Tx) : Prop :=
  ∃ s, (v.automations id).steps[0]? = some s ∧ s.stepType = .condition ∧
    s.selector = checkSelector ∧ s.data = data ∧ Hosts tx.env s.target c

/-- The transaction is an execution of `id` that succeeds and whose trigger fired. -/
def fired (id : Nat) (v : State) (tx : Tx) : Bool :=
  decide (tx.op = .executeAutomation id) && (call v tx).isOk &&
    match traverse tx.env tx.sender v.owner (v.automations id).steps
      (startLoop v (v.automations id)) with
    | .ok s => s.triggerFired
    | .error _ => false

/-- The transaction changes the slot by other means than the automation's own `afterExecution`: by
`setContext` or `setContextSlot`, by an execution of another automation, or by an action. -/
def WrittenByOther (id slot : Nat) (v : State) (tx : Tx) : Prop :=
  if tx.op = .executeAutomation id then
    (∃ v', call v tx = .ok v') ∧
      ∃ s, Execution v tx.env tx.sender id s ∧ s.ctx[slot]? ≠ v.ctx[slot]?
  else (step v tx).ctx[slot]? ≠ v.ctx[slot]?

section Trigger

variable {env : Env} {sender owner : Address} {steps : List Step}

/-- Conditions write nothing. -/
theorem traverse_conditions {s t : Loop} (hall : ∀ st ∈ steps, st.stepType = .condition)
    (h : traverse env sender owner steps s = .ok t) : t.ctx = s.ctx := by
  refine (whileLoop_ok (I := fun u : Loop => u.ctx = s.ctx) ?_ rfl (traverse_ok h)).1
  intro u u' hu _ hround
  obtain ⟨-, st, hst, hr⟩ := round_ok hround
  cases hr with
  | condition => exact hu
  | action htype =>
    rw [hall st (List.mem_of_getElem? hst)] at htype
    cases htype

/-- The first round decides whether the trigger fired, and no later round takes it back. -/
theorem traverse_trigger {s t : Loop} {first : Step} (hfirst : steps[0]? = some first)
    (hcond : first.stepType = .condition) (hcurrent : s.current = 0) (hcount : s.stepCount = 0)
    (h : traverse env sender owner steps s = .ok t) :
    checkCondition env 0 first 0 s.ctx = .ok t.triggerFired := by
  have hw := traverse_ok h
  have hrun : s.running = true := by
    rw [running_iff, hcurrent]
    decide
  cases hround : s.round env sender owner steps with
  | error e =>
    rw [whileLoop_fail hrun hround] at hw
    cases hw
  | ok s' =>
    rw [whileLoop_succ hrun hround] at hw
    obtain ⟨-, st, hst, hr⟩ := round_ok hround
    rw [hcurrent, hfirst, Option.some.injEq] at hst
    subst hst
    cases hr with
    | action htype =>
      rw [hcond] at htype
      cases htype
    | @condition met _ hmet _ =>
      rw [hcurrent, hcount] at hmet
      rw [hmet]
      -- `stepCount` is 0 in the first round only
      have hinv := whileLoop_ok (I := fun u : Loop => u.triggerFired = met ∧ 0 < u.stepCount) ?_
        ⟨by simp [hcurrent, hcount], Nat.succ_pos _⟩ hw
      · rw [hinv.1.1]
      · rintro u u' ⟨hu, hpos⟩ _ hround'
        obtain ⟨-, st', -, hr'⟩ := round_ok hround'
        cases hr' with
        | condition => exact ⟨by simp [hu, Nat.ne_of_gt hpos], Nat.succ_pos _⟩
        | action => exact ⟨hu, Nat.succ_pos _⟩

variable {ε : Type u} {c : UpdatableCondition ε} {s : Step}

/-- What the vault reads as the answer of a hosted condition is the condition's result. -/
theorem checkCondition_hosted {k i : Nat} {ctx : List Bytes} {met : Bool}
    (hhost : Hosts env s.target c) (hsel : s.selector = checkSelector)
    (h : checkCondition env k s i ctx = .ok met) : c.check k env.timestamp s.data ctx = .ok met := by
  have hans := hhost.check k s.data ctx
  unfold checkCondition at h
  rw [hsel] at h
  cases hc : c.check k env.timestamp s.data ctx with
  | error e =>
    rw [hc] at hans
    obtain ⟨reason, hreason⟩ := hans
    rw [hreason] at h
    cases h
  | ok b =>
    rw [hc] at hans
    have hcall : env.staticcall k s.target checkSelector s.data ctx = .success (encodeBool b) := hans
    rw [hcall] at h
    simp only [bind_eq_ok, decodeBool_encodeBool, decoded_eq_ok, Option.some.injEq] at h
    obtain ⟨-, -, rfl⟩ := h
    rfl

/-- A one-slot diff of a hosted condition is applied; a slot that does not exist stays away. -/
theorem updateTriggerCondition_hosted {k slot : Nat} {value : Bytes} {ctx : List Bytes}
    (hhost : Hosts env s.target c) (hvalue : value.length = 32) (hslot : slot < 2 ^ 32)
    (h : c.afterExecution k env.timestamp s.data ctx = .ok ([slot], [value])) :
    updateTriggerCondition env k s ctx = ctx.set slot value := by
  have hans := hhost.afterExecution k s.data ctx
  rw [h] at hans
  have hcall : env.staticcall k s.target afterExecutionSelector s.data ctx =
      .success (encodeUint32sBytesList [slot] [value]) := hans
  have hlen : (encodeUint32sBytesList [slot] [value]).length = 256 := by
    simp [encodeUint32sBytesList, encodeBytesList, encodeBytes, padding, hvalue]
  have hdec : decodeUint32sBytesList (encodeUint32sBytesList [slot] [value]) =
      some ([slot], [value]) :=
    decodeUint32sBytesList_encode (by simpa using hslot) (by rw [hlen]; decide)
  have hset : updateTriggerCondition env k s ctx =
      if slot < ctx.length then ctx.set slot value else ctx := by
    simp [updateTriggerCondition, hcall, hlen, hdec, applyKnownSlots]
  rw [hset]
  split
  · rfl
  · rename_i hge
    exact (List.set_eq_of_length_le (Nat.le_of_not_lt hge)).symm

/-- The trigger update of a hosted condition touches its own slot only. -/
theorem updateTriggerCondition_frame {k slot other : Nat} {ctx : List Bytes}
    (hhost : Hosts env s.target c) (hwrites : WritesOnly c s.data slot) (hne : slot ≠ other) :
    (updateTriggerCondition env k s ctx)[other]? = ctx[other]? := by
  cases h : c.afterExecution k env.timestamp s.data ctx with
  | error e =>
    have hans := hhost.afterExecution k s.data ctx
    rw [h] at hans
    obtain ⟨reason, hreason⟩ := hans
    simp only [updateTriggerCondition, hreason]
  | ok d =>
    obtain ⟨hslot, value, hvalue, rfl⟩ := hwrites k env.timestamp ctx d h
    rw [updateTriggerCondition_hosted hhost hvalue hslot h, List.getElem?_set_ne hne]

end Trigger

/-! ## One transaction and the slot -/

section Slot

variable {ε : Type u} {c : UpdatableCondition ε} {v : State} {tx : Tx} {id slot : Nat} {data : Bytes}

theorem Execution.unique {env : Env} {sender : Address} {s t : Loop}
    (hs : Execution v env sender id s) (ht : Execution v env sender id t) : s = t :=
  Except.ok.inj (hs.traverse.symm.trans ht.traverse)

/-- An execution that succeeds, with the local variables at the end of its loop. -/
theorem execution_of_ok (hop : tx.op = .executeAutomation id) {v' : State}
    (h : call v tx = .ok v') : ∃ s, Execution v tx.env tx.sender id s ∧
      (step v tx).ctx = finalCtx tx.env (v.automations id).steps s := by
  have hcall : executeAutomation tx.env tx.sender id v = .ok v' := by
    rwa [call, hop] at h
  obtain ⟨s, hexec, -, hctx⟩ := executeAutomation_ok hcall
  refine ⟨s, hexec, ?_⟩
  simpa only [step, h] using hctx

/-- A trigger fires in an execution that succeeds. -/
theorem fired_iff : fired id v tx = true ↔
    tx.op = .executeAutomation id ∧ (∃ v', call v tx = .ok v') ∧
      ∃ s, Execution v tx.env tx.sender id s ∧ s.triggerFired = true := by
  constructor
  · intro h
    simp only [fired, Bool.and_eq_true, decide_eq_true_eq] at h
    obtain ⟨⟨hop, hok⟩, hfired⟩ := h
    cases hcall : call v tx with
    | error e =>
      rw [hcall] at hok
      cases hok
    | ok v' =>
      obtain ⟨s, hexec, -⟩ := execution_of_ok hop hcall
      rw [hexec.traverse] at hfired
      exact ⟨hop, ⟨v', rfl⟩, s, hexec, hfired⟩
  · rintro ⟨hop, ⟨v', hcall⟩, s, hexec, hfired⟩
    simp only [fired, Bool.and_eq_true, decide_eq_true_eq, hcall, hexec.traverse]
    exact ⟨⟨hop, rfl⟩, hfired⟩

/-- What a firing transaction has done: the check was true on the stored context, and the new context
is that of the end of the loop after the trigger update. -/
theorem fired_spec (ht : TriggerIs c id data v tx) (hf : fired id v tx = true) :
    ∃ s first, Execution v tx.env tx.sender id s ∧ Hosts tx.env first.target c ∧ first.data = data ∧
      c.check 0 tx.env.timestamp data v.ctx = .ok true ∧ s.ctx.length = v.ctx.length ∧
      (step v tx).ctx = updateTriggerCondition tx.env s.stepCount first s.ctx := by
  obtain ⟨hop, ⟨v', hcall⟩, s, hexec, hfired⟩ := fired_iff.1 hf
  obtain ⟨first, hfirst, hcond, hsel, rfl, hhost⟩ := ht
  obtain ⟨t, hexec', hctx⟩ := execution_of_ok hop hcall
  obtain rfl := hexec.unique hexec'
  refine ⟨s, first, hexec, hhost, rfl, ?_, traverse_length hexec.traverse, ?_⟩
  · have hmet := traverse_trigger hfirst hcond rfl rfl hexec.traverse
    rw [hfired] at hmet
    exact checkCondition_hosted hhost hsel hmet
  · rw [hctx, finalCtx, if_pos hfired, hfirst]

/-- Up to the trigger update, a transaction that nobody else writes in keeps the slot. -/
theorem loop_slot (hop : tx.op = .executeAutomation id) (hw : ¬ WrittenByOther id slot v tx)
    (hok : ∃ v', call v tx = .ok v') {s : Loop} (hexec : Execution v tx.env tx.sender id s) :
    s.ctx[slot]? = v.ctx[slot]? := by
  by_contra hne
  refine hw ?_
  rw [WrittenByOther, if_pos hop]
  exact ⟨hok, s, hexec, hne⟩

/-- A transaction that neither fires the trigger nor writes the slot otherwise keeps it. -/
theorem slot_of_not_fired (hf : fired id v tx = false) (hw : ¬ WrittenByOther id slot v tx) :
    (step v tx).ctx[slot]? = v.ctx[slot]? := by
  by_cases hop : tx.op = .executeAutomation id
  · cases hcall : call v tx with
    | error e => simp only [step, hcall]
    | ok v' =>
      obtain ⟨s, hexec, hctx⟩ := execution_of_ok hop hcall
      have hnot : ¬ s.triggerFired = true := by
        intro hs
        have htrue := fired_iff.2 ⟨hop, ⟨v', hcall⟩, s, hexec, hs⟩
        rw [hf] at htrue
        cases htrue
      rw [hctx, finalCtx, if_neg hnot]
      exact loop_slot hop hw ⟨v', hcall⟩ hexec
  · by_contra hne
    refine hw ?_
    rw [WrittenByOther, if_neg hop]
    exact hne

/-- An execution of conditions only writes no slot but through the trigger. -/
theorem conditions_unwritten (hop : tx.op = .executeAutomation id)
    (hall : ∀ s ∈ (v.automations id).steps, s.stepType = .condition) :
    ¬ WrittenByOther id slot v tx := by
  rw [WrittenByOther, if_pos hop]
  rintro ⟨-, s, hexec, hne⟩
  exact hne (by rw [traverse_conditions hall hexec.traverse]; rfl)

/-- After a firing whose trigger update writes `value`, the slot holds it. -/
theorem slot_of_fired (ht : TriggerIs c id data v tx) (hf : fired id v tx = true) {value : Bytes}
    (hvalue : value.length = 32) (hslot : slot < v.ctx.length % 2 ^ 32)
    (hafter : ∀ k s, Execution v tx.env tx.sender id s → s.ctx.length = v.ctx.length →
      c.afterExecution k tx.env.timestamp data s.ctx = .ok ([slot], [value])) :
    (step v tx).ctx[slot]? = some value := by
  obtain ⟨s, first, hexec, hhost, rfl, -, hlen, hctx⟩ := fired_spec ht hf
  have hslot' : slot < s.ctx.length % 2 ^ 32 := by rwa [hlen]
  have hupdate := updateTriggerCondition_hosted hhost hvalue
    (Nat.lt_trans hslot' (Nat.mod_lt _ (by decide))) (hafter s.stepCount s hexec hlen)
  rw [hctx, hupdate, List.getElem?_set_self (Nat.lt_of_lt_of_le hslot' (Nat.mod_le _ _))]

/-- An execution whose trigger keeps its schedule in one slot leaves every other slot, unless an
action writes it. -/
theorem other_slot_kept {other : Nat} (ht : TriggerIs c id data v tx) (hwrites : WritesOnly c data slot)
    (hne : slot ≠ other) (hw : ¬ WrittenByOther id other v tx) :
    (step v tx).ctx[other]? = v.ctx[other]? := by
  cases hf : fired id v tx with
  | false => exact slot_of_not_fired hf hw
  | true =>
    obtain ⟨hop, hok, -⟩ := fired_iff.1 hf
    obtain ⟨s, first, hexec, hhost, rfl, -, -, hctx⟩ := fired_spec ht hf
    rw [hctx, updateTriggerCondition_frame hhost hwrites hne]
    exact loop_slot hop hw hok hexec

/-- Along a run, a slot keeps what it holds as long as admitted steps keep it, or somebody else
writes it. -/
theorem kept_or_written {ok : State → Tx → Prop} {x : Option Bytes}
    (hkeep : ∀ v tx, ok v tx → ¬ WrittenByOther id slot v tx → v.ctx[slot]? = x →
      (step v tx).ctx[slot]? = x)
    {mid : List Tx} (hmid : Admitted step ok v mid) (hv : v.ctx[slot]? = x) :
    (run step v mid).ctx[slot]? = x ∨
      ∃ pre tx post, mid = pre ++ tx :: post ∧ WrittenByOther id slot (run step v pre) tx := by
  induction mid generalizing v with
  | nil => exact Or.inl hv
  | cons tx mid ih =>
    obtain ⟨htx, hmid⟩ := hmid
    by_cases hw : WrittenByOther id slot v tx
    · exact Or.inr ⟨[], tx, mid, rfl, hw⟩
    · rcases ih hmid (hkeep v tx htx hw hv) with h | ⟨pre, tx', post, rfl, h⟩
      · exact Or.inl h
      · exact Or.inr ⟨tx :: pre, tx', post, rfl, h⟩

end Slot

/-! ## The timer fires once -/

/-- Step 0 of the automation is a timer on the slot whose delay satisfies `p`. -/
def TimerAt (p : Nat → Prop) (id slot : Nat) (v : State) (tx : Tx) : Prop :=
  ∃ data delta, TriggerIs timerCondition id data v tx ∧
    decodeUint256Uint32 data = some (delta, slot) ∧ p delta

/-- A stopped timer does not fire. -/
theorem timer_stopped {p : Nat → Prop} {id slot : Nat} {v : State} {tx : Tx}
    (ht : TimerAt p id slot v tx) (hstop : storedUint v.ctx slot = some 0) :
    fired id v tx = false := by
  obtain ⟨data, delta, htrigger, hdata, -⟩ := ht
  by_contra hf
  obtain ⟨s, first, -, -, -, hcheck, -, -⟩ := fired_spec htrigger (by simpa using hf)
  obtain ⟨-, start, hstart, hne, -⟩ := TimerCondition.check_true hdata hcheck
  rw [hstop, Option.some.injEq] at hstart
  exact hne hstart.symm

/-- A timer with a positive delay stops when it fires. -/
theorem timer_stops {id slot : Nat} {v : State} {tx : Tx}
    (ht : TimerAt (fun delta => 0 < delta) id slot v tx) (hf : fired id v tx = true) :
    (step v tx).ctx[slot]? = some (encodeWord 0) := by
  obtain ⟨data, delta, htrigger, hdata, hdelta⟩ := ht
  obtain ⟨s, first, -, -, -, hcheck, -, -⟩ := fired_spec htrigger hf
  obtain ⟨hslot, -⟩ := TimerCondition.check_true hdata hcheck
  refine slot_of_fired htrigger hf (length_encodeWord 0) hslot (fun k s _ hlen => ?_)
  exact TimerCondition.afterExecution_eq hdata (Nat.ne_of_gt hdelta) (by rwa [hlen])

/-- **One-shot.** Between two firings of an automation whose trigger is a timer with a positive
delay, something else than its own update wrote the slot. -/
theorem timer_one_shot {v : State} {first second : Tx} {mid : List Tx} {id slot : Nat}
    (hrun : Admitted step (TimerAt (fun delta => 0 < delta) id slot) v (first :: (mid ++ [second])))
    (h₁ : fired id v first = true)
    (h₂ : fired id (run step (step v first) mid) second = true) :
    ∃ pre tx post, mid = pre ++ tx :: post ∧
      WrittenByOther id slot (run step (step v first) pre) tx := by
  obtain ⟨hfirst, hrest⟩ := hrun
  obtain ⟨hmid, hsecond, -⟩ := (admitted_append step _ _ _).1 hrest
  have hzero : decodeUint256 (encodeWord 0) = some 0 := decodeUint256_encodeWord (by decide)
  have hstopped := timer_stops hfirst h₁
  refine (kept_or_written (fun w tx ht hw hx => ?_) hmid hstopped).resolve_left (fun hkept => ?_)
  · have hnot := timer_stopped ht (storedUint_eq_some.2 ⟨_, hx, hzero⟩)
    rw [slot_of_not_fired hnot hw, hx]
  · have hnot := timer_stopped hsecond (storedUint_eq_some.2 ⟨_, hkept, hzero⟩)
    rw [h₂] at hnot
    cases hnot

/-- A condition with the parameters `data`, and nothing after it. -/
def scheduledStep (data : Bytes) : Step := ⟨.condition, ⟨7⟩, checkSelector, DONE, DONE, data⟩

/-- The owner 1 stores an automation of that step, and a context. -/
def scheduledVault {ε : Type u} (c : UpdatableCondition ε) (data : Bytes) (ctx : List Bytes) :
    State :=
  run step (initialized ⟨1⟩ Address.zero Address.zero)
    [⟨⟨1⟩, hosting c 0, .createAutomation [scheduledStep data]⟩,
      ⟨⟨1⟩, hosting c 0, .setContext ctx⟩]

/-- The account 2 executes the automation 0. -/
def executeAt {ε : Type u} (c : UpdatableCondition ε) (timestamp : Nat) : Tx :=
  ⟨⟨2⟩, hosting c timestamp, .executeAutomation 0⟩

theorem scheduledVault_reachable {ε : Type u} (c : UpdatableCondition ε) (data : Bytes)
    (ctx : List Bytes) :
    Reachable step Initial (fun _ tx => Bounded tx) (scheduledVault c data ctx) :=
  (Reachable.start ⟨_, _, _, rfl⟩).run ⟨show 1 < 2 ^ 32 by decide, trivial, trivial⟩

section Scheduled

variable {ε : Type u} (c : UpdatableCondition ε) {data : Bytes} {timestamp : Nat} {v : State}

theorem scheduled_trigger {sender : Address} {op : Op}
    (h : (v.automations 0).steps = [scheduledStep data]) :
    TriggerIs c 0 data v ⟨sender, hosting c timestamp, op⟩ := by
  refine ⟨scheduledStep data, ?_, rfl, rfl, rfl, hosting_hosts c timestamp _⟩
  rw [h]
  rfl

theorem scheduled_unwritten {slot : Nat} (h : (v.automations 0).steps = [scheduledStep data]) :
    ¬ WrittenByOther 0 slot v (executeAt c timestamp) := by
  refine conditions_unwritten rfl fun s hs => ?_
  rw [h, List.mem_singleton] at hs
  rw [hs]
  rfl

end Scheduled

/-- The parameters `(amount, 0)`. -/
def slotZero (amount : Nat) : Bytes := encodeWord amount ++ encodeWord 0

theorem decode_slotZero {amount : Nat} (h : amount < 2 ^ 256) :
    decodeUint256Uint32 (slotZero amount) = some (amount, 0) :=
  decodeUint256Uint32_encode h (by decide)

set_option maxRecDepth 4000 in
theorem timer_one_shot_sample :
    ∃ pre tx post, [(⟨⟨1⟩, hosting timerCondition 20, .setContextSlot 0 (encodeWord 20)⟩ : Tx)] =
        pre ++ tx :: post ∧
      WrittenByOther 0 0 (run step (step (scheduledVault timerCondition (slotZero 3) [encodeWord 5])
        (executeAt timerCondition 10)) pre) tx := by
  have hdata := decode_slotZero (show 3 < 2 ^ 256 by decide)
  have hsecond : fired 0 (run step (step (scheduledVault timerCondition (slotZero 3) [encodeWord 5])
      (executeAt timerCondition 10)) [⟨⟨1⟩, hosting timerCondition 20,
        .setContextSlot 0 (encodeWord 20)⟩]) (executeAt timerCondition 30) = true := by
    decide
  refine timer_one_shot ⟨?_, ?_, ?_, trivial⟩ (by decide) hsecond
  · exact ⟨_, 3, scheduled_trigger timerCondition (by decide), hdata, by decide⟩
  · exact ⟨_, 3, scheduled_trigger timerCondition (by decide), hdata, by decide⟩
  · exact ⟨_, 3, scheduled_trigger timerCondition (by decide), hdata, by decide⟩

/-- A timer without delay passes `check`, but its `afterExecution` reverts and the vault goes on: it
fires again at once. -/
theorem timer_zero_delta_refires :
    ¬ ∀ (v : State) (first second : Tx) (mid : List Tx) (id slot : Nat),
      Reachable step Initial (fun _ tx => Bounded tx) v →
      Admitted step (TimerAt (fun _ => True) id slot) v (first :: (mid ++ [second])) →
      fired id v first = true → fired id (run step (step v first) mid) second = true →
      ∃ pre tx post, mid = pre ++ tx :: post ∧
        WrittenByOther id slot (run step (step v first) pre) tx := by
  intro h
  have hdata := decode_slotZero (show 0 < 2 ^ 256 by decide)
  obtain ⟨pre, tx, post, hmid, -⟩ := h
    (scheduledVault timerCondition (slotZero 0) [encodeWord 5])
    (executeAt timerCondition 10) (executeAt timerCondition 10) [] 0 0
    (scheduledVault_reachable _ _ _)
    ⟨⟨_, 0, scheduled_trigger timerCondition (by decide), hdata, trivial⟩,
      ⟨_, 0, scheduled_trigger timerCondition (by decide), hdata, trivial⟩, trivial⟩
    (by decide) (by decide)
  cases pre with
  | nil => cases hmid
  | cons t pre => cases hmid

/-! ## The interval keeps its rate -/

/-- Step 0 of the automation is an interval on the slot. -/
def IntervalAt (id slot interval : Nat) (v : State) (tx : Tx) : Prop :=
  ∃ data, TriggerIs intervalCondition id data v tx ∧
    decodeUint256Uint32 data = some (interval, slot)

/-- A transaction in which nobody else writes the schedule, and after which it still fits a
`uint256`. -/
structure Regular (id slot interval : Nat) (v : State) (tx : Tx) : Prop where
  trigger : IntervalAt id slot interval v tx
  unwritten : ¬ WrittenByOther id slot v tx
  fits : fired id v tx = true → ∀ n, storedUint v.ctx slot = some n → n + interval ≤ maxUint256

/-- The number of firings in a run. -/
def firings (id : Nat) (v : State) (txs : List Tx) : Nat :=
  runTotal step (fun v tx => if fired id v tx then 1 else 0) v txs

/-- The number of firings in a run that happened by the time `T`. -/
def firingsBy (T id : Nat) (v : State) (txs : List Tx) : Nat :=
  runTotal step (fun v tx => if fired id v tx ∧ tx.env.timestamp ≤ T then 1 else 0) v txs

section Interval

variable {id slot interval next : Nat} {v : State} {tx : Tx}

/-- A firing finds its time reached and advances the schedule by one interval. -/
theorem interval_fires (h : Regular id slot interval v tx) (hi : 0 < interval)
    (hnext : storedUint v.ctx slot = some next) (hf : fired id v tx = true) :
    next ≤ tx.env.timestamp ∧ storedUint (step v tx).ctx slot = some (next + interval) := by
  obtain ⟨⟨data, htrigger, hdata⟩, hw, hfits⟩ := h
  obtain ⟨-, first, -, -, -, hcheck, -, -⟩ := fired_spec htrigger hf
  obtain ⟨hslot, n, hn, -, hle⟩ := IntervalCondition.check_true hdata hcheck
  obtain rfl : next = n := Option.some.inj (hnext.symm.trans hn)
  have hfit := hfits hf next hnext
  obtain ⟨hop, hok, -⟩ := fired_iff.1 hf
  have hstep := slot_of_fired htrigger hf (length_encodeWord (next + interval)) hslot
    (fun k s hexec hlen => by
      -- the slot at the end of the loop is the stored one, since nobody else writes it
      have hloop := loop_slot hop hw hok hexec
      have hstored : storedUint s.ctx slot = some next := by
        rw [storedUint, hloop]
        exact hnext
      exact IntervalCondition.afterExecution_eq hdata (Nat.ne_of_gt hi) (by rwa [hlen]) hstored hfit)
  refine ⟨hle, storedUint_eq_some.2 ⟨_, hstep, decodeUint256_encodeWord ?_⟩⟩
  exact Nat.lt_of_le_of_lt hfit (by decide)

/-- A transaction without a firing leaves the schedule where it was. -/
theorem interval_rests (h : Regular id slot interval v tx)
    (hnext : storedUint v.ctx slot = some next) (hf : fired id v tx = false) :
    storedUint (step v tx).ctx slot = some next := by
  rw [storedUint, slot_of_not_fired hf h.unwritten]
  exact hnext

/-- After `k` firings the schedule has advanced `k` times. -/
theorem interval_schedule {txs : List Tx} (hi : 0 < interval)
    (hnext : storedUint v.ctx slot = some next)
    (htxs : Admitted step (Regular id slot interval) v txs) :
    storedUint (run step v txs).ctx slot = some (next + firings id v txs * interval) := by
  induction txs generalizing v next with
  | nil => simpa [firings, runTotal] using hnext
  | cons tx txs ih =>
    obtain ⟨htx, htxs⟩ := htxs
    cases hf : fired id v tx with
    | true =>
      have hstep := (interval_fires htx hi hnext hf).2
      have hrest := ih hstep htxs
      have hcount : firings id v (tx :: txs) = 1 + firings id (step v tx) txs := by
        simp [firings, runTotal, hf]
      rw [run_cons, hrest, hcount, Nat.add_mul, Nat.one_mul, Nat.add_assoc]
    | false =>
      have hrest := ih (interval_rests htx hnext hf) htxs
      have hcount : firings id v (tx :: txs) = firings id (step v tx) txs := by
        simp [firings, runTotal, hf]
      rw [run_cons, hrest, hcount]

/-- By the time `T` the schedule has run through at most the intervals that fit. -/
theorem firingsBy_le {txs : List Tx} (hi : 0 < interval) (hnext : storedUint v.ctx slot = some next)
    (htxs : Admitted step (Regular id slot interval) v txs) (T : Nat) :
    firingsBy T id v txs ≤ if next ≤ T then (T - next) / interval + 1 else 0 := by
  induction txs generalizing v next with
  | nil => exact Nat.zero_le _
  | cons tx txs ih =>
    obtain ⟨htx, htxs⟩ := htxs
    cases hf : fired id v tx with
    | false =>
      have hrest := ih (interval_rests htx hnext hf) htxs
      have hcount : firingsBy T id v (tx :: txs) = firingsBy T id (step v tx) txs := by
        simp [firingsBy, runTotal, hf]
      rwa [hcount]
    | true =>
      obtain ⟨hle, hstep⟩ := interval_fires htx hi hnext hf
      have hrest := ih hstep htxs
      have hcount : firingsBy T id v (tx :: txs) =
          (if tx.env.timestamp ≤ T then 1 else 0) + firingsBy T id (step v tx) txs := by
        simp [firingsBy, runTotal, hf]
      rw [hcount]
      by_cases hT : next + interval ≤ T
      · -- one interval of the rest of the time is used up
        have hdiv : (T - next) / interval = (T - (next + interval)) / interval + 1 := by
          rw [Nat.div_eq_sub_div hi (by omega), Nat.sub_sub]
        rw [if_pos hT] at hrest
        rw [if_pos (show next ≤ T by omega), hdiv]
        split
        · omega
        · omega
      · rw [if_neg hT] at hrest
        by_cases hts : tx.env.timestamp ≤ T
        · rw [if_pos hts, if_pos (Nat.le_trans hle hts)]
          generalize (T - next) / interval = q
          omega
        · rw [if_neg hts]
          omega

/-- **Rate limit.** With a positive interval, while nobody else writes the schedule and it fits a
`uint256`: after `k` firings the slot holds the start plus `k` intervals, the firing number `k` does
not come before that time, and by the time `T` there are no more firings than intervals fit. -/
theorem interval_rate_limit {txs : List Tx} (hi : 0 < interval)
    (hnext : storedUint v.ctx slot = some next)
    (htxs : Admitted step (Regular id slot interval) v txs) :
    storedUint (run step v txs).ctx slot = some (next + firings id v txs * interval) ∧
      (∀ pre tx post, txs = pre ++ tx :: post → fired id (run step v pre) tx = true →
        next + firings id v pre * interval ≤ tx.env.timestamp) ∧
      ∀ T, next ≤ T → firingsBy T id v txs ≤ (T - next) / interval + 1 := by
  refine ⟨interval_schedule hi hnext htxs, ?_, fun T hT => ?_⟩
  · rintro pre tx post rfl hf
    obtain ⟨hpre, htx, -⟩ := (admitted_append step _ _ _).1 htxs
    exact (interval_fires htx hi (interval_schedule hi hnext hpre) hf).1
  · have h := firingsBy_le hi hnext htxs T
    rwa [if_pos hT] at h

end Interval

/-- The execution fits the schedule. -/
theorem scheduled_regular {amount timestamp next : Nat} {v : State} (hamount : amount < 2 ^ 256)
    (hsteps : (v.automations 0).steps = [scheduledStep (slotZero amount)])
    (hnext : storedUint v.ctx 0 = some next) (hfits : next + amount ≤ maxUint256) :
    Regular 0 0 amount v (executeAt intervalCondition timestamp) := by
  refine ⟨⟨_, scheduled_trigger intervalCondition hsteps, decode_slotZero hamount⟩,
    scheduled_unwritten intervalCondition hsteps, fun _ n hn => ?_⟩
  obtain rfl : next = n := Option.some.inj (hnext.symm.trans hn)
  exact hfits

set_option maxRecDepth 4000 in
theorem interval_rate_limit_sample :
    firingsBy 14 0 (scheduledVault intervalCondition (slotZero 10) [encodeWord 5])
      [executeAt intervalCondition 7, executeAt intervalCondition 7] ≤ 1 := by
  have hstart : storedUint
      (scheduledVault intervalCondition (slotZero 10) [encodeWord 5]).ctx 0 = some 5 := by
    decide
  have hnext : storedUint (step (scheduledVault intervalCondition (slotZero 10) [encodeWord 5])
      (executeAt intervalCondition 7)).ctx 0 = some 15 := by
    decide
  have hregular : Admitted step (Regular 0 0 10)
      (scheduledVault intervalCondition (slotZero 10) [encodeWord 5])
      [executeAt intervalCondition 7, executeAt intervalCondition 7] :=
    ⟨scheduled_regular (by decide) (by decide) hstart (by decide),
      scheduled_regular (by decide) (by decide) hnext (by decide), trivial⟩
  exact (interval_rate_limit (by decide) hstart hregular).2.2 14 (by decide)

/-- An interval close to `2^256` overflows in `afterExecution`; the vault goes on and the automation
fires again at once. -/
theorem interval_overflow_refires :
    ¬ ∀ (v : State) (txs : List Tx) (id slot interval next : Nat),
      Reachable step Initial (fun _ tx => Bounded tx) v →
      storedUint v.ctx slot = some next → 0 < next →
      Admitted step (fun v tx => IntervalAt id slot interval v tx ∧ ¬ WrittenByOther id slot v tx)
        v txs →
      storedUint (run step v txs).ctx slot = some (next + firings id v txs * interval) ∧
        (∀ pre tx post, txs = pre ++ tx :: post → fired id (run step v pre) tx = true →
          next + firings id v pre * interval ≤ tx.env.timestamp) ∧
        ∀ T, next ≤ T → firingsBy T id v txs ≤ (T - next) / interval + 1 := by
  intro h
  have htx (v : State) (hsteps : (v.automations 0).steps = [scheduledStep (slotZero maxUint256)]) :
      IntervalAt 0 0 maxUint256 v (executeAt intervalCondition 10) ∧
        ¬ WrittenByOther 0 0 v (executeAt intervalCondition 10) :=
    ⟨⟨_, scheduled_trigger intervalCondition hsteps, decode_slotZero (by decide)⟩,
      scheduled_unwritten intervalCondition hsteps⟩
  have hlaw := h (scheduledVault intervalCondition (slotZero maxUint256) [encodeWord 1])
    [executeAt intervalCondition 10, executeAt intervalCondition 10] 0 0 maxUint256 1
    (scheduledVault_reachable _ _ _) (by decide) (by decide)
    ⟨htx _ (by decide), htx _ (by decide), trivial⟩
  -- the slot stays at 1, so both executions fire at time 10
  have htwice : firingsBy 10 0
      (scheduledVault intervalCondition (slotZero maxUint256) [encodeWord 1])
      [executeAt intervalCondition 10, executeAt intervalCondition 10] = 2 := by
    decide
  have hle := hlaw.2.2 10 (by decide)
  rw [htwice] at hle
  exact absurd hle (by decide)

/-! ## The cooldown of the rebalance trigger -/

/-- Step 0 of the automation is a Wick-and-Wait trigger with that cooldown, on any market, which
keeps its last firing in the slot. -/
def WickWaitAt (id slot cooldown : Nat) (v : State) (tx : Tx) : Prop :=
  ∃ data market p, TriggerIs (wickWaitRebalanceCondition market) id data v tx ∧
    WickWaitRebalanceCondition.decodeParams data = some p ∧ p.cooldown = cooldown ∧
    p.lastRebalanceSlot = slot

section WickWait

variable {id slot cooldown : Nat} {v : State} {tx : Tx}

/-- A firing finds the cooldown over, and records its time. -/
theorem wickWait_fires (h : WickWaitAt id slot cooldown v tx) (hf : fired id v tx = true) :
    (step v tx).ctx[slot]? = some (encodeWord tx.env.timestamp) ∧
      ∀ last, storedUint v.ctx slot = some last →
        min (last + cooldown) maxUint256 ≤ tx.env.timestamp := by
  obtain ⟨data, market, p, htrigger, hdata, rfl, rfl⟩ := h
  obtain ⟨-, first, -, -, -, hcheck, -, -⟩ := fired_spec htrigger hf
  obtain ⟨hslot, last, hlast, hle⟩ := WickWaitRebalanceCondition.check_true hdata hcheck
  refine ⟨?_, fun n hn => ?_⟩
  · refine slot_of_fired htrigger hf (length_encodeWord _) hslot (fun k s _ hlen => ?_)
    exact WickWaitRebalanceCondition.afterExecution_eq hdata (by rwa [hlen])
  · have hread := WickWaitRebalanceCondition.readTimestamp_eq hslot hn
    obtain rfl : n = last := Except.ok.inj (hread.symm.trans hlast)
    rwa [WickWaitRebalanceCondition.unlockAt_eq
      (WickWaitRebalanceCondition.decodeParams_cooldown hdata)] at hle

/-- While the trigger does not fire and nobody else writes the slot, it keeps its value. -/
theorem slot_of_quiet {ok : State → Tx → Prop} (hok : ∀ v tx, ok v tx → ¬ WrittenByOther id slot v tx)
    {txs : List Tx} (htxs : Admitted step ok v txs) (hquiet : firings id v txs = 0) :
    (run step v txs).ctx[slot]? = v.ctx[slot]? := by
  induction txs generalizing v with
  | nil => rfl
  | cons tx txs ih =>
    obtain ⟨htx, htxs⟩ := htxs
    rw [firings, runTotal, Nat.add_eq_zero_iff] at hquiet
    have hnot : fired id v tx = false := by
      cases hf : fired id v tx with
      | false => rfl
      | true => simp [hf] at hquiet
    rw [run_cons, ih htxs hquiet.2, slot_of_not_fired hnot (hok v tx htx)]

/-- **Cooldown.** Two consecutive firings are a cooldown apart, up to the largest timestamp; and the
trigger's `afterExecution` never fails after its check was true on a context of that length. -/
theorem wickWait_cooldown :
    (∀ (v : State) (first second : Tx) (mid : List Tx) (id slot cooldown : Nat),
      Admitted step (fun v tx => WickWaitAt id slot cooldown v tx ∧ ¬ WrittenByOther id slot v tx)
        v (first :: (mid ++ [second])) →
      fired id v first = true → firings id (step v first) mid = 0 →
      fired id (run step (step v first) mid) second = true →
      min (first.env.timestamp + cooldown) maxUint256 ≤ second.env.timestamp) ∧
    ∀ (market : Nat → WickWaitRebalanceCondition.Market) (k k' timestamp : Nat) (params : Bytes)
      (ctx ctx' : List Bytes),
      (wickWaitRebalanceCondition market).check k timestamp params ctx = .ok true →
      ctx'.length = ctx.length →
      ∃ diff, (wickWaitRebalanceCondition market).afterExecution k' timestamp params ctx' =
        .ok diff := by
  refine ⟨?_, ?_⟩
  · intro v first second mid id slot cooldown hrun h₁ hquiet h₂
    obtain ⟨⟨hfirst, -⟩, hrest⟩ := hrun
    obtain ⟨hmid, ⟨hsecond, -⟩, -⟩ := (admitted_append step _ _ _).1 hrest
    have hwritten := (wickWait_fires hfirst h₁).1
    -- nothing writes the slot between the two firings
    have hkept : (run step (step v first) mid).ctx[slot]? =
        some (encodeWord first.env.timestamp) := by
      rw [slot_of_quiet (fun _ _ h => h.2) hmid hquiet, hwritten]
    have hstored : storedUint (run step (step v first) mid).ctx slot = some first.env.timestamp :=
      storedUint_eq_some.2 ⟨_, hkept, decodeUint256_encodeWord first.env.timestamp_lt⟩
    exact (wickWait_fires hsecond h₂).2 _ hstored
  · intro market k k' timestamp params ctx ctx' hcheck hlen
    have hcheck' : WickWaitRebalanceCondition.check (market k) timestamp params ctx = .ok true :=
      hcheck
    obtain ⟨p, hp, -⟩ := bind_eq_ok.1 hcheck'
    have hdata := decoded_eq_ok.1 hp
    obtain ⟨hslot, -⟩ := WickWaitRebalanceCondition.check_true hdata hcheck'
    exact ⟨_, WickWaitRebalanceCondition.afterExecution_eq hdata (by rwa [hlen])⟩

end WickWait

/-- A market whose mean tick 50 is above the range of every position. -/
def sampleMarket : WickWaitRebalanceCondition.Market where
  positionManager := some ⟨20⟩
  factory := some ⟨21⟩
  positions := fun _ _ => some ⟨⟨22⟩, ⟨23⟩, 500, -10, 10⟩
  getPool := fun _ _ _ _ => some ⟨24⟩
  observe := fun _ _ => some [0, 3000]

/-- The position in slot 0, a window of 60, a cooldown of 100, the last firing in slot 1. -/
def sampleWickWait : Bytes := encodeWord 0 ++ encodeWord 60 ++ encodeWord 100 ++ encodeWord 1

set_option maxRecDepth 4000 in
theorem wickWait_cooldown_sample :
    min (1000 + 100) maxUint256 ≤
      (executeAt (wickWaitRebalanceCondition fun _ => sampleMarket) 1100).env.timestamp := by
  have hdata : WickWaitRebalanceCondition.decodeParams sampleWickWait = some ⟨0, 60, 100, 1⟩ := by
    decide
  have hadmitted (v : State) (timestamp : Nat)
      (hsteps : (v.automations 0).steps = [scheduledStep sampleWickWait]) :
      WickWaitAt 0 1 100 v (executeAt (wickWaitRebalanceCondition fun _ => sampleMarket) timestamp) ∧
        ¬ WrittenByOther 0 1 v
          (executeAt (wickWaitRebalanceCondition fun _ => sampleMarket) timestamp) :=
    ⟨⟨_, _, _, scheduled_trigger _ hsteps, hdata, rfl, rfl⟩, scheduled_unwritten _ hsteps⟩
  exact wickWait_cooldown.1
    (scheduledVault (wickWaitRebalanceCondition fun _ => sampleMarket) sampleWickWait
      [encodeWord 7, []])
    (executeAt (wickWaitRebalanceCondition fun _ => sampleMarket) 1000)
    (executeAt (wickWaitRebalanceCondition fun _ => sampleMarket) 1100) [] 0 1 100
    ⟨hadmitted _ _ (by decide), hadmitted _ _ (by decide), trivial⟩
    (by decide) rfl (by decide)

/-! ## One trigger, one slot -/

/-- Step 0 of the automation is one of the three triggers, and the slot holds its schedule. -/
inductive TriggerAt (id slot : Nat) (v : State) (tx : Tx) : Prop where
  | timer : TimerAt (fun _ => True) id slot v tx → TriggerAt id slot v tx
  | interval {interval : Nat} : IntervalAt id slot interval v tx → TriggerAt id slot v tx
  | wickWait {cooldown : Nat} : WickWaitAt id slot cooldown v tx → TriggerAt id slot v tx

/-- An execution of a scheduled automation moves no schedule in another slot. -/
theorem TriggerAt.other_slot_kept {id slot other : Nat} {v : State} {tx : Tx}
    (h : TriggerAt id slot v tx) (hne : slot ≠ other) (hw : ¬ WrittenByOther id other v tx) :
    (step v tx).ctx[other]? = v.ctx[other]? := by
  cases h with
  | timer h =>
    obtain ⟨data, delta, htrigger, hdata, -⟩ := h
    exact Vault.other_slot_kept htrigger (TimerCondition.writesOnly hdata) hne hw
  | interval h =>
    obtain ⟨data, htrigger, hdata⟩ := h
    exact Vault.other_slot_kept htrigger (IntervalCondition.writesOnly hdata) hne hw
  | wickWait h =>
    obtain ⟨data, market, p, htrigger, hdata, -, rfl⟩ := h
    exact Vault.other_slot_kept htrigger
      (WickWaitRebalanceCondition.writesOnly market hdata) hne hw

end StrategyBuilder.Contracts.Vault
