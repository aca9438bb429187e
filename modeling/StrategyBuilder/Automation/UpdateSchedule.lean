import StrategyBuilder.Automation.TriggerSlots
import StrategyBuilder.Backend.ContextUpdate

/-!
# What an edit does to a schedule

An automation that is on chain is edited and updated: the editor encodes the edited graph, and the
owner's transactions are mined. The start time of a trigger is sent with every update and overrides the
slot of the trigger, where the vault keeps the schedule as it goes on. So the slot is kept exactly if
it still holds the start time (`update_keeps_schedule_iff`); a schedule that has moved is set back.
-/

set_option autoImplicit false

namespace StrategyBuilder.Automation

open StrategyBuilder.Backend
open StrategyBuilder.Contracts
open StrategyBuilder.Contracts.Vault
open StrategyBuilder.Editor
open StrategyBuilder.Lib
open StrategyBuilder.Lib.Abi
open StrategyBuilder.Lib.Js
open StrategyBuilder.Lib.Transition
open StrategyBuilder.Shared

/-! ## The transactions of an update -/

/-- The vault after the transactions of a deployment, which the owner sends. -/
def mined (env : Op → Env) (v : State) (data : EncodeResult) : State :=
  run Vault.step v ((transactions data).map fun op => ⟨v.owner, env op, op⟩)

section Mined

variable {env : Op → Env} {v : State} {data : EncodeResult} {id : Nat} {steps : List Step}

/-- Without a context transaction the context stays as it was. -/
theorem mined_of_no_context (hcontext : data.contextCalldata = none)
    (hcall : data.automationCalldata = .updateAutomationSteps id steps) :
    (mined env v data).ctx = v.ctx := by
  have htxs : transactions data = [data.automationCalldata] := by
    rw [transactions, hcontext]
    cases data.requiresContextTx with
    | true => rfl
    | false => rfl
  rw [mined, htxs]
  exact step_updateAutomationSteps_ctx hcall

/-- A context transaction replaces the context. -/
theorem mined_of_context {ctx : List Bytes} (hrequired : data.requiresContextTx = true)
    (hcontext : data.contextCalldata = some (.setContext ctx))
    (hcall : data.automationCalldata = .updateAutomationSteps id steps) :
    (mined env v data).ctx = ctx := by
  have htxs : transactions data = [.setContext ctx, data.automationCalldata] := by
    rw [transactions, hcontext, hrequired]
  rw [mined, htxs]
  have hfirst : (Vault.step v ⟨v.owner, env (.setContext ctx), .setContext ctx⟩).ctx = ctx :=
    step_setContext_ctx rfl rfl
  rw [List.map_cons, List.map_cons, List.map_nil, run_cons, run_cons, run_nil,
    step_updateAutomationSteps_ctx hcall, hfirst]

end Mined

/-! ## When a slot is kept -/

/-- The slot of a variable holds the start time that the graph gives for it. Where the graph gives none,
the slot holds what the backend has read there, or nothing is written at all: the graph gives no start
time for any variable, and every variable has a slot in the context that was read.

No start time is for a property of every object that is no variable; its key would be no index. -/
def Undisturbed (times : Map String JsValue) (slotMapping : Record Nat) (read : List Bytes)
    (name : String) (idx : Nat) (cur : Bytes) : Prop :=
  (∀ key, times key ≠ none → slotMapping.get key ≠ .inherited) ∧
    match times name with
    | some startTime => encodeTimestamp (toNumber startTime) = .ok (some cur)
    | none => (read[idx]?).getD [] = cur ∨
        (∀ key, times key = none) ∧ ∀ e ∈ slotMapping, e.2 < read.length

section Written

variable {times : Map String JsValue} {overrides : Option (Record HexData)}
  {slotMapping : Record Nat} {name : String} {idx : Nat}

/-- Nothing is overridden where no start time is sent. -/
theorem hasOverrides_eq_false (htimes : EncodedTimes times (overrides.getD [])) :
    hasOverrides overrides = false ↔ ∀ key, times key = none := by
  unfold hasOverrides
  constructor
  · intro hnone key
    cases hkey : times key with
    | none => rfl
    | some startTime =>
      obtain ⟨data, -, hown⟩ := htimes.encoded key startTime hkey
      have hpos := List.length_pos_of_mem (Record.mem_of_own? hown)
      rw [decide_eq_true hpos] at hnone
      cases hnone
  · intro hall
    cases htable : overrides.getD [] with
    | nil => rfl
    | cons e l =>
      have hown := htimes.unset e.1 (hall e.1)
      rw [htable, Record.own?, if_pos rfl] at hown
      cases hown

/-- No name of a start time is one that every object inherits. -/
theorem inherited_iff (htimes : EncodedTimes times (overrides.getD [])) :
    (indexOverrides overrides slotMapping).2 = false ↔
      ∀ key, times key ≠ none → slotMapping.get key ≠ .inherited := by
  rw [← Bool.not_eq_true, indexOverrides_inherited]
  constructor
  · intro hnot key hkey hget
    refine hnot ⟨key, ?_, hget⟩
    by_contra hmem
    obtain ⟨startTime, hstart⟩ := Option.ne_none_iff_exists'.1 hkey
    obtain ⟨data, -, hown⟩ := htimes.encoded key startTime hstart
    rw [Record.own?_eq_none.2 hmem] at hown
    cases hown
  · rintro hall ⟨key, hmem, hget⟩
    refine hall key ?_ hget
    intro hnone
    exact Record.own?_eq_none.1 (htimes.unset key hnone) hmem

/-- What a context transaction leaves in the slot of a variable. -/
theorem written_slot (hkeys : (slotMapping.map Prod.fst).Nodup)
    (hname : slotMapping.own? name = some idx)
    (hunique : ∀ other, slotMapping.own? other = some idx → other = name)
    (hproto : name ∉ prototypeNames) (htimes : EncodedTimes times (overrides.getD []))
    {read ctx : List Bytes}
    (hctx : buildExpandedContext read (newSlots overrides
      (slotMapping.filter fun (_, idx) => read.length ≤ idx)) overrides slotMapping = ctx.map some)
    {cur : Bytes} :
    ctx[idx]? = some cur ↔
      (∀ key, times key ≠ none → slotMapping.get key ≠ .inherited) ∧
        match times name with
        | some startTime => encodeTimestamp (toNumber startTime) = .ok (some cur)
        | none => (read[idx]?).getD [] = cur := by
  rw [← inherited_iff htimes]
  cases hflag : (indexOverrides overrides slotMapping).2 with
  -- an override under an inherited name leaves no context to send
  | true =>
    rw [buildExpandedContext_inherited hflag] at hctx
    obtain rfl : ctx = [] := List.map_eq_nil_iff.1 hctx.symm
    simp
  | false =>
    -- the slot is in the context that is sent
    have hcovered : idx < read.length ∨ idx ∈ (newSlots overrides
        (slotMapping.filter fun (_, idx) => read.length ≤ idx)).map NewSlot.index ∨
        idx ∈ overriddenIndices overrides slotMapping := variable_covered hname
    have hslot := buildExpandedContext_getElem? hflag hcovered
    have hindex := indexOverrides_apply htimes.nodup hname hunique
    rw [hctx, List.getElem?_map] at hslot
    rw [eq_self, true_and]
    cases htime : times name with
    | some startTime =>
      obtain ⟨data, hdata, hown⟩ := htimes.encoded name startTime htime
      rw [expandedSlot_of_override (hindex.trans hown)] at hslot
      simp only [hdata, Except.ok.injEq]
      cases hcur : ctx[idx]? with
      | none =>
        rw [hcur] at hslot
        cases hslot
      | some value =>
        rw [hcur, Option.map_some, Option.some.injEq] at hslot
        rw [← hslot]
    | none =>
      rw [expandedSlot_of_unset hkeys hname hunique hproto (htimes.unset name htime)
        (hindex.trans (htimes.unset name htime))] at hslot
      cases hcur : ctx[idx]? with
      | none =>
        rw [hcur] at hslot
        cases hslot
      | some value =>
        rw [hcur, Option.map_some, Option.some.injEq, Option.some.injEq] at hslot
        rw [← hslot, Option.some.injEq]

end Written

/-! ## Updates of edited automations -/

/-- The slots that the encoder works with when the automation is updated. -/
def World.slotMapping (svc : Services) (w : World) (automationId : String)
    (tokenDecimals : Option (Record Nat)) : Record Nat :=
  match mapGraphToRaw (w.drafts automationId).graph svc.stepSchemas tokenDecimals with
  | .ok raw => (slotMappingOf svc w.contextSlots automationId raw).2
  | .error _ => []

/-- The node has a time slot field with the name that `addNode` gave it. -/
def hasTimeSlot (svc : Services) (n : EditorNode) : Bool :=
  match svc.stepTypeMap n.stepTypeId with
  | none => false
  | some stepType => stepType.abiFragment.any fun c =>
      isTimeSlot stepType c && match param n.params c.name with
        | .str name => name = timeSlotName n.id
        | _ => false

/-- A node has a time slot if one of its fields names its own slot. -/
theorem hasTimeSlot_iff {svc : Services} {n : EditorNode} : hasTimeSlot svc n = true ↔
    ∃ stepType, svc.stepTypeMap n.stepTypeId = some stepType ∧ ∃ c ∈ stepType.abiFragment,
      isTimeSlot stepType c = true ∧ param n.params c.name = .str (timeSlotName n.id) := by
  unfold hasTimeSlot
  cases hstep : svc.stepTypeMap n.stepTypeId with
  | none => simp
  | some stepType =>
    simp only [List.any_eq_true, Bool.and_eq_true, Option.some.injEq, exists_eq_left']
    constructor
    · rintro ⟨c, hc, hslot, hname⟩
      refine ⟨c, hc, hslot, ?_⟩
      split at hname
      · rename_i name hparam
        rw [hparam, of_decide_eq_true hname]
      · cases hname
    · rintro ⟨c, hc, hslot, hparam⟩
      refine ⟨c, hc, hslot, ?_⟩
      rw [hparam]
      exact decide_eq_true rfl

/-- The raw graph still has the time slots of the nodes. -/
theorem raw_timeSlot {svc : Services} {d : Draft} {raw : EditorGraph}
    {tokenDecimals : Option (Record Nat)} {n : DraftNode}
    (hraw : mapGraphToRaw d.graph svc.stepSchemas tokenDecimals = .ok raw) (hn : n ∈ d.nodes)
    (hslot : hasTimeSlot svc n.node = true) :
    ∃ r ∈ raw.nodes, ∃ stepType c, svc.stepTypeMap r.stepTypeId = some stepType ∧
      isTimeSlot stepType c = true ∧ param r.params c.name = .str (timeSlotName n.node.id) := by
  obtain ⟨stepType, hstep, c, hc, hts, hparam⟩ := hasTimeSlot_iff.1 hslot
  obtain ⟨-, schema, fieldSchema, hschema, hfield, hwidget, -⟩ := isTimeSlot_iff.1 hts
  obtain ⟨i, hi⟩ := List.mem_iff_getElem?.1 hn
  have hnode : d.graph.nodes[i]? = some n.node := by
    rw [Draft.graph, List.getElem?_map, hi]
    rfl
  obtain ⟨params, hparams, hget⟩ := mapGraphToRaw_node hraw hnode
  rw [Services.own?_stepSchemas, hstep, Option.map_some, hschema] at hparams
  have hkept := mapParamsToRaw_contextSlot hparams hc hfield hwidget hparam
  exact ⟨_, List.mem_of_getElem? hget, stepType, c, hstep, hts, hkept⟩

/-- An automation with an encoded trigger is updated: its draft still has the trigger with its time
slot, and `data` is what the editor gets for it. -/
structure Updates (svc : Services) (w : World) (u : SlotUse) (read : Option (List Bytes))
    (tokenDecimals : Option (Record Nat)) (data : EncodeResult) : Prop where
  reachable : Reachable (World.step svc) World.Initial (fun _ _ => True) w
  encoded : u ∈ w.uses
  node : ∃ n ∈ (w.drafts u.automationId).nodes, n.number = u.number ∧
    hasTimeSlot svc n.node = true
  answered : ∃ onChainId, (handleDeploy svc w.contextSlots read u.automationId (some onChainId)
    (w.drafts u.automationId).graph tokenDecimals).2 = .ok data

/-- The two outcomes of an update. Either the context is not touched, since no start time is sent and no
variable is new; or it is replaced, in the slot of the trigger by the start time that is sent. -/
theorem Updates.outcome {svc : Services} {w : World} {u : SlotUse} {read : Option (List Bytes)}
    {tokenDecimals : Option (Record Nat)} {data : EncodeResult}
    (h : Updates svc w u read tokenDecimals data) :
    let times := startTimeFor (w.drafts u.automationId).graph.nodes svc.stepSchemas
    let slotMapping := w.slotMapping svc u.automationId tokenDecimals
    ((∀ env v, (mined env v data).ctx = v.ctx) ∧ (∀ key, times key = none) ∧
        ∀ e ∈ slotMapping, e.2 < (read.getD []).length) ∨
      ∃ ctx, (∀ env v, (mined env v data).ctx = ctx) ∧
        ((∀ key, times key = none) → ∃ e ∈ slotMapping, (read.getD []).length ≤ e.2) ∧
        ∀ cur, ctx[u.index]? = some cur ↔
          (∀ key, times key ≠ none → slotMapping.get key ≠ .inherited) ∧
            match times (timeSlotName (nodeIdOf u.number)) with
            | some startTime => encodeTimestamp (toNumber startTime) = .ok (some cur)
            | none => ((read.getD [])[u.index]?).getD [] = cur := by
  intro times slotMapping
  obtain ⟨hw, hu, ⟨n, hn, hnumber, hslot⟩, onChainId, hdata⟩ := h
  have hinv := World.reachable_inv hw
  obtain ⟨raw, contextOverrides, hrequest, hencode⟩ := handleDeploy_ok hdata
  obtain ⟨hraw, overrides, hoverrides, hsent⟩ := deployRequest_ok hrequest
  have htable : contextOverrides.getD [] = overrides := by
    rw [hsent]
    split
    · rfl
    · rename_i hnone
      exact (List.length_eq_zero_iff.1 (Nat.eq_zero_of_not_pos hnone)).symm
  have htimes : EncodedTimes times (contextOverrides.getD []) :=
    htable ▸ buildContextOverrides_ok hoverrides
  have hmapping : slotMapping = (slotMappingOf svc w.contextSlots u.automationId raw).2 := by
    simp only [slotMapping, World.slotMapping, hraw]
  -- the variable of the trigger is mapped, to the slot where it was encoded before
  have hspec : Allocated w.contextSlots (extractSlotNames svc raw) _ _ :=
    slotMappingOf_spec hinv.slots u.automationId raw
  obtain ⟨slotMeta, hmem, hmeta⟩ := hinv.named u hu
  have hnamed : ContextSlots.Named _ (timeSlotName (nodeIdOf u.number)) u.index :=
    ⟨slotMeta, hspec.kept hmem, hmeta⟩
  obtain ⟨r, hr, stepType, c, hstep, hts, hparam⟩ := raw_timeSlot hraw hn hslot
  rw [hinv.numbered u.automationId n hn, hnumber] at hparam
  obtain ⟨idx, hidx⟩ := timeSlot_mapped hinv.slots u.automationId hr hstep hts hparam
  obtain rfl : idx = u.index :=
    hspec.consistent.index_unique (hspec.named _ _ hidx) hnamed
  have hunique : ∀ other, (slotMappingOf svc w.contextSlots u.automationId raw).2.own? other =
      some u.index → other = timeSlotName (nodeIdOf u.number) := by
    intro other hother
    exact hspec.consistent.name_unique (hspec.named _ _ hother) hnamed
  obtain ⟨hof, hcontext, hcall⟩ := encodeUpdate_ok hencode
  have hrequired := hof.requiresContextTx
  rw [hmapping]
  rcases updateContext_ok hcontext with ⟨hnone, hquiet, hknown⟩ | ⟨hneeded, ctx, hsome, hctx⟩
  · refine Or.inl ⟨?_, (hasOverrides_eq_false htimes).1 hquiet, hknown⟩
    intro env v
    exact mined_of_no_context hnone hcall
  · rw [hsome] at hrequired
    refine Or.inr ⟨ctx, ?_, ?_, ?_⟩
    · intro env v
      exact mined_of_context hrequired hsome hcall
    · intro hall
      rcases hneeded with hoverride | hnew
      · rw [(hasOverrides_eq_false htimes).2 hall] at hoverride
        cases hoverride
      · exact hnew
    · intro cur
      exact written_slot hspec.keys hidx hunique (timeSlotName_notMem _) htimes hctx

/-- **Schedules under edits.** In every reachable state of the automations, and whatever the vault has
come to: the update of an automation keeps the slot of its trigger exactly if it is undisturbed, which
with a start time means that the slot still holds the start time. -/
theorem update_keeps_schedule_iff {svc : Services} {w : World} {u : SlotUse}
    {read : Option (List Bytes)} {tokenDecimals : Option (Record Nat)} {data : EncodeResult}
    (h : Updates svc w u read tokenDecimals data) {v : State} {cur : Bytes}
    (hcur : v.ctx[u.index]? = some cur) (env : Op → Env) :
    (mined env v data).ctx[u.index]? = v.ctx[u.index]? ↔
      Undisturbed (startTimeFor (w.drafts u.automationId).graph.nodes svc.stepSchemas)
        (w.slotMapping svc u.automationId tokenDecimals) (read.getD [])
        (timeSlotName (nodeIdOf u.number)) u.index cur := by
  rw [hcur]
  rcases h.outcome with ⟨hsame, hall, hknown⟩ | ⟨ctx, hctx, hnew, hwritten⟩
  · rw [hsame, hcur, eq_self, true_iff]
    refine ⟨fun key hkey => absurd (hall key) hkey, ?_⟩
    rw [hall]
    exact Or.inr ⟨hall, hknown⟩
  · rw [hctx, hwritten, Undisturbed]
    refine and_congr_right fun _ => ?_
    cases startTimeFor (w.drafts u.automationId).graph.nodes svc.stepSchemas
        (timeSlotName (nodeIdOf u.number)) with
    | some startTime => exact Iff.rfl
    | none =>
      constructor
      · exact Or.inl
      · rintro (hread | ⟨hall, hknown⟩)
        · exact hread
        · -- then no context transaction would be sent
          exfalso
          obtain ⟨e, he, hge⟩ := hnew hall
          exact Nat.lt_irrefl _ (Nat.lt_of_lt_of_le (hknown e he) hge)

/-! ## Triggers that have fired -/

section Fired

variable {svc : Services} {w : World} {u : SlotUse} {read : Option (List Bytes)}
  {tokenDecimals : Option (Record Nat)} {data : EncodeResult} {start : Nat} {v : State}

/-- The editor sends this start time for the trigger, as the word `start`. -/
structure Sends (svc : Services) (w : World) (u : SlotUse) (tokenDecimals : Option (Record Nat))
    (start : Nat) : Prop where
  startTime : ∃ startTime, startTimeFor (w.drafts u.automationId).graph.nodes svc.stepSchemas
      (timeSlotName (nodeIdOf u.number)) = some startTime ∧
    encodeTimestamp (toNumber startTime) = .ok (some (encodeWord start))
  lt : start < 2 ^ 256
  named : ∀ key, startTimeFor (w.drafts u.automationId).graph.nodes svc.stepSchemas key ≠ none →
    (w.slotMapping svc u.automationId tokenDecimals).get key ≠ .inherited

/-- An update keeps the slot exactly if it holds the start time. -/
theorem Updates.kept_iff (h : Updates svc w u read tokenDecimals data)
    (hsends : Sends svc w u tokenDecimals start) {cur : Bytes} (hcur : v.ctx[u.index]? = some cur)
    (env : Op → Env) :
    (mined env v data).ctx[u.index]? = v.ctx[u.index]? ↔ cur = encodeWord start := by
  obtain ⟨startTime, htime, hencode⟩ := hsends.startTime
  rw [hcur]
  rcases h.outcome with ⟨-, hall, -⟩ | ⟨ctx, hctx, -, hwritten⟩
  · rw [hall] at htime
    cases htime
  · rw [hctx, hwritten, htime]
    simp only [hencode, Except.ok.injEq, Option.some.injEq]
    constructor
    · rintro ⟨-, heq⟩
      exact heq.symm
    · intro heq
      exact ⟨hsends.named, heq.symm⟩

/-- The schedule of an interval is set back exactly if the interval has fired since its start. -/
theorem interval_kept_iff_unfired (h : Updates svc w u read tokenDecimals data)
    (hsends : Sends svc w u tokenDecimals start) {id interval : Nat} (hi : 0 < interval)
    (hstart : v.ctx[u.index]? = some (encodeWord start)) {txs : List Tx}
    (htxs : Admitted Vault.step (Regular id u.index interval) v txs) (env : Op → Env) :
    (mined env (run Vault.step v txs) data).ctx[u.index]? = (run Vault.step v txs).ctx[u.index]? ↔
      firings id v txs = 0 := by
  have hword : decodeUint256 (encodeWord start) = some start := decodeUint256_encodeWord hsends.lt
  have hschedule := interval_schedule hi (storedUint_eq_some.2 ⟨_, hstart, hword⟩) htxs
  obtain ⟨cur, hcur, hdecode⟩ := storedUint_eq_some.1 hschedule
  rw [h.kept_iff hsends hcur env]
  constructor
  · intro heq
    rw [heq, hword, Option.some.injEq] at hdecode
    have hadvance : firings id v txs * interval = 0 := by omega
    exact (Nat.mul_eq_zero.1 hadvance).resolve_right (Nat.ne_of_gt hi)
  · intro hquiet
    rw [slot_of_quiet (fun _ _ hregular => hregular.unwritten) htxs hquiet, hstart] at hcur
    exact (Option.some.inj hcur).symm

/-- A timer that has fired is started again, unless its start time is 0. -/
theorem timer_kept_iff_zero (h : Updates svc w u read tokenDecimals data)
    (hsends : Sends svc w u tokenDecimals start) {id : Nat} {tx : Tx}
    (htimer : TimerAt (fun delta => 0 < delta) id u.index v tx) (hfired : fired id v tx = true)
    (env : Op → Env) :
    (mined env (Vault.step v tx) data).ctx[u.index]? = (Vault.step v tx).ctx[u.index]? ↔
      start = 0 := by
  rw [h.kept_iff hsends (timer_stops htimer hfired) env]
  constructor
  · intro heq
    have hzero : decodeUint256 (encodeWord 0) = some 0 := decodeUint256_encodeWord (by decide)
    rw [heq, decodeUint256_encodeWord hsends.lt, Option.some.injEq] at hzero
    exact hzero
  · rintro rfl
    rfl

end Fired

/-! ## An interval that is edited -/

/-- The vault of the owner 1, before anything is deployed. -/
def freshVault : State := initialized ⟨1⟩ Address.zero Address.zero

/-- An interval of a day from 1000 on, and an action. -/
def drawnInterval : World :=
  run (World.step seedServices) World.empty
    [.addNode 0 "a" (optionOf .condition (intervalStepType ⟨7⟩)) "" 1000,
      .addNode 0 "a" (optionOf .action (sampleAction ⟨9⟩)) "" 1000,
      .onConnect "a" ⟨"node-1", "node-2", .true⟩]

/-- The world after the interval has been deployed. -/
def deployedInterval : World := drawnInterval.deploy seedServices "a" none (some freshVault.ctx) none

/-- The edit makes it an interval of two days. -/
def intervalEdit : List Event :=
  [.updateNodeParams "a" "node-1"
    [("interval", .object [("value", .num (.finite 2)), ("unit", .str "days")])]]

/-- The world after the edit of the deployed interval. -/
def editedInterval : World := run (World.step seedServices) deployedInterval intervalEdit

/-- What the editor gets for the automation. -/
def answerFor (w : World) (v : State) (onChainId : Option Nat) : Except DeployError EncodeResult :=
  (handleDeploy seedServices w.contextSlots (some v.ctx) "a" onChainId (w.drafts "a").graph none).2

/-- The vault after the transactions of that answer. -/
def minedAnswer (v : State) (answer : Except DeployError EncodeResult) : State :=
  match answer with
  | .ok data => mined (fun _ => hosting intervalCondition 1000) v data
  | .error _ => v

/-- The vault after the deployment has been mined. -/
def deployedVault : State := minedAnswer freshVault (answerFor drawnInterval freshVault none)

/-- The interval has fired once. -/
def firedVault : State := run Vault.step deployedVault [executeAt intervalCondition 2000]

theorem interval_reachable : Reachable (World.step seedServices) World.Initial (fun _ _ => True)
    editedInterval := by
  have hdeployed : deployedInterval = drawnInterval.step seedServices
      (.handleDeploy "a" none (some freshVault.ctx) none) := rfl
  have hrun : Reachable (World.step seedServices) World.Initial (fun _ _ => True) deployedInterval := by
    rw [hdeployed]
    exact (reachable_run seedServices _).next trivial
  exact hrun.run (admitted_true _ _ _)

/-- The edited automation is updated on whatever vault. -/
theorem interval_updates {v : State} {data : EncodeResult}
    (h : answerFor editedInterval v (some 0) = .ok data) :
    Updates seedServices editedInterval ⟨"a", 0, 1, 0⟩ (some v.ctx) none data := by
  refine ⟨interval_reachable, by decide +kernel, ?_, 0, h⟩
  decide +kernel

/-- Before it has fired, the interval can be edited. -/
theorem update_keeps_schedule_iff_sample :
    Undisturbed (startTimeFor (editedInterval.drafts "a").graph.nodes seedServices.stepSchemas)
      (editedInterval.slotMapping seedServices "a" none) deployedVault.ctx
      (timeSlotName (nodeIdOf 1)) 0 (encodeWord 1000) := by
  obtain ⟨data, hdata⟩ : ∃ data, answerFor editedInterval deployedVault (some 0) = .ok data :=
    exists_of_isOk (by decide +kernel)
  have hcur : deployedVault.ctx[0]? = some (encodeWord 1000) := by decide +kernel
  have hkept : (minedAnswer deployedVault (answerFor editedInterval deployedVault (some 0))).ctx[0]? =
      deployedVault.ctx[0]? := by
    decide +kernel
  rw [hdata] at hkept
  exact (update_keeps_schedule_iff (interval_updates hdata) hcur _).1 hkept

/-- Whether a start time is there, and is this number. -/
def isTime (seconds : Int) : Option JsValue → Bool
  | some (.num x) => x = .ofInt seconds
  | _ => false

/-- A start time is the number of these seconds. -/
theorem isTime_iff {seconds : Int} {startTime : Option JsValue} :
    isTime seconds startTime = true ↔ startTime = some (.num (.ofInt seconds)) := by
  constructor
  · intro h
    rw [isTime.eq_def] at h
    split at h
    · rw [of_decide_eq_true h]
    · cases h
  · rintro rfl
    exact decide_eq_true rfl

/-- The interval fires, its duration is edited, and the update sets the schedule back to the start. -/
theorem interval_rewound :
    ¬ ∀ (svc : Services) (w : World) (u : SlotUse) (v : State) (deployed updated : EncodeResult)
      (executions : List Tx) (edits : List Event) (env : Op → Env),
      (handleDeploy svc w.contextSlots (some v.ctx) u.automationId none
        (w.drafts u.automationId).graph none).2 = .ok deployed →
      u ∈ (w.deploy svc u.automationId none (some v.ctx) none).uses →
      (∀ tx ∈ executions, ∃ id, tx.op = .executeAutomation id) →
      let v' := run Vault.step (mined env v deployed) executions
      let w' := run (World.step svc) (w.deploy svc u.automationId none (some v.ctx) none) edits
      startTimeFor (w'.drafts u.automationId).graph.nodes svc.stepSchemas
          (timeSlotName (nodeIdOf u.number)) =
        startTimeFor (w.drafts u.automationId).graph.nodes svc.stepSchemas
          (timeSlotName (nodeIdOf u.number)) →
      Updates svc w' u (some v'.ctx) none updated →
      (mined env v' updated).ctx[u.index]? = v'.ctx[u.index]? := by
  intro h
  obtain ⟨deployed, hdeployed⟩ :
      ∃ data, answerFor drawnInterval freshVault none = .ok data :=
    exists_of_isOk (by decide +kernel)
  obtain ⟨updated, hupdated⟩ : ∃ data, answerFor editedInterval firedVault (some 0) = .ok data :=
    exists_of_isOk (by decide +kernel)
  have hvault : mined (fun _ => hosting intervalCondition 1000) freshVault deployed =
      deployedVault := by
    rw [deployedVault, hdeployed]
    rfl
  -- both graphs give the start time 1000
  have hstart (nodes : List EditorNode)
      (hnodes : isTime 1000 (startTimeFor nodes seedServices.stepSchemas (timeSlotName (nodeIdOf 1))) =
        true) :
      startTimeFor nodes seedServices.stepSchemas (timeSlotName (nodeIdOf 1)) =
        some (.num (.ofInt 1000)) := isTime_iff.1 hnodes
  have hsame : startTimeFor (editedInterval.drafts "a").graph.nodes seedServices.stepSchemas
        (timeSlotName (nodeIdOf 1)) =
      startTimeFor (drawnInterval.drafts "a").graph.nodes seedServices.stepSchemas
        (timeSlotName (nodeIdOf 1)) := by
    rw [hstart _ (by decide +kernel), hstart _ (by decide)]
  have hkept := h seedServices drawnInterval ⟨"a", 0, 1, 0⟩ freshVault deployed updated
    [executeAt intervalCondition 2000] intervalEdit (fun _ => hosting intervalCondition 1000)
    hdeployed (by decide +kernel)
    (fun tx htx => ⟨0, by rw [List.mem_singleton.1 htx]; rfl⟩)
  simp only [hvault] at hkept
  have hfinal := hkept hsame (interval_updates hupdated)
  have hmoved : (minedAnswer firedVault (answerFor editedInterval firedVault (some 0))).ctx[0]? ≠
      firedVault.ctx[0]? := by
    decide +kernel
  rw [hupdated] at hmoved
  exact hmoved hfinal

end StrategyBuilder.Automation
