import StrategyBuilder.Backend.SeedCatalog
import StrategyBuilder.Contracts.ExecutionPath
import StrategyBuilder.Mcp.CatalogDrift

/-!
# Intents and executions

An intent lists actions, and `crossCheckIntent` compares the list with the action nodes in the order in
which the graph lists them. The vault runs the actions in the order of the edges, from the start node
on. The period of an intent is compared with that of the first condition in the list that has one.

`accepted_intents_match_iff`: every intent without a difference says what the automation does exactly if
the two orders come to the same, and the first period in the list, as `Number` reads it, is the integer
that the encoder reads in the start node's.
-/

set_option autoImplicit false

namespace StrategyBuilder.Mcp

open StrategyBuilder.Automation
open StrategyBuilder.Backend (Services bfs nodeMap indexMap encodeStep encodeSteps EncodeResult
  EthersCoder componentNumber intWord ethersServices ethersCoder plainAddress)
open StrategyBuilder.Contracts (Address)
open StrategyBuilder.Contracts.Vault
open StrategyBuilder.Lib
open StrategyBuilder.Lib.Js
open StrategyBuilder.Shared

/-! ## What an automation shows of itself -/

section Shown

variable (deps : ProposeDeps) (svc : Services) (graph : EditorGraph)

/-- The node that a step is encoded from. -/
def stepNode (i : Nat) : Option EditorNode :=
  match bfs graph with
  | .ok order => (order[i]?).bind (nodeMap graph)
  | .error _ => none

/-- What the decoder makes of a node. -/
def shownNode (node : EditorNode) : Option DecodedStep :=
  match decodeEntry deps.catalog deps.tokenDecimals node with
  | .ok (decoded, _) => decoded
  | .error _ => none

/-- The step of the summary that belongs to the `i`-th step on the chain. -/
def shownStep (i : Nat) : Option DecodedStep := (stepNode graph i).bind (shownNode deps)

/-- The component with the period of a step type, and its place: the first that is a duration. -/
def periodComponent (row : Backend.StepType) : Option (AbiComponent × Nat) :=
  row.abiFragment.zipIdx.find? fun e =>
    ((row.paramSchema.bind fun schema => Record.own? schema.properties e.1.name).bind
      FieldSchema.widget) = some .duration

/-- The start node is a condition with a period in this component of its row. -/
structure TriggerAt (node : EditorNode) (row : Backend.StepType) (c : AbiComponent) (i : Nat) :
    Prop where
  start : stepNode graph 0 = some node
  condition : node.type = .condition
  known : svc.stepTypeMap node.stepTypeId = some row
  component : periodComponent row = some (c, i)

/-- The period of the trigger in the encoded automation: the integer in the data of its first step. -/
def EncodedPeriod (steps : List Step) (n : Int) : Prop :=
  ∃ node row c i step, TriggerAt svc graph node row c i ∧ steps[0]? = some step ∧
    Backend.Fits c.type n ∧ Abi.At step.data (32 * i) (intWord n)

/-- The integer that encoder and coder read in what the start node gives for its period. -/
def GivenPeriod (address : String → Option Nat) (slotMapping : Record Nat) (n : Int) : Prop :=
  ∃ node row c i, TriggerAt svc graph node row c i ∧
    componentNumber address node.params slotMapping row.paramSchema c = some n

/-- The intent is what the automation does when every condition holds and its actions succeed: as many
actions as it runs, each as the one that it runs in this place, and the period of its first step. -/
structure Matches (steps : List Step) (intent : FlatIntent) : Prop where
  actions : ∀ (v : State) (id : Nat) (env : Env) (sender : Address),
    (v.automations id).steps = steps → Answering env steps v.ctx.length (fun _ => true) →
    List.Forall₂ (fun want i => ∃ d, shownStep deps graph i = some d ∧ IntentAction.Agrees want d)
      intent.actions (executedActions env sender v.owner steps (startLoop v (v.automations id)))
  period : ∀ want, intent.periodSeconds = some want →
    ∃ n, EncodedPeriod svc graph steps n ∧ want = .ofInt n

/-- Whatever the decoder shows of `e`, it shows of `d`. -/
structure Shows (d e : DecodedStep) : Prop where
  token : ∀ g, e.token = some g → ∃ w, d.token = some w ∧ w.toLower = g.toLower
  amount : ∀ g, e.amount = some g → d.amount = some g
  direction : ∀ g, e.direction = some g → ∃ w, d.direction = some w ∧ valueToString w = valueToString g

/-- The action nodes of the list show what the actions show that are run, one by one, and the first
period in the list is the integer that the encoder reads in that of the start node, or no number. -/
structure Ordered (address : String → Option Nat) (slotMapping : Record Nat) (steps : List Step) :
    Prop where
  actions : List.Forall₂ (fun node i => ∀ d e, shownNode deps node = some d →
      shownStep deps graph i = some e → Shows d e)
    (graph.nodes.filter fun n => n.type = .action) (actionsOnPath steps)
  period : ∃ p, extractTriggerSeconds graph deps.catalog = some p ∧
    (p = .nan ∨ ∃ n, GivenPeriod svc graph address slotMapping n ∧ p = .ofInt n)

end Shown

/-! ## What an accepted graph has -/

section Accepted

variable {deps : ProposeDeps} {graph : EditorGraph} {node : EditorNode}

/-- A raw node has the step type of a node of the graph. -/
theorem mapGraphToRaw_stepType {raw : EditorGraph} {stepSchemas : Record StepSchema}
    {tokenDecimals : Option (Record Nat)} (h : mapGraphToRaw graph stepSchemas tokenDecimals = .ok raw)
    (hnode : node ∈ raw.nodes) : ∃ n ∈ graph.nodes, n.stepTypeId = node.stepTypeId := by
  obtain ⟨n, hn, hmap⟩ := forall₂_right (mapM_forall₂ (mapGraphToRaw_ok h)) hnode
  obtain ⟨params, -, rfl⟩ := mapNodeToRaw_ok hmap
  exact ⟨n, hn, rfl⟩

/-- The raw graph is the mapped one. -/
theorem buildRaw_graph {raw : EditorGraph} {overrides : Record HexData}
    (h : buildRaw deps graph = .ok (raw, overrides)) :
    mapGraphToRaw graph (catalogSchemas deps.catalog) (some deps.tokenDecimals) = .ok raw := by
  rw [buildRaw] at h
  cases hraw : mapGraphToRaw graph (catalogSchemas deps.catalog) (some deps.tokenDecimals) with
  | error e =>
    rw [hraw] at h
    cases h
  | ok raw' =>
    rw [hraw] at h
    cases hoverrides : buildContextOverrides graph.nodes (catalogSchemas deps.catalog) with
    | error e =>
      simp only [hoverrides] at h
      cases h
    | ok overrides' =>
      simp only [hoverrides] at h
      cases h
      rfl

/-- Every step type of an accepted graph is in the catalog. -/
theorem Accepts.raw_known {params : ProposeParams} {h : McpHistory} {draft : Draft}
    (ha : Accepts deps params h draft) : ∀ node ∈ draft.rawGraph.nodes,
      isDecoded deps.catalog node = true := by
  intro node hnode
  obtain ⟨n, hn, hsame⟩ := mapGraphToRaw_stepType (buildRaw_graph ha.raw) hnode
  have hknown := ha.known n hn
  rw [isDecoded, hsame] at hknown
  exact hknown

/-- Every node of an accepted graph is decoded. -/
theorem shownNode_isSome {execution : Option ExecutionMode} {summary : DecodedSummary}
    (hsummary : decodeRawGraph graph deps.catalog deps.tokenDecimals execution = .ok summary)
    (hknown : ∀ node ∈ graph.nodes, isDecoded deps.catalog node = true) (hnode : node ∈ graph.nodes) :
    ∃ d, shownNode deps node = some d := by
  obtain ⟨entries, hentries, -, -⟩ := decodeRawGraph_ok hsummary
  obtain ⟨⟨decoded, ws⟩, -, hentry⟩ := forall₂_left hentries hnode
  have hdecoded := decodeEntry_isDecoded hentry
  rw [hknown node hnode] at hdecoded
  obtain ⟨d, rfl⟩ := Option.isSome_iff_exists.1 hdecoded
  exact ⟨d, by simp only [shownNode, hentry]⟩

/-- What is decoded keeps the kind of its node. -/
theorem decodeEntry_category {catalog : DecoderCatalog} {tokenDecimals : Record Nat}
    {d : DecodedStep} {ws : List DecodeWarning}
    (h : decodeEntry catalog tokenDecimals node = .ok (some d, ws)) : d.category = node.type := by
  rw [decodeEntry] at h
  split at h
  · cases h
  · cases h
    rfl
  · rename_i step _
    rw [decodeNode_eq] at h
    cases hamount : nodeAmount tokenDecimals step node with
    | error e =>
      rw [hamount] at h
      cases h
    | ok amount =>
      rw [hamount] at h
      cases h
      rfl

/-- The decoded actions are those of the action nodes, in the order of the list. -/
theorem decodedActions_nodes {execution : Option ExecutionMode} {summary : DecodedSummary}
    (hsummary : decodeRawGraph graph deps.catalog deps.tokenDecimals execution = .ok summary)
    (hknown : ∀ node ∈ graph.nodes, isDecoded deps.catalog node = true) :
    List.Forall₂ (fun node d => shownNode deps node = some d)
      (graph.nodes.filter fun n => n.type = .action) (decodedActions summary) := by
  obtain ⟨entries, hentries, hsteps, -⟩ := decodeRawGraph_ok hsummary
  have hdecoded := decodedEntries hentries
  rw [List.filter_eq_self.2 hknown, ← hsteps] at hdecoded
  have hshown : List.Forall₂ (fun node d => shownNode deps node = some d ∧ d.category = node.type)
      graph.nodes summary.steps := by
    refine hdecoded.imp ?_
    rintro node d ⟨ws, hentry⟩
    exact ⟨by simp only [shownNode, hentry], decodeEntry_category hentry⟩
  have hfilter := List.rel_filter (p := fun n : EditorNode => decide (n.type = .action))
    (q := fun d : DecodedStep => decide (d.category = .action)) ?_ hshown
  · exact hfilter.imp fun _ _ h => h.1
  · rintro node d ⟨-, hcategory⟩
    simp only [hcategory]

/-- Every step that an execution runs is shown. -/
theorem shownStep_isSome {execution : Option ExecutionMode} {summary : DecodedSummary}
    (hsummary : decodeRawGraph graph deps.catalog deps.tokenDecimals execution = .ok summary)
    (hknown : ∀ node ∈ graph.nodes, isDecoded deps.catalog node = true) {svc : Backend.Services}
    {slotMapping : Record Nat} {steps : List Step}
    (hsteps : encodeSteps svc graph slotMapping = .ok steps) {i : Nat} (hi : i < steps.length) :
    ∃ d, shownStep deps graph i = some d := by
  cases horder : bfs graph with
  | error e =>
    rw [encodeSteps, horder] at hsteps
    cases hsteps
  | ok order =>
    rw [Backend.encodeSteps_of_bfs horder] at hsteps
    have hencoded := mapM_forall₂ hsteps
    have hlt : i < order.length := hencoded.length_eq ▸ hi
    obtain ⟨node, -, -, hmap, -⟩ := Backend.encodeStep_isOk.1 ⟨_, hencoded.get hlt hi⟩
    obtain ⟨d, hd⟩ := shownNode_isSome hsummary hknown (Backend.nodeMap_some hmap).1
    refine ⟨d, ?_⟩
    rw [List.get_eq_getElem] at hmap
    simp only [shownStep, stepNode, horder, List.getElem?_eq_getElem hlt, Option.bind_some, hmap, hd]

/-- The actions of the path are steps. -/
theorem actionsOnPath_lt {steps : List Step} {i : Nat} (hi : i ∈ actionsOnPath steps) :
    i < steps.length := by
  have hpath := (List.mem_filter.1 hi).1
  cases hp : path steps maxSteps 0 with
  | none =>
    rw [hp] at hpath
    cases hpath
  | some p =>
    rw [hp] at hpath
    exact path_lt hp i hpath

/-! ## The period of the first step -/

theorem periodComponent_getElem? {row : Backend.StepType} {c : AbiComponent} {i : Nat}
    (h : periodComponent row = some (c, i)) : row.abiFragment[i]? = some c :=
  List.mk_mem_zipIdx_iff_getElem?.1 (List.mem_of_find?_eq_some h)

/-- What is encoded as the period of the trigger is what the start node gives for it. -/
theorem encodedPeriod_iff {svc : Services} {address : String → Option Nat}
    (coder : EthersCoder svc address) {slotMapping : Record Nat} {steps : List Step}
    (h : encodeSteps svc graph slotMapping = .ok steps) {n : Int} :
    EncodedPeriod svc graph steps n ↔ GivenPeriod svc graph address slotMapping n := by
  cases horder : bfs graph with
  | error e =>
    rw [encodeSteps, horder] at h
    cases h
  | ok order =>
    rw [Backend.encodeSteps_of_bfs horder] at h
    have hencoded := mapM_forall₂ h
    -- the integer in the data of the first step
    have hfirst {node : EditorNode} {row : Backend.StepType} {c : AbiComponent} {i : Nat}
        (ht : TriggerAt svc graph node row c i) : ∃ step k, steps[0]? = some step ∧
          componentNumber address node.params slotMapping row.paramSchema c = some k ∧
          Abi.At step.data (32 * i) (intWord k) := by
      have hstart := ht.start
      simp only [stepNode, horder] at hstart
      obtain ⟨id, hid, hnode⟩ := Option.bind_eq_some_iff.1 hstart
      obtain ⟨step, hstep, hok⟩ := forall₂_getElem? hencoded hid
      obtain ⟨row', hrow, -, -, hdata⟩ := encodeStep_call hnode hok
      rw [ht.known, Option.some.injEq] at hrow
      subst hrow
      obtain ⟨ns, hns, hwords⟩ := (Backend.encodeParams_eq_ok coder).1 hdata
      obtain ⟨k, hik, hk⟩ := forall₂_getElem? hns (periodComponent_getElem? ht.component)
      refine ⟨step, k, hstep, hk, ?_⟩
      rw [hwords]
      exact Backend.at_flatMap_intWord hik
    constructor
    · rintro ⟨node, row, c, i, step, ht, hstep, hfits, hat⟩
      obtain ⟨step', k, hstep', hk, hat'⟩ := hfirst ht
      rw [hstep, Option.some.injEq] at hstep'
      subst hstep'
      have hwords := hat.eq_of_length hat' (by simp [intWord])
      rw [Backend.intWord_injective hfits (Backend.componentNumber_eq_some.1 hk).2 hwords]
      exact ⟨node, row, c, i, ht, hk⟩
    · rintro ⟨node, row, c, i, ht, hn⟩
      obtain ⟨step, k, hstep, hk, hat⟩ := hfirst ht
      rw [hn, Option.some.injEq] at hk
      subst hk
      exact ⟨node, row, c, i, step, ht, hstep, (Backend.componentNumber_eq_some.1 hn).2, hat⟩

/-- A start node has one period. -/
theorem GivenPeriod.unique {svc : Services} {address : String → Option Nat} {slotMapping : Record Nat}
    {m n : Int} (hm : GivenPeriod svc graph address slotMapping m)
    (hn : GivenPeriod svc graph address slotMapping n) : m = n := by
  obtain ⟨node, row, c, i, ht, hm⟩ := hm
  obtain ⟨node', row', c', i', ht', hn⟩ := hn
  obtain rfl := Option.some.inj (ht.start.symm.trans ht'.start)
  obtain rfl := Option.some.inj (ht.known.symm.trans ht'.known)
  cases ht.component.symm.trans ht'.component
  exact Option.some.inj (hm.symm.trans hn)

end Accepted

/-! ## When intents match -/

section Intents

variable {deps : ProposeDeps} {svc : Services} {graph : EditorGraph} {steps : List Step}
  {intent : FlatIntent}

/-- It does not depend on the vault, nor on the rest of the world, what an execution runs in which every
condition holds. -/
theorem matches_iff : Matches deps svc graph steps intent ↔
    List.Forall₂ (fun want i => ∃ d, shownStep deps graph i = some d ∧ IntentAction.Agrees want d)
      intent.actions (actionsOnPath steps) ∧
    ∀ want, intent.periodSeconds = some want →
      ∃ n, EncodedPeriod svc graph steps n ∧ want = .ofInt n := by
  constructor
  · intro h
    let v : State := { initialized ⟨1⟩ Address.zero Address.zero with
      automations := fun _ => ⟨true, false, steps⟩ }
    have hactions := h.actions v 0 _ ⟨1⟩ rfl (sampleEnv_answering steps v.ctx.length)
    rw [executedActions_eq (sampleEnv_answering steps v.ctx.length) ⟨rfl, rfl⟩ rfl] at hactions
    exact ⟨hactions, h.period⟩
  · rintro ⟨hactions, hperiod⟩
    refine ⟨fun v id env sender _ henv => ?_, hperiod⟩
    rw [executedActions_eq henv ⟨rfl, rfl⟩ rfl]
    exact hactions

/-- What the intent says of an action, where the decoder shows nothing `x`. -/
def declare (x : String) (d : DecodedStep) : IntentAction where
  token := d.token.or (some x)
  direction := d.direction.or (some (.str x))
  amount := d.amount.or (some x)

theorem agree_or {α : Type} {same : α → α → Bool} (hsame : ∀ g, same g g = true) (x : α)
    (got : Option α) : Agree same (got.or (some x)) got := by
  intro w g hw hg
  rw [hg, Option.some_or, Option.some.injEq] at hw
  subst hw
  exact hsame g

theorem declare_agrees (x : String) (d : DecodedStep) : (declare x d).Agrees d := by
  constructor
  · apply agree_or
    exact fun g => decide_eq_true rfl
  · apply agree_or
    exact fun g => decide_eq_true rfl
  · apply agree_or
    exact fun g => decide_eq_true rfl

/-- What agrees with an action whatever is said of what the other does not show, the other shows. -/
theorem shows_of_declare {d e : DecodedStep} (ha : (declare "a" d).Agrees e)
    (hb : (declare "b" d).Agrees e) : Shows d e := by
  constructor
  · intro g hg
    cases hd : d.token with
    | some w => exact ⟨w, rfl, of_decide_eq_true (ha.token w g (by rw [declare, hd]; rfl) hg)⟩
    | none =>
      -- a token that `d` does not show agrees with no two texts at once
      have hga := of_decide_eq_true (ha.token "a" g (by rw [declare, hd]; rfl) hg)
      have hgb := of_decide_eq_true (hb.token "b" g (by rw [declare, hd]; rfl) hg)
      rw [← hgb, toLower_eq (s := "a") (t := "a") (by decide),
        toLower_eq (s := "b") (t := "b") (by decide)] at hga
      exact absurd hga (by decide)
  · intro g hg
    cases hd : d.amount with
    | some w =>
      have hw := of_decide_eq_true (ha.amount w g (by rw [declare, hd]; rfl) hg)
      rw [hw]
    | none =>
      have hga := of_decide_eq_true (ha.amount "a" g (by rw [declare, hd]; rfl) hg)
      have hgb := of_decide_eq_true (hb.amount "b" g (by rw [declare, hd]; rfl) hg)
      rw [← hgb] at hga
      exact absurd hga (by decide)
  · intro g hg
    cases hd : d.direction with
    | some w => exact ⟨w, rfl, of_decide_eq_true (ha.direction w g (by rw [declare, hd]; rfl) hg)⟩
    | none =>
      have hga := of_decide_eq_true (ha.direction (.str "a") g (by rw [declare, hd]; rfl) hg)
      have hgb := of_decide_eq_true (hb.direction (.str "b") g (by rw [declare, hd]; rfl) hg)
      rw [← hgb] at hga
      exact absurd hga (by decide)

/-- What agrees with a shown step agrees with the step. -/
theorem agrees_of_shows {want : IntentAction} {d e : DecodedStep} (h : want.Agrees d)
    (hshows : Shows d e) : want.Agrees e := by
  constructor
  · intro w g hw hg
    obtain ⟨w', hw', hsame⟩ := hshows.token g hg
    exact decide_eq_true ((of_decide_eq_true (h.token w w' hw hw')).trans hsame)
  · intro w g hw hg
    exact h.amount w g hw (hshows.amount g hg)
  · intro w g hw hg
    obtain ⟨w', hw', hsame⟩ := hshows.direction g hg
    exact decide_eq_true ((of_decide_eq_true (h.direction w w' hw hw')).trans hsame)

/-- The start node's period is the first of the list where all periods without a difference are those of
the trigger. -/
theorem period_iff {triggerSeconds : Option JsNumber} {address : String → Option Nat}
    {slotMapping : Record Nat} :
    (∀ declared, (∀ want got, declared = some want → triggerSeconds = some got →
        want = got ∧ want ≠ .nan) → ∀ want, declared = some want →
          ∃ n, GivenPeriod svc graph address slotMapping n ∧ want = .ofInt n) ↔
      ∃ p, triggerSeconds = some p ∧
        (p = .nan ∨ ∃ n, GivenPeriod svc graph address slotMapping n ∧ p = .ofInt n) := by
  constructor
  · intro h
    cases triggerSeconds with
    | none =>
      -- nothing is compared, and two periods cannot both be the one
      obtain ⟨m, hm, hone⟩ := h (some (.ofInt 1)) (fun _ _ _ hnone => nomatch hnone) _ rfl
      obtain ⟨n, hn, htwo⟩ := h (some (.ofInt 2)) (fun _ _ _ hnone => nomatch hnone) _ rfl
      rw [hm.unique hn, ← htwo] at hone
      exact absurd hone (by decide)
    | some p =>
      refine ⟨p, rfl, ?_⟩
      by_cases hnan : p = .nan
      · exact Or.inl hnan
      · refine Or.inr (h (some p) ?_ p rfl)
        intro want got hwant hgot
        cases hwant
        cases hgot
        exact ⟨rfl, hnan⟩
  · rintro ⟨p, rfl, hp⟩ declared hagree want rfl
    obtain ⟨rfl, hnan⟩ := hagree want p rfl rfl
    exact hp.resolve_left hnan

/-- **An intent without a difference is what the automation does**, for every such intent of an accepted
graph, exactly if the actions of the list show what the actions show that are run, one by one, and the
first period of the list is the integer that the encoder reads in that of the start node. -/
theorem accepted_intents_match_iff {params : ProposeParams} {draft : Draft}
    {ω : Nat → (c : McpCall) → Except Thrown c.Reply} {n : Nat} {stored : Except Thrown String}
    (hproposed : ⟨.createDraft draft, stored⟩ ∈ ((proposeAutomation deps params).run ω n).1)
    {b : BackendState} {address : String → Option Nat} (coder : EthersCoder b.svc address)
    {r : EncodeResult}
    (hencoded : b.encode draft.automationId draft.rawGraph draft.contextOverrides = .ok r) :
    (∀ intent, (checkOf deps intent draft.rawGraph draft.summary draft.ownerOnly).ok = true →
      Matches deps b.svc draft.rawGraph r.steps intent) ↔
    Ordered deps b.svc draft.rawGraph address (b.slotMapping draft) r.steps := by
  have haccepts := proposal_accepts hproposed
  have hknown := haccepts.raw_known
  have hnodes := decodedActions_nodes haccepts.summary hknown
  have hsteps := (encode_created hencoded).1
  simp only [checkOf, crossCheckIntent_ok_iff, matches_iff, encodedPeriod_iff coder hsteps]
  constructor
  · intro h
    -- the intents that declare what the decoder shows, and `x` for the rest
    have hdeclare (x : String) (declared : Option JsNumber)
        (hperiod : ∀ want got, declared = some want →
          extractTriggerSeconds draft.rawGraph deps.catalog = some got → want = got ∧ want ≠ .nan) :=
      h ⟨executionOf draft.ownerOnly, declared, (decodedActions draft.summary).map (declare x)⟩
        ⟨rfl, List.forall₂_map_left_iff.2 (List.forall₂_same.2 fun d _ => declare_agrees x d), hperiod⟩
    have hactions (x : String) := List.forall₂_map_left_iff.1
      (hdeclare x none fun _ _ hnone => nomatch hnone).1
    have hshows : List.Forall₂ (fun d i => ∀ e, shownStep deps draft.rawGraph i = some e → Shows d e)
        (decodedActions draft.summary) (actionsOnPath r.steps) := by
      refine (hactions "a").mp (fun d i ha hb e he => ?_) (hactions "b")
      obtain ⟨ea, hea, hagrees⟩ := ha
      obtain ⟨eb, heb, hagrees'⟩ := hb
      rw [he] at hea heb
      cases hea
      cases heb
      exact shows_of_declare hagrees hagrees'
    refine ⟨forall₂_trans ?_ hnodes hshows, period_iff.1 fun declared hagree want hwant => ?_⟩
    · intro node d i hd hi d' e hd' he
      rw [hd] at hd'
      cases hd'
      exact hi e he
    · exact (hdeclare "a" declared hagree).2 want hwant
  · rintro ⟨hactions, hperiod⟩ intent ⟨-, hagrees, hagree⟩
    refine ⟨?_, period_iff.2 hperiod intent.periodSeconds hagree⟩
    have hwants := forall₂_trans (T := fun want node => ∃ d, shownNode deps node = some d ∧
      IntentAction.Agrees want d) (fun want d node hwant hnode => ⟨d, hnode, hwant⟩) hagrees hnodes.flip
    have hboth := forall₂_trans (T := fun want i => ∀ e, shownStep deps draft.rawGraph i = some e →
      IntentAction.Agrees want e) ?_ hwants hactions
    · -- what is run is shown
      have hflip := forall₂_of_mem (P := fun i want => ∃ e, shownStep deps draft.rawGraph i = some e ∧
        IntentAction.Agrees want e) hboth.flip ?_
      · exact hflip.flip
      · intro i hi want hwant
        obtain ⟨e, he⟩ := shownStep_isSome haccepts.summary hknown hsteps (actionsOnPath_lt hi)
        exact ⟨e, he, hwant e he⟩
    · rintro want node i ⟨d, hd, hwant⟩ hi e he
      exact agrees_of_shows hwant (hi d e hd he)

end Intents

/-! ## Two supplies -/

/-- An interval with its period only. -/
def periodStep : CatalogStep where
  name := "Interval Condition"
  properties := some [("interval", swapField .duration none)]
  required := ["interval"]
  abiFragment := some [⟨"interval", .uint256⟩]

/-- A supply to Aave with its mode only, which is decoded as a direction. -/
def supplyStep : CatalogStep where
  name := "Aave V3 Supply"
  properties := some [("mode", swapField .aaveAmountMode none)]
  required := ["mode"]
  abiFragment := some [⟨"mode", .uint8⟩]

/-- An interval and a supply, without a reader of pools. -/
def supplyDeps : ProposeDeps := ⟨[("interval", periodStep), ("supply", supplyStep)], [], false⟩

/-- The row that a step of the catalog comes from. -/
def rowOf (id : String) (contractAddress : Address) (selector : Selector) (step : CatalogStep) :
    Backend.StepType where
  id := id
  contractAddress := contractAddress
  selector := selector
  abiFragment := step.abiFragment.getD []
  paramSchema := step.stepSchema.paramSchema

/-- The backend with both rows. -/
def supplyBackend : BackendState where
  svc := ethersServices [rowOf "interval" ⟨7⟩ Contracts.checkSelector periodStep,
    rowOf "supply" ⟨9⟩ 0x09c5eabe supplyStep] plainAddress
  slots := []
  onChainCtx := some []

/-- Every minute, one supply and then the other. The list has "n2" before "n3". -/
def supplyGraph (first second : String) : EditorGraph where
  nodes := [⟨"n1", .condition, "interval", [("interval", .num (.ofInt 60))]⟩,
    ⟨"n2", .action, "supply", [("mode", .num (.ofInt 0))]⟩,
    ⟨"n3", .action, "supply", [("mode", .num (.ofInt 2))]⟩]
  edges := [⟨"n1", first, .true⟩, ⟨first, second, .out⟩]

/-- First "n2", and then "n3". -/
def supplyIntent : FlatIntent where
  execution := .publicMode
  periodSeconds := some (.ofInt 60)
  actions := [⟨none, some (.str "0"), none⟩, ⟨none, some (.str "2"), none⟩]

/-- Two supplies of these amounts, after an interval. -/
def supplyParams (first second : String) : ProposeParams where
  vaultAddress := "0xaa"
  nodes := (supplyGraph first second).nodes.map fun n => ⟨n.id, some n.type, n.stepTypeId, n.params⟩
  edges := (supplyGraph first second).edges.map fun e => ⟨e.source, e.target, some e.sourceHandle⟩
  intent := supplyIntent

/-- The draft of this proposal. -/
def supplyDraft (first second : String) : Draft where
  vaultAddress := "0xaa"
  automationId := "a1"
  rawGraph := supplyGraph first second
  contextOverrides := []
  ownerOnly := false
  summary := {
    steps := [⟨"Interval Condition", .condition, none, none, none, none, none⟩,
      ⟨"Aave V3 Supply", .action, none, none, none, none, some (.num (.ofInt 0))⟩,
      ⟨"Aave V3 Supply", .action, none, none, none, none, some (.num (.ofInt 2))⟩]
    execution := some .publicMode
    warnings := [] }
  catalog := supplyDeps.catalog

/-- The steps that are encoded, with the modes in the order of the edges. -/
def supplySteps (first second : Nat) : List Step :=
  [⟨.condition, ⟨7⟩, Contracts.checkSelector, 1, DONE, Abi.encodeWord 60⟩,
    ⟨.action, ⟨9⟩, 0x09c5eabe, 2, DONE, Abi.encodeWord first⟩,
    ⟨.action, ⟨9⟩, 0x09c5eabe, DONE, DONE, Abi.encodeWord second⟩]

/-- What the backend encodes of it. -/
def supplyResult (first second : Nat) : EncodeResult where
  automationCalldata := .createAutomation (supplySteps first second)
  contextCalldata := none
  functionName := "createAutomation"
  steps := supplySteps first second
  ownerOnly := false
  stepCount := 3
  requiresContextTx := false
  contextChanges := []

/-- Everything succeeds, with this backend. -/
def supplyReply (_ : Nat) : (c : McpCall) → Except Thrown c.Reply
  | .encode _ automationId graph contextOverrides =>
      match supplyBackend.encode automationId graph contextOverrides with
      | .ok r => .ok (responseOf r)
      | .error _ => .error (.error "Error" "Bad Request")
  | .createDraft _ => .ok "d1"
  | c => deployMoment.reply c

/-- The proposal. -/
def supplyProposal (first second : String) : McpHistory × Except Thrown ProposeResult :=
  (proposeAutomation supplyDeps (supplyParams first second)).run supplyReply 0

theorem Shows.refl (d : DecodedStep) : Shows d d where
  token g hg := ⟨g, hg, rfl⟩
  amount _ hg := hg
  direction g hg := ⟨g, hg, rfl⟩

/-- The edges run as the list does. -/
theorem supplies_ordered : Ordered supplyDeps supplyBackend.svc (supplyGraph "n2" "n3") plainAddress []
    (supplySteps 0 2) := by
  have hpath : actionsOnPath (supplySteps 0 2) = [1, 2] := by decide
  have hself (i : Nat) (node : EditorNode) (hnode : stepNode (supplyGraph "n2" "n3") i = some node)
      (d e : DecodedStep) (hd : shownNode supplyDeps node = some d)
      (he : shownStep supplyDeps (supplyGraph "n2" "n3") i = some e) : Shows d e := by
    rw [shownStep, hnode, Option.bind_some, hd] at he
    cases he
    exact Shows.refl d
  constructor
  · rw [hpath]
    exact .cons (hself 1 _ rfl) (.cons (hself 2 _ rfl) .nil)
  · refine ⟨.ofInt 60, ?_, Or.inr ⟨60, ?_, rfl⟩⟩
    · rfl
    · exact ⟨_, rowOf "interval" ⟨7⟩ Contracts.checkSelector periodStep, ⟨"interval", .uint256⟩, 0,
        ⟨rfl, rfl, rfl, rfl⟩, by decide⟩

/-- The supplies are run as the intent lists them. -/
theorem supplies_match :
    Matches supplyDeps supplyBackend.svc (supplyGraph "n2" "n3") (supplySteps 0 2) supplyIntent := by
  have hstored : ⟨.createDraft (supplyDraft "n2" "n3"), .ok "d1"⟩ ∈ (supplyProposal "n2" "n3").1 :=
    .tail _ (.tail _ (.head _))
  have hencoded : supplyBackend.encode "a1" (supplyGraph "n2" "n3") [] = .ok (supplyResult 0 2) := by
    decide
  exact (accepted_intents_match_iff hstored (ethersCoder (by decide)) hencoded).2 supplies_ordered
    supplyIntent rfl

/-- The list has the supplies in the other order than the edges: the intent is accepted, and the first
supply that runs is not its first. -/
theorem supplies_reversed :
    ⟨.createDraft (supplyDraft "n3" "n2"), .ok "d1"⟩ ∈ (supplyProposal "n3" "n2").1 ∧
    isBranched (supplyGraph "n3" "n2") = false ∧
    supplyBackend.encode "a1" (supplyGraph "n3" "n2") [] = .ok (supplyResult 2 0) ∧
    (checkOf supplyDeps supplyIntent (supplyGraph "n3" "n2") (supplyDraft "n3" "n2").summary
      false).ok = true ∧
    ¬ Matches supplyDeps supplyBackend.svc (supplyGraph "n3" "n2") (supplySteps 2 0) supplyIntent := by
  refine ⟨.tail _ (.tail _ (.head _)), rfl, by decide, rfl, ?_⟩
  intro hmatches
  have hpath : actionsOnPath (supplySteps 2 0) = [1, 2] := by decide
  have hactions := (matches_iff.1 hmatches).1
  rw [hpath] at hactions
  cases hactions with
  | cons hfirst _ =>
    obtain ⟨d, hd, hagrees⟩ := hfirst
    cases hd
    exact absurd (hagrees.direction _ _ rfl rfl) (by decide)

end StrategyBuilder.Mcp
