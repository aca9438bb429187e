import StrategyBuilder.Lib.Transition
import StrategyBuilder.Editor.NodeIds

/-!
# The auto-save of the editor

`use-auto-save.ts`. Every change of what is saved starts the timer anew, with a `save` that captures the
graph of that moment (`armed_save_current`). When it expires the captured graph is sent. A PATCH that
succeeds clears `isDirty` whatever has been edited since, and with it the timer.

`saved_graph_iff`: a store that is not dirty has the graph that the server accepted last, in every state
of a run, exactly if each PATCH that succeeds carries the graph that the store has by then. A request
that fails has not been accepted.
-/

set_option autoImplicit false

namespace StrategyBuilder.Editor

open StrategyBuilder.Automation
open StrategyBuilder.Lib
open StrategyBuilder.Shared

/-! ## The hook -/

/-- The arguments of the hook. -/
structure SaveTarget where
  vaultAddress : Option String
  automationId : Option String

/-- `!!value` -/
def isSet : Option String → Bool
  | none => false
  | some value => value ≠ ""

/-- What `save` captures. -/
structure SavePayload where
  graph : Snapshot
  contextVariables : List ContextVariable
  label : String
  description : String

/-- What is saved of the store. -/
def EditorState.payload (s : EditorState) : SavePayload where
  graph := s.history.present
  contextVariables := s.contextVariables
  label := s.label
  description := s.description

/-- Whether an operation puts another object or text in the place of one that `save` captures. -/
def EditorOp.renews (lib : FlowLibrary) (s : EditorState) : EditorOp → Bool
  | .onNodesChange _ | .onEdgesChange _ | .addNode _ _ _ | .updateNodeParams _ _ | .applyAutoLayout
  | .addContextVariable _ | .updateContextVariable _ _ | .setContextVariables _ => true
  -- the same array, if the connection is there already
  | .onConnect connection =>
      lib.addEdge (EditorState.connectionEdge connection) s.edges ≠ s.edges
  | .removeSelected => s.nodes.any FlowNode.selected || s.edges.any FlowEdge.selected
  | .setLabel label => label ≠ s.label
  | .setDescription description => description ≠ s.description
  | .undo => s.history.undo.isSome
  | .redo => s.history.redo.isSome
  | .paste _ => (s.clipboard.map fun clipboard => !clipboard.nodes.isEmpty).getD false
  | .markDirty | .pushSnapshot | .copySelected | .setVaultAddress _ => false

/-- The store with the hook, the requests and the server. -/
structure AutoSave where
  editor : EditorState
  /-- The timer, with what its `save` has captured. -/
  timer : Option SavePayload
  /-- The requests that have not completed. -/
  requests : List SavePayload
  /-- What the server has accepted last. -/
  server : Snapshot

/-- An edit, a timer that expires, or a request that ends. -/
inductive SaveEvent where
  | edit (op : EditorOp)
  /-- The save timer expires. -/
  | expire
  | complete (request : Nat) (ok : Bool)
  /-- The timer of the saved display expires. -/
  | showIdle

namespace AutoSave

/-- Another store. The effect runs again if `save` or `isDirty` is another. -/
def rerender (target : SaveTarget) (renewed : Bool) (editor : EditorState) (w : AutoSave) : AutoSave :=
  { w with
    editor := editor
    timer :=
      if renewed || editor.isDirty != w.editor.isDirty then
        if editor.isDirty && isSet target.automationId then some editor.payload else none
      else w.timer }

/-- `save` up to its request. -/
def send (target : SaveTarget) (payload : SavePayload) (w : AutoSave) : AutoSave :=
  if isSet target.vaultAddress && isSet target.automationId then
    { w.rerender target false (w.editor.setSaveStatus .saving) with
      requests := w.requests ++ [payload] }
  else w

/-- One event. -/
def step (lib : FlowLibrary) (target : SaveTarget) (w : AutoSave) : SaveEvent → AutoSave
  | .edit op => w.rerender target (op.renews lib w.editor) (op.apply lib w.editor)
  | .expire =>
      match w.timer with
      | none => w
      | some payload => { w with timer := none }.send target payload
  | .complete request ok =>
      match w.requests[request]? with
      | none => w
      | some payload =>
          let w := { w with requests := w.requests.eraseIdx request }
          if ok then
            { w with server := payload.graph }.rerender target false (w.editor.setSaveStatus .saved)
          else w.rerender target false (w.editor.setSaveStatus .error)
  | .showIdle => w.rerender target false (w.editor.setSaveStatus .idle)

end AutoSave

/-! ## The promise -/

/-- The same nodes with their parameters, and the same edges; which of them are selected does not
matter. -/
structure Snapshot.Same (a b : Snapshot) : Prop where
  nodes : (a.nodes.map fun n => (n.node, n.position)) = b.nodes.map fun n => (n.node, n.position)
  edges : (a.edges.map fun e => (e.id, e.edge)) = b.edges.map fun e => (e.id, e.edge)

namespace AutoSave

/-- What is not dirty has been saved. -/
def Settled (w : AutoSave) : Prop :=
  w.editor.isDirty = false → w.server.Same w.editor.history.present

/-- An edit sets `isDirty`, or leaves it and the graph as they are. -/
def Edits (lib : FlowLibrary) (w : AutoSave) : SaveEvent → Prop
  | .edit op => (op.apply lib w.editor).isDirty = true ∨
      (op.apply lib w.editor).isDirty = w.editor.isDirty ∧
        (op.apply lib w.editor).history.present.Same w.editor.history.present
  | _ => True

/-- A request that succeeds carries the graph that the store has by then. -/
def Current (w : AutoSave) : SaveEvent → Prop
  | .complete request true =>
      ∀ payload, w.requests[request]? = some payload →
        payload.graph.Same w.editor.history.present
  | _ => True

end AutoSave

/-! ## What is captured -/

section Captured

variable {lib : FlowLibrary} {target : SaveTarget}

/-- An operation that renews nothing leaves what is saved as it is. -/
theorem EditorOp.payload_apply {s : EditorState} {op : EditorOp} (h : op.renews lib s = false) :
    (op.apply lib s).payload = s.payload := by
  cases op with
  | onConnect connection =>
    -- an edge that is there already is not added
    have hedges : lib.addEdge (EditorState.connectionEdge connection) s.edges = s.edges := by
      simpa [EditorOp.renews] using h
    change EditorState.payload (EditorState.onConnect s lib connection) = _
    rw [EditorState.payload, EditorState.payload, SavePayload.mk.injEq]
    refine ⟨?_, rfl, rfl, rfl⟩
    change Snapshot.mk s.nodes (lib.addEdge (EditorState.connectionEdge connection) s.edges) = _
    rw [hedges]
    rfl
  | removeSelected =>
    simp only [EditorOp.renews, Bool.or_eq_false_iff] at h
    -- nothing is selected
    have hnodes : (s.nodes.filter FlowNode.selected).map (fun n => n.node.id) = [] := by
      simpa using h.1
    have hedges : (s.edges.filter FlowEdge.selected).map FlowEdge.id = [] := by
      simpa using h.2
    change EditorState.payload s.removeSelected = _
    simp only [EditorState.removeSelected]
    rw [if_pos ⟨hnodes, hedges⟩]
  | setLabel label =>
    have hlabel : label = s.label := by simpa [EditorOp.renews] using h
    subst hlabel
    rfl
  | setDescription description =>
    have hdescription : description = s.description := by simpa [EditorOp.renews] using h
    subst hdescription
    rfl
  -- the ends of the history
  | undo =>
    have hundo : s.history.undo = none := by simpa [EditorOp.renews] using h
    change EditorState.payload s.undo = _
    rw [EditorState.undo, hundo]
  | redo =>
    have hredo : s.history.redo = none := by simpa [EditorOp.renews] using h
    change EditorState.payload s.redo = _
    rw [EditorState.redo, hredo]
  | copySelected =>
    change EditorState.payload s.copySelected = _
    simp only [EditorState.copySelected]
    split
    · rfl
    · rfl
  | paste now =>
    change EditorState.payload (s.paste now) = _
    rw [EditorState.paste]
    split
    · rfl
    · next clipboard hclipboard =>
      have hempty : clipboard.nodes = [] := by simpa [EditorOp.renews, hclipboard] using h
      rw [if_pos hempty]
  | markDirty => rfl
  | pushSnapshot => rfl
  | setVaultAddress address => rfl
  -- all others renew something
  | _ => cases h

namespace AutoSave

/-- The timer's `save` would send what is in the store. -/
def Captures (w : AutoSave) : Prop := ∀ payload, w.timer = some payload → payload = w.editor.payload

variable {w : AutoSave}

/-- A render keeps the captured payload up to date where it changes. -/
theorem Captures.rerender (h : w.Captures) {renewed : Bool} {editor : EditorState}
    (hsame : renewed = false → editor.payload = w.editor.payload) :
    (w.rerender target renewed editor).Captures := by
  intro payload hpayload
  simp only [AutoSave.rerender] at hpayload
  split at hpayload
  · split at hpayload
    · exact (Option.some.inj hpayload).symm
    · cases hpayload
  · next hnot =>
    have hrenewed : renewed = false := by
      cases renewed with
      | false => rfl
      | true => simp at hnot
    exact (h payload hpayload).trans (hsame hrenewed).symm

/-- No event leaves an old payload with the timer. -/
theorem Captures.step (h : w.Captures) (event : SaveEvent) :
    (AutoSave.step lib target w event).Captures := by
  cases event with
  | edit op => exact h.rerender EditorOp.payload_apply
  | expire =>
    rw [AutoSave.step]
    split
    · exact h
    · have hnone : ({ w with timer := none } : AutoSave).Captures := nofun
      rw [AutoSave.send]
      split
      · exact hnone.rerender fun _ => rfl
      · exact hnone
  | complete request ok =>
    simp only [AutoSave.step]
    split
    · exact h
    · split
      · exact Captures.rerender (w := { w with requests := _, server := _ }) h fun _ => rfl
      · exact Captures.rerender (w := { w with requests := _ }) h fun _ => rfl
  | showIdle => exact h.rerender fun _ => rfl

end AutoSave

/-- In every run, what an expiry of the timer would send is what the store has. -/
theorem armed_save_current {w : AutoSave} (hidle : w.timer = none) (events : List SaveEvent) :
    (Transition.run (AutoSave.step lib target) w events).Captures := by
  apply Transition.run_invariant (I := AutoSave.Captures) (fun w event h _ => h.step event)
  · intro payload hpayload
    rw [hidle] at hpayload
    cases hpayload
  · exact Transition.admitted_true _ _ _

end Captured

/-! ## What is saved -/

namespace AutoSave

variable {lib : FlowLibrary} {target : SaveTarget} {w : AutoSave}

/-- The only steps that unsettle are those in which another graph than that of the store is accepted. -/
theorem settled_step_iff (h : w.Settled) {event : SaveEvent} (hedit : w.Edits lib event) :
    (AutoSave.step lib target w event).Settled ↔ w.Current event := by
  cases event with
  | edit op =>
    refine iff_of_true ?_ trivial
    intro hclean
    change (op.apply lib w.editor).isDirty = false at hclean
    -- a clean store after the edit was clean before, with the same graph
    rcases hedit with hdirty | ⟨hdirty, hsame⟩
    · rw [hclean] at hdirty
      cases hdirty
    · have hserver := h (hdirty ▸ hclean)
      exact ⟨hserver.nodes.trans hsame.nodes.symm, hserver.edges.trans hsame.edges.symm⟩
  | expire =>
    refine iff_of_true ?_ trivial
    rw [AutoSave.step]
    split
    · exact h
    · rw [AutoSave.send]
      split
      · intro hclean
        apply h
        simpa [AutoSave.rerender, EditorState.setSaveStatus] using hclean
      · exact h
  | complete request ok =>
    cases hrequest : w.requests[request]? with
    | none =>
      simp only [AutoSave.step, hrequest]
      refine iff_of_true h ?_
      cases ok with
      | false => trivial
      | true =>
        intro payload hpayload
        rw [hrequest] at hpayload
        cases hpayload
    | some payload =>
      simp only [AutoSave.step, hrequest]
      cases ok with
      | false =>
        refine iff_of_true ?_ trivial
        intro hclean
        apply h
        simpa [AutoSave.rerender, EditorState.setSaveStatus] using hclean
      | true =>
        constructor
        -- the store is clean now, so what was accepted must be its graph
        · intro hsettled payload' hpayload'
          rw [hrequest] at hpayload'
          cases hpayload'
          apply hsettled
          simp [AutoSave.rerender, EditorState.setSaveStatus]
        · intro hcurrent _
          exact hcurrent payload hrequest
  | showIdle =>
    refine iff_of_true ?_ trivial
    intro hclean
    apply h
    simpa [AutoSave.step, AutoSave.rerender, EditorState.setSaveStatus] using hclean

end AutoSave

/-- In all states of a run, what is not dirty has been saved, if and only if each PATCH that succeeds
carries the graph that the store has by then. -/
theorem saved_graph_iff {lib : FlowLibrary} {target : SaveTarget} {w : AutoSave} (hstart : w.Settled)
    {events : List SaveEvent}
    (hedits : Transition.Admitted (AutoSave.step lib target) (AutoSave.Edits lib) w events) :
    (∀ before, before <+: events →
      (Transition.run (AutoSave.step lib target) w before).Settled) ↔
    Transition.Admitted (AutoSave.step lib target) AutoSave.Current w events :=
  Transition.forall_prefix_iff (I := AutoSave.Settled)
    (fun _ _ h hedit => AutoSave.settled_step_iff h hedit) hstart hedits

/-! ## An edit in flight -/

/-- The editor of a new automation. -/
def newEditor : AutoSave := ⟨.initial, none, [], .empty⟩

/-- An automation of a vault. -/
def newTarget : SaveTarget := ⟨some "0xaa", some "a1"⟩

/-- A node is added. -/
def addNodeEvent : SaveEvent := .edit (.addNode alwaysOption ⟨0, 0⟩ 0)

/-- A node is added, saved, and the save succeeds. -/
def savedEdit : List SaveEvent := [addNodeEvent, .expire, .complete 0 true]

/-- Another node is added before the save succeeds. -/
def editInFlight : List SaveEvent := [addNodeEvent, .expire, addNodeEvent, .complete 0 true]

theorem saved_graph_iff_sample :
    (Transition.run (AutoSave.step plainLibrary newTarget) newEditor savedEdit).Settled := by
  have hedits : Transition.Admitted (AutoSave.step plainLibrary newTarget)
      (AutoSave.Edits plainLibrary) newEditor savedEdit := ⟨Or.inl rfl, trivial, trivial, trivial⟩
  apply (saved_graph_iff (fun _ => ⟨rfl, rfl⟩) hedits).2 ?_ savedEdit (List.prefix_refl _)
  refine ⟨trivial, trivial, ?_, trivial⟩
  rintro payload ⟨⟩
  exact ⟨rfl, rfl⟩

/-- The store is not dirty and no timer runs, but the second node is not on the server. -/
theorem edit_in_flight_dropped :
    let w := Transition.run (AutoSave.step plainLibrary newTarget) newEditor editInFlight
    w.editor.isDirty = false ∧ w.timer.isNone = true ∧ w.requests.length = 0 ∧
      w.server.ids = ["node-1"] ∧ w.editor.ids = ["node-1", "node-2"] ∧ ¬ w.Settled := by
  refine ⟨rfl, rfl, rfl, by decide, by decide, ?_⟩
  intro hsettled
  have hnodes := congrArg List.length (hsettled rfl).nodes
  exact absurd hnodes (by decide)

end StrategyBuilder.Editor
