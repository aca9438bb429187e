import StrategyBuilder.Backend.EncodingService
import StrategyBuilder.Editor.Store
import StrategyBuilder.Shared.EncodeBoundary

/-!
# The deploy dialog

`handleDeploy` of `deploy-dialog.tsx`: the graph goes through the encode boundary, the backend encodes
it, and the transactions of the answer are sent one after the other. An automation that is on chain
already is edited: `encode-update` stands in for `encode`.

The body of the request is what the dialog computed, and the catalog of the editor is that of the
backend.
-/

set_option autoImplicit false

namespace StrategyBuilder.Editor

open StrategyBuilder.Automation
open StrategyBuilder.Backend
open StrategyBuilder.Contracts.Vault
open StrategyBuilder.Lib.Abi
open StrategyBuilder.Lib.Js
open StrategyBuilder.Shared

/-- The body of the request: the raw graph, and the overrides if there are any. -/
def deployRequest (svc : Services) (graph : EditorGraph) (tokenDecimals : Option (Record Nat)) :
    Mapped (EditorGraph × Option (Record HexData)) := do
  let raw ← mapGraphToRaw graph svc.stepSchemas tokenDecimals
  let builtOverrides ← buildContextOverrides graph.nodes svc.stepSchemas
  return (raw, if 0 < builtOverrides.length then some builtOverrides else none)

/-- The errors that the dialog shows: one of the encode boundary, or the answer of the backend. -/
inductive DeployError where
  | mapping (message : String)
  | encoding (error : Thrown)
deriving DecidableEq, Repr

/-- The request to the backend; `onChainId` is that of the automation that is edited. -/
def encodeRequest (svc : Services) (slots : ContextSlots) (onChainCtx : Option (List Bytes))
    (automationId : String) (onChainId : Option Nat) (graph : EditorGraph)
    (contextOverrides : Option (Record HexData)) : ContextSlots × Except Thrown EncodeResult :=
  match onChainId with
  | none => encode svc slots onChainCtx automationId graph contextOverrides
  | some id => encodeUpdate svc slots onChainCtx automationId id graph contextOverrides

/-- `handleDeploy` up to the answer of the backend, with the vault's `contextSlots` afterwards. -/
def handleDeploy (svc : Services) (slots : ContextSlots) (onChainCtx : Option (List Bytes))
    (automationId : String) (onChainId : Option Nat) (graph : EditorGraph)
    (tokenDecimals : Option (Record Nat)) : ContextSlots × Except DeployError EncodeResult :=
  match deployRequest svc graph tokenDecimals with
  | .error message => (slots, .error (.mapping message))
  | .ok (raw, overrides) =>
      let (slots, result) :=
        encodeRequest svc slots onChainCtx automationId onChainId raw overrides
      (slots, result.mapError .encoding)

/-- The transactions that the dialog sends, in order. -/
def transactions (data : EncodeResult) : List Op :=
  match data.requiresContextTx, data.contextCalldata with
  | true, some contextCalldata => [contextCalldata, data.automationCalldata]
  | _, _ => [data.automationCalldata]

/-- What is sent is the raw graph, with the overrides of its nodes. -/
theorem deployRequest_ok {svc : Services} {graph raw : EditorGraph}
    {tokenDecimals : Option (Record Nat)} {contextOverrides : Option (Record HexData)}
    (h : deployRequest svc graph tokenDecimals = .ok (raw, contextOverrides)) :
    mapGraphToRaw graph svc.stepSchemas tokenDecimals = .ok raw ∧
      ∃ overrides, buildContextOverrides graph.nodes svc.stepSchemas = .ok overrides ∧
        contextOverrides = if 0 < overrides.length then some overrides else none := by
  unfold deployRequest at h
  cases hraw : mapGraphToRaw graph svc.stepSchemas tokenDecimals with
  | error e =>
    rw [hraw] at h
    cases h
  | ok raw' =>
    cases hoverrides : buildContextOverrides graph.nodes svc.stepSchemas with
    | error e =>
      simp only [hraw, hoverrides] at h
      cases h
    | ok overrides =>
      simp only [hraw, hoverrides] at h
      cases h
      exact ⟨rfl, overrides, rfl, rfl⟩

/-- A request that passes the checks allocates the slots of the graph, whatever comes of it. -/
theorem encodeRequest_slots (svc : Services) (slots : ContextSlots) (onChainCtx : Option (List Bytes))
    (automationId : String) (onChainId : Option Nat) (graph : EditorGraph)
    (contextOverrides : Option (Record HexData)) :
    (∃ e, encodeRequest svc slots onChainCtx automationId onChainId graph contextOverrides =
        (slots, .error e)) ∨
      (encodeRequest svc slots onChainCtx automationId onChainId graph contextOverrides).1 =
        (slotMappingOf svc slots automationId graph).1 := by
  cases hvalid : validateRequest svc graph with
  | error e =>
    refine Or.inl ⟨e, ?_⟩
    cases onChainId with
    | none => simp only [encodeRequest, encode, hvalid]
    | some id => simp only [encodeRequest, encodeUpdate, hvalid]
  | ok u =>
    refine Or.inr ?_
    cases onChainId with
    | none => simp only [encodeRequest, encode, hvalid]
    | some id => simp only [encodeRequest, encodeUpdate, hvalid]

/-- What has happened when the backend answered. -/
theorem handleDeploy_ok {svc : Services} {slots : ContextSlots} {onChainCtx : Option (List Bytes)}
    {automationId : String} {onChainId : Option Nat} {graph : EditorGraph}
    {tokenDecimals : Option (Record Nat)} {data : EncodeResult}
    (h : (handleDeploy svc slots onChainCtx automationId onChainId graph tokenDecimals).2 = .ok data) :
    ∃ raw contextOverrides, deployRequest svc graph tokenDecimals = .ok (raw, contextOverrides) ∧
      (encodeRequest svc slots onChainCtx automationId onChainId raw contextOverrides).2 =
        .ok data := by
  unfold handleDeploy at h
  cases hreq : deployRequest svc graph tokenDecimals with
  | error message =>
    simp only [hreq] at h
    cases h
  | ok request =>
    obtain ⟨raw, contextOverrides⟩ := request
    simp only [hreq] at h
    refine ⟨raw, contextOverrides, rfl, ?_⟩
    cases hres : (encodeRequest svc slots onChainCtx automationId onChainId raw contextOverrides).2 with
    | error e =>
      rw [hres] at h
      cases h
    | ok data' =>
      rw [hres] at h
      cases h
      rfl

/-- The slots after a deployment, whether or not it succeeds. -/
theorem handleDeploy_slots (svc : Services) (slots : ContextSlots) (onChainCtx : Option (List Bytes))
    (automationId : String) (onChainId : Option Nat) (graph : EditorGraph)
    (tokenDecimals : Option (Record Nat)) :
    (∃ e, handleDeploy svc slots onChainCtx automationId onChainId graph tokenDecimals =
        (slots, .error e)) ∨
      ∃ raw contextOverrides, deployRequest svc graph tokenDecimals = .ok (raw, contextOverrides) ∧
        (handleDeploy svc slots onChainCtx automationId onChainId graph tokenDecimals).1 =
          (slotMappingOf svc slots automationId raw).1 := by
  unfold handleDeploy
  cases hreq : deployRequest svc graph tokenDecimals with
  | error message => exact Or.inl ⟨_, rfl⟩
  | ok request =>
    obtain ⟨raw, contextOverrides⟩ := request
    rcases encodeRequest_slots svc slots onChainCtx automationId onChainId raw contextOverrides with
      ⟨e, he⟩ | hslots
    · refine Or.inl ⟨.encoding e, ?_⟩
      simp only [he]
      rfl
    · exact Or.inr ⟨raw, contextOverrides, rfl, hslots⟩

end StrategyBuilder.Editor
