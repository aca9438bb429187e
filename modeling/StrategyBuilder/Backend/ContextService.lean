import StrategyBuilder.Contracts.Solidity
import StrategyBuilder.Lib.Abi
import StrategyBuilder.Lib.Js
import StrategyBuilder.Shared.EncodeBoundary

/-!
# Context slots in the backend

`context.service.ts`. The backend gives every context variable of a vault a slot of the vault's
context and keeps the names in the vault's `contextSlots`. `allocateSlots` finds or assigns the slots
of some names; `buildExpandedContext` computes the context that a `setContext` transaction writes.

Data strings are the bytes they denote.
-/

set_option autoImplicit false

namespace StrategyBuilder.Backend

open StrategyBuilder.Lib.Abi
open StrategyBuilder.Lib.Js
open StrategyBuilder.Shared

/-- What is recorded of a slot beside its index. -/
structure SlotMeta where
  name : String
  type : String
  description : String
  createdByAutomationId : String
deriving DecidableEq, Repr

/-- `ContextSlotsJson`: the named slots by index, ascending as the keys of such an object are. -/
abbrev ContextSlots := List (Nat × SlotMeta)

/-! ## Allocation -/

/-- The local variables of the loop in `allocateSlots`. -/
structure Allocation where
  slots : ContextSlots
  existingByName : Map String Nat
  nextIndex : Nat
  mapping : Record Nat

namespace Allocation

/-- The local variables before the loop. -/
def start (slots : ContextSlots) : Allocation where
  slots := slots
  existingByName := Map.ofEntries (slots.map fun (idx, slotMeta) => (slotMeta.name, idx))
  -- gaps are not filled
  nextIndex := if 0 < slots.length then (slots.map Prod.fst).foldl max 0 + 1 else 0
  mapping := []

/-- The body of the loop. -/
def allocate (automationId : String) (s : Allocation) (name : String) : Allocation :=
  match s.existingByName name with
  | some existing => { s with mapping := s.mapping.set name existing }
  | none =>
      { slots := s.slots ++ [(s.nextIndex, ⟨name, "uint256", "", automationId⟩)]
        existingByName := s.existingByName.set name s.nextIndex
        nextIndex := s.nextIndex + 1
        mapping := s.mapping.set name s.nextIndex }

end Allocation

/-- The slots of the names, and the vault's `contextSlots` afterwards. -/
def allocateSlots (slots : ContextSlots) (slotNames : List String) (automationId : String) :
    ContextSlots × Record Nat :=
  let s := slotNames.foldl (Allocation.allocate automationId) (.start slots)
  (s.slots, s.mapping)

/-! ## The context to write -/

/-- A slot that is allocated, with its initial value. -/
structure NewSlot where
  index : Nat
  initialValue : HexData
deriving DecidableEq, Repr

/-- The body of the loop over the overrides. The flag says that some name stands for a property that
every object has: its key is no index. -/
def indexOverride (slotMapping : Record Nat) (acc : Map Nat HexData × Bool)
    (entry : String × HexData) : Map Nat HexData × Bool :=
  match slotMapping.get entry.1 with
  | .own idx => (acc.1.set idx entry.2, acc.2)
  | .inherited => (acc.1, true)
  | .undefined => acc

/-- `indexOverrides` -/
def indexOverrides (overrides : Option (Record HexData)) (slotMapping : Record Nat) :
    Map Nat HexData × Bool :=
  (overrides.getD []).foldl (indexOverride slotMapping) (Map.empty, false)

/-- The indices that overrides write to. -/
def overriddenIndices (overrides : Option (Record HexData)) (slotMapping : Record Nat) : List Nat :=
  (overrides.getD []).filterMap fun (name, _) =>
    match slotMapping.get name with
    | .own idx => some idx
    | _ => none

/-- One entry of the expanded context. -/
def expandedSlot (currentCtx : List Bytes) (newSlots : List NewSlot) (overrides : Map Nat HexData)
    (i : Nat) : HexData :=
  match overrides i with
  | some value => value
  | none =>
      -- a slot of the chain comes before the initial value of a new one
      match currentCtx[i]? with
      | some value => some value
      | none =>
          match newSlots.find? fun s => s.index = i with
          | some s => s.initialValue
          | none => some []

/-- The length is the greatest index and one. With a key that is no index it is `NaN`, and nothing is
pushed. -/
def buildExpandedContext (currentCtx : List Bytes) (newSlots : List NewSlot)
    (overrides : Option (Record HexData)) (slotMapping : Record Nat) : List HexData :=
  match indexOverrides overrides slotMapping with
  | (_, true) => []
  | (byIndex, false) =>
      let indices := newSlots.map NewSlot.index ++ overriddenIndices overrides slotMapping
      -- `Math.max(currentCtx.length, …)`
      let length := (indices.map (· + 1)).foldl max currentCtx.length
      (List.range length).map (expandedSlot currentCtx newSlots byIndex)

end StrategyBuilder.Backend
