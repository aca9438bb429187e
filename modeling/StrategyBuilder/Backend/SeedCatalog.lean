import StrategyBuilder.Backend.EncodingService
import StrategyBuilder.Contracts.Conditions

/-!
# The time triggers of the seed catalog

Of `prisma/seed/catalog/core.ts`: the rows of the interval and of the timer. They differ in the field
that says how long; both hide their time slot from the user and seed it from a start time.

The id of a row is given by the database, and the address of its contract by the deployment.
-/

set_option autoImplicit false

namespace StrategyBuilder.Backend

open StrategyBuilder.Contracts
open StrategyBuilder.Contracts.Vault
open StrategyBuilder.Lib.Abi
open StrategyBuilder.Lib.Js
open StrategyBuilder.Shared

/-- A field without any of the options. -/
def plainField (title : String) (widget : Widget) : FieldSchema where
  title := some title
  default := .undefined
  widget := some widget
  slotAccess := none
  timeSlotField := none
  zeroToggle := none
  amountTokenField := none
  targetHfField := none
  tickLowerField := none
  tickUpperField := none

/-- The row of a trigger that waits for the duration in `field`. -/
def timeTrigger (id : String) (contractAddress : Address) (field title : String) (days : Rat) :
    StepType where
  id := id
  contractAddress := contractAddress
  selector := checkSelector
  abiFragment := [⟨field, .uint256⟩, ⟨"timeSlot", .uint32⟩]
  paramSchema := some {
    properties := [
      (field, { plainField title .duration with
        default := .object [("value", .num (.finite days)), ("unit", .str "days")] }),
      ("startTime", { plainField "Start Time" .startTime with timeSlotField := some "timeSlot" }),
      ("timeSlot", { plainField "Time Slot" .contextSlot with slotAccess := some .readWrite })]
    required := [field, "timeSlot"] }

/-- The row of the interval. -/
def intervalStepType (contractAddress : Address) : StepType :=
  timeTrigger "Interval Condition" contractAddress "interval" "Interval" 1

/-- The row of the timer. -/
def timerStepType (contractAddress : Address) : StepType :=
  timeTrigger "Timer Condition" contractAddress "delta" "Delay" 30

/-- An action without parameters. -/
def sampleAction (contractAddress : Address) : StepType :=
  ⟨"Sample Action", contractAddress, 0x09c5eabe, [], none⟩

/-- One word of the ABI encoding of a static value. -/
def encodeStatic : JsValue → Option Bytes
  | .num x => x.integer?.map fun n => encodeWord n.toNat
  | .str s => (stringToBigInt s).map fun n => encodeWord n.toNat
  | .bool b => some (encodeBool b)
  | _ => none

/-- A catalog of the two triggers and an action, with a coder for their parameters. -/
def seedServices : Services where
  stepTypes := [intervalStepType ⟨7⟩, timerStepType ⟨8⟩, sampleAction ⟨9⟩]
  abiEncode := fun _ values => (values.mapM encodeStatic).map List.flatten

end StrategyBuilder.Backend
