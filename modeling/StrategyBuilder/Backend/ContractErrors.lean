import StrategyBuilder.Lib.AbiArgs
import StrategyBuilder.Lib.Js

/-!
# Revert reasons

`contract-error.service.ts`: the texts registered for the custom errors of the contracts, and the
decoder that turns revert data into one of them. The decoder knows errors by its own list of signatures;
what the contracts revert with is declared in Solidity (`raisedErrors`).

Selectors are a parameter: four bytes for each signature, and no two of the signatures here share them.
A registered text comes out of a revert exactly if the decoder's list has the signature of the error
(`decodeRevert_iff`).
-/

set_option autoImplicit false

namespace StrategyBuilder.Backend.ContractErrors

open StrategyBuilder.Lib
open StrategyBuilder.Lib.Abi
open StrategyBuilder.Lib.Js

/-! ## Errors -/

/-- The declaration of an error: its name and the types of its parameters. -/
structure ErrorFragment where
  name : String
  inputs : List ArgType
deriving DecidableEq, Repr

/-- The text that is hashed. -/
def ErrorFragment.signature (e : ErrorFragment) : String :=
  e.name ++ "(" ++ ",".intercalate (e.inputs.map ArgType.name) ++ ")"

/-- `CONTRACT_ERRORS` -/
def contractErrors : Record String :=
  [("CallerNotOwner", "You are not the owner of this vault."),
    ("TriggerNotMet", "The automation trigger condition is not met."),
    ("FeeTokenNotAccepted", "The selected token is not accepted as a fee token."),
    ("FeeTooHigh", "The fee rate exceeds the maximum allowed (10%)."),
    ("TokenNotAccepted", "This token is not accepted by the fee registry."),
    ("ZeroAddress", "A zero address was provided where a valid address is required."),
    ("NoSteps", "The automation must contain at least one step."),
    ("FirstStepMustBeCondition", "The first step of a public automation must be a condition."),
    ("InvalidStepReference", "A step references a non-existent step index."),
    ("ZeroTargetAddress", "A step has a zero target contract address."),
    ("ZeroSelector", "A step has a zero function selector."),
    ("AutomationNotActive", "This automation is currently paused."),
    ("AutomationDoesNotExist", "The specified automation does not exist."),
    ("ConditionCallFailed", "The condition check call failed unexpectedly."),
    ("ActionExecutionFailed", "The action execution failed unexpectedly."),
    ("MaxStepsExceeded", "The automation exceeded the maximum step limit (256)."),
    ("ContextSlotOutOfBounds", "A context slot index is out of bounds."),
    ("ContextDiffLengthMismatch", "The context diff arrays have mismatched lengths."),
    ("ZeroRecipient", "A zero recipient address was provided."),
    ("ETHTransferFailed", "The ETH transfer failed."),
    ("ImplementationNotSet", "The vault implementation has not been set on the factory."),
    ("InvalidImplementation", "The provided implementation address is invalid."),
    ("InsufficientFeeDeposit",
      "The vault does not have enough fee deposit to cover gas compensation."),
    ("NothingToWithdraw", "There is nothing available to withdraw."),
    ("WithdrawExceedsDeposit", "The withdrawal amount exceeds the available deposit."),
    ("SlotOutOfBounds", "The context slot index is out of bounds."),
    ("ZeroInterval", "The interval must be greater than zero."),
    ("ZeroDelta", "The timer delta must be greater than zero."),
    ("ZeroFeeRegistry", "The fee registry address must not be zero."),
    ("ZeroToken", "The token address must not be zero."),
    ("OracleNotExist", "No price oracle is configured for this token."),
    ("NegativePriceNotAllowed", "The price oracle returned a negative price.")]

/-- The wrappers of a failed step, with the reason inside. -/
def wrapperErrors : List ErrorFragment :=
  [⟨"ConditionCallFailed", [.uint 32, .bytes]⟩, ⟨"ActionExecutionFailed", [.uint 32, .bytes]⟩]

/-- `ERROR_SIGNATURES` -/
def errorSignatures : List ErrorFragment :=
  wrapperErrors ++
    [⟨"NoSteps", []⟩, ⟨"FirstStepMustBeCondition", []⟩, ⟨"InvalidStepReference", [.uint 32]⟩,
      ⟨"ZeroTargetAddress", [.uint 32]⟩, ⟨"ZeroSelector", [.uint 32]⟩, ⟨"AutomationNotActive", []⟩,
      ⟨"AutomationDoesNotExist", []⟩, ⟨"CallerNotOwner", []⟩, ⟨"TriggerNotMet", []⟩,
      ⟨"MaxStepsExceeded", []⟩, ⟨"ContextSlotOutOfBounds", [.uint 32]⟩,
      ⟨"ContextDiffLengthMismatch", []⟩, ⟨"ZeroRecipient", []⟩, ⟨"ETHTransferFailed", []⟩,
      ⟨"InsufficientFeeDeposit", []⟩, ⟨"NothingToWithdraw", []⟩, ⟨"WithdrawExceedsDeposit", []⟩,
      ⟨"ZeroInterval", []⟩, ⟨"ZeroDelta", []⟩, ⟨"ZeroFeeRegistry", []⟩, ⟨"ZeroToken", []⟩,
      ⟨"OracleNotExist", []⟩, ⟨"NegativePriceNotAllowed", []⟩]

/-- `Error(string)` and `Panic(uint256)`, which every interface knows. -/
def errorString : ErrorFragment := ⟨"Error", [.string]⟩

/-- `Panic(uint256)`, which the library knows. -/
def errorPanic : ErrorFragment := ⟨"Panic", [.uint 256]⟩

/-- What the library decodes without an interface. -/
def builtinErrors : List ErrorFragment := [errorString, errorPanic]

/-- `OUTER_WRAPPERS` -/
def outerWrappers : List String := ["ActionExecutionFailed", "ConditionCallFailed"]

/-! ## What the contracts declare -/

/-- `StrategyBuilderVault.sol` -/
def vaultErrors : List ErrorFragment :=
  [⟨"NoSteps", []⟩, ⟨"FirstStepMustBeCondition", []⟩, ⟨"InvalidStepReference", [.uint 32]⟩,
    ⟨"ZeroTargetAddress", [.uint 32]⟩, ⟨"ZeroSelector", [.uint 32]⟩, ⟨"AutomationNotActive", []⟩,
    ⟨"AutomationDoesNotExist", []⟩, ⟨"CallerNotOwner", []⟩, ⟨"TriggerNotMet", []⟩,
    ⟨"ConditionCallFailed", [.uint 32, .bytes]⟩, ⟨"ActionExecutionFailed", [.uint 32, .bytes]⟩,
    ⟨"MaxStepsExceeded", []⟩, ⟨"ContextSlotOutOfBounds", [.uint 32]⟩,
    ⟨"ContextDiffLengthMismatch", []⟩, ⟨"ZeroRecipient", []⟩, ⟨"ETHTransferFailed", []⟩]

/-- `IFeeRegistry.sol` -/
def feeRegistryErrors : List ErrorFragment :=
  [⟨"FeeTooHigh", []⟩, ⟨"ZeroAddress", []⟩, ⟨"TokenNotAccepted", []⟩,
    ⟨"InsufficientFeeDeposit", [.uint 256, .uint 256]⟩, ⟨"NothingToWithdraw", []⟩,
    ⟨"WithdrawExceedsDeposit", [.uint 256, .uint 256]⟩]

/-- The conditions: wick wait, token balance, timer and interval. -/
def conditionErrors : List ErrorFragment :=
  [⟨"ZeroWindow", []⟩, ⟨"PoolNotFound", []⟩, ⟨"SlotOutOfBounds", [.uint 32]⟩, ⟨"ZeroDelta", []⟩,
    ⟨"ZeroInterval", []⟩]

/-- The actions with the libraries they use: PancakeSwap, Aave, fee deposit and transfer. -/
def actionErrors : List ErrorFragment :=
  [⟨"ZeroToken", []⟩, ⟨"SameToken", []⟩, ⟨"InvalidTicks", []⟩, ⟨"PoolNotFound", []⟩,
    ⟨"TokenIdSlotRequired", []⟩, ⟨"InvalidPercent", [.uint 16]⟩, ⟨"SqrtPriceTooHigh", []⟩,
    ⟨"ZeroTokenIn", []⟩, ⟨"ZeroTokenOut", []⟩, ⟨"ZeroAsset", []⟩, ⟨"ZeroAmount", []⟩,
    ⟨"UnsupportedMode", [.uint 8]⟩, ⟨"TickOutOfRange", []⟩, ⟨"SlotOutOfBounds", [.uint 32]⟩,
    ⟨"InvalidTargetHealthFactor", [.uint 256]⟩, ⟨"ZeroFeeRegistry", []⟩, ⟨"ZeroRecipient", []⟩]

/-- What a call of the system reverts with. -/
def raisedErrors : List ErrorFragment :=
  vaultErrors ++ (feeRegistryErrors ++ (conditionErrors ++ actionErrors))

/-! ## Selectors -/

/-- All errors that may meet. -/
def errorsInPlay : List ErrorFragment := builtinErrors ++ (errorSignatures ++ raisedErrors)

/-- The first four bytes of the hash of a signature. -/
structure Selectors where
  selector : String → Bytes
  length_selector : ∀ signature, (selector signature).length = 4
  injective : ∀ e ∈ errorsInPlay, ∀ e' ∈ errorsInPlay,
    selector e.signature = selector e'.signature → e = e'

/-- The revert data of an error. -/
def Selectors.encodeError (s : Selectors) (e : ErrorFragment) (args : List ArgValue) : Bytes :=
  s.selector e.signature ++ encodeArgs args

/-! ## The decoder -/

/-- An error with its arguments, as `parseError` returns it. -/
structure ParsedError where
  name : String
  args : List ArgValue

/-- `args[i]` of a type `bytes` or `string`. -/
def ParsedError.bytes (d : ParsedError) (i : Nat) : Bytes :=
  match d.args[i]? with
  | some (.bytes b) => b
  | _ => []

/-- `args[i]` of an integer type. -/
def ParsedError.number (d : ParsedError) (i : Nat) : Nat :=
  match d.args[i]? with
  | some (.word n) => n
  | _ => 0

/-- The lower-case digits of `toString(16)`. -/
def hexDigits (n : Nat) : String := String.ofList (Nat.toDigits 16 n)

/-- The text in UTF-8 bytes. -/
def utf8? (b : Bytes) : Option String := String.fromUTF8? b.toByteArray

namespace Selectors

/-- `iface.getError` -/
def getError (s : Selectors) (key : Bytes) : Option ErrorFragment :=
  (builtinErrors ++ errorSignatures).find? fun e => s.selector e.signature = key

/-- `tryParse`: nothing where `parseError` finds no error or throws. -/
def tryParse (s : Selectors) (data : Bytes) : Option ParsedError :=
  if data.length < 4 then none
  else do
    let e ← s.getError (data.take 4)
    let args ← decodeArgs e.inputs (data.drop 4)
    some ⟨e.name, args⟩

/-- `decodeReason`, `none` where it throws: for an `Error` whose string is not UTF-8. -/
def decodeReason (s : Selectors) (reason : Bytes) : Option (Option String) :=
  match s.tryParse reason with
  | none => some none
  | some desc =>
      if desc.name = "Error" then (utf8? (desc.bytes 0)).map some
      else if desc.name = "Panic" then some (some ("panic 0x" ++ hexDigits (desc.number 0)))
      else some (some ((Record.own? contractErrors desc.name).getD desc.name))

/-- `selectorOf` -/
def selectorOf (data : Bytes) : String :=
  "0x" ++ String.ofList ((data.take 4).flatMap fun b =>
    [Nat.digitChar (b.toNat / 16), Nat.digitChar (b.toNat % 16)])

/-- The text before the reason of a step. -/
def stepText (stepIndex : Nat) : String := "Step " ++ toString stepIndex ++ ": "

/-- `decodeRevert`, `none` where it throws. -/
def decodeRevert (s : Selectors) (errorData : Option Bytes) (fallback : Option String) :
    Option String :=
  let trimmed := String.ofList (trim (fallback.getD "").toList)
  let fb := if trimmed = "" then "Execution reverted" else trimmed
  let data := errorData.getD []
  if data = [] then some fb
  else
    match (s.tryParse data).filter fun outer => outer.name ∈ outerWrappers with
    -- a wrapper carries the index of the step and the revert data inside
    | some outer =>
        let reason := outer.bytes 1
        if reason = [] then some (stepText (outer.number 0) ++ "reverted without reason")
        else (s.decodeReason reason).map fun decoded =>
          stepText (outer.number 0) ++ decoded.getD (selectorOf reason)
    | none => (s.decodeReason data).map fun decoded => decoded.getD (selectorOf data)

end Selectors

/-! ## Reasons -/

/-- The text registered for an error. -/
def registeredText (e : ErrorFragment) : Option String := Record.own? contractErrors e.name

/-- A reason with a text: a custom error that is registered, with any arguments, a message, or a
panic. -/
inductive Reason where
  | custom (e : ErrorFragment) (args : List ArgValue) (text : String) (raised : e ∈ raisedErrors)
      (registered : registeredText e = some text) (typed : Admit e.inputs args)
  | message (m : String)
  | panic (code : Nat) (h : code < 2 ^ 256)

namespace Reason

/-- The revert data. -/
def encode (s : Selectors) : Reason → Bytes
  | custom e args _ _ _ _ => s.encodeError e args
  | message m => s.encodeError errorString [.bytes m.toUTF8.data.toList]
  | panic code _ => s.encodeError errorPanic [.word code]

/-- The text that stands for the reason. -/
def text : Reason → String
  | custom _ _ text _ _ _ => text
  | message m => m
  | panic code _ => "panic 0x" ++ hexDigits code

/-- The list of the decoder has the signature of the error. -/
def Listed : Reason → Prop
  | custom e _ _ _ _ _ => e ∈ errorSignatures
  | message _ => True
  | panic _ _ => True

/-- The reason is the wrapper of another one. -/
def IsWrapper : Reason → Prop
  | custom e _ _ _ _ _ => e.name ∈ outerWrappers
  | message _ => False
  | panic _ _ => False

end Reason

/-- A failed step. -/
structure Wrapper where
  error : ErrorFragment
  isWrapper : error ∈ wrapperErrors
  stepIndex : Nat
  lt : stepIndex < 2 ^ 32

/-- What the system reverts with: a reason alone, or the reason of a failed step. A wrapper alone is a
failed step. -/
inductive RevertCase where
  | alone (r : Reason) (h : ¬ r.IsWrapper)
  | wrapped (w : Wrapper) (r : Reason)

namespace RevertCase

/-- The reason inside the wrapper, if there is one. -/
def reason : RevertCase → Reason
  | alone r _ => r
  | wrapped _ r => r

/-- The revert data. -/
def encode (s : Selectors) : RevertCase → Bytes
  | alone r _ => r.encode s
  | wrapped w r => s.encodeError w.error [.word w.stepIndex, .bytes (r.encode s)]

/-- The registered text, behind the step. -/
def text : RevertCase → String
  | alone r _ => r.text
  | wrapped w r => Selectors.stepText w.stepIndex ++ r.text

end RevertCase

/-! ## Finding an error -/

section Decoding

variable {s : Selectors}

theorem wrapper_listed {e : ErrorFragment} (h : e ∈ wrapperErrors) : e ∈ errorSignatures :=
  List.mem_append_left _ h

theorem Selectors.encodeError_ne_nil (s : Selectors) (e : ErrorFragment) (args : List ArgValue) :
    s.encodeError e args ≠ [] := by
  intro h
  have hlength := congrArg List.length h
  rw [encodeError, List.length_append, s.length_selector, List.length_nil] at hlength
  omega

/-- An error that is registered is found by its selector. -/
theorem Selectors.getError_known {e : ErrorFragment} (he : e ∈ builtinErrors ++ errorSignatures) :
    s.getError (s.selector e.signature) = some e := by
  have hplay {e' : ErrorFragment} (h : e' ∈ builtinErrors ++ errorSignatures) : e' ∈ errorsInPlay := by
    rw [errorsInPlay, ← List.append_assoc]
    exact List.mem_append_left _ h
  rw [getError]
  cases hfind : (builtinErrors ++ errorSignatures).find? fun e' =>
      s.selector e'.signature = s.selector e.signature with
  | none => exact absurd (decide_eq_true rfl) (List.find?_eq_none.1 hfind e he)
  | some e' =>
    have hfound := List.find?_some hfind
    have heq := of_decide_eq_true hfound
    rw [s.injective e' (hplay (List.mem_of_find?_eq_some hfind)) e (hplay he) heq]

/-- An error that is raised and not registered is not found. -/
theorem Selectors.getError_unknown {e : ErrorFragment} (hraised : e ∈ raisedErrors)
    (he : e ∉ builtinErrors ++ errorSignatures) : s.getError (s.selector e.signature) = none := by
  rw [getError, List.find?_eq_none]
  intro e' he' heq
  have hplay : e' ∈ errorsInPlay := by
    rw [errorsInPlay, ← List.append_assoc]
    exact List.mem_append_left _ he'
  have hplay' : e ∈ errorsInPlay := List.mem_append_right _ (List.mem_append_right _ hraised)
  have hsame := s.injective e' hplay e hplay' (of_decide_eq_true heq)
  rw [hsame] at he'
  exact he he'

/-- The parts of revert data. -/
theorem Selectors.tryParse_encodeError (e : ErrorFragment) (args : List ArgValue) :
    s.tryParse (s.encodeError e args) = (do
      let e' ← s.getError (s.selector e.signature)
      let args' ← decodeArgs e'.inputs (encodeArgs args)
      some ⟨e'.name, args'⟩) := by
  have hlength : ¬ (s.encodeError e args).length < 4 := by
    rw [encodeError, List.length_append, s.length_selector]
    omega
  have htake : (s.encodeError e args).take 4 = s.selector e.signature := by
    rw [encodeError, ← s.length_selector e.signature, List.take_left]
  have hdrop : (s.encodeError e args).drop 4 = encodeArgs args := by
    rw [encodeError, ← s.length_selector e.signature, List.drop_left]
  rw [tryParse, if_neg hlength, htake, hdrop]

/-- An error that is registered is parsed, with its arguments. -/
theorem Selectors.tryParse_known {e : ErrorFragment} (he : e ∈ builtinErrors ++ errorSignatures)
    {args : List ArgValue} (hargs : Admit e.inputs args)
    (hlength : (s.encodeError e args).length < 2 ^ 53) :
    s.tryParse (s.encodeError e args) = some ⟨e.name, args⟩ := by
  have hargsLength : (encodeArgs args).length < 2 ^ 53 := by
    rw [encodeError, List.length_append] at hlength
    omega
  rw [tryParse_encodeError, getError_known he]
  simp only [Option.bind_eq_bind, Option.bind_some, decodeArgs_encodeArgs hargs hargsLength]

theorem Selectors.tryParse_unknown {e : ErrorFragment} (hraised : e ∈ raisedErrors)
    (he : e ∉ builtinErrors ++ errorSignatures) (args : List ArgValue) :
    s.tryParse (s.encodeError e args) = none := by
  rw [tryParse_encodeError, getError_unknown hraised he]
  rfl

/-! ## Decoding a reason -/

theorem utf8?_toUTF8 (m : String) : utf8? m.toUTF8.data.toList = some m := by
  have hbytes : m.toUTF8.data.toList.toByteArray = m.toUTF8 := by
    apply ByteArray.ext
    rw [List.data_toByteArray, Array.toArray_toList]
  rw [utf8?, hbytes, String.fromUTF8?, String.toUTF8_eq_toByteArray, dif_pos m.isValidUTF8]
  rfl

/-- No registered text is that of a built-in error. -/
theorem listed_ne_builtin : ∀ e ∈ raisedErrors, e.name ≠ "Error" ∧ e.name ≠ "Panic" := by decide

/-- Of the raised errors none is built in. -/
theorem listed_iff {e : ErrorFragment} (he : e ∈ raisedErrors) :
    e ∈ builtinErrors ++ errorSignatures ↔ e ∈ errorSignatures := by
  rw [List.mem_append]
  refine ⟨fun h => h.resolve_left fun hbuiltin => ?_, Or.inr⟩
  obtain ⟨herror, hpanic⟩ := listed_ne_builtin e he
  rcases List.mem_cons.1 hbuiltin with rfl | hbuiltin
  · exact herror rfl
  · rw [List.mem_singleton.1 hbuiltin] at hpanic
    exact hpanic rfl

/-- What is parsed of a reason has its name. -/
def Reason.name : Reason → String
  | custom e _ _ _ _ _ => e.name
  | message _ => "Error"
  | panic _ _ => "Panic"

/-- A listed reason is parsed and decoded to its text. -/
theorem Reason.decode_listed {r : Reason} (h : r.Listed) (hlength : (r.encode s).length < 2 ^ 53) :
    (∃ args, s.tryParse (r.encode s) = some ⟨r.name, args⟩) ∧
      s.decodeReason (r.encode s) = some (some r.text) := by
  cases r with
  | custom e args text raised registered typed =>
    have hparse : s.tryParse (s.encodeError e args) = some ⟨e.name, args⟩ :=
      Selectors.tryParse_known ((listed_iff raised).2 h) typed hlength
    obtain ⟨herror, hpanic⟩ := listed_ne_builtin e raised
    refine ⟨⟨args, hparse⟩, ?_⟩
    rw [registeredText] at registered
    simp only [Reason.encode, Selectors.decodeReason, hparse, if_neg herror, if_neg hpanic, registered,
      Option.getD_some, Reason.text]
  | message m =>
    have hparse : s.tryParse (s.encodeError errorString [.bytes m.toUTF8.data.toList]) =
        some ⟨"Error", [.bytes m.toUTF8.data.toList]⟩ :=
      Selectors.tryParse_known (e := errorString) (by decide) (.cons trivial .nil) hlength
    refine ⟨⟨_, hparse⟩, ?_⟩
    have hbytes : ParsedError.bytes ⟨"Error", [.bytes m.toUTF8.data.toList]⟩ 0 =
        m.toUTF8.data.toList := rfl
    simp only [Reason.encode, Selectors.decodeReason, hparse, if_true, hbytes, utf8?_toUTF8,
      Option.map_some, Reason.text]
  | panic code hcode =>
    have hparse : s.tryParse (s.encodeError errorPanic [.word code]) = some ⟨"Panic", [.word code]⟩ :=
      Selectors.tryParse_known (e := errorPanic) (by decide) (.cons ⟨Nat.le_refl _, hcode⟩ .nil) hlength
    refine ⟨⟨_, hparse⟩, ?_⟩
    have hnumber : ParsedError.number ⟨"Panic", [.word code]⟩ 0 = code := rfl
    have hname : ¬ "Panic" = "Error" := by decide
    simp only [Reason.encode, Selectors.decodeReason, hparse, if_neg hname, if_true, hnumber,
      Reason.text]

/-- A reason that is not listed is not parsed. -/
theorem Reason.decode_unlisted {r : Reason} (h : ¬ r.Listed) :
    s.tryParse (r.encode s) = none ∧ s.decodeReason (r.encode s) = some none := by
  cases r with
  | custom e args text raised registered typed =>
    have hparse : s.tryParse (s.encodeError e args) = none :=
      Selectors.tryParse_unknown raised (fun hmem => h ((listed_iff raised).1 hmem)) args
    refine ⟨hparse, ?_⟩
    simp only [Reason.encode, Selectors.decodeReason, hparse]
  | message m => exact (h trivial).elim
  | panic code hcode => exact (h trivial).elim

/-! ## Decoding a revert -/

theorem Reason.encode_ne_nil (r : Reason) : r.encode s ≠ [] := by
  cases r <;> exact s.encodeError_ne_nil _ _

/-- A reason that stands alone is not taken for a wrapper. -/
theorem Selectors.decodeRevert_alone {r : Reason} (hwrapper : ¬ r.IsWrapper)
    (hlength : (r.encode s).length < 2 ^ 53) (fallback : Option String) :
    s.decodeRevert (some (r.encode s)) fallback =
      (s.decodeReason (r.encode s)).map fun decoded => decoded.getD (selectorOf (r.encode s)) := by
  have houter : ((s.tryParse (r.encode s)).filter fun outer => outer.name ∈ outerWrappers) = none := by
    by_cases hlisted : r.Listed
    · obtain ⟨args, hparse⟩ := (Reason.decode_listed hlisted hlength).1
      have hname : r.name ∉ outerWrappers := by
        cases r with
        | custom e args text raised registered typed => exact hwrapper
        | message m => exact (by decide : "Error" ∉ outerWrappers)
        | panic code hcode => exact (by decide : "Panic" ∉ outerWrappers)
      rw [hparse]
      exact if_neg fun hmem => hname (of_decide_eq_true hmem)
    · rw [(Reason.decode_unlisted hlisted).1]
      rfl
  simp only [decodeRevert, Option.getD_some, if_neg r.encode_ne_nil, houter]

theorem Wrapper.typed (w : Wrapper) (reason : Bytes) :
    Admit w.error.inputs [.word w.stepIndex, .bytes reason] ∧ w.error.name ∈ outerWrappers := by
  have hwrapper : ∀ e ∈ wrapperErrors,
      e.inputs = [.uint 32, .bytes] ∧ e.name ∈ outerWrappers := by decide
  obtain ⟨hinputs, hname⟩ := hwrapper w.error w.isWrapper
  rw [hinputs]
  exact ⟨.cons ⟨by decide, w.lt⟩ (.cons trivial .nil), hname⟩

/-- The data of a failed step is parsed as a wrapper. -/
theorem Selectors.outer_wrapper (w : Wrapper) (reason : Bytes)
    (hlength : (s.encodeError w.error [.word w.stepIndex, .bytes reason]).length < 2 ^ 53) :
    ((s.tryParse (s.encodeError w.error [.word w.stepIndex, .bytes reason])).filter
      fun outer => outer.name ∈ outerWrappers) =
        some ⟨w.error.name, [.word w.stepIndex, .bytes reason]⟩ := by
  obtain ⟨hargs, hname⟩ := w.typed reason
  have hlisted : w.error ∈ builtinErrors ++ errorSignatures :=
    List.mem_append_right _ (wrapper_listed w.isWrapper)
  rw [tryParse_known hlisted hargs hlength]
  exact if_pos (decide_eq_true hname)

/-- The wrapper of a failed step is taken off. -/
theorem Selectors.decodeRevert_wrapped (w : Wrapper) {reason : Bytes} (hreason : reason ≠ [])
    (hlength : (s.encodeError w.error [.word w.stepIndex, .bytes reason]).length < 2 ^ 53)
    (fallback : Option String) :
    s.decodeRevert (some (s.encodeError w.error [.word w.stepIndex, .bytes reason])) fallback =
      (s.decodeReason reason).map fun decoded =>
        stepText w.stepIndex ++ decoded.getD (selectorOf reason) := by
  have houter := outer_wrapper w reason hlength
  have hnumber : ParsedError.number ⟨w.error.name, [.word w.stepIndex, .bytes reason]⟩ 0 =
      w.stepIndex := rfl
  have hbytes : ParsedError.bytes ⟨w.error.name, [.word w.stepIndex, .bytes reason]⟩ 1 = reason := rfl
  simp only [decodeRevert, Option.getD_some, if_neg (s.encodeError_ne_nil _ _), houter, hnumber,
    hbytes, if_neg hreason]

/-- A failed step without a reason says so. -/
theorem Selectors.decodeRevert_empty (w : Wrapper)
    (hlength : (s.encodeError w.error [.word w.stepIndex, .bytes []]).length < 2 ^ 53)
    (fallback : Option String) :
    s.decodeRevert (some (s.encodeError w.error [.word w.stepIndex, .bytes []])) fallback =
      some (stepText w.stepIndex ++ "reverted without reason") := by
  have houter := outer_wrapper w [] hlength
  have hnumber : ParsedError.number ⟨w.error.name, [.word w.stepIndex, .bytes []]⟩ 0 =
      w.stepIndex := rfl
  have hbytes : ParsedError.bytes ⟨w.error.name, [.word w.stepIndex, .bytes []]⟩ 1 = [] := rfl
  simp only [decodeRevert, Option.getD_some, if_neg (s.encodeError_ne_nil _ _), houter, hnumber,
    hbytes, if_true]

/-- No registered text begins as a selector does. -/
theorem registeredText_ne_selector {e : ErrorFragment} {text : String}
    (h : registeredText e = some text) (data : Bytes) : text ≠ Selectors.selectorOf data := by
  have hhead : ∀ entry ∈ contractErrors,
      entry.2.toByteArray.data.toList.head? ≠ some 0x30 := by decide
  rintro rfl
  refine hhead _ (Record.mem_of_own? h) ?_
  rw [Selectors.selectorOf, String.toByteArray_append, ByteArray.data_append, Array.toList_append]
  rfl

/-- An unlisted reason has a registered text, and that is not its selector. -/
theorem Reason.text_ne_selector {r : Reason} (h : ¬ r.Listed) :
    Selectors.selectorOf (r.encode s) ≠ r.text := by
  cases r with
  | custom e args text raised registered typed =>
    exact (registeredText_ne_selector registered _).symm
  | message m => exact (h trivial).elim
  | panic code hcode => exact (h trivial).elim

/-- The revert data of a failed step is longer than its reason. -/
theorem length_reason_le (w : Wrapper) (reason : Bytes) :
    reason.length ≤ (s.encodeError w.error [.word w.stepIndex, .bytes reason]).length := by
  simp only [Selectors.encodeError, encodeArgs, encodeHeads, ArgValue.tail, encodeBytes,
    List.flatMap_cons, List.flatMap_nil, List.length_append]
  omega

end Decoding

/-- **A revert is decoded to the registered text**, behind its step if it is the reason of one, exactly
if the decoder lists the signature of the error. The data is the text of a JavaScript string. -/
theorem decodeRevert_iff (s : Selectors) (c : RevertCase) (hlength : (c.encode s).length < 2 ^ 52)
    (fallback : Option String) :
    s.decodeRevert (some (c.encode s)) fallback = some c.text ↔ c.reason.Listed := by
  have hlength : (c.encode s).length < 2 ^ 53 := Nat.lt_trans hlength (by decide)
  cases c with
  | alone r h =>
    have hdecode := Selectors.decodeRevert_alone h hlength fallback
    rw [RevertCase.encode, hdecode]
    by_cases hlisted : r.Listed
    · rw [(Reason.decode_listed hlisted hlength).2]
      exact iff_of_true rfl hlisted
    · rw [(Reason.decode_unlisted hlisted).2]
      exact iff_of_false (fun heq => Reason.text_ne_selector hlisted (Option.some.inj heq)) hlisted
  | wrapped w r =>
    have hreason : (r.encode s).length < 2 ^ 53 := Nat.lt_of_le_of_lt (length_reason_le w _) hlength
    have hdecode := Selectors.decodeRevert_wrapped w r.encode_ne_nil hlength fallback
    rw [RevertCase.encode, hdecode]
    by_cases hlisted : r.Listed
    · rw [(Reason.decode_listed hlisted hreason).2]
      exact iff_of_true rfl hlisted
    · rw [(Reason.decode_unlisted hlisted).2]
      refine iff_of_false (fun heq => Reason.text_ne_selector (s := s) hlisted ?_) hlisted
      -- both texts start with the step, so the reasons would be equal
      have htext := congrArg String.toList (Option.some.inj heq)
      rw [RevertCase.text, String.toList_append, String.toList_append] at htext
      exact String.toList_injective (List.append_cancel_left htext)

section Sample

/-- The signatures with the first bytes of their hashes. -/
def sampleHashes : List (ErrorFragment × String × Bytes) :=
  [(⟨"Error", [.string]⟩, "Error(string)", [0x08, 0xc3, 0x79, 0xa0]),
    (⟨"Panic", [.uint 256]⟩, "Panic(uint256)", [0x4e, 0x48, 0x7b, 0x71]),
    (⟨"ConditionCallFailed", [.uint 32, .bytes]⟩, "ConditionCallFailed(uint32,bytes)",
      [0xc3, 0x37, 0xc1, 0xc6]),
    (⟨"ActionExecutionFailed", [.uint 32, .bytes]⟩, "ActionExecutionFailed(uint32,bytes)",
      [0x4b, 0xe3, 0x22, 0x74]),
    (⟨"NoSteps", []⟩, "NoSteps()", [0x8f, 0xd6, 0xf2, 0x81]),
    (⟨"FirstStepMustBeCondition", []⟩, "FirstStepMustBeCondition()", [0x1f, 0x03, 0x74, 0xf8]),
    (⟨"InvalidStepReference", [.uint 32]⟩, "InvalidStepReference(uint32)",
      [0xf2, 0x32, 0x5d, 0xf1]),
    (⟨"ZeroTargetAddress", [.uint 32]⟩, "ZeroTargetAddress(uint32)", [0x28, 0x18, 0x52, 0x20]),
    (⟨"ZeroSelector", [.uint 32]⟩, "ZeroSelector(uint32)", [0xa4, 0xdd, 0xe1, 0xb9]),
    (⟨"AutomationNotActive", []⟩, "AutomationNotActive()", [0x44, 0x53, 0x08, 0x8e]),
    (⟨"AutomationDoesNotExist", []⟩, "AutomationDoesNotExist()", [0x93, 0x74, 0x4d, 0x71]),
    (⟨"CallerNotOwner", []⟩, "CallerNotOwner()", [0x5c, 0xd8, 0x31, 0x92]),
    (⟨"TriggerNotMet", []⟩, "TriggerNotMet()", [0x66, 0x5b, 0xf3, 0xe6]),
    (⟨"MaxStepsExceeded", []⟩, "MaxStepsExceeded()", [0xf4, 0x72, 0x00, 0xc4]),
    (⟨"ContextSlotOutOfBounds", [.uint 32]⟩, "ContextSlotOutOfBounds(uint32)",
      [0xa2, 0x97, 0xeb, 0x91]),
    (⟨"ContextDiffLengthMismatch", []⟩, "ContextDiffLengthMismatch()", [0x79, 0x83, 0x4c, 0x56]),
    (⟨"ZeroRecipient", []⟩, "ZeroRecipient()", [0xd2, 0x7b, 0x44, 0x43]),
    (⟨"ETHTransferFailed", []⟩, "ETHTransferFailed()", [0xb1, 0x2d, 0x13, 0xeb]),
    (⟨"InsufficientFeeDeposit", []⟩, "InsufficientFeeDeposit()", [0x50, 0xff, 0x61, 0xc1]),
    (⟨"NothingToWithdraw", []⟩, "NothingToWithdraw()", [0xd0, 0xd0, 0x4f, 0x60]),
    (⟨"WithdrawExceedsDeposit", []⟩, "WithdrawExceedsDeposit()", [0x31, 0xa5, 0x81, 0xeb]),
    (⟨"ZeroInterval", []⟩, "ZeroInterval()", [0x34, 0x6f, 0xf6, 0x07]),
    (⟨"ZeroDelta", []⟩, "ZeroDelta()", [0x6f, 0x0f, 0x58, 0x99]),
    (⟨"ZeroFeeRegistry", []⟩, "ZeroFeeRegistry()", [0x99, 0x85, 0xbe, 0xc6]),
    (⟨"ZeroToken", []⟩, "ZeroToken()", [0xad, 0x19, 0x91, 0xf5]),
    (⟨"OracleNotExist", []⟩, "OracleNotExist()", [0x4d, 0xca, 0x4f, 0x7d]),
    (⟨"NegativePriceNotAllowed", []⟩, "NegativePriceNotAllowed()", [0x29, 0x19, 0x49, 0x1b]),
    (⟨"FeeTooHigh", []⟩, "FeeTooHigh()", [0xcd, 0x4e, 0x61, 0x67]),
    (⟨"ZeroAddress", []⟩, "ZeroAddress()", [0xd9, 0x2e, 0x23, 0x3d]),
    (⟨"TokenNotAccepted", []⟩, "TokenNotAccepted()", [0xe5, 0x1c, 0xf7, 0xbf]),
    (⟨"InsufficientFeeDeposit", [.uint 256, .uint 256]⟩, "InsufficientFeeDeposit(uint256,uint256)",
      [0xfa, 0x1a, 0xa9, 0xdc]),
    (⟨"WithdrawExceedsDeposit", [.uint 256, .uint 256]⟩, "WithdrawExceedsDeposit(uint256,uint256)",
      [0x8c, 0x76, 0x7b, 0x46]),
    (⟨"SlotOutOfBounds", [.uint 32]⟩, "SlotOutOfBounds(uint32)", [0x11, 0xef, 0x3d, 0x17]),
    (⟨"ZeroWindow", []⟩, "ZeroWindow()", [0x4a, 0xcb, 0xbb, 0x65]),
    (⟨"PoolNotFound", []⟩, "PoolNotFound()", [0x76, 0xec, 0xff, 0xc0]),
    (⟨"SameToken", []⟩, "SameToken()", [0x20, 0x1b, 0x58, 0x0a]),
    (⟨"InvalidTicks", []⟩, "InvalidTicks()", [0x14, 0x34, 0xed, 0x7f]),
    (⟨"TokenIdSlotRequired", []⟩, "TokenIdSlotRequired()", [0x96, 0xfc, 0x34, 0x56]),
    (⟨"InvalidPercent", [.uint 16]⟩, "InvalidPercent(uint16)", [0xab, 0x0f, 0xa6, 0xda]),
    (⟨"SqrtPriceTooHigh", []⟩, "SqrtPriceTooHigh()", [0xfb, 0xed, 0xce, 0xdd]),
    (⟨"ZeroTokenIn", []⟩, "ZeroTokenIn()", [0x76, 0x71, 0xdd, 0xe6]),
    (⟨"ZeroTokenOut", []⟩, "ZeroTokenOut()", [0xe1, 0xbc, 0xf9, 0xa0]),
    (⟨"ZeroAsset", []⟩, "ZeroAsset()", [0x7c, 0xde, 0x9b, 0x72]),
    (⟨"ZeroAmount", []⟩, "ZeroAmount()", [0x1f, 0x2a, 0x20, 0x05]),
    (⟨"UnsupportedMode", [.uint 8]⟩, "UnsupportedMode(uint8)", [0xe2, 0xd1, 0x0d, 0x22]),
    (⟨"TickOutOfRange", []⟩, "TickOutOfRange()", [0xc7, 0xe1, 0x3a, 0x01]),
    (⟨"InvalidTargetHealthFactor", [.uint 256]⟩, "InvalidTargetHealthFactor(uint256)",
      [0xad, 0x6f, 0x40, 0x03])]

theorem mem_sampleHashes : ∀ e ∈ errorsInPlay, ∃ row ∈ sampleHashes, row.1 = e := by decide +kernel

theorem nodup_sampleHashes : (sampleHashes.map fun row => row.2.2).Nodup := by decide

/-- The hash of a signature of the table. -/
def sampleSelector (signature : String) : Bytes :=
  ((sampleHashes.find? fun row => row.2.1 = signature).map fun row => row.2.2).getD [0, 0, 0, 0]

theorem sampleSelector_eq : ∀ row ∈ sampleHashes, sampleSelector row.1.signature = row.2.2 := by
  have hsignature : ∀ row ∈ sampleHashes, row.1.signature = row.2.1 := by decide
  have hselector : ∀ row ∈ sampleHashes, sampleSelector row.2.1 = row.2.2 := by decide
  intro row hrow
  rw [hsignature row hrow, hselector row hrow]

/-- The selectors of the errors here. -/
def sampleSelectors : Selectors where
  selector := sampleSelector
  length_selector signature := by
    have hlength : ∀ row ∈ sampleHashes, row.2.2.length = 4 := by decide
    rw [sampleSelector]
    cases hfind : sampleHashes.find? fun row => row.2.1 = signature with
    | none => rfl
    | some row => exact hlength row (List.mem_of_find?_eq_some hfind)
  injective := by
    intro e he e' he' heq
    obtain ⟨row, hrow, rfl⟩ := mem_sampleHashes e he
    obtain ⟨row', hrow', rfl⟩ := mem_sampleHashes e' he'
    rw [sampleSelector_eq row hrow, sampleSelector_eq row' hrow'] at heq
    rw [List.inj_on_of_nodup_map nodup_sampleHashes hrow hrow' heq]

/-- A slot out of bounds in step 3. -/
def sampleStep : RevertCase :=
  .wrapped ⟨⟨"ActionExecutionFailed", [.uint 32, .bytes]⟩, by decide, 3, by decide⟩
    (.custom ⟨"ContextSlotOutOfBounds", [.uint 32]⟩ [.word 4] "A context slot index is out of bounds."
      (by decide) (by decide) (.cons ⟨by decide, by decide⟩ .nil))

/-- A vault whose deposit does not cover its gas compensation. -/
def sampleDeposit : RevertCase :=
  .alone
    (.custom ⟨"InsufficientFeeDeposit", [.uint 256, .uint 256]⟩ [.word 5, .word 3]
      "The vault does not have enough fee deposit to cover gas compensation." (by decide) (by decide)
      (.cons ⟨by decide, by decide⟩ (.cons ⟨by decide, by decide⟩ .nil)))
    (by decide : "InsufficientFeeDeposit" ∉ outerWrappers)

end Sample

theorem decodeRevert_sample :
    sampleSelectors.decodeRevert (some (sampleStep.encode sampleSelectors)) none =
      some sampleStep.text :=
  (decodeRevert_iff sampleSelectors sampleStep (by decide +kernel) none).2
    (by decide : (⟨"ContextSlotOutOfBounds", [.uint 32]⟩ : ErrorFragment) ∈ errorSignatures)

/-- The decoder lists the error without parameters, and so it only finds a selector. -/
theorem drifted_signature_undecoded :
    sampleSelectors.decodeRevert (some (sampleDeposit.encode sampleSelectors)) none =
        some "0xfa1aa9dc" ∧
      sampleSelectors.decodeRevert (some (sampleDeposit.encode sampleSelectors)) none ≠
        some sampleDeposit.text := by
  decide

end StrategyBuilder.Backend.ContractErrors
