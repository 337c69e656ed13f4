import ClockifyAssistant.Assistant.ToolResults
import ClockifyAssistant.Lib.Performed
import ClockifyAssistant.Lib.ReadJson

/-!
The loop of the agent over the messages themselves: what it appends to the transcript, when
it stops, and which calls it takes for repeated. It reads receipts as their JSON shows them.
-/
namespace ClockifyAssistant

open Lib Lib.CodeUnits Fallible

namespace AgentLoop

/-- Max model round-trips per turn before we stop and answer truthfully. -/
def defaultMaxSteps : Nat := 6

/-- Max tool calls honored from a single model turn. -/
def defaultMaxToolCallsPerStep : Nat := 8

def exhaustedText : CodeUnits := ofString
  "I wasn't able to finish that within my step limit. Could you narrow it down or break it into smaller steps?"

def alreadyRecordedText : CodeUnits := ofString
  "The requested information is already recorded in the result above."

inductive Role
  | system
  | user
  | assistant
  | tool
  deriving DecidableEq

structure ToolCall where
  id : CodeUnits
  name : CodeUnits
  arguments : List (CodeUnits × ReadJson)
  thoughtSignature : Option CodeUnits

structure ModelMessage where
  role : Role
  content : CodeUnits
  toolCalls : Option (List ToolCall)
  toolCallId : Option CodeUnits
  reasoningContent : Option CodeUnits

structure ToolCompletion where
  text : CodeUnits
  toolCalls : List ToolCall
  reasoningContent : Option CodeUnits

/-! Receipts and results. -/

def changedName : CodeUnits := ofString "changed"

def changeBuckets : List CodeUnits :=
  [ofString "created", ofString "updated", ofString "deleted", ofString "reused"]

def listsSome : Option UnitJson → Bool
  | some (.arr (_ :: _)) => true
  | _ => false

def hasChanges : Option UnitJson → Bool
  | some (.obj changed) => changeBuckets.any fun bucket => listsSome (changed.lookup bucket)
  | _ => false

def changes (receipt : ToolResults.ReceiptJson) : Bool :=
  hasChanges (receipt.fields.lookup changedName)

def code (receipt : ToolResults.ReceiptJson) : CodeUnits :=
  match receipt.fields.lookup ToolResults.codeName with
  | some (.str text) => text
  | _ => []

def isTerminalSafetyDenial (receipt : ToolResults.ReceiptJson) : Bool :=
  !receipt.ok &&
    (code receipt == ofString "policy_denied" ||
      (ofString "intent_capability_").isPrefixOf (code receipt))

inductive ActionResult
  | receipt (receipt : ToolResults.ReceiptJson)
  | partially (receipt : ToolResults.ReceiptJson) (message : CodeUnits)
  | clarify (message : CodeUnits) (options : List UnitJson)
  | preview (card operation : UnitJson)

inductive AgentTurnResult
  | final (text : CodeUnits) (transcript : List ModelMessage)
  | clarify (message : CodeUnits) (options : List UnitJson) (transcript : List ModelMessage)
  | partially (transcript : List ModelMessage)
  | interrupt (call : ToolCall) (card operation : UnitJson) (transcript : List ModelMessage)
  | exhausted (text : CodeUnits) (transcript : List ModelMessage)
  | aborted (transcript : List ModelMessage)

def AgentTurnResult.transcript : AgentTurnResult → List ModelMessage
  | final _ transcript | clarify _ _ transcript | partially transcript
  | interrupt _ _ _ transcript | exhausted _ transcript | aborted transcript => transcript

/-! What the loop asks of the world. -/

/-- What an action did to the host. The loop cannot see it. -/
inductive HostEffect
  | untouched
  | changed
  /-- The outcome is unknown, or the action failed after its request was sent. -/
  | uncertain

structure Executed where
  result : ActionResult
  effect : HostEffect

inductive LoopOp
  /-- `input.signal?.aborted` -/
  | aborted
  | completeWithTools (transcript : List ModelMessage)
  | runAction (call : ToolCall)
  | onStep (call : ToolCall) (result : ActionResult)

abbrev LoopOp.Value : LoopOp → Type
  | aborted => Bool
  | completeWithTools _ => ToolCompletion
  | runAction _ => Executed
  | onStep _ _ => Unit

abbrev Loop (ε α : Type) : Type := Fallible LoopOp LoopOp.Value ε α

/-! The messages that a step appends. -/

def assistantToolCallTurn (completion : ToolCompletion) (calls : List ToolCall) : ModelMessage where
  role := .assistant
  content := completion.text
  toolCalls := some calls
  toolCallId := none
  reasoningContent := completion.reasoningContent.filter (· ≠ [])

def toolResultTurn (toolCallId : CodeUnits) (receipt : ToolResults.ReceiptJson) : ModelMessage where
  role := .tool
  content := ToolResults.capToolResultForModel receipt
  toolCalls := none
  toolCallId := some toolCallId
  reasoningContent := none

/-! The text that two calls share when one repeats the other. -/

section Signatures

variable (localeCompare : CodeUnits → CodeUnits → Int)

mutual

def canonicalToolArguments : ReadJson → CodeUnits
  | .arr items => 0x5b :: (List.intercalate [0x2c] (canonicalItems items) ++ [0x5d])
  | .obj fields =>
      0x7b :: (List.intercalate [0x2c]
        ((UnitJson.sortedEntries localeCompare (canonicalChildren fields)).map fun entry =>
          quoted entry.1 ++ 0x3a :: entry.2) ++ [0x7d])
  | .null => UnitJson.stringify .null
  | .bool value => UnitJson.stringify (.bool value)
  | .num value => UnitJson.stringify (ReadJson.num value).shown
  | .str value => UnitJson.stringify (.str value)

def canonicalItems : List ReadJson → List CodeUnits
  | [] => []
  | item :: rest => canonicalToolArguments item :: canonicalItems rest

/-- The entries with the text of each child; they are sorted by their keys alone. -/
def canonicalChildren : List (CodeUnits × ReadJson) → List (CodeUnits × CodeUnits)
  | [] => []
  | (key, child) :: rest => (key, canonicalToolArguments child) :: canonicalChildren rest

end

def toolCallSignature (call : ToolCall) : CodeUnits :=
  call.name ++ 0 :: canonicalToolArguments localeCompare (.obj call.arguments)

end Signatures

/-! The turn. -/

/-- The calls of one completion that ran, the replies to them, and the signatures of the
reads that need no second run. -/
structure CallsSoFar where
  honored : List ToolCall
  toolResults : List ModelMessage
  completedReadSignatures : List CodeUnits

namespace CallsSoFar

def pushedTo (s : CallsSoFar) (transcript : List ModelMessage) (completion : ToolCompletion) :
    List ModelMessage :=
  transcript ++ assistantToolCallTurn completion s.honored :: s.toolResults

def honor (s : CallsSoFar) (call : ToolCall) : CallsSoFar :=
  { s with honored := s.honored ++ [call] }

def completedAfter (s : CallsSoFar) (signature : CodeUnits) (receipt : ToolResults.ReceiptJson) :
    List CodeUnits :=
  if receipt.ok && !changes receipt then s.completedReadSignatures ++ [signature]
  else if receipt.ok then []
  else s.completedReadSignatures

def answer (s : CallsSoFar) (call : ToolCall) (signature : CodeUnits)
    (receipt : ToolResults.ReceiptJson) : CallsSoFar where
  honored := s.honored
  toolResults := s.toolResults ++ [toolResultTurn call.id receipt]
  completedReadSignatures := s.completedAfter signature receipt

end CallsSoFar

section Turn

variable {ε : Type} (localeCompare : CodeUnits → CodeUnits → Int)

def runCall (transcript : List ModelMessage) (completion : ToolCompletion) (call : ToolCall)
    (s : CallsSoFar) : Loop ε (AgentTurnResult ⊕ CallsSoFar) := do
  if ← perform .aborted then return .inl (.aborted transcript)
  let signature := toolCallSignature localeCompare call
  if s.completedReadSignatures.contains signature then
    return .inl (.final alreadyRecordedText
      (if s.honored.isEmpty then transcript else s.pushedTo transcript completion))
  let executed ← perform (.runAction call)
  let s := s.honor call
  match executed.result with
  | .preview card operation =>
      return .inl (.interrupt call card operation (s.pushedTo transcript completion))
  | .clarify message options => do
      perform (LoopOp.onStep call (.clarify message options))
      return .inl (.clarify message options (s.pushedTo transcript completion))
  | .partially receipt message => do
      perform (LoopOp.onStep call (.partially receipt message))
      return .inl (.partially (s.pushedTo transcript completion))
  | .receipt receipt => do
      perform (LoopOp.onStep call (.receipt receipt))
      let s := s.answer call signature receipt
      if isTerminalSafetyDenial receipt then
        return .inl (.final [] (s.pushedTo transcript completion))
      else return .inr s

def runCalls (transcript : List ModelMessage) (completion : ToolCompletion) :
    List ToolCall → CallsSoFar → Loop ε (AgentTurnResult ⊕ CallsSoFar)
  | [], s => return .inr s
  | call :: rest, s => do
      match ← runCall localeCompare transcript completion call s with
      | .inl turn => return .inl turn
      | .inr s => runCalls transcript completion rest s

def runStep (maxCalls : Nat) (transcript : List ModelMessage) (completed : List CodeUnits) :
    Loop ε (AgentTurnResult ⊕ (List ModelMessage × List CodeUnits)) := do
  if ← perform .aborted then return .inl (.aborted transcript)
  match ← caught (perform (LoopOp.completeWithTools transcript)) with
  | .error e => do
      if ← perform .aborted then return .inl (.aborted transcript)
      throw e
  | .ok completion =>
      let calls := completion.toolCalls.take maxCalls
      if calls.isEmpty then return .inl (.final completion.text transcript)
      match ← runCalls localeCompare transcript completion calls ⟨[], [], completed⟩ with
      | .inl turn => return .inl turn
      | .inr s => return .inr (s.pushedTo transcript completion, s.completedReadSignatures)

def runSteps (maxCalls : Nat) : Nat → List ModelMessage → List CodeUnits → Loop ε AgentTurnResult
  | 0, transcript, _ => return .exhausted exhaustedText transcript
  | steps + 1, transcript, completed => do
      match ← runStep localeCompare maxCalls transcript completed with
      | .inl turn => return turn
      | .inr (transcript, completed) => runSteps maxCalls steps transcript completed

structure RunAgentTurnInput where
  messages : List ModelMessage
  maxSteps : Option Nat
  maxToolCallsPerStep : Option Nat

def RunAgentTurnInput.steps (input : RunAgentTurnInput) : Nat :=
  input.maxSteps.getD defaultMaxSteps

def RunAgentTurnInput.calls (input : RunAgentTurnInput) : Nat :=
  input.maxToolCallsPerStep.getD defaultMaxToolCallsPerStep

def runAgentTurn (input : RunAgentTurnInput) : Loop ε AgentTurnResult :=
  runSteps localeCompare input.calls input.steps input.messages []

end Turn

end AgentLoop

end ClockifyAssistant
