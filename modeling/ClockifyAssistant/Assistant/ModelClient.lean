import ClockifyAssistant.Assistant.AgentLoop

/-!
The tool calls of a provider's completion as the model client hands them on. A call without an
id gets one from a counter of the client, which starts again with every process.
-/
namespace ClockifyAssistant

open Lib Lib.CodeUnits

namespace AgentLoop

inductive ProviderProtocolErrorReason
  | unofferedTool
  | malformedTool

/-- A call as the provider's answer has it; an id or a name that is no text is `none`. -/
structure RawToolCall where
  id : Option CodeUnits
  name : Option CodeUnits
  /-- What `JSON.parse` reads from the text of the arguments; `none` if it reads nothing. -/
  arguments : Option ReadJson
  thoughtSignature : Option UnitJson

def checkName (offeredToolNames : List CodeUnits) (raw : RawToolCall) :
    Except ProviderProtocolErrorReason Unit :=
  match raw.name with
  | some (u :: rest) =>
      if offeredToolNames.contains (u :: rest) then .ok () else .error .unofferedTool
  | _ => .error .malformedTool

/-- `call_${seq}` -/
def syntheticId (seq : Nat) : CodeUnits := ofString "call_" ++ ofNat seq

def RawToolCall.supplied (raw : RawToolCall) : Option CodeUnits := raw.id.filter (· ≠ [])

def callId (seq : Nat) (raw : RawToolCall) : CodeUnits × Nat :=
  match raw.supplied with
  | some id => (id, seq)
  | none => (syntheticId seq, seq + 1)

def parseSignature : Option UnitJson → Except ProviderProtocolErrorReason (Option CodeUnits)
  | none => .ok none
  | some .null => .ok none
  | some (.str text) => .ok (if text = [] then none else some text)
  | some _ => .error .malformedTool

def parseCall (seq : Nat) (raw : RawToolCall) :
    Except ProviderProtocolErrorReason (ToolCall × Nat) :=
  match raw.name, raw.arguments with
  | some (u :: rest), some (.obj arguments) =>
      (parseSignature raw.thoughtSignature).map fun thoughtSignature =>
        (⟨(callId seq raw).1, u :: rest, arguments, thoughtSignature⟩, (callId seq raw).2)
  | _, _ => .error .malformedTool

def parseEach : Nat → List RawToolCall → Except ProviderProtocolErrorReason (List ToolCall × Nat)
  | seq, [] => .ok ([], seq)
  | seq, raw :: rest => do
      let (call, seq) ← parseCall seq raw
      let (calls, seq) ← parseEach seq rest
      return (call :: calls, seq)

def parseToolCalls (offeredToolNames : List CodeUnits) (rawCalls : List RawToolCall) (seq : Nat) :
    Except ProviderProtocolErrorReason (List ToolCall × Nat) := do
  rawCalls.forM (checkName offeredToolNames)
  parseEach seq rawCalls

end AgentLoop

end ClockifyAssistant
