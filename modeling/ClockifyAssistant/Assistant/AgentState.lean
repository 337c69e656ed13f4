import ClockifyAssistant.Assistant.ModelClient

/-!
The suspension of a turn across the confirmation of a risky write: the state that is stored,
what the schema lets through when it is read, and the transcript that the resume starts from.
-/
namespace ClockifyAssistant

open Lib Lib.CodeUnits

namespace AgentLoop

structure PendingCall where
  id : CodeUnits
  name : CodeUnits

structure CapabilityBinding where
  operationId : CodeUnits
  id : CodeUnits
  hash : CodeUnits

structure AgentState where
  transcript : List ModelMessage
  call : PendingCall
  selectionContext : Option CodeUnits
  intentCapability : Option CapabilityBinding

/-! The stored JSON. -/

abbrev Fields := List (CodeUnits × UnitJson)

def field? {α : Type} (name : String) (json : α → UnitJson) (value : Option α) : Fields :=
  (value.map fun value => (ofString name, json value)).toList

def Role.text : Role → CodeUnits
  | system => ofString "system"
  | user => ofString "user"
  | assistant => ofString "assistant"
  | tool => ofString "tool"

def callJson (call : ToolCall) : UnitJson :=
  .obj ([(ofString "id", .str call.id), (ofString "name", .str call.name),
    (ofString "arguments", (ReadJson.obj call.arguments).shown)] ++
    field? "thoughtSignature" .str call.thoughtSignature)

def messageJson (message : ModelMessage) : UnitJson :=
  .obj ((ofString "role", .str message.role.text) ::
    (field? "toolCallId" .str message.toolCallId ++ (ofString "content", .str message.content) ::
      (field? "toolCalls" (fun calls => .arr (calls.map callJson)) message.toolCalls ++
        field? "reasoningContent" .str message.reasoningContent)))

def bindingJson (binding : CapabilityBinding) : UnitJson :=
  .obj [(ofString "operationId", .str binding.operationId), (ofString "id", .str binding.id),
    (ofString "hash", .str binding.hash)]

def AgentState.json (state : AgentState) : UnitJson :=
  .obj ([(ofString "transcript", .arr (state.transcript.map messageJson)),
    (ofString "call", .obj [(ofString "id", .str state.call.id),
      (ofString "name", .str state.call.name)])] ++
    (field? "selectionContext" .str state.selectionContext ++
      field? "intentCapability" bindingJson state.intentCapability))

/-! What the schema reads. -/

section Schema

variable (readRecord : List (CodeUnits × ReadJson) → List (CodeUnits × ReadJson))

def readObject : UnitJson → Option Fields
  | .obj fields => some fields
  | _ => none

def readArray : UnitJson → Option (List UnitJson)
  | .arr items => some items
  | _ => none

/-- `z.string()` -/
def readText : UnitJson → Option CodeUnits
  | .str text => some text
  | _ => none

/-- `z.string().min(1)` -/
def readNonempty (value : UnitJson) : Option CodeUnits := (readText value).filter (· ≠ [])

def required {α : Type} (name : String) (read : UnitJson → Option α) (fields : Fields) : Option α :=
  (fields.lookup (ofString name)).bind read

/-- `.optional()`: a field that is absent is no failure. -/
def optional {α : Type} (name : String) (read : UnitJson → Option α) (fields : Fields) :
    Option (Option α) :=
  match fields.lookup (ofString name) with
  | none => some none
  | some value => (read value).map some

def Role.read (text : CodeUnits) : Option Role :=
  [Role.system, Role.user, Role.assistant, Role.tool].find? fun role => role.text = text

def readArguments (value : UnitJson) : Option (List (CodeUnits × ReadJson)) :=
  (readObject value).map fun fields => readRecord (ReadJson.rereadFields fields)

def readCall (value : UnitJson) : Option ToolCall := do
  let fields ← readObject value
  let id ← required "id" readNonempty fields
  let name ← required "name" readNonempty fields
  let arguments ← required "arguments" (readArguments readRecord) fields
  let thoughtSignature ← optional "thoughtSignature" readNonempty fields
  return ⟨id, name, arguments, thoughtSignature⟩

def readCalls (value : UnitJson) : Option (List ToolCall) := do
  let items ← readArray value
  items.mapM (readCall readRecord)

def readMessage (value : UnitJson) : Option ModelMessage := do
  let fields ← readObject value
  let role ← required "role" (fun value => (readText value).bind Role.read) fields
  let content ← required "content" readText fields
  let toolCalls ← optional "toolCalls" (readCalls readRecord) fields
  let toolCallId ← optional "toolCallId" readText fields
  let reasoningContent ← optional "reasoningContent" readText fields
  return ⟨role, content, toolCalls, toolCallId, reasoningContent⟩

def readTranscript (value : UnitJson) : Option (List ModelMessage) := do
  let items ← readArray value
  let messages ← items.mapM (readMessage readRecord)
  if messages.isEmpty then none else some messages

def readPendingCall (value : UnitJson) : Option PendingCall := do
  let fields ← readObject value
  let id ← required "id" readNonempty fields
  let name ← required "name" readNonempty fields
  return ⟨id, name⟩

def maxSelectionContextUnits : Nat := 8000

def readSelectionContext (value : UnitJson) : Option CodeUnits :=
  (readNonempty value).filter fun text => text.length ≤ maxSelectionContextUnits

def readBinding (value : UnitJson) : Option CapabilityBinding := do
  let fields ← readObject value
  let operationId ← required "operationId" readNonempty fields
  let id ← required "id" readNonempty fields
  let hash ← required "hash" (fun value => (readText value).filter (·.length = 64)) fields
  return ⟨operationId, id, hash⟩

def parseAgentState (value : UnitJson) : Option AgentState := do
  let fields ← readObject value
  let transcript ← required "transcript" (readTranscript readRecord) fields
  let call ← required "call" readPendingCall fields
  let selectionContext ← optional "selectionContext" readSelectionContext fields
  let intentCapability ← optional "intentCapability" readBinding fields
  return ⟨transcript, call, selectionContext, intentCapability⟩

end Schema

/-! The suspension and the resume. -/

def maxAgentStateBytes : Nat := 256 * 1024

def capAgentState (state : AgentState) : Option AgentState :=
  if byteLength state.json.stringify ≤ maxAgentStateBytes then some state else none

def assembledState (call : ToolCall) (transcript : List ModelMessage)
    (selectionContext : Option CodeUnits) : AgentState where
  transcript := transcript
  call := ⟨call.id, call.name⟩
  selectionContext := selectionContext.filter (· ≠ [])
  intentCapability := none

/-- The state that the preview stores: the capped one, bound to the capability of the turn. -/
def suspendedState (call : ToolCall) (transcript : List ModelMessage)
    (selectionContext : Option CodeUnits) (intentCapability : Option CapabilityBinding) :
    Option AgentState :=
  (capAgentState (assembledState call transcript selectionContext)).map fun state =>
    { state with intentCapability := intentCapability }

def resumeMessages (state : AgentState) (receipt : ToolResults.ReceiptJson) : List ModelMessage :=
  state.transcript ++ [toolResultTurn state.call.id receipt]

end AgentLoop

end ClockifyAssistant
