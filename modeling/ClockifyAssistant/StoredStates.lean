import ClockifyAssistant.Assistant.AgentState

/-!
A stored suspension is read back as it was written, or not at all.
-/
namespace ClockifyAssistant

open Lib Lib.CodeUnits

namespace AgentLoop

variable {readRecord : List (CodeUnits × ReadJson) → List (CodeUnits × ReadJson)}

/-- A call that the schema and the JSON text leave as it is. -/
structure ToolCall.Storable (readRecord : List (CodeUnits × ReadJson) → List (CodeUnits × ReadJson))
    (call : ToolCall) : Prop where
  id_ne : call.id ≠ []
  name_ne : call.name ≠ []
  signature_ne : call.thoughtSignature ≠ some []
  finite : ReadJson.fieldsFinite call.arguments = true
  record : readRecord call.arguments = call.arguments

/-- The calls of a transcript, in order. -/
def callsOf (transcript : List ModelMessage) : List ToolCall :=
  transcript.flatMap fun message => message.toolCalls.getD []

section Pieces

theorem lookup_field? {α : Type} (key : CodeUnits) (name : String) (json : α → UnitJson)
    (value : Option α) :
    (field? name json value).lookup key = if key = ofString name then value.map json else none := by
  cases value with
  | none => simp [field?]
  | some value =>
    by_cases hkey : key = ofString name
    · simp [field?, hkey]
    · have hne : (key == ofString name) = false := beq_eq_false_iff_ne.mpr hkey
      simp [field?, hkey, List.lookup_cons, hne]

theorem readNonempty_str {text : CodeUnits} (h : text ≠ []) :
    readNonempty (.str text) = some text := by
  simp [readNonempty, readText, h]

theorem Role.read_text (role : Role) : Role.read role.text = some role := by
  cases role <;> decide

theorem mapM_map_eq_some {α β : Type} {read : β → Option α} {json : α → β} {values : List α}
    (h : ∀ value ∈ values, read (json value) = some value) :
    (values.map json).mapM read = some values := by
  induction values with
  | nil => rfl
  | cons value rest ih =>
    rw [List.map_cons, List.mapM_cons, h value List.mem_cons_self,
      ih fun other hother => h other (List.mem_cons_of_mem value hother)]
    rfl

end Pieces

section Messages

theorem readArguments_shown {call : ToolCall} (h : call.Storable readRecord) :
    readArguments readRecord (ReadJson.obj call.arguments).shown = some call.arguments := by
  unfold readArguments
  rw [ReadJson.shown, readObject, Option.map_some, ReadJson.rereadFields_shown h.finite, h.record]

theorem readCall_callJson {call : ToolCall} (h : call.Storable readRecord) :
    readCall readRecord (callJson call) = some call := by
  have hid := readNonempty_str h.id_ne
  have hname := readNonempty_str h.name_ne
  have harguments := readArguments_shown h
  obtain ⟨id, name, arguments, thoughtSignature⟩ := call
  cases thoughtSignature with
  | none =>
    change (do
      let id ← readNonempty (.str id)
      let name ← readNonempty (.str name)
      let arguments ← readArguments readRecord (ReadJson.obj arguments).shown
      some (ToolCall.mk id name arguments none)) = _
    rw [hid, hname, harguments]
    rfl
  | some signature =>
    have hsignature : readNonempty (.str signature) = some signature :=
      readNonempty_str fun hnil => h.signature_ne (congrArg some hnil)
    change (do
      let id ← readNonempty (.str id)
      let name ← readNonempty (.str name)
      let arguments ← readArguments readRecord (ReadJson.obj arguments).shown
      let thoughtSignature ← (readNonempty (.str signature)).map some
      some (ToolCall.mk id name arguments thoughtSignature)) = _
    rw [hid, hname, harguments, hsignature]
    rfl

/-- Of a message, the schema reads everything but the calls as it stands. -/
theorem readMessage_eq (message : ModelMessage) :
    readMessage readRecord (messageJson message) = (do
      let toolCalls ← optional "toolCalls" (readCalls readRecord) (field? "toolCalls"
        (fun calls => .arr (calls.map callJson)) message.toolCalls)
      some { message with toolCalls := toolCalls }) := by
  obtain ⟨role, content, toolCalls, toolCallId, reasoningContent⟩ := message
  have hrole : (readText (.str role.text)).bind Role.read = some role := Role.read_text role
  cases toolCalls <;> cases toolCallId <;> cases reasoningContent
  all_goals
    change (do
      let role ← (readText (.str role.text)).bind Role.read
      _) = _
    rw [hrole]
    rfl

theorem readMessage_messageJson {message : ModelMessage}
    (h : ∀ call ∈ message.toolCalls.getD [], call.Storable readRecord) :
    readMessage readRecord (messageJson message) = some message := by
  have hcalls : optional "toolCalls" (readCalls readRecord) (field? "toolCalls"
      (fun calls => .arr (calls.map callJson)) message.toolCalls) = some message.toolCalls := by
    unfold optional
    rw [lookup_field?, if_pos rfl]
    cases hcalls : message.toolCalls with
    | none => rfl
    | some calls =>
      rw [hcalls] at h
      have hread : (calls.map callJson).mapM (readCall readRecord) = some calls :=
        mapM_map_eq_some fun call hcall => readCall_callJson (h call hcall)
      change ((calls.map callJson).mapM (readCall readRecord)).map some = _
      rw [hread]
      rfl
  rw [readMessage_eq, hcalls]
  rfl

end Messages

section States

theorem readTranscript_json {transcript : List ModelMessage}
    (h : ∀ call ∈ callsOf transcript, call.Storable readRecord) :
    readTranscript readRecord (.arr (transcript.map messageJson)) = some transcript ∨
      readTranscript readRecord (.arr (transcript.map messageJson)) = none := by
  have hmessages : ∀ message ∈ transcript,
      readMessage readRecord (messageJson message) = some message := fun message hmessage =>
    readMessage_messageJson fun call hcall => h call (List.mem_flatMap.mpr ⟨message, hmessage, hcall⟩)
  change (do
    let messages ← (transcript.map messageJson).mapM (readMessage readRecord)
    if messages.isEmpty then none else some messages) = _ ∨ (do
    let messages ← (transcript.map messageJson).mapM (readMessage readRecord)
    if messages.isEmpty then none else some messages) = _
  rw [mapM_map_eq_some hmessages]
  cases transcript with
  | nil => exact .inr rfl
  | cons message rest => exact .inl rfl

theorem readPendingCall_json (call : PendingCall) :
    readPendingCall (.obj [(ofString "id", .str call.id), (ofString "name", .str call.name)]) =
        some call ∨
      readPendingCall (.obj [(ofString "id", .str call.id), (ofString "name", .str call.name)]) =
        none := by
  obtain ⟨id, name⟩ := call
  change (do
    let id ← readNonempty (.str id)
    let name ← readNonempty (.str name)
    some (PendingCall.mk id name)) = _ ∨ (do
    let id ← readNonempty (.str id)
    let name ← readNonempty (.str name)
    some (PendingCall.mk id name)) = _
  by_cases hid : id = []
  · subst hid
    exact .inr rfl
  by_cases hname : name = []
  · subst hname
    rw [readNonempty_str hid]
    exact .inr rfl
  · rw [readNonempty_str hid, readNonempty_str hname]
    exact .inl rfl

theorem readSelectionContext_str (text : CodeUnits) :
    readSelectionContext (.str text) = some text ∨ readSelectionContext (.str text) = none := by
  by_cases hnil : text = []
  · subst hnil
    exact .inr rfl
  unfold readSelectionContext
  rw [readNonempty_str hnil, Option.filter_some]
  split
  · exact .inl rfl
  · exact .inr rfl

theorem readBinding_json (binding : CapabilityBinding) :
    readBinding (bindingJson binding) = some binding ∨ readBinding (bindingJson binding) = none := by
  obtain ⟨operationId, id, hash⟩ := binding
  change (do
    let operationId ← readNonempty (.str operationId)
    let id ← readNonempty (.str id)
    let hash ← (some hash).filter (fun hash : CodeUnits => hash.length = 64)
    some (CapabilityBinding.mk operationId id hash)) = _ ∨ (do
    let operationId ← readNonempty (.str operationId)
    let id ← readNonempty (.str id)
    let hash ← (some hash).filter (fun hash : CodeUnits => hash.length = 64)
    some (CapabilityBinding.mk operationId id hash)) = _
  by_cases hoperation : operationId = []
  · subst hoperation
    exact .inr rfl
  by_cases hid : id = []
  · subst hid
    rw [readNonempty_str hoperation]
    exact .inr rfl
  rw [readNonempty_str hoperation, readNonempty_str hid, Option.filter_some]
  split
  · exact .inl rfl
  · exact .inr rfl

/-- An optional field of the state that is read as it was written, or not at all. -/
theorem optional_field? {α : Type} {name : String} {read : UnitJson → Option α}
    {json : α → UnitJson} (h : ∀ value, read (json value) = some value ∨ read (json value) = none)
    (value : Option α) : optional name read (field? name json value) = some value ∨
      optional name read (field? name json value) = none := by
  unfold optional
  rw [lookup_field?, if_pos rfl]
  cases value with
  | none => exact .inl rfl
  | some value =>
    simp only [Option.map_some]
    rcases h value with hread | hread
    · rw [hread]
      exact .inl rfl
    · rw [hread]
      exact .inr rfl

theorem parseAgentState_eq (state : AgentState) :
    parseAgentState readRecord state.json = (do
      let transcript ← readTranscript readRecord (.arr (state.transcript.map messageJson))
      let call ← readPendingCall
        (.obj [(ofString "id", .str state.call.id), (ofString "name", .str state.call.name)])
      let selectionContext ← optional "selectionContext" readSelectionContext
        (field? "selectionContext" .str state.selectionContext)
      let intentCapability ← optional "intentCapability" readBinding
        (field? "intentCapability" bindingJson state.intentCapability)
      some (AgentState.mk transcript call selectionContext intentCapability)) := by
  obtain ⟨transcript, call, selectionContext, intentCapability⟩ := state
  cases selectionContext <;> cases intentCapability <;> rfl

theorem parseAgentState_json {state : AgentState}
    (h : ∀ call ∈ callsOf state.transcript, call.Storable readRecord) :
    parseAgentState readRecord state.json = some state ∨
      parseAgentState readRecord state.json = none := by
  rw [parseAgentState_eq]
  rcases readTranscript_json h with htranscript | htranscript
  · rcases readPendingCall_json state.call with hcall | hcall
    · rcases optional_field? readSelectionContext_str state.selectionContext with hcontext | hcontext
      · rcases optional_field? readBinding_json state.intentCapability with hbinding | hbinding
        · rw [htranscript, hcall, hcontext, hbinding]
          exact .inl rfl
        · rw [htranscript, hcall, hcontext, hbinding]
          exact .inr rfl
      · rw [htranscript, hcall, hcontext]
        exact .inr rfl
    · rw [htranscript, hcall]
      exact .inr rfl
  · rw [htranscript]
    exact .inr rfl

theorem parseAgentState_of_text {state : AgentState} {value : UnitJson}
    (h : ∀ call ∈ callsOf state.transcript, call.Storable readRecord)
    (htext : value.stringify = state.json.stringify) :
    parseAgentState readRecord value = some state ∨ parseAgentState readRecord value = none := by
  rw [UnitJson.stringify_injective htext]
  exact parseAgentState_json h

end States

end AgentLoop

end ClockifyAssistant
