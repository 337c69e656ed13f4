import Mathlib.Algebra.Order.Ring.Rat
import ClockifyAssistant.AssistantV2.PresentedResult

/-!
The boundary of the client. Data of the server is read field by field; a field that does not
have its shape is a protocol error, which names the field.
-/
namespace ClockifyAssistant

open Lib

structure ProtocolError where
  detail : String
  deriving DecidableEq

abbrev Decode (α : Type) := Except ProtocolError α

namespace Protocol

def protocolError {α : Type} (detail : String) : Decode α := .error ⟨detail⟩

/-- An object; what is missing is `none`. -/
def record (value : Option JsonValue) (name : String) : Decode JsonValue :=
  match value with
  | some (.obj fields) => .ok (.obj fields)
  | _ => protocolError (name ++ " must be an object")

def string (value : Option JsonValue) (name : String) : Decode String :=
  match value with
  | some (.str text) => .ok text
  | _ => protocolError (name ++ " must be a string")

def optionalString (value : Option JsonValue) (name : String) : Decode (Option String) :=
  match value with
  | none => .ok none
  | some value => do return some (← string (some value) name)

def boolean (value : Option JsonValue) (name : String) : Decode Bool :=
  match value with
  | some (.bool value) => .ok value
  | _ => protocolError (name ++ " must be boolean")

def nonNegativeInteger (value : Option JsonValue) (name : String) : Decode Nat :=
  match value with
  | some (.num number) =>
      if number.isInt ∧ 0 ≤ number.num then .ok number.num.toNat
      else protocolError (name ++ " must be a non-negative integer")
  | _ => protocolError (name ++ " must be a non-negative integer")

def decodeItems {α : Type} (name : String) (decode : Option JsonValue → String → Decode α) :
    Nat → List JsonValue → Decode (List α)
  | _, [] => .ok []
  | index, item :: rest => do
      let first ← decode (some item) (name ++ "[" ++ toString index ++ "]")
      return first :: (← decodeItems name decode (index + 1) rest)

def array {α : Type} (value : Option JsonValue) (name : String)
    (decode : Option JsonValue → String → Decode α) : Decode (List α) :=
  match value with
  | some (.arr items) => decodeItems name decode 0 items
  | _ => protocolError (name ++ " must be an array")

section Dates

-- The texts that the runtime reads as a date.
variable (isDate : String → Bool)

def isoString (value : Option JsonValue) (name : String) : Decode String := do
  let parsed ← string value name
  if isDate parsed then return parsed
  protocolError (name ++ " must be an ISO date")

structure ArtifactDescriptor where
  downloadUrl : String
  filename : String
  expiresAt : String
  deriving DecidableEq

def isArtifactPath (url : String) : Bool :=
  let stem := "/api/artifacts/".toList
  let id := url.toList.drop stem.length
  stem.isPrefixOf url.toList && !id.isEmpty &&
    id.all fun c => c.isAlpha || c.isDigit || c == '_' || c == '-'

def isSafePdfName (filename : String) : Bool :=
  let letters := filename.toList
  !(trimText letters).isEmpty && letters.all (fun c => c != '/' && c != '\\' && 32 ≤ c.toNat) &&
    ".pdf".toList.isSuffixOf (letters.map Char.toLower)

def artifactFrom (data : JsonValue) : Decode ArtifactDescriptor := do
  let payload ← record (some data) "receipt.data"
  if (payload.property "contentType").bind JsonValue.text? ≠ some "application/pdf" then
    protocolError "receipt.data.contentType must be application/pdf"
  let artifact ← record (payload.property "artifact") "receipt.data.artifact"
  let downloadUrl ← string (artifact.property "downloadUrl") "receipt.data.artifact.downloadUrl"
  if !isArtifactPath downloadUrl then
    protocolError "receipt.data.artifact.downloadUrl must be a same-origin artifact path"
  let filename ← string (artifact.property "filename") "receipt.data.artifact.filename"
  if !isSafePdfName filename then
    protocolError "receipt.data.artifact.filename must be a safe PDF filename"
  let expiresAt ← isoString isDate (artifact.property "expiresAt")
    "receipt.data.artifact.expiresAt"
  return { downloadUrl, filename, expiresAt }

structure ReceiptWarning where
  code : Option String
  message : String
  deriving DecidableEq

def nonEmptyText (text : Option String) : Option String :=
  text.bind fun text => if text = "" then none else some text

def warningFrom (value : Option JsonValue) (name : String) : Decode ReceiptWarning := do
  let item ← record value name
  let message ← string (item.property "message") (name ++ ".message")
  let code ← optionalString (item.property "code") (name ++ ".code")
  return { code := nonEmptyText code, message }

def warningsFrom (value : Option JsonValue) : Decode (Option (List ReceiptWarning)) :=
  match value with
  | none => .ok none
  | some value => do
      return some (← array (some value) "result.receipt.warnings" warningFrom)

def undoFrom (value : Option JsonValue) (name : String) : Decode (Option String) :=
  match value with
  | none => .ok none
  | some value => do
      let undo ← record (some value) name
      return some (← string (undo.property "id") (name ++ ".id"))

structure ReceiptView where
  ok : Bool
  action : String
  message : Option String := none
  changed : Option JsonValue := none
  warnings : Option (List ReceiptWarning) := none
  artifact : Option ArtifactDescriptor := none
  presentedStatus : Option PresentedStatus := none
  facts : Option (List PresentedFact) := none
  references : Option (List PresentedReference) := none
  recovery : Option PresentedRecovery := none
  diagnostic : Option DiagnosticView := none

structure ReceiptResult where
  receipt : ReceiptView
  undo : Option String := none

def artifactOf (raw : JsonValue) (ok : Bool) (action : String) :
    Decode (Option ArtifactDescriptor) :=
  if ok ∧ action = "clockify_invoices_export" then
    match raw.property "data" with
    | none => protocolError "receipt.data is required after invoice export"
    | some data => do return some (← artifactFrom isDate data)
  else .ok none

/-- The part of a receipt that the client shows. A status that is not known is left out. -/
def decodeReceipt (value : JsonValue) : Decode ReceiptResult := do
  let result ← record (some value) "result"
  if (result.property "kind").bind JsonValue.text? ≠ some "receipt" then
    protocolError "result.kind must be receipt"
  let raw ← record (result.property "receipt") "result.receipt"
  let ok ← boolean (raw.property "ok") "result.receipt.ok"
  let action ← string (raw.property "action") "result.receipt.action"
  let warnings ← warningsFrom (raw.property "warnings")
  let message ← optionalString (raw.property "message") "result.receipt.message"
  let artifact ← artifactOf isDate raw ok action
  let undo ← undoFrom (result.property "undo") "result.undo"
  return {
    receipt := {
      ok
      action
      message := nonEmptyText message
      changed := raw.property "changed"
      warnings
      artifact
      presentedStatus :=
        ((raw.property "presentedStatus").bind JsonValue.text?).bind PresentedStatus.ofText? }
    undo }

def presentedFactFrom (value : Option JsonValue) (name : String) : Decode PresentedFact := do
  let item ← record value name
  return {
    label := ← string (item.property "label") (name ++ ".label")
    value := ← string (item.property "value") (name ++ ".value") }

def presentedWarningFrom (value : Option JsonValue) (name : String) :
    Decode PresentedWarning := do
  let item ← record value name
  return {
    code := ← string (item.property "code") (name ++ ".code")
    message := ← string (item.property "message") (name ++ ".message") }

def referenceStatusFrom (value : Option JsonValue) (name : String) :
    Decode ReferenceStatus := do
  match ← string value name with
  | "active" => return .active
  | "stale" => return .stale
  | "deleted" => return .deleted
  | _ => protocolError (name ++ " is unknown")

def bindingsFrom (name : String) : List (String × JsonValue) → Decode (List (String × String))
  | [] => .ok []
  | (key, entry) :: rest => do
      let text ← string (some entry) (name ++ "." ++ key)
      return (key, text) :: (← bindingsFrom name rest)

def presentedReferenceFrom (value : Option JsonValue) (name : String) :
    Decode PresentedReference := do
  let item ← record value name
  let status ← referenceStatusFrom (item.property "status") (name ++ ".status")
  let bindingsRaw ← record (item.property "bindings") (name ++ ".bindings")
  let bindings ← bindingsFrom (name ++ ".bindings") (bindingsRaw.record?.getD [])
  return {
    id := ← string (item.property "id") (name ++ ".id")
    conversationId := ← string (item.property "conversationId") (name ++ ".conversationId")
    entityType := ← string (item.property "entityType") (name ++ ".entityType")
    externalId := ← string (item.property "externalId") (name ++ ".externalId")
    displayName := ← string (item.property "displayName") (name ++ ".displayName")
    sourceRunId := ← string (item.property "sourceRunId") (name ++ ".sourceRunId")
    bindings
    status
    verifiedAt := ← string (item.property "verifiedAt") (name ++ ".verifiedAt") }

def presentedRecoveryFrom (value : Option JsonValue) (name : String) :
    Decode (Option PresentedRecovery) :=
  match value with
  | none => .ok none
  | some value => do
      let recovery ← record (some value) name
      let kind ← string (recovery.property "kind") (name ++ ".kind")
      let label ← string (recovery.property "label") (name ++ ".label")
      match kind with
      | "view_operation" =>
          return some (.viewOperation label
            (← string (recovery.property "operationId") (name ++ ".operationId")))
      | "retry_read" =>
          return some (.retryRead label
            (← string (recovery.property "readAttemptId") (name ++ ".readAttemptId")))
      | "start_new_chat" => return some (.startNewChat label)
      | _ => protocolError (name ++ ".kind is unknown")

def presentedDiagnosticFrom (value : Option JsonValue) (name : String) :
    Decode (Option DiagnosticView) :=
  match value with
  | none => .ok none
  | some value => do
      let diagnostic ← record (some value) name
      if (diagnostic.property "kind").bind JsonValue.text? ≠ some "sanitized_receipt" then
        protocolError (name ++ ".kind must be sanitized_receipt")
      return some {
        byteLength := ← nonNegativeInteger (diagnostic.property "byteLength")
          (name ++ ".byteLength")
        value := (diagnostic.property "value").getD .null }

def presentedStatusFrom (value : Option JsonValue) (name : String) :
    Decode PresentedStatus := do
  match PresentedStatus.ofText? (← string value name) with
  | some status => return status
  | none => protocolError (name ++ " is unknown")

def presentationFrom (value : Option JsonValue) (name : String) : Decode PresentedResult := do
  let presentation ← record value name
  let status ← presentedStatusFrom (presentation.property "status") (name ++ ".status")
  let recovery ← presentedRecoveryFrom (presentation.property "recovery") (name ++ ".recovery")
  return {
    status
    title := ← string (presentation.property "title") (name ++ ".title")
    summary := ← string (presentation.property "summary") (name ++ ".summary")
    facts := ← array (presentation.property "facts") (name ++ ".facts") presentedFactFrom
    warnings := ← array (presentation.property "warnings") (name ++ ".warnings")
      presentedWarningFrom
    references := ← array (presentation.property "references") (name ++ ".references")
      presentedReferenceFrom
    recovery }

def confirmationFields (confirmation : JsonValue) (name : String) :
    Decode EnvelopeConfirmation := do
  return {
    id := ← string (confirmation.property "id") (name ++ ".id")
    nonce := ← string (confirmation.property "nonce") (name ++ ".nonce")
    expiresAt := ← isoString isDate (confirmation.property "expiresAt") (name ++ ".expiresAt")
    batchId := (confirmation.property "batchId").bind JsonValue.text? }

def confirmationFrom (value : Option JsonValue) (name : String) :
    Decode (Option EnvelopeConfirmation) :=
  match value with
  | some (.obj fields) => do return some (← confirmationFields isDate (.obj fields) name)
  -- An array is an object to this check, and has none of the fields.
  | some (.arr items) => do return some (← confirmationFields isDate (.arr items) name)
  | _ => .ok none

/-- The envelope of an attachment. The undo handle is not read. -/
def envelopeFrom (value : Option JsonValue) : Decode PresentedResultEnvelope := do
  let name := "stream event.attachment.envelope"
  let envelope ← record value name
  let presentation ← presentationFrom (envelope.property "presentation")
    (name ++ ".presentation")
  let confirmation ← confirmationFrom isDate (envelope.property "confirmation")
    (name ++ ".confirmation")
  let diagnostic ← presentedDiagnosticFrom (envelope.property "diagnostic")
    (name ++ ".diagnostic")
  return {
    presentation
    actionResultId := (envelope.property "actionResultId").bind JsonValue.text?
    confirmation
    diagnostic }

def candidateFrom (value : Option JsonValue) (name : String) : Decode ClarificationChoice := do
  let item ← record value name
  return {
    optionId := ← string (item.property "optionId") (name ++ ".optionId")
    label := ← string (item.property "label") (name ++ ".label")
    referenceId := (item.property "referenceId").bind JsonValue.text? }

def decodeRunEventAttachment (value : JsonValue) : Decode RunEventAttachment := do
  let name := "stream event.attachment"
  let attachment ← record (some value) name
  match ← string (attachment.property "kind") (name ++ ".kind") with
  | "assistant_message" =>
      return .assistantMessage (← string (attachment.property "messageId") (name ++ ".messageId"))
        (← string (attachment.property "text") (name ++ ".text"))
  | "presented_result" =>
      let envelope ← envelopeFrom isDate (attachment.property "envelope")
      return .presentedResult
        (← string (attachment.property "actionResultId") (name ++ ".actionResultId")) envelope
  | "pending_confirmation" =>
      let envelope ← envelopeFrom isDate (attachment.property "envelope")
      return .pendingConfirmation
        (← string (attachment.property "confirmationId") (name ++ ".confirmationId")) envelope
  | "pending_clarification" =>
      return .pendingClarification
        (← string (attachment.property "clarificationId") (name ++ ".clarificationId"))
        (← string (attachment.property "status") (name ++ ".status"))
        (← string (attachment.property "question") (name ++ ".question"))
        (← string (attachment.property "missingField") (name ++ ".missingField"))
        (← array (attachment.property "candidates") (name ++ ".candidates") candidateFrom)
        (← isoString isDate (attachment.property "expiresAt") (name ++ ".expiresAt"))
  | _ => protocolError (name ++ ".kind is unknown")

end Dates

end Protocol

end ClockifyAssistant
