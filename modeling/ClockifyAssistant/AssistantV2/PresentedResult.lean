import ClockifyAssistant.Lib.TextBounds

/-!
The result envelope that the server derives from a stored result, the attachments of the
run events, and their JSON. The presentation describes; the only live control is the
confirmation block.
-/
namespace ClockifyAssistant

open Lib

inductive PresentedStatus
  | succeeded | noChangeNeeded | failed | partially | pendingConfirmation | cancelled
  | outcomeUnknown
  deriving DecidableEq

def presentedStatuses : List PresentedStatus :=
  [.succeeded, .noChangeNeeded, .failed, .partially, .pendingConfirmation, .cancelled,
    .outcomeUnknown]

def PresentedStatus.text : PresentedStatus → String
  | succeeded => "succeeded"
  | noChangeNeeded => "no_change_needed"
  | failed => "failed"
  | partially => "partial"
  | pendingConfirmation => "pending_confirmation"
  | cancelled => "cancelled"
  | outcomeUnknown => "outcome_unknown"

def PresentedStatus.ofText? (text : String) : Option PresentedStatus :=
  presentedStatuses.find? fun status => status.text == text

structure PresentedFact where
  label : String
  value : String
  deriving DecidableEq

structure PresentedWarning where
  code : String
  message : String
  deriving DecidableEq

inductive ReferenceStatus
  | active | stale | deleted
  deriving DecidableEq

def ReferenceStatus.text : ReferenceStatus → String
  | active => "active"
  | stale => "stale"
  | deleted => "deleted"

structure PresentedReference where
  id : String
  conversationId : String
  entityType : String
  externalId : String
  displayName : String
  sourceRunId : String
  bindings : List (String × String)
  status : ReferenceStatus
  verifiedAt : String
  deriving DecidableEq

inductive PresentedRecovery
  | viewOperation (label operationId : String)
  | retryRead (label readAttemptId : String)
  | startNewChat (label : String)
  deriving DecidableEq

structure PresentedResult where
  status : PresentedStatus
  title : String
  summary : String
  facts : List PresentedFact
  warnings : List PresentedWarning
  references : List PresentedReference := []
  recovery : Option PresentedRecovery := none

structure DiagnosticView where
  byteLength : Nat
  value : JsonValue

structure EnvelopeConfirmation where
  id : String
  nonce : String
  expiresAt : String
  batchId : Option String
  deriving DecidableEq

structure PresentedResultEnvelope where
  presentation : PresentedResult
  actionResultId : Option String := none
  confirmation : Option EnvelopeConfirmation := none
  undo : Option String := none
  diagnostic : Option DiagnosticView := none

def presentedResultMaxFacts : Nat := 24
def presentedResultMaxWarnings : Nat := 12
def diagnosticValueMaxBytes : Nat := 24000

def presentedResultMaxReferences : Nat := 12
def presentedResultTitleMaxChars : Nat := 512
def presentedResultSummaryMaxChars : Nat := 4096
def presentedResultFactLabelMaxChars : Nat := 256
def presentedResultFactValueMaxChars : Nat := 2048
def presentedResultWarningMaxChars : Nat := 256
def presentedResultStringIdMaxChars : Nat := 256
def presentedResultDisplayNameMaxChars : Nat := 512

/-- `z.string().max(chars)` -/
def maxChars (chars : Nat) (text : String) : Bool := decide (utf16Length text ≤ chars)

@[simp] theorem maxChars_iff {chars : Nat} {text : String} :
    maxChars chars text = true ↔ utf16Length text ≤ chars := decide_eq_true_iff

def factSchema (fact : PresentedFact) : Bool :=
  maxChars presentedResultFactLabelMaxChars fact.label &&
    maxChars presentedResultFactValueMaxChars fact.value

def warningSchema (warning : PresentedWarning) : Bool :=
  maxChars presentedResultStringIdMaxChars warning.code &&
    maxChars presentedResultWarningMaxChars warning.message

def referenceSchema (reference : PresentedReference) : Bool :=
  [reference.id, reference.conversationId, reference.entityType, reference.externalId,
      reference.sourceRunId].all (maxChars presentedResultStringIdMaxChars) &&
    maxChars presentedResultDisplayNameMaxChars reference.displayName

/-- The statuses and the recoveries of the type are those that the schema lists. -/
def presentedResultSchema (result : PresentedResult) : Bool :=
  maxChars presentedResultTitleMaxChars result.title &&
    maxChars presentedResultSummaryMaxChars result.summary &&
    (result.facts.all factSchema && decide (result.facts.length ≤ presentedResultMaxFacts)) &&
    (result.warnings.all warningSchema &&
      decide (result.warnings.length ≤ presentedResultMaxWarnings)) &&
    (result.references.all referenceSchema &&
      decide (result.references.length ≤ presentedResultMaxReferences))

def diagnosticViewSchema (numberText : Rat → String) (diagnostic : DiagnosticView) : Bool :=
  decide (diagnostic.byteLength ≤ diagnosticValueMaxBytes) &&
    diagnostic.value.jsonBytes numberText == diagnostic.byteLength

def presentedResultEnvelopeSchema (numberText : Rat → String)
    (envelope : PresentedResultEnvelope) : Bool :=
  presentedResultSchema envelope.presentation &&
    envelope.actionResultId.all (maxChars presentedResultStringIdMaxChars) &&
    envelope.confirmation.all (fun confirmation =>
      maxChars presentedResultStringIdMaxChars confirmation.id &&
        confirmation.batchId.all (maxChars presentedResultStringIdMaxChars)) &&
    envelope.undo.all (maxChars presentedResultStringIdMaxChars) &&
    envelope.diagnostic.all (diagnosticViewSchema numberText)

def presentFields (fields : List (String × Option JsonValue)) : JsonValue :=
  .obj (fields.filterMap fun field => field.2.map fun value => (field.1, value))

def PresentedFact.toJson (fact : PresentedFact) : JsonValue :=
  .obj [("label", .str fact.label), ("value", .str fact.value)]

def PresentedWarning.toJson (warning : PresentedWarning) : JsonValue :=
  .obj [("code", .str warning.code), ("message", .str warning.message)]

def PresentedReference.toJson (reference : PresentedReference) : JsonValue :=
  .obj [("id", .str reference.id), ("conversationId", .str reference.conversationId),
    ("entityType", .str reference.entityType), ("externalId", .str reference.externalId),
    ("displayName", .str reference.displayName), ("sourceRunId", .str reference.sourceRunId),
    ("bindings", .obj (reference.bindings.map fun binding => (binding.1, .str binding.2))),
    ("status", .str reference.status.text), ("verifiedAt", .str reference.verifiedAt)]

def PresentedRecovery.toJson : PresentedRecovery → JsonValue
  | viewOperation label operationId =>
      .obj [("kind", .str "view_operation"), ("label", .str label),
        ("operationId", .str operationId)]
  | retryRead label readAttemptId =>
      .obj [("kind", .str "retry_read"), ("label", .str label),
        ("readAttemptId", .str readAttemptId)]
  | startNewChat label => .obj [("kind", .str "start_new_chat"), ("label", .str label)]

def PresentedResult.toJson (result : PresentedResult) : JsonValue :=
  presentFields [("status", some (.str result.status.text)), ("title", some (.str result.title)),
    ("summary", some (.str result.summary)),
    ("facts", some (.arr (result.facts.map PresentedFact.toJson))),
    ("warnings", some (.arr (result.warnings.map PresentedWarning.toJson))),
    ("references", some (.arr (result.references.map PresentedReference.toJson))),
    ("recovery", result.recovery.map PresentedRecovery.toJson)]

def DiagnosticView.toJson (diagnostic : DiagnosticView) : JsonValue :=
  .obj [("kind", .str "sanitized_receipt"), ("byteLength", .num diagnostic.byteLength),
    ("value", diagnostic.value)]

def EnvelopeConfirmation.toJson (confirmation : EnvelopeConfirmation) : JsonValue :=
  presentFields [("id", some (.str confirmation.id)), ("nonce", some (.str confirmation.nonce)),
    ("expiresAt", some (.str confirmation.expiresAt)),
    ("batchId", confirmation.batchId.map JsonValue.str)]

def PresentedResultEnvelope.toJson (envelope : PresentedResultEnvelope) : JsonValue :=
  presentFields [("presentation", some envelope.presentation.toJson),
    ("actionResultId", envelope.actionResultId.map JsonValue.str),
    ("confirmation", envelope.confirmation.map EnvelopeConfirmation.toJson),
    ("undo", envelope.undo.map fun id => .obj [("id", .str id)]),
    ("diagnostic", envelope.diagnostic.map DiagnosticView.toJson)]

/-- A choice that is shown; what it stands for does not leave the server. -/
structure ClarificationChoice where
  optionId : String
  label : String
  referenceId : Option String := none
  deriving DecidableEq

inductive RunEventAttachment
  | assistantMessage (messageId text : String)
  | presentedResult (actionResultId : String) (envelope : PresentedResultEnvelope)
  | pendingConfirmation (confirmationId : String) (envelope : PresentedResultEnvelope)
  | pendingClarification (clarificationId status question missingField : String)
      (candidates : List ClarificationChoice) (expiresAt : String)

def ClarificationChoice.toJson (choice : ClarificationChoice) : JsonValue :=
  presentFields [("optionId", some (.str choice.optionId)), ("label", some (.str choice.label)),
    ("referenceId", choice.referenceId.map JsonValue.str)]

def RunEventAttachment.toJson : RunEventAttachment → JsonValue
  | assistantMessage messageId text =>
      .obj [("kind", .str "assistant_message"), ("messageId", .str messageId), ("text", .str text)]
  | presentedResult actionResultId envelope =>
      .obj [("kind", .str "presented_result"), ("actionResultId", .str actionResultId),
        ("envelope", envelope.toJson)]
  | pendingConfirmation confirmationId envelope =>
      .obj [("kind", .str "pending_confirmation"), ("confirmationId", .str confirmationId),
        ("envelope", envelope.toJson)]
  | pendingClarification clarificationId status question missingField candidates expiresAt =>
      .obj [("kind", .str "pending_clarification"), ("clarificationId", .str clarificationId),
        ("status", .str status), ("question", .str question),
        ("missingField", .str missingField),
        ("candidates", .arr (candidates.map ClarificationChoice.toJson)),
        ("expiresAt", .str expiresAt)]

end ClockifyAssistant
