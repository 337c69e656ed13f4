import ClockifyAssistant.Services.ResultView

/-!
What a page of run events carries beside the events: the message, the result, the live
preview or the question that an event refers to, read from the store when the page is served.
-/
namespace ClockifyAssistant

open Lib

/-- A point in time as the server writes it; the runtime reads it back as a date. -/
structure IsoText (isDate : String → Bool) where
  text : String
  valid : isDate text = true

structure StoredPreview (isDate : String → Bool) where
  id : String
  isPending : Bool
  preview : JsonValue
  expiresAt : IsoText isDate
  batchId : Option String

inductive ClarificationLiveness
  | pending | resolving | settled
  deriving DecidableEq

structure StoredClarification (isDate : String → Bool) where
  id : String
  liveness : ClarificationLiveness
  missingField : String
  candidates : List ClarificationChoice
  expiresAt : IsoText isDate
  isExpired : Bool

/-- The event of a page, with what hydration reads of its payload. -/
inductive HydratedEvent
  | modelCompleted (chatMessageId : Option String)
  | toolCompleted (actionName actionResultId : String)
  | operationCompleted (actionResultId : String)
  | operationPrepared (confirmationId : String)
  | clarificationRequired (clarificationId actionResultId : String)
  | other
  deriving DecidableEq

/-- The store and the services of one served page. -/
structure HydrationContext (isDate : String → Bool) where
  resultViews : ResultViewDeps
  findAssistantMessage : String → Option String
  getActionResult : String → Option JsonValue
  getPendingConfirmation : String → Option (StoredPreview isDate)
  /-- The new nonce, where the preview is still live. -/
  rotatePendingNonce : StoredPreview isDate → Option String
  updateConfirmationNonceHash : String → String → Bool
  getPendingClarification : String → Option (StoredClarification isDate)

namespace RunEventHydration

open ResultView

variable {isDate : String → Bool}

def clarifyQuestionFromActionResult (ctx : HydrationContext isDate) (actionResultId : String) :
    Option String :=
  (ctx.getActionResult actionResultId).bind fun stored =>
    match textProperty "kind" stored, textProperty "message" stored with
    | some "clarify", some message => if message = "" then none else some message
    | _, _ => none

/-- The result as a card; nothing where the stored value is falsy. -/
def presentedAttachment (ctx : HydrationContext isDate) (actionName actionResultId : String) :
    Option RunEventAttachment :=
  match ctx.getActionResult actionResultId with
  | some result =>
      if result.truthy then
        some (.presentedResult actionResultId
          (presentActionResult ctx.resultViews actionName actionResultId result))
      else none
  | none => none

def ClarificationLiveness.text? : ClarificationLiveness → Option String
  | .pending => some "pending"
  | .resolving => some "resolving"
  | .settled => none

def hydrateAttachment (ctx : HydrationContext isDate) : HydratedEvent → Option RunEventAttachment
  | .modelCompleted chatMessageId => do
      let messageId ← chatMessageId
      if messageId = "" then none
      let text ← ctx.findAssistantMessage messageId
      return .assistantMessage messageId text
  | .toolCompleted actionName actionResultId =>
      presentedAttachment ctx actionName actionResultId
  | .operationCompleted actionResultId => presentedAttachment ctx "operation" actionResultId
  | .operationPrepared confirmationId => do
      let record ← ctx.getPendingConfirmation confirmationId
      if !record.isPending then none
      let nonce ← ctx.rotatePendingNonce record
      if !ctx.updateConfirmationNonceHash record.id nonce then none
      return .pendingConfirmation record.id {
        presentation := presentPendingConfirmation ctx.resultViews record.preview
        confirmation := some {
          id := record.id
          nonce
          expiresAt := record.expiresAt.text
          batchId := record.batchId.bind fun id => if id = "" then none else some id } }
  | .clarificationRequired clarificationId actionResultId => do
      let row ← ctx.getPendingClarification clarificationId
      let status ← ClarificationLiveness.text? row.liveness
      if row.isExpired then none
      let question ← clarifyQuestionFromActionResult ctx actionResultId
      return .pendingClarification row.id status question row.missingField
        (row.candidates.map fun choice => { optionId := choice.optionId, label := choice.label })
        row.expiresAt.text
  | .other => none

/-- What an event must not present twice on one page. -/
def preKey : HydratedEvent → Option (String × String)
  | .operationPrepared confirmationId => some ("confirmation", confirmationId)
  | .toolCompleted _ actionResultId => some ("result", actionResultId)
  | .operationCompleted actionResultId => some ("result", actionResultId)
  | _ => none

/-- The attachments of a page; what is presented once is left out after that. -/
def hydrateFrom (ctx : HydrationContext isDate) :
    List (String × String) → List HydratedEvent → List (HydratedEvent × Option RunEventAttachment)
  | _, [] => []
  | presented, event :: rest =>
      match preKey event with
      | some key =>
          if key ∈ presented then (event, none) :: hydrateFrom ctx presented rest
          else (event, hydrateAttachment ctx event) :: hydrateFrom ctx (key :: presented) rest
      | none => (event, hydrateAttachment ctx event) :: hydrateFrom ctx presented rest

def hydrateRunEventAttachments (ctx : HydrationContext isDate) (events : List HydratedEvent) :
    List (HydratedEvent × Option RunEventAttachment) :=
  hydrateFrom ctx [] events

end RunEventHydration

end ClockifyAssistant
