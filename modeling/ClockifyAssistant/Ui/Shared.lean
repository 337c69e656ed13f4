import ClockifyAssistant.Ui.Protocol

/-!
The cards of the chat, and how an attachment of a run event becomes one.
-/
namespace ClockifyAssistant

open Protocol

structure PreviewView where
  actionLabel : String
  expectedChanges : List String
  reversibility : String
  warnings : List String
  facts : List PresentedFact

structure PreviewResult where
  previewId : String
  nonce : String
  expiresAt : String
  batchId : Option String
  preview : PreviewView
  references : List PresentedReference

structure ClarifyResult where
  message : String
  options : List (String × String)
  clarificationId : String
  status : String

inductive ChatResult
  | preview (result : PreviewResult)
  | receipt (result : ReceiptResult)
  | clarify (result : ClarifyResult)

def present {α : Type} (items : List α) : Option (List α) :=
  if items.isEmpty then none else some items

def previewResults (envelope : PresentedResultEnvelope) : List ChatResult :=
  match envelope.confirmation with
  | none => []
  | some confirmation =>
      let presentation := envelope.presentation
      [.preview {
        previewId := confirmation.id
        nonce := confirmation.nonce
        expiresAt := confirmation.expiresAt
        batchId := nonEmptyText confirmation.batchId
        preview := {
          actionLabel := presentation.title
          expectedChanges := if presentation.summary = "" then [] else [presentation.summary]
          reversibility := ""
          warnings := presentation.warnings.map PresentedWarning.message
          facts := presentation.facts }
        references := presentation.references }]

def receiptResult (envelope : PresentedResultEnvelope) : ReceiptResult :=
  let presentation := envelope.presentation
  let status := presentation.status
  { receipt := {
      ok := status == .succeeded || status == .partially || status == .noChangeNeeded
      action := presentation.title
      message := some presentation.summary
      presentedStatus := some status
      warnings := present (presentation.warnings.map fun warning =>
        { code := some warning.code, message := warning.message })
      facts := present presentation.facts
      references := present presentation.references
      recovery := presentation.recovery
      diagnostic := envelope.diagnostic }
    undo := envelope.undo }

def attachmentToResults : RunEventAttachment → List ChatResult
  | .pendingConfirmation _ envelope => previewResults envelope
  | .presentedResult _ envelope =>
      if envelope.presentation.status = .pendingConfirmation then previewResults envelope
      else [.receipt (receiptResult envelope)]
  | .pendingClarification clarificationId status question _ candidates _ =>
      [.clarify {
        message := question
        options := candidates.map fun choice => (choice.optionId, choice.label)
        clarificationId
        status }]
  | .assistantMessage _ _ => []

end ClockifyAssistant
