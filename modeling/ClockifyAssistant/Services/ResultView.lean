import ClockifyAssistant.AssistantV2.PresentedResult

/-!
The boundary from a stored action result to its presentation. The status comes from the
shape of the stored value; a shape that is not known is presented as a failure.
-/
namespace ClockifyAssistant

open Lib

structure ActionDescription where
  name : String
  description : String

structure ResultViewDeps where
  registry : String → Option ActionDescription
  /-- How the runtime prints a number. -/
  numberText : Rat → String

namespace ResultView

def asRecord : JsonValue → Option JsonValue
  | .obj fields => some (.obj fields)
  | _ => none

def defaultTitle (definition : ActionDescription) : String :=
  let firstSentence := String.ofList
    (trimText (definition.description.toList.takeWhile fun c => c != '.'))
  if firstSentence = "" then definition.name else firstSentence

def humanTitle (deps : ResultViewDeps) (actionName : String) : String :=
  match deps.registry actionName with
  | some definition => defaultTitle definition
  | none => actionName

def textProperty (name : String) (value : JsonValue) : Option String :=
  (value.property name).bind JsonValue.text?

def boundedWarning (deps : ResultViewDeps) (index : Nat) (entry : JsonValue) :
    PresentedWarning where
  code := match textProperty "code" entry with
    | some code => sliceUnits 256 code
    | none => "warning_" ++ toString index
  message := match textProperty "message" entry with
    | some message => sliceUnits 256 message
    | none => sliceUnits 256 (entry.displayText deps.numberText)

def boundedWarnings (deps : ResultViewDeps) (raw : Option JsonValue) : List PresentedWarning :=
  match raw with
  | some (.arr items) =>
      ((items.take presentedResultMaxWarnings).zipIdx).map fun entry =>
        boundedWarning deps entry.2 entry.1
  | _ => []

def dataFacts (fields : List (String × JsonValue)) : List PresentedFact :=
  (fields.filterMap fun field => field.2.items?.map fun items =>
    ({ label := field.1 ++ " returned", value := toString items.length } : PresentedFact)).take 4

def truncatedFacts (data : JsonValue) : List PresentedFact :=
  match data.property "truncated" with
  | some (.bool true) => [{ label := "Complete", value := "no — the list was truncated" }]
  | _ => []

def entityName (entry : JsonValue) : String :=
  let type := (textProperty "type" entry).getD "entity"
  match textProperty "name" entry with
  | some name => if name = "" then type else type ++ " “" ++ name ++ "”"
  | none => type

def changeFact (changed : JsonValue) (verb label : String) : Option PresentedFact :=
  match changed.property verb with
  | some (.arr (entry :: entries)) => some {
      label, value := ", ".intercalate (((entry :: entries).map entityName).take 5) }
  | _ => none

def factsFromReceipt (receipt : JsonValue) : List PresentedFact :=
  let data := (receipt.property "data").bind asRecord
  let returned := match data with
    | some (.obj fields) => dataFacts fields ++ truncatedFacts (.obj fields)
    | _ => []
  let changes := match (receipt.property "changed").bind asRecord with
    | some changed => [("created", "Created"), ("updated", "Updated"), ("deleted", "Deleted")].filterMap
        fun verb => changeFact changed verb.1 verb.2
    | none => []
  (returned ++ changes).take presentedResultMaxFacts

def changeBuckets : List String := ["created", "updated", "deleted", "reused"]

def hasChanges (changed : Option JsonValue) : Bool :=
  changeBuckets.any fun bucket =>
    match (changed.bind (JsonValue.property bucket)).bind JsonValue.items? with
    | some refs => !refs.isEmpty
    | none => false

def providerSummaryMaxBytes : Nat := 4096

def presentReadResult (title : String) (providerSummary : Option String)
    (facts : List PresentedFact) (warnings : List PresentedWarning) : PresentedResult :=
  let rawSummary := providerSummary.getD ""
  let truncated := providerSummaryMaxBytes < rawSummary.utf8ByteSize
  { status := .succeeded
    title
    summary := if truncated then sliceBytes providerSummaryMaxBytes rawSummary else rawSummary
    facts
    warnings := if truncated then
        warnings ++ [{
          code := "summary_truncated"
          message := "The summary was shortened to fit the size limit." }]
      else warnings }

def notCompleted : String := "The action did not complete."

def failedResult (title : String) (message : Option String) (warnings : List PresentedWarning) :
    PresentedResult where
  status := .failed
  title
  summary := match message with
    | some message => sliceUnits 4096 message
    | none => ""
  facts := []
  warnings

def presentReceipt (deps : ResultViewDeps) (title : String) (receipt : JsonValue) :
    PresentedResult :=
  match receipt.property "ok" with
  | some (.bool true) =>
      let presented := presentReadResult title (textProperty "message" receipt)
        (factsFromReceipt receipt) (boundedWarnings deps (receipt.property "warnings"))
      if (receipt.property "data").isNone && !hasChanges (receipt.property "changed") then
        { presented with status := .noChangeNeeded }
      else presented
  | _ =>
      let reason : PresentedWarning := {
        code := match textProperty "code" receipt with
          | some code => sliceUnits 256 code
          | none => "action_failed"
        message := notCompleted }
      failedResult title (textProperty "message" receipt)
        ((reason :: boundedWarnings deps (receipt.property "warnings")).take
          presentedResultMaxWarnings)

def presentationFromStored (deps : ResultViewDeps) (actionName : String) (stored : JsonValue) :
    PresentedResult :=
  let title := humanTitle deps actionName
  let unrecognized := failedResult title none [{
    code := "unrecognized_result_shape"
    message := "The stored result could not be interpreted." }]
  match asRecord stored with
  | none => unrecognized
  | some row =>
      match textProperty "kind" row, (row.property "receipt").bind asRecord with
      | some "receipt", some receipt => presentReceipt deps title receipt
      | some "clarify", _ => failedResult title (textProperty "message" row) [{
          code := "clarification_required"
          message := "The action needs clarification and was not performed." }]
      | _, _ => unrecognized

/-- A receipt that is too large is left out, never cut. -/
def boundedDiagnostic (deps : ResultViewDeps) (stored : JsonValue) : Option DiagnosticView :=
  let byteLength := stored.jsonBytes deps.numberText
  if diagnosticValueMaxBytes < byteLength then none else some { byteLength, value := stored }

def presentActionResult (deps : ResultViewDeps) (actionName actionResultId : String)
    (stored : JsonValue) : PresentedResultEnvelope where
  presentation := presentationFromStored deps actionName stored
  actionResultId := some actionResultId
  diagnostic := boundedDiagnostic deps stored

def targetFact (target : JsonValue) : Option PresentedFact :=
  let id := (textProperty "id" target).getD ""
  let name := match textProperty "name" target with
    | some name => if name = "" then id else name
    | none => id
  if name = "" then none
  else some { label := "Target " ++ (textProperty "type" target).getD "target", value := name }

def joinedItems (deps : ResultViewDeps) (separator : String) (count units : Nat)
    (items : List JsonValue) : String :=
  sliceUnits units (separator.intercalate
    ((items.take count).map (JsonValue.displayText deps.numberText)))

def presentPendingConfirmation (deps : ResultViewDeps) (preview : JsonValue) : PresentedResult where
  status := .pendingConfirmation
  title := match textProperty "actionLabel" preview with
    | some label => if label = "" then "Pending change" else label
    | none => "Pending change"
  summary := match preview.property "expectedChanges" with
    | some (.arr changes) => joinedItems deps "; " 12 4096 changes
    | _ => ""
  facts :=
    let targets := match preview.property "targets" with
      | some (.arr targets) => (targets.take 5).filterMap targetFact
      | _ => []
    let risk := match preview.property "riskLabels" with
      | some (.arr (label :: labels)) =>
          [({ label := "Risk", value := joinedItems deps ", " 4 2048 (label :: labels) } :
            PresentedFact)]
      | _ => []
    (targets ++ risk).take presentedResultMaxFacts
  warnings := match preview.property "warnings" with
    | some (.arr warnings) => ((warnings.take presentedResultMaxWarnings).zipIdx).map fun entry =>
        { code := "preview_" ++ toString entry.2
          message := sliceUnits 256 (entry.1.displayText deps.numberText) }
    | _ => []

def statusOk (status : PresentedStatus) : Bool :=
  status == .succeeded || status == .partially || status == .noChangeNeeded

def nonEmpty {α : Type} (encode : α → JsonValue) (items : List α) : Option JsonValue :=
  if items.isEmpty then none else some (.arr (items.map encode))

/-- The envelope as a stored receipt, for the history of a session. -/
def chatReceiptFromEnvelope (envelope : PresentedResultEnvelope) : JsonValue :=
  let presentation := envelope.presentation
  .obj [("kind", .str "receipt"),
    ("receipt", presentFields [("ok", some (.bool (statusOk presentation.status))),
      ("action", some (.str presentation.title)), ("message", some (.str presentation.summary)),
      ("presentedStatus", some (.str presentation.status.text)),
      ("warnings", nonEmpty PresentedWarning.toJson presentation.warnings),
      ("facts", nonEmpty PresentedFact.toJson presentation.facts),
      ("references", nonEmpty PresentedReference.toJson presentation.references),
      ("recovery", presentation.recovery.map PresentedRecovery.toJson),
      ("diagnostic", envelope.diagnostic.map DiagnosticView.toJson)])]

end ResultView

end ClockifyAssistant
