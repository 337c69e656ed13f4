import ClockifyAssistant.Harness.CompositeCommits
import ClockifyAssistant.Harness.TargetSnapshots

/-!
Changes that check their target again before they are sent: the updates of an invoice and the
generic deletion. A preview captures the target from the host; the commit reads the host again
and compares.
-/
namespace ClockifyAssistant

open Lib Lib.CodeUnits Lib.ObjectKeys SafeJson Composite

namespace TargetSnapshots

/-- How fingerprints are made and printed, and how a journal row holds its evidence. -/
structure Evidence where
  sha256 : CodeUnits → Hash
  hex : Hash → CodeUnits
  stored : UnitJson → Json

structure HostRow where
  fields : Fields
  id : CodeUnits
  id_eq : fields.lookup (ofString "id") = some (.str id)

def textOf (name : String) (fields : Fields) : Option CodeUnits :=
  match fields.lookup (ofString name) with
  | some (.str text) => some text
  | _ => none

def HostRow.projection (row : HostRow) : UnitJson := .obj row.fields

/-- The properties that `{ ...value }` copies. -/
def spread : UnitJson → Fields
  | .obj fields => fields
  | .arr items => items.zipIdx.map fun entry => (CodeUnits.ofNat entry.2, entry.1)
  | .str text => text.zipIdx.map fun entry => (CodeUnits.ofNat entry.2, .str [entry.1])
  | _ => []

section Stored

variable (e : Evidence)

def textField (name : String) (text : CodeUnits) : CodeUnits × UnitJson := (ofString name, .str text)

def EntityRef.json (ref : EntityRef) : UnitJson :=
  .obj ([textField "type" ref.type, textField "id" ref.id] ++
    ref.name.toList.map (textField "name") ++ ref.projectId.toList.map (textField "projectId"))

def TargetSnapshot.json (snapshot : TargetSnapshot) : UnitJson :=
  .obj [textField "relation" (ofString snapshot.relation.text), (ofString "ref", snapshot.ref.json),
    (ofString "projection", snapshot.projection), textField "fingerprint" (e.hex snapshot.fingerprint)]

def preparedSnapshots (snapshots : List TargetSnapshot) : Except String UnitJson :=
  exactNonsecretJson
    (.obj [(ofString "targetSnapshots", .arr (snapshots.map (TargetSnapshot.json e)))]) 55000

def verified {α : Type} (h : StepHost α) (snapshots : List TargetSnapshot)
    (fetch : Nat → TargetSnapshot → Except String (Option TargetEvidence)) : StepHost α :=
  { h with
    stale := (verifyTargetSnapshots e.sha256 snapshots fetch).code
    preparedDetail := some ((preparedSnapshots e snapshots).map e.stored) }

end Stored

/-! The updates of an invoice -/

structure InvoicePatch where
  number : Option CodeUnits := none
  issuedDate : Option CodeUnits := none
  currency : Option CodeUnits := none
  dueDate : Option CodeUnits := none
  note : Option CodeUnits := none
  subject : Option CodeUnits := none
  clientId : Option CodeUnits := none
  taxPercent : Option NumberText := none
  tax2Percent : Option NumberText := none
  discountPercent : Option NumberText := none

def InvoicePatch.texts (patch : InvoicePatch) : List (String × Option CodeUnits) :=
  [("number", patch.number), ("issuedDate", patch.issuedDate), ("currency", patch.currency),
    ("dueDate", patch.dueDate), ("note", patch.note), ("subject", patch.subject),
    ("clientId", patch.clientId)]

/-- The percentages, under the names by which an invoice shows them. -/
def InvoicePatch.percents (patch : InvoicePatch) : List (String × Option NumberText) :=
  [("tax", patch.taxPercent), ("tax2", patch.tax2Percent), ("discount", patch.discountPercent)]

def InvoicePatch.isEmpty (patch : InvoicePatch) : Bool :=
  patch.texts.all (fun entry => entry.2.isNone) && patch.percents.all fun entry => entry.2.isNone

/-- `fields[name] = value`, unless the patch leaves it out. -/
def assigned (name : String) (value : Option UnitJson) (fields : Fields) : Fields :=
  match value with
  | some value => assign (ofString name) value fields
  | none => fields

/-- The invoice as the field update should leave it. `scaled` multiplies a percentage by 100. -/
def expectedAfterFields (scaled : NumberText → NumberText) (patch : InvoicePatch)
    (current : Fields) : Fields :=
  let renamed := patch.texts.foldl
    (fun fields entry => assigned entry.1 (entry.2.map .str) fields) current
  patch.percents.foldl
    (fun fields entry => assigned entry.1 (entry.2.map fun value => .num (scaled value)) fields)
    renamed

inductive InvoiceAction
  | fields (patch : InvoicePatch)
  | status (status : String)
  | update (patch : InvoicePatch) (status : Option String)

namespace InvoiceAction

def name : InvoiceAction → String
  | fields _ => "clockify_invoices_fields_update"
  | status _ => "clockify_invoices_status_update"
  | update _ _ => "clockify_invoices_update"

def patch : InvoiceAction → InvoicePatch
  | fields patch => patch
  | status _ => {}
  | update patch _ => patch

def newStatus : InvoiceAction → Option String
  | fields _ => none
  | status value => some value
  | update _ value => value

def updatesFields : InvoiceAction → Bool
  | fields _ => true
  | status _ => false
  | update patch _ => !patch.isEmpty

end InvoiceAction

structure InvoicePreview where
  action : InvoiceAction
  id : String
  expectedAfterFields : UnitJson
  targetSnapshots : List TargetSnapshot
  plan : List MutationPlanStep

section Invoices

variable (e : Evidence) (scaled : NumberText → NumberText)

def captureInvoiceSnapshot (invoice : HostRow) : TargetSnapshot :=
  captureTargetSnapshot e.sha256 .target
    { type := ofString "invoice", id := invoice.id, name := textOf "number" invoice.fields }
    invoice.projection

def captureClientSnapshot (client : HostRow) : TargetSnapshot :=
  captureTargetSnapshot e.sha256 .parent
    { type := ofString "client", id := client.id, name := textOf "name" client.fields }
    client.projection

def updateFieldsStep (target : TargetSnapshot) : MutationPlanStep where
  id := "update-invoice-fields"
  kind := .primary
  targetFingerprint := some target.fingerprint
  reconciliationStrategy := some .update

def updateStatusStep (statusTarget : TargetSnapshot) : MutationPlanStep where
  id := "update-invoice-status"
  kind := .primary
  targetFingerprint := some statusTarget.fingerprint
  reconciliationStrategy := some .stateCommand

def previewInvoiceUpdate (invoice : HostRow) (client : Option HostRow) (id : String)
    (action : InvoiceAction) : InvoicePreview :=
  let target := captureInvoiceSnapshot e invoice
  let targets := target :: client.toList.map (captureClientSnapshot e)
  let patched (patch : InvoicePatch) : UnitJson :=
    .obj (expectedAfterFields scaled patch (spread target.projection))
  match action with
  | .fields patch =>
      { action, id, expectedAfterFields := patched patch, targetSnapshots := targets
        plan := [updateFieldsStep target] }
  | .status _ =>
      let statusTarget := captureTargetSnapshot e.sha256 .target target.ref target.projection
      { action, id, expectedAfterFields := target.projection, targetSnapshots := [statusTarget]
        plan := [updateStatusStep statusTarget] }
  | .update patch status =>
      let statusTarget := captureTargetSnapshot e.sha256 .target target.ref (patched patch)
      { action, id, expectedAfterFields := patched patch, targetSnapshots := targets
        plan := (if patch.isEmpty then [] else [updateFieldsStep target]) ++
          status.toList.map fun _ => updateStatusStep statusTarget }

structure InvoiceReads where
  getInvoice : CodeUnits → Except String (Option HostRow)
  getClient : CodeUnits → Except String (Option HostRow)

def fetchSnapshot (reads : InvoiceReads) (snapshot : TargetSnapshot) :
    Except String (Option TargetEvidence) :=
  if snapshot.ref.type = ofString "client" then
    (reads.getClient snapshot.ref.id).map <| Option.map fun client => {
      ref := { type := ofString "client", id := client.id, name := textOf "name" client.fields }
      projection := some client.projection }
  else
    (reads.getInvoice snapshot.ref.id).map <| Option.map fun invoice => {
      ref := {
        type := ofString "invoice", id := invoice.id
        name := (textOf "number" invoice.fields).filter fun number => !number.isEmpty }
      projection := some invoice.projection }

structure InvoiceCommitHost where
  beforeFields : InvoiceReads
  beforeStatus : InvoiceReads
  answers : InvoiceUpdateHost

def InvoicePreview.operation (preview : InvoicePreview) (operationId : OperationId) : Operation where
  operationId := operationId
  journal := operationId
  actionName := preview.action.name
  plan := preview.plan

/-- The value that the status step expects at the host: `expectedAfterFields ?? projection`. -/
def expectedBeforeStatus (preview : InvoicePreview) (originalTarget : TargetSnapshot) : UnitJson :=
  match preview.expectedAfterFields with
  | .null => originalTarget.projection
  | value => value

def statusTarget (preview : InvoicePreview) (originalTarget : TargetSnapshot) : TargetSnapshot :=
  captureTargetSnapshot e.sha256 .target originalTarget.ref (expectedBeforeStatus preview originalTarget)

def InvoicePreview.payload (preview : InvoicePreview) : InvoiceUpdate where
  id := preview.id
  updatesFields := preview.action.updatesFields
  status := preview.action.newStatus

def commitInvoicePreview (preview : InvoicePreview) (operationId : OperationId)
    (host : InvoiceCommitHost) : JournalSession Composite.CommitResult :=
  let operation := preview.operation operationId
  match preview.targetSnapshots.find? fun snapshot => snapshot.ref.type == ofString "invoice" with
  | none => commitInvoiceUpdate operation false preview.payload host.answers
  | some originalTarget =>
      commitInvoiceUpdate operation true preview.payload {
        updateFields := verified e host.answers.updateFields preview.targetSnapshots
          fun _ => fetchSnapshot host.beforeFields
        updateStatus := verified e host.answers.updateStatus [statusTarget e preview originalTarget]
          fun _ => fetchSnapshot host.beforeStatus }

end Invoices

/-! `clockify_delete_entity` -/

structure GroupRow where
  id : CodeUnits
  name : CodeUnits
  userIds : Option (List CodeUnits)

def groupProjection (row : GroupRow) : UnitJson :=
  .obj [textField "id" row.id, textField "name" row.name,
    (ofString "userIds", .arr (((row.userIds.getD []).insertionSort (· ≤ ·)).map .str))]

/-- What the host answers when entities are read. A row that it answers to an id has that id. -/
structure EntityReads where
  getProject : CodeUnits → Except String (Option HostRow)
  getClient : CodeUnits → Except String (Option HostRow)
  getTag : CodeUnits → Except String (Option HostRow)
  getEntry : CodeUnits → Except String (Option HostRow)
  getProjectMutationState : CodeUnits → Except String (Option Fields)
  getClientMutationState : CodeUnits → Except String (Option Fields)
  getRawTag : CodeUnits → Except String Fields
  getRawEntry : CodeUnits → Except String Fields
  getInvoice : CodeUnits → Except String (Option HostRow)
  getExpense : CodeUnits → Except String (Option HostRow)
  getWebhook : CodeUnits → Except String (Option HostRow)
  listGroups : Except String (Listing GroupRow)
  answers_id : ∀ read ∈ [getProject, getClient, getTag, getEntry], ∀ id row,
    read id = .ok (some row) → row.id = id

/-- The replacement body of a time entry without changes; what the host leaves out stays out. -/
def prepareTimeEntryUpdate (current : Fields) : Fields :=
  let interval := spread ((current.lookup (ofString "timeInterval")).getD .null)
  let kept (from' : Fields) (name : String) : Fields :=
    (from'.lookup (ofString name)).toList.map fun value => (ofString name, value)
  kept interval "start" ++
    (kept interval "end").filter (fun field => match field.2 with | .null => false | _ => true) ++
    ["description", "projectId", "taskId", "tagIds", "billable"].flatMap (kept current)

/-- The documents that replacement writes start from. A read that fails gives none. -/
def loadStructureProjection (reads : EntityReads) (type : GenericDeleteType) (id : CodeUnits) :
    Option Fields :=
  match type with
  | .project => (reads.getProjectMutationState id).toOption.bind fun state => state
  | .client => (reads.getClientMutationState id).toOption.bind fun state => state
  | .tag => (reads.getRawTag id).toOption
  | .timeEntry => (reads.getRawEntry id).toOption.map fun current =>
      textField "id" id :: prepareTimeEntryUpdate current
  | _ => none

section Deletion

variable (e : Evidence)

def captureStructureSnapshot (reads : EntityReads) (type : GenericDeleteType) (row : HostRow) :
    Except String TargetSnapshot :=
  match loadStructureProjection reads type row.id with
  | some projection => .ok (captureTargetSnapshot e.sha256 .target
      { type := ofString type.text, id := row.id
        name := (textOf "name" row.fields).filter fun name => !name.isEmpty }
      (.obj projection))
  | none => .error ("Unable to capture authoritative " ++ type.text ++ " state.")

def captured (read : Except String (Option HostRow))
    (capture : HostRow → Except String TargetSnapshot) : Except String (Option TargetSnapshot) :=
  match read with
  | .ok (some row) => (capture row).map some
  | .ok none => .ok none
  | .error message => .error message

def captureGenericTarget (reads : EntityReads) (type : GenericDeleteType) (id : CodeUnits) :
    Except String (Option TargetSnapshot) :=
  let named (row : HostRow) : Except String TargetSnapshot :=
    .ok (captureTargetSnapshot e.sha256 .target
      { type := ofString type.text, id, name := textOf "name" row.fields } row.projection)
  match type with
  | .project => captured (reads.getProject id) (captureStructureSnapshot e reads type)
  | .client => captured (reads.getClient id) (captureStructureSnapshot e reads type)
  | .tag => captured (reads.getTag id) (captureStructureSnapshot e reads type)
  | .timeEntry => captured (reads.getEntry id) (captureStructureSnapshot e reads type)
  | .invoice => captured (reads.getInvoice id) fun row =>
      .ok (captureTargetSnapshot e.sha256 .target { type := ofString type.text, id } row.projection)
  | .expense => captured (reads.getExpense id) named
  | .webhook => captured (reads.getWebhook id) named
  | .group => reads.listGroups.map fun listed =>
      if listed.truncated then none
      else (listed.rows.find? fun row => row.id == id).map fun row =>
        captureTargetSnapshot e.sha256 .target
          { type := ofString "group", id := row.id, name := some row.name } (groupProjection row)

/-- A group is read by scanning the list; one that an incomplete list lacks is an error. -/
def getGroup (reads : EntityReads) (id : CodeUnits) : Except String (Option GroupRow) := do
  let listed ← reads.listGroups
  match listed.rows.find? fun row => row.id == id with
  | some row => return some row
  | none => if listed.truncated then throw "user-group" else return none

def readGenericTarget (reads : EntityReads) (type : GenericDeleteType) (id : CodeUnits) :
    Except String (Option UnitJson) :=
  match type with
  | .project => (reads.getProjectMutationState id).map (Option.map .obj)
  | .client => (reads.getClientMutationState id).map (Option.map .obj)
  | .tag => .ok ((reads.getRawTag id).toOption.map .obj)
  | .timeEntry => .ok ((reads.getRawEntry id).toOption.map fun current =>
      .obj (prepareTimeEntryUpdate current))
  | .invoice => (reads.getInvoice id).map (Option.map HostRow.projection)
  | .expense => (reads.getExpense id).map (Option.map HostRow.projection)
  | .webhook => (reads.getWebhook id).map (Option.map HostRow.projection)
  | .group => (getGroup reads id).map (Option.map groupProjection)

/-- The reading of the target while the archive is verified. A list of groups tells whether it is
complete; every other type is read as before the delete. -/
def fetchCompositeSnapshot (reads : EntityReads) (type : GenericDeleteType)
    (stored : TargetSnapshot) : Except String (Option TargetEvidence) :=
  match type with
  | .group => reads.listGroups.map fun listed =>
      (listed.rows.find? fun row => row.id == stored.ref.id).map fun row => {
        ref := stored.ref
        projection := some (groupProjection row)
        truncated := listed.truncated }
  | _ => (readGenericTarget reads type stored.ref.id).map <| Option.map fun projection => {
      ref := stored.ref
      projection := some projection }

structure DeletePreview where
  entityType : GenericDeleteType
  id : String
  name : Option String
  needsArchive : Bool
  archiveBody : UnitJson
  targetSnapshot : TargetSnapshot
  transitionedFingerprint : Hash
  plan : List MutationPlanStep

/-- Projects and clients are archived before they are deleted. -/
def needsArchive (type : GenericDeleteType) (raw : Option UnitJson) : Bool :=
  (type == .project || type == .client) &&
    match ((raw.map spread).getD []).lookup (ofString "archived") with
    | some (.bool true) => false
    | _ => true

def archived (raw : Option UnitJson) (value : Bool) : UnitJson :=
  .obj (assign (ofString "archived") (.bool value) ((raw.map spread).getD []))

def deletePlan (type : GenericDeleteType) (archives : Bool) (target transitioned : Hash) :
    List MutationPlanStep :=
  let delete (fingerprint : Hash) : MutationPlanStep := {
    id := "delete-" ++ type.text, kind := .primary, targetFingerprint := some fingerprint
    reconciliationStrategy := some .delete }
  if archives then
    [{ id := "archive-" ++ type.text, kind := .primary, targetFingerprint := some target
       reconciliationStrategy := some .stateCommand },
      delete transitioned,
      { id := "restore-" ++ type.text, kind := .compensation, targetFingerprint := some transitioned
        reconciliationStrategy := some .update }]
  else [delete target]

/-- `none` is an entity that no longer exists. -/
def previewDelete (reads : EntityReads) (type : GenericDeleteType) (id : String)
    (name : Option String) : Except String (Option DeletePreview) := do
  match ← captureGenericTarget e reads type (ofString id) with
  | none => return none
  | some targetSnapshot =>
      let raw ← readGenericTarget reads type (ofString id)
      let archives := needsArchive type raw
      let archiveBody := archived raw true
      let transitioned := if archives then sanitizedFingerprint e.sha256 archiveBody
        else targetSnapshot.fingerprint
      return some {
        entityType := type, id, name, needsArchive := archives, archiveBody, targetSnapshot
        transitionedFingerprint := transitioned
        plan := deletePlan type archives targetSnapshot.fingerprint transitioned }

def DeletePreview.payload (preview : DeletePreview) : EntityDelete where
  entityType := preview.entityType
  id := preview.id
  name := preview.name
  needsArchive := preview.needsArchive
  restorable := preview.needsArchive
  restorable_eq := rfl
  transitionedFingerprint := preview.transitionedFingerprint

def DeletePreview.operation (preview : DeletePreview) (operationId : OperationId) : Operation where
  operationId := operationId
  journal := operationId
  actionName := "clockify_delete_entity"
  plan := preview.plan

structure DeleteAnswers where
  archive : StepHost Unit
  delete : StepHost Unit
  restore : StepHost Unit

/-- The commit of a deletion; `confirmed` is what the host shows before the archive, and
`transitioned` what it shows before the delete. -/
def commitDeletePreview (preview : DeletePreview) (operationId : OperationId)
    (confirmed transitioned : EntityReads) (answers : DeleteAnswers) : JournalSession Composite.CommitResult :=
  commitDeleteEntity (preview.operation operationId) preview.payload {
    archive := { answers.archive with
      stale := (verifyTargetSnapshots e.sha256 [preview.targetSnapshot]
        fun _ => fetchCompositeSnapshot confirmed preview.entityType).code }
    current := (readGenericTarget transitioned preview.entityType (ofString preview.id)).map
      (Option.map (sanitizedFingerprint e.sha256))
    delete := answers.delete
    restore := answers.restore }

end Deletion

end TargetSnapshots

end ClockifyAssistant
