import ClockifyAssistant.Harness.CompositeWorkflow

/-!
The commits that send several mutations: the setup of a project and of a task, the additions
to a user group, the update of an invoice, the approval of all pending timesheets, and the
deletions that archive first. Each folds the statuses of its steps into one result.
-/
namespace ClockifyAssistant

open Lib

namespace Composite

structure WriteAccess where
  usersGroups : Bool
  invoices : Bool

structure Listing (α : Type) where
  rows : List α
  truncated : Bool

inductive RateKind
  | hourly | cost
  deriving DecidableEq

def failure (action code message : String) (hint : Option String := none)
    (retryable : Option Bool := none) : CommitResult :=
  .error { action, code, message, hint, retryable }

/-! `clockify_setup_project` -/

structure MemberRate where
  userId : String
  amountMinor : Nat
  kind : RateKind

structure SetupProject where
  name : String
  addUserIds : List String
  memberRates : List MemberRate

structure SetupProjectHost where
  /-- Why the selected client or a member no longer is what was previewed. -/
  drifted : Option String
  /-- Whether the baseline of projects is incomplete. -/
  truncated : Except String Bool
  create : StepHost EntityRef
  memberships : Except String (Listing String)
  addMembers : StepHost Unit
  rateMembers : Nat → Except String (Listing String)
  setRate : Nat → StepHost Unit

def setupProjectPartial (created : EntityRef) (message : String) : CommitResult :=
  .partially { action := "clockify_setup_project", entity := "project", changed := { created := [created] } }
    message "Inspect the retained project before previewing only the unfinished changes."

/-- The member rates in order; `planIndex` is the index of the next step of the plan. -/
def setMemberRates (access : WriteAccess) (operation : Operation) (host : SetupProjectHost)
    (created : EntityRef) : List MemberRate → Nat → Nat → JournalSession CommitResult
  | [], _, _ =>
      return .success {
        action := "clockify_setup_project", entity := "project"
        changed := { created := [created] } }
  | rate :: rest, rateIndex, planIndex => do
      if !access.invoices then
        return setupProjectPartial created
          "The project was created, but rate write access is no longer available."
      let current ← readHost (host.rateMembers rateIndex)
      if current.truncated then
        return setupProjectPartial created
          "The project was created, but the member-rate baseline was incomplete; no rate write was sent."
      if !current.rows.contains rate.userId then
        return setupProjectPartial created ("The project was created, but member " ++ rate.userId ++
          " could not be verified; no rate write was sent.")
      let h := host.setRate rateIndex
      let rateStep ← executeDurableRiskyStep operation
        ("set-project-rate-" ++ toString rateIndex) planIndex h
      if rateStep.status ≠ .succeeded then
        return setupProjectPartial created (if rateStep.status = .outcomeUnknown
          then "The project and earlier setup changes remain, but a member-rate outcome is unknown; later rates were not sent."
          else "The project and earlier setup changes remain, but Clockify rejected a member rate; later rates were not sent.")
      if h.reconciled && !rest.isEmpty then
        return setupProjectPartial created
          "A member rate was proven successful after an ambiguous response, so no later rate mutation was sent."
      setMemberRates access operation host created rest (rateIndex + 1) (planIndex + 1)

def completeProject (access : WriteAccess) (operation : Operation) (p : SetupProject)
    (host : SetupProjectHost) (created : EntityRef) : JournalSession CommitResult := do
  if p.addUserIds.isEmpty then
    setMemberRates access operation host created p.memberRates 0 1
  else if !access.usersGroups then
    return setupProjectPartial created
      "The project was created, but member write access is no longer available."
  else do
    let memberships ← readHost host.memberships
    if memberships.truncated then
      return setupProjectPartial created
        "The project was created, but its membership baseline was incomplete; no membership write was sent."
    let memberStep ← executeDurableRiskyStep operation "add-project-members" 1 host.addMembers
    if memberStep.status ≠ .succeeded then
      return setupProjectPartial created (if memberStep.status = .outcomeUnknown
        then "The project was created, but the membership update outcome is unknown; rate steps were not sent."
        else "The project was created, but Clockify rejected the membership update; rate steps were not sent.")
    if host.addMembers.reconciled && !p.memberRates.isEmpty then
      return setupProjectPartial created
        "The membership update was proven successful after an ambiguous response, so no rate mutation was sent."
    setMemberRates access operation host created p.memberRates 0 2

def createProject (access : WriteAccess) (operation : Operation) (p : SetupProject)
    (host : SetupProjectHost) : JournalSession CommitResult := do
  if ← readHost host.truncated then
    return failure operation.actionName "list_truncated"
      "Clockify returned an incomplete project baseline. No project was created."
  let createStep ← executeDurableRiskyStep operation "create-project" 0 host.create
  if createStep.status = .outcomeUnknown then
    return failure operation.actionName "commit_outcome_unknown"
      "The project create outcome is unknown; no setup steps were sent."
      (some "Inspect Clockify for the exact project before retrying.") (some false)
  match host.create.value.filter fun _ => createStep.status == .succeeded with
  | none =>
      return failure operation.actionName "write_failed"
        "Clockify rejected the project create; no setup steps were sent."
  | some created =>
      if host.create.reconciled && (!p.addUserIds.isEmpty || !p.memberRates.isEmpty) then
        return setupProjectPartial created
          "The project create was proven successful after an ambiguous response, so no membership or rate mutation was sent."
      completeProject access operation p host created

def commitSetupProject (access : WriteAccess) (operation : Operation)
    (payload : Option SetupProject) (host : SetupProjectHost) : JournalSession CommitResult :=
  match payload, host.drifted with
  | none, _ =>
      return failure "clockify_setup_project" "invalid_payload"
        "The saved project-setup details no longer match the expected shape — nothing was changed. Please re-issue the request."
  | some _, some code =>
      return failure operation.actionName code
        "A selected client or member changed before dispatch. No project was created."
        (some "Refresh the request and create a new preview.") (some true)
  | some p, none => createProject access operation p host

/-! `clockify_setup_task` -/

structure SetupTask where
  projectId : String
  name : String
  rate : Option MemberRate

structure SetupTaskHost where
  /-- Why the project or an assignee no longer is what was previewed, at both readings. -/
  initialParents : Option String
  truncated : Except String Bool
  immediateParents : Option String
  create : StepHost EntityRef
  setRate : StepHost Unit

def partialSetupTask (created : EntityRef) (message : String) : CommitResult :=
  .partially { action := "clockify_setup_task", entity := "task", changed := { created := [created] } }
    message "Review the created task and apply the missing rate manually if needed."

def setTaskRate (access : WriteAccess) (operation : Operation) (p : SetupTask)
    (host : SetupTaskHost) (created : EntityRef) : JournalSession CommitResult := do
  let success : CommitResult := .success {
    action := "clockify_setup_task", entity := "task", changed := { created := [created] } }
  if p.rate.isNone then return success
  if !access.invoices then
    return partialSetupTask created
      "The task was created, but invoice write access is no longer available, so its rate was not set."
  let rateStep ← executeDurableRiskyStep operation "set-task-rate" 1 host.setRate
  if rateStep.status ≠ .succeeded then
    return partialSetupTask created
      "The task was created, but setting its rate did not complete definitively."
  return success

def createTask (access : WriteAccess) (operation : Operation) (p : SetupTask)
    (host : SetupTaskHost) : JournalSession CommitResult := do
  let createStep ← executeDurableRiskyStep operation "create-task" 0 host.create
  if createStep.status = .outcomeUnknown then
    return failure "clockify_setup_task" "commit_outcome_unknown"
      "Task creation may or may not have applied. No rate mutation was sent."
      (some "Verify the task list before retrying.") (some false)
  match host.create.value.filter fun _ => createStep.status == .succeeded with
  | none =>
      return failure "clockify_setup_task" "setup_failed" ("Couldn't create task \"" ++ p.name ++ "\".")
  | some created =>
      if host.create.reconciled && p.rate.isSome then
        return partialSetupTask created
          "The task create was proven successful after an ambiguous response, so no rate mutation was sent."
      setTaskRate access operation p host created

def commitSetupTask (access : WriteAccess) (operation : Operation)
    (payload : Option SetupTask) (host : SetupTaskHost) : JournalSession CommitResult := do
  match payload, host.initialParents with
  | none, _ =>
      return failure "clockify_setup_task" "invalid_payload"
        "The saved task-setup details no longer match the expected shape — nothing was changed. Please re-issue the request."
  | some _, some code =>
      return failure operation.actionName code
        "The project or an assignee changed before task creation. No task was created."
        (some "Refresh the project and assignees and create a fresh preview.") (some true)
  | some p, none => do
      if ← readHost host.truncated then
        return failure "clockify_setup_task" "target_evidence_incomplete"
          "Clockify returned an incomplete task list, so no task was created."
          (some "Narrow the project task list and create a fresh preview.") (some true)
      match host.immediateParents with
      | some code =>
          return failure operation.actionName code
            "The project or an assignee changed immediately before task creation. No task was created."
            (some "Refresh the project and assignees and create a fresh preview.") (some true)
      | none => createTask access operation p host

/-! `clockify_groups_add_user` -/

inductive PartialGroupAdd
  | stale | definitive | ambiguous | reconciled

def PartialGroupAdd.uncertain : PartialGroupAdd → String
  | ambiguous => " The next membership add may or may not have applied."
  | reconciled => " The last add was proven successful after an ambiguous response, so no later mutation was sent."
  | stale => " The group changed before the next add, so no later mutation was sent."
  | definitive => " Clockify definitively rejected the next add."

def groupMembership (userId : String) : EntityRef where
  type := "group_membership"
  id := userId

def partialGroupAdd (succeededUserIds : List String) (total : Nat) (reason : PartialGroupAdd) :
    CommitResult :=
  .partially {
      action := "clockify_groups_add_user", entity := "group"
      changed := { updated := succeededUserIds.map groupMembership }
      warnings := match reason with
        | .ambiguous => [("outcome_unknown", "A later membership add has an unknown outcome.")]
        | _ => [] }
    (toString succeededUserIds.length ++ " of " ++ toString total ++
      " group membership additions are known to have succeeded." ++ reason.uncertain)
    "Refresh the complete group membership before deciding what remains to add."

/-- The additions in order; `succeeded` are those before. -/
def addUsers (operation : Operation) (groupId : String) (total : Nat) (host : Nat → StepHost Unit) :
    List String → List String → JournalSession CommitResult
  | [], _ =>
      return .success {
        action := "clockify_groups_add_user", entity := "group"
        changed := { updated := [{ type := "group", id := groupId }] } }
  | userId :: rest, succeeded => do
      let index := succeeded.length
      let h := host index
      let step ← executeVerifiedMutationStep operation
        ("add-user-to-group-" ++ toString index) index h
      match h.stale with
      | some code =>
          if !succeeded.isEmpty then return partialGroupAdd succeeded total .stale
          return failure "clockify_groups_add_user" code
            "The group membership changed. No further Clockify mutation was sent."
            (some "Refresh the group and create a fresh preview.") (some true)
      | none =>
          if step.status = .succeeded then
            if h.reconciled && !rest.isEmpty then
              return partialGroupAdd (succeeded ++ [userId]) total .reconciled
            addUsers operation groupId total host rest (succeeded ++ [userId])
          else if step.status = .outcomeUnknown then
            if !succeeded.isEmpty then return partialGroupAdd succeeded total .ambiguous
            return failure "clockify_groups_add_user" "commit_outcome_unknown"
              "A group membership add may or may not have been applied."
              (some "Verify the group membership in Clockify before retrying.") (some false)
          else
            if !succeeded.isEmpty then return partialGroupAdd succeeded total .definitive
            return failure "clockify_groups_add_user" "write_failed"
              "Clockify rejected the group membership add."
              (some "Refresh the group and preview again.") (some true)

def commitGroupAdd (operation : Operation) (groupId : String) (userIds : List String)
    (host : Nat → StepHost Unit) : JournalSession CommitResult :=
  addUsers operation groupId userIds.length host userIds []

/-! `clockify_approvals_approve_pending` -/

def estimateApprovePendingBatchHostCalls (approvalCount : Nat) : Nat := 3 * approvalCount + 1

/-- The largest batch whose worst case fits the turn; the search ends within the limit. -/
def deriveMaximumBatchSize (estimate : Nat → Nat) (callsAlreadyConsumed : Nat) : Option Nat :=
  (List.range hostCallBudgetMaximum).find? fun count =>
    hostCallBudgetMaximum < callsAlreadyConsumed + estimate (count + 1)

def confirmedRequestPreReservationHostCalls : Nat := 3

def approvalPendingBatchMax : Nat :=
  (deriveMaximumBatchSize estimateApprovePendingBatchHostCalls
    confirmedRequestPreReservationHostCalls).getD 0

structure PendingApprovals where
  approvals : List String
  /-- The ids of the stored snapshots. -/
  snapshots : List String

def approvedTimesheet (id : String) : EntityRef where
  type := "approval"
  id := id
  name := some "APPROVED"

def approvePendingPartial (completedIds : List String) (total : Nat) (message : String)
    (outcomeUnknown : Bool := false) : CommitResult :=
  .partially {
      action := "clockify_approvals_approve_pending", entity := "approval"
      changed := { updated := completedIds.map approvedTimesheet }
      warnings := if outcomeUnknown then [("outcome_unknown", "A later approval result is unknown.")]
        else [] }
    (toString completedIds.length ++ " of " ++ toString total ++
      " pending timesheets are known to be approved. " ++ message)
    "Refresh pending approvals before creating a preview for anything still unfinished."

/-- Whether the recorded detail names one of the gates before the dispatch; a degraded record
no longer does. -/
def approvePendingPreDispatchStopped (h : StepHost String) (step : JournaledMutationStep) : Bool :=
  !step.journalDegraded && match h.dispatch.outcome with
    | .error (.dispatchDenied _) => true
    | .error (.planViolation _) => true
    | .error .budgetExceeded => true
    | .error .requestCancelled => true
    | _ => false

def invalidApprovalPlan (operation : Operation) (message hint : String) : CommitResult :=
  failure operation.actionName "invalid_mutation_plan" message (some hint) (some false)

def stoppedApproval (operation : Operation) (completedIds : List String) (total : Nat)
    (h : StepHost String) (step : JournaledMutationStep) : CommitResult :=
  let unknown := step.status == .outcomeUnknown
  if !completedIds.isEmpty then
    approvePendingPartial completedIds total
      (if h.stale.isSome then
        "The next timesheet changed after preview, so it and all later approvals were not sent."
      else if approvePendingPreDispatchStopped h step then
        "A fresh authorization or execution gate stopped the next approval before dispatch; it and all later approvals were not sent."
      else if unknown then "The next approval may or may not have applied; no later approval was sent."
      else "Clockify definitively rejected the next approval; no later approval was sent.")
      unknown
  else match h.stale with
  | some code =>
      failure operation.actionName code
        "A pending timesheet changed after preview. No approval mutation was sent."
        (some "Refresh pending approvals and create a fresh preview.") (some true)
  | none =>
      if approvePendingPreDispatchStopped h step then
        failure operation.actionName "write_blocked_before_dispatch"
          "A fresh authorization or execution gate stopped the first approval before dispatch. No approval mutation was sent."
          (some "Restore authorization and create a fresh preview.") (some true)
      else if unknown then
        failure operation.actionName "commit_outcome_unknown"
          "Clockify did not provide a definitive result for the first approval. No later approval was sent."
          (some "Verify that exact timesheet in Clockify before deciding what remains.") (some false)
      else
        failure operation.actionName "write_failed"
          "Clockify definitively rejected the first approval. No later approval was sent."
          (some "Refresh pending approvals before retrying.") (some true)

/-- The approvals from an index on; `completedIds` are those that succeeded. -/
def approveTimesheets (operation : Operation) (batch : PendingApprovals)
    (host : Nat → StepHost String) :
    List String → Nat → List String → JournalSession CommitResult
  | [], _, completedIds =>
      return .success {
        action := operation.actionName, entity := "approval"
        changed := { updated := completedIds.map approvedTimesheet } }
  | approval :: rest, index, completedIds => do
      let total := batch.approvals.length
      let planStepId := "approve-pending-" ++ toString index
      if batch.snapshots[index]? ≠ some approval ∨
          (operation.plan[index]?.map MutationPlanStep.id) ≠ some planStepId then
        return if !completedIds.isEmpty then
          approvePendingPartial completedIds total
            "The stored next target was invalid, so no later approval was sent."
        else invalidApprovalPlan operation
          "The stored approve-all target does not match its exact plan." "Create a fresh preview."
      let h := host index
      let step ← executeDurableRiskyStep operation planStepId index h
      if step.status = .succeeded then
        let completedIds := completedIds ++ [h.value.getD approval]
        if step.journalDegraded then
          return approvePendingPartial completedIds total
            "The latest approval succeeded, but its full local journal settlement degraded; no later approval was sent."
        if h.reconciled && !rest.isEmpty then
          return approvePendingPartial completedIds total
            "The latest approval was proven successful after an ambiguous response, so no later approval was sent."
        approveTimesheets operation batch host rest (index + 1) completedIds
      else return stoppedApproval operation completedIds total h step

def commitApprovePending (operation : Operation) (batch : PendingApprovals)
    (host : Nat → StepHost String) : JournalSession CommitResult :=
  if batch.approvals.isEmpty ∨ batch.approvals.length ≠ batch.snapshots.length ∨
      batch.approvals.length ≠ operation.plan.length ∨ approvalPendingBatchMax < batch.approvals.length then
    return invalidApprovalPlan operation
      "The stored approve-all batch is incomplete or exceeds its safe bound."
      "Create a fresh preview from the current pending-timesheet list."
  else approveTimesheets operation batch host batch.approvals 0 []

/-! `clockify_invoices_update` -/

structure InvoiceUpdate where
  id : String
  updatesFields : Bool
  status : Option String

structure InvoiceUpdateHost where
  updateFields : StepHost EntityRef
  updateStatus : StepHost EntityRef

def updateReceipt (id : String) (name : Option String := none) : ChangeReceipt where
  action := "clockify_invoices_update"
  entity := "invoice"
  changed := { updated := [{ type := "invoice", id, name }] }

def withJournalDegradedWarning (receipt : ChangeReceipt) : ChangeReceipt :=
  if receipt.warnings.any fun warning => warning.1 == "operation_journal_degraded" then receipt
  else { receipt with
    warnings := receipt.warnings ++ [("operation_journal_degraded",
      "Clockify confirmed the change, but the full local step record could not be saved. The operation will not be retried automatically.")] }

def partialInvoiceUpdate (id failed : String) : CommitResult :=
  .partially (updateReceipt id)
    ("Invoice " ++ id ++ " was updated partially; " ++ failed ++ " did not complete.")
    "Refresh the invoice, then preview only the missing change."

def degradedInvoiceUpdate (id : String) : CommitResult :=
  .partially { updateReceipt id with
      warnings := [("operation_journal_degraded",
        "Clockify confirmed the status change, but its full local step record could not be saved.")] }
    ("Invoice " ++ id ++ " fields and status were applied, but the local status journal did not settle fully.")
    "Refresh the invoice and verify both applied changes; do not retry this combined operation."

def unknownInvoiceUpdate (operation : Operation) (id : String) : CommitResult :=
  failure operation.actionName "commit_outcome_unknown"
    ("Clockify did not give a definitive response while updating invoice " ++ id ++
      ". No later step was dispatched.")
    (some "Refresh the invoice and verify its fields/status before previewing another update.") (some false)

/-- The status step; `updated` is whether the fields were written before, and under which name. -/
def updateInvoiceStatus (operation : Operation) (p : InvoiceUpdate) (host : InvoiceUpdateHost)
    (updated : Bool) (name : Option String) : JournalSession CommitResult := do
  if p.status.isNone then return .success (updateReceipt p.id name)
  let h := host.updateStatus
  let status ← executeDurableRiskyStep operation "update-invoice-status"
    (if updated then 1 else 0) h
  match h.stale with
  | some code =>
      if updated then
        return partialInvoiceUpdate p.id "the invoice changed before the status update"
      return failure operation.actionName code "The invoice changed before the status update."
        (some "Refresh the invoice and preview again.")
  | none =>
      if status.status = .outcomeUnknown then return unknownInvoiceUpdate operation p.id
      if status.status = .definitiveFailed then
        if updated then return partialInvoiceUpdate p.id "the status update"
        return failure operation.actionName "write_failed"
          "Clockify definitively rejected the invoice status update."
          (some "Correct the status and preview again.") (some true)
      let receipt := updateReceipt p.id (name.or (h.value.bind EntityRef.name))
      if status.journalDegraded then
        if updated then return degradedInvoiceUpdate p.id
        return .success (withJournalDegradedWarning receipt)
      return .success receipt

def commitInvoiceUpdate (operation : Operation) (targetStored : Bool) (p : InvoiceUpdate)
    (host : InvoiceUpdateHost) : JournalSession CommitResult := do
  if !targetStored then
    return failure operation.actionName "stale_target"
      "The invoice target is missing. Create a fresh preview."
  if !p.updatesFields then updateInvoiceStatus operation p host false none
  else do
    let h := host.updateFields
    let fields ← executeDurableRiskyStep operation "update-invoice-fields" 0 h
    match h.stale with
    | some code =>
        return failure operation.actionName code
          "The invoice or replacement client changed before the field update."
          (some "Refresh the invoice and preview again.")
    | none =>
        if fields.status = .outcomeUnknown then return unknownInvoiceUpdate operation p.id
        if fields.status = .definitiveFailed then
          return failure operation.actionName "write_failed"
            "Clockify definitively rejected the invoice field update."
            (some "Correct the fields and preview again.") (some true)
        let name := h.value.bind EntityRef.name
        if fields.journalDegraded then
          if p.status.isSome then
            return partialInvoiceUpdate p.id "the status step was not dispatched after journal degradation"
          return .success (withJournalDegradedWarning (updateReceipt p.id name))
        updateInvoiceStatus operation p host true name

/-! `clockify_expenses_categories_delete` -/

structure CategoryDelete where
  id : String
  name : Option String
  wasArchived : Bool

structure CategoryDeleteHost where
  archive : StepHost Unit
  delete : StepHost Unit

def partialCategoryDelete (operation : Operation) (id message : String) : CommitResult :=
  .partially {
      action := operation.actionName, entity := "expense_category"
      changed := { updated := [{ type := "expense_category", id }] } }
    message "Refresh the category and preview only the remaining change."

def stepFailureCode (status : StepStatus) : String :=
  if status = .outcomeUnknown then "commit_outcome_unknown" else "write_failed"

def deleteCategory (operation : Operation) (p : CategoryDelete) (host : CategoryDeleteHost)
    (index : Nat) : JournalSession CommitResult := do
  let step ← executeDurableRiskyStep operation "delete-expense-category" index host.delete
  match host.delete.stale with
  | some code =>
      if !p.wasArchived then
        return partialCategoryDelete operation p.id
          "The category was archived, but could not be verified before deletion."
      return failure operation.actionName code "The archived category could not be verified."
  | none =>
      if step.status = .succeeded then
        return .success {
          action := "clockify_expenses_categories_delete", entity := "expense_category"
          changed := { deleted := [{ type := "expense_category", id := p.id, name := p.name }] } }
      if !p.wasArchived then
        return partialCategoryDelete operation p.id
          "The category was archived, but deletion did not complete."
      return failure operation.actionName (stepFailureCode step.status)
        "The category deletion did not complete."
        (some "Verify whether the category still exists before retrying.")
        (some (step.status != .outcomeUnknown))

def commitCategoryDelete (operation : Operation) (targetStored : Bool) (p : CategoryDelete)
    (host : CategoryDeleteHost) : JournalSession CommitResult := do
  if !targetStored then
    return failure operation.actionName "stale_target"
      "The category target is missing. Create a fresh preview."
  if p.wasArchived then deleteCategory operation p host 0
  else do
    let archive ← executeDurableRiskyStep operation "archive-expense-category" 0 host.archive
    match host.archive.stale with
    | some code =>
        return failure operation.actionName code "The category changed before the archive step."
    | none =>
        if archive.status ≠ .succeeded then
          return failure operation.actionName (stepFailureCode archive.status)
            "The category archive did not complete."
            (some "Refresh the category before retrying.")
            (some (archive.status != .outcomeUnknown))
        deleteCategory operation p host 1

/-! `clockify_delete_entity` -/

inductive GenericDeleteType
  | project | client | tag | timeEntry | invoice | expense | webhook | group
  deriving DecidableEq

def GenericDeleteType.text : GenericDeleteType → String
  | project => "project"
  | client => "client"
  | tag => "tag"
  | timeEntry => "time_entry"
  | invoice => "invoice"
  | expense => "expense"
  | webhook => "webhook"
  | group => "group"

structure EntityDelete where
  entityType : GenericDeleteType
  id : String
  name : Option String
  needsArchive : Bool
  /-- Whether the payload holds the body that restores the entity. -/
  restorable : Bool
  /-- The preview stores that body exactly when it plans the archive. -/
  restorable_eq : restorable = needsArchive
  transitionedFingerprint : Hash

structure EntityDeleteHost where
  archive : StepHost Unit
  /-- The fingerprint of the entity before the delete, if it is there. -/
  current : Except String (Option Hash)
  delete : StepHost Unit
  restore : StepHost Unit

def deletePartial (p : EntityDelete) (message : String) : CommitResult :=
  .partially {
      action := "clockify_delete_entity", entity := p.entityType.text
      changed := { updated := [{ type := p.entityType.text, id := p.id, name := p.name }] } }
    message "Inspect the target state manually before retrying."

def restoreStep (p : EntityDelete) (h : StepHost Unit) : ExecutableMutationStep where
  id := "restore-" ++ p.entityType.text
  index := 2
  kind := .compensation
  targetFingerprint := some p.transitionedFingerprint
  dispatch := h.dispatch

def restoreEntity (operation : Operation) (p : EntityDelete) (host : EntityDeleteHost) :
    JournalSession CommitResult := do
  let archiveId ← journaledRow operation.operationId ("archive-" ++ p.entityType.text)
  let status ← executeCompensationStep operation archiveId (restoreStep p host.restore)
  if status = .compensated then
    return failure operation.actionName "write_failed"
      ("Delete was rejected and the " ++ p.entityType.text ++ " archive state was restored.")
  return deletePartial p ("Delete was rejected and restoring the " ++ p.entityType.text ++
    " did not complete definitively.")

def deleteEntity (operation : Operation) (p : EntityDelete) (host : EntityDeleteHost)
    (deleteIndex : Nat) : JournalSession CommitResult := do
  let type := p.entityType.text
  let current ← readHost host.current
  if current ≠ some p.transitionedFingerprint then
    if p.needsArchive then
      return deletePartial p ("The " ++ type ++ " changed before delete, so delete was not sent.")
    return failure operation.actionName "stale_target"
      ("The " ++ type ++ " changed before delete. No delete was sent.")
      (some "Create a fresh preview.") (some true)
  let deleted ← executeDurableRiskyStep operation ("delete-" ++ type) deleteIndex host.delete
  if deleted.status = .succeeded then
    return .success {
      action := "clockify_delete_entity", entity := type
      changed := { deleted := [{ type := type, id := p.id, name := p.name }] } }
  if !p.needsArchive || !p.restorable then
    if deleted.status = .outcomeUnknown then
      return failure operation.actionName "commit_outcome_unknown"
        ("The " ++ type ++ " delete outcome is unknown.")
        (some "Verify whether it still exists before retrying.") (some false)
    return failure operation.actionName "write_failed" ("The " ++ type ++ " delete was rejected.")
  if deleted.status = .outcomeUnknown then
    return deletePartial p ("The " ++ type ++
      " was archived, but delete did not complete definitively; no compensation was dispatched.")
  restoreEntity operation p host

def commitDeleteEntity (operation : Operation) (p : EntityDelete) (host : EntityDeleteHost) :
    JournalSession CommitResult := do
  if !p.needsArchive then deleteEntity operation p host 0
  else do
    let type := p.entityType.text
    let archiveStep ← executeDurableRiskyStep operation ("archive-" ++ type) 0 host.archive
    if archiveStep.status = .outcomeUnknown then
      return failure operation.actionName "commit_outcome_unknown"
        ("The " ++ type ++ " archive outcome is unknown; delete was not sent.")
        (some "Verify the target before retrying.") (some false)
    if archiveStep.status ≠ .succeeded then
      return failure operation.actionName "write_failed"
        ("The " ++ type ++ " could not be archived; delete was not sent.")
    deleteEntity operation p host 1

end Composite

end ClockifyAssistant
