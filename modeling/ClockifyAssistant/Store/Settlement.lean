import ClockifyAssistant.Store.ConfirmationBatches
import ClockifyAssistant.Store.OperationRuns
import ClockifyAssistant.Store.Runs

/-!
Run settlement: the transaction that ends a run waiting for a confirmation. A
cancelled or expired preview is settled here with a result of its own, which
belongs to no operation.
-/
namespace ClockifyAssistant

open Lib Txn

inductive SettlementKind
  | confirmed | cancelled | expired
  deriving DecidableEq

def previewSettledResult (kind : SettlementKind) (actionName : String) : CommitResult :=
  .receipt <| .error {
    action := actionName
    code := if kind = .cancelled then "preview_cancelled" else "preview_expired"
    message :=
      if kind = .cancelled then "The preview was cancelled. No change was made."
      else "The preview expired. No change was made." }

def settledActionName (operation : Option ConfirmableOperation) : String :=
  match operation with
  | some operation =>
      if operation.actionName.isEmpty then "confirmed_write" else operation.actionName
  | none => "confirmed_write"

def reservedForPlan (operation : Option ConfirmableOperation) : Nat :=
  match operation.bind ConfirmableOperation.mutationPlan with
  | some plan => plan.maxHostCalls
  | none => 0

def settleUnconfirmedOperation (scope : SessionScope) (operationId : OperationId)
    (kind : SettlementKind) (actionName : String) (now : Time) : StoreTxn ResultId := do
  let id ← recordActionResult {
    scope
    actionName
    kind := .definitiveFailed
    result := previewSettledResult kind actionName } now
  settleOperationRun operationId .definitiveFailed (some id) now
  return id

def PendingConfirmation.runScope (record : PendingConfirmation) : Option AssistantRunScope :=
  match record.discriminator.runId, record.installationGeneration with
  | some runId, some generation => some ⟨record.scope, runId, generation⟩
  | _, _ => none

def Db.awaitingRun (db : Db) (s : AssistantRunScope) : Option AssistantRun :=
  (db.getRun s).filter fun run => run.phase == .awaitingConfirmation

def dropPreview (kind : SettlementKind) (confirmationId : ConfirmationId)
    (status : PendingStatus) (now : Time) : StoreTxn Unit := do
  match kind with
  | .confirmed => return ()
  | .cancelled =>
      let _ ← cancelConfirmation confirmationId now
  | .expired =>
      if status ≠ .pending then return ()
      let _ ← expireConfirmation confirmationId now

/-- `record` is the caller's copy of the confirmation, read before this transaction. -/
def settleV2ConfirmationRun (record : PendingConfirmation) (kind : SettlementKind)
    (actionResultId : Option ResultId) (now : Time) : StoreTxn Bool := do
  let db ← get
  match record.runScope.bind fun s => (db.awaitingRun s).map fun state => (s, state) with
  | none => return false
  | some (s, state) =>
      let actionResultId ← settleUnconfirmed
      let budget := { state.budget with
        hostCallsReserved := state.budget.hostCallsReserved - reservedForPlan record.operation }
      completeRunAfterConfirmationWithEvents s budget {
        operationId := record.operationId
        confirmationId := record.id
        withClaim := kind == .confirmed
        actionResultId } now
      return true
where
  settleUnconfirmed : StoreTxn (Option ResultId) := do
    if kind = .confirmed then return actionResultId
    dropPreview kind record.id record.status now
    let id ← settleUnconfirmedOperation record.scope record.operationId kind
      (settledActionName record.operation) now
    return some id

def settleBatchMember (batch : ConfirmationBatch) (kind : SettlementKind) (now : Time)
    (item : ConfirmationBatchItem) : StoreTxn SettledItem := do
  let record ← getPendingConfirmation item.confirmationId now
  match record.filter fun c => kind != .confirmed && c.status == .pending with
  | some record =>
      dropPreview kind item.confirmationId record.status now
      let id ← settleUnconfirmedOperation batch.scope item.operationId kind
        (settledActionName record.operation) now
      return { operationId := item.operationId, actionResultId := some id }
  | none =>
      return {
        operationId := item.operationId
        actionResultId := item.actionResultId <|>
          record.bind PendingConfirmation.actionResultId }

def settleBatchMembers (batch : ConfirmationBatch) (kind : SettlementKind) (now : Time) :
    List ConfirmationBatchItem → StoreTxn (List SettledItem)
  | [] => return []
  | item :: rest => do
      let settled ← settleBatchMember batch kind now item
      let others ← settleBatchMembers batch kind now rest
      return settled :: others

def SettlementKind.toBatch : SettlementKind → ConfirmationBatchStatus
  | .confirmed => .succeeded
  | .cancelled => .cancelled
  | .expired => .expired

def endPendingBatch (batch : ConfirmationBatch) (kind : SettlementKind) (now : Time) :
    StoreTxn Unit := do
  if kind = .confirmed ∨ batch.status ≠ .pending then return ()
  let _ ← updateConfirmationBatchStatus batch.id kind.toBatch (some now)

/-- The run a batch settles, when it still waits: its scope is the batch's, its
installation generation the first member's. -/
def awaitingBatchRun (batch : ConfirmationBatch) (first : ConfirmationBatchItem) (now : Time) :
    StoreTxn (Option (AssistantRunScope × AssistantRun)) := do
  let firstRecord ← getPendingConfirmation first.confirmationId now
  let db ← get
  return (firstRecord.bind PendingConfirmation.installationGeneration).bind fun generation =>
    let s : AssistantRunScope := ⟨batch.scope, batch.runId, generation⟩
    (db.awaitingRun s).map fun state => (s, state)

def settleV2ConfirmationBatchRun (batchId : BatchId) (kind : SettlementKind) (now : Time) :
    StoreTxn Bool := do
  let db ← get
  match db.getConfirmationBatch batchId, db.batchItems batchId with
  | some batch, first :: rest =>
      match ← awaitingBatchRun batch first now with
      | none => return false
      | some (s, state) =>
          let settledItems ← settleBatchMembers batch kind now (first :: rest)
          endPendingBatch batch kind now
          -- One batch per run: the whole reservation belonged to it.
          completeRunAfterBatchWithEvents s { state.budget with hostCallsReserved := 0 }
            settledItems now
          return true
  | _, _ => return false

end ClockifyAssistant
