import ClockifyAssistant.Database

/-!
Pending confirmations: the one-use status transitions of a preview, the
placeholder result written when one is claimed, and its settlement.
-/
namespace ClockifyAssistant

open Lib Txn

def PendingConfirmation.due (c : PendingConfirmation) (now : Time) : Bool := c.expiresAt ≤ now

def expiredPatch (now : Time) : ConfirmationPatch where
  status := .expired
  usedAt := some now
  scrubsPreview := true
  clearsIdempotencyKey := true

def cancelledPatch (now : Time) : ConfirmationPatch where
  status := .cancelled
  usedAt := some now
  scrubsPreview := true
  clearsIdempotencyKey := true

def dispatchUnknownResult (actionName : String) : CommitResult :=
  .receipt <| .error {
    action := actionName
    code := "commit_outcome_unknown"
    message := "This confirmation entered the dispatch window without a durable final receipt, so its outcome is unknown."
    hint := some "Verify the result in Clockify before trying the action again." }

def Discriminator.validConfirmation (d : Discriminator) : Bool :=
  (d.registryId == .v1Internal &&
    (d.authorityModel == .legacyV1 || d.authorityModel == .intentCapabilityV1) &&
    d.executorKind == .legacyV1) ||
  (d.origin == .assistant && d.registryId == .v2Api && d.authorityModel == .previewConfirmationV2 &&
    (d.executorKind == .preparedSafeWrite || d.executorKind == .riskyCommit) && d.runId.isSome)

def savePendingConfirmation (record : PendingConfirmation) : StoreTxn Unit := do
  let db ← get
  require record.discriminator.validConfirmation (.abort "discriminator_matrix_invalid")
  require (record.scrubError = none) (.abort (record.scrubError.getD ""))
  if h : db.confirmations.get? (key record) = none then
    set { db with confirmations := db.confirmations.insert record h }
  else throw (.unique "pending_confirmations")

def expireOnRead (id : ConfirmationId) (now : Time) : StoreTxn Unit := do
  let _ ← updateConfirmationStatus id (fun c => c.status == .pending && c.due now)
    (expiredPatch now)

def getPendingConfirmation (id : ConfirmationId) (now : Time) :
    StoreTxn (Option PendingConfirmation) := do
  expireOnRead id now
  let db ← get
  return db.confirmations.get? id

def updateConfirmationNonceHash (id : ConfirmationId) (nonceHash : Hash) : StoreTxn Bool := do
  let db ← get
  if !(db.confirmations.get? id).any (fun c => c.status == .pending) then return false
  set { db with
    confirmations := db.confirmations.update id fun c => { c with nonceHash := some nonceHash } }
  return true

def claimedActionName (c : PendingConfirmation) (o : Option OperationRun) : String :=
  match o with
  | some o => if o.actionName.isEmpty then storedName else o.actionName
  | none => storedName
where
  storedName :=
    match c.operation with
    | some operation => if operation.actionName.isEmpty then "unknown_action" else operation.actionName
    | none => "unknown_action"

def markConfirmationExecuting (id : ConfirmationId) (now : Time) : StoreTxn Bool := do
  let db ← get
  match (db.confirmations.get? id).filter fun c => c.status == .pending with
  | none => return false
  | some row =>
      let actionName := claimedActionName row (db.operations.get? row.operationId)
      let actionResultId ← mintId
      let _ ← updateConfirmationStatus id (fun c => c.status == .pending)
        { status := .executing, usedAt := some now, actionResultId := some actionResultId }
      insertActionResult {
        id := actionResultId
        operationId := some row.operationId
        scope := row.scope
        actionName
        kind := .outcomeUnknown
        result := dispatchUnknownResult actionName
        createdAt := now }
      let claimed ← updateOperationStatus row.operationId (fun o => o.status == .prepared)
        .executing (fun _ => some actionResultId) now
      require claimed (.thrown "operation_not_prepared")
      return true

def cancelConfirmation (id : ConfirmationId) (now : Time) : StoreTxn Bool :=
  updateConfirmationStatus id (fun c => c.status == .pending) (cancelledPatch now)

def expireConfirmation (id : ConfirmationId) (now : Time) : StoreTxn Bool :=
  updateConfirmationStatus id (fun c => c.status == .pending && c.due now) (expiredPatch now)

def ledgerKeyOf (ledgerKey : LedgerKey) (scope : SessionScope) :
    LedgerKey × WorkspaceId × AdminUserId :=
  (ledgerKey, scope.workspaceId, scope.adminUserId)

/-- `DELETE FROM idempotency_keys WHERE … AND action_result_id IS NULL` -/
def deleteOpenClaim (ledgerKey : LedgerKey) (scope : SessionScope) : StoreTxn Unit :=
  modify fun db => { db with
    ledger := db.ledger.deleteWhere fun row =>
      key row == ledgerKeyOf ledgerKey scope && row.actionResultId.isNone }

/-- `UPDATE idempotency_keys SET action_result_id … WHERE … AND action_result_id IS NULL` -/
def fillOpenClaim (ledgerKey : LedgerKey) (scope : SessionScope) (resultId : ResultId)
    (now : Time) : StoreTxn Bool := do
  let db ← get
  if !(db.ledger.get? (ledgerKeyOf ledgerKey scope)).any
      (fun claim => claim.actionResultId.isNone) then
    return false
  set { db with
    ledger := db.ledger.update (ledgerKeyOf ledgerKey scope) fun row => { row with
      actionResultId := some resultId, committedAt := some now, claimedAt := now } }
  return true

/-- What settling a confirmation does to its idempotency claim: a definitive
failure releases the claim, any other outcome fills it. -/
def settleLedgerClaim (row : PendingConfirmation) (status : ActionResultKind)
    (actionResultId : ResultId) (now : Time) : StoreTxn Unit := do
  match row.idempotencyKey with
  | none => return ()
  | some ledgerKey =>
      if status = .definitiveFailed then deleteOpenClaim ledgerKey row.scope
      else
        let filled ← fillOpenClaim ledgerKey row.scope actionResultId now
        require filled (.thrown "idempotency_claim_not_owned")

def settleConfirmation (id : ConfirmationId) (status : ActionResultKind) (actionName : String)
    (result : CommitResult) (now : Time) : StoreTxn ResultId := do
  let db ← get
  let row ← demand ((db.confirmations.get? id).filter fun c => c.status == .executing)
    (.thrown "confirmation_not_executing")
  let actionResultId ← demand row.actionResultId (.thrown "confirmation_result_not_found")
  require ((db.results.get? actionResultId).any fun r => r.operationId == some row.operationId)
    (.thrown "confirmation_result_not_found")
  modify fun db => { db with
    results := db.results.update actionResultId fun r => { r with
      actionName, kind := status, result, createdAt := now } }
  let changed ← updateConfirmationStatus id (fun c => c.status == .executing)
    { status := status.toPending, actionResultId := some actionResultId,
      clearsIdempotencyKey := true }
  require changed (.thrown "confirmation_not_executing")
  let settled ← updateOperationStatus row.operationId
    (fun o => o.status == .executing && o.actionResultId == some actionResultId)
    status.toOperation (fun _ => some actionResultId) now
  require settled (.thrown "operation_not_found")
  settleLedgerClaim row status actionResultId now
  return actionResultId

def Db.getActionResult (db : Db) (id : ResultId) : Option CommitResult :=
  (db.results.get? id).map ActionResult.result

end ClockifyAssistant
