import ClockifyAssistant.Store.Confirmations

/-!
Confirmation batches: the ordered members of a Confirm-all preview, the status
writes of the batch and of its items, and the recovery of one executing batch.
-/
namespace ClockifyAssistant

open Lib Txn

structure BatchMember where
  confirmationId : ConfirmationId
  operationId : OperationId
  deriving DecidableEq

structure CreateConfirmationBatchInput where
  scope : SessionScope
  runId : RunId
  items : List BatchMember
  orderedTupleHash : Hash
  expiresAt : Time

def ConfirmationBatchStatus.active : ConfirmationBatchStatus → Bool
  | .pending | .executing => true
  | _ => false

def ConfirmationBatchItem.member (item : ConfirmationBatchItem) : BatchMember :=
  ⟨item.confirmationId, item.operationId⟩

/-- `INSERT INTO confirmation_batches`, under `idx_confirmation_batches_one_active_per_run`. -/
def insertBatch (batch : ConfirmationBatch) : StoreTxn Unit := do
  let db ← get
  require (batch.status.active → db.batches.rows.all fun b => !(b.status.active &&
      b.scope.sessionId == batch.scope.sessionId && b.runId == batch.runId))
    (.unique "idx_confirmation_batches_one_active_per_run")
  require ((db.runs.get? (batch.scope.sessionId, batch.runId)).any fun r =>
      r.scope == batch.scope) (.foreignKey "confirmation_batches")
  if h : db.batches.get? (key batch) = none then
    set { db with batches := db.batches.insert batch h }
  else throw (.unique "confirmation_batches")

/-- The foreign keys of an item: each member lives in the item's scope and run. -/
def Db.ownsItem (db : Db) (item : ConfirmationBatchItem) : Bool :=
  ((db.confirmations.get? item.confirmationId).any fun c =>
    c.operationId == item.operationId && c.scope == item.scope &&
      c.discriminator.runId == some item.runId) &&
  ((db.operations.get? item.operationId).any fun o =>
    o.scope == item.scope && o.discriminator.runId == some item.runId) &&
  ((db.batches.get? item.batchId).any fun b => b.scope == item.scope && b.runId == item.runId)

/-- `INSERT INTO confirmation_batch_items`, under its unique columns and foreign keys. -/
def insertBatchItem (item : ConfirmationBatchItem) : StoreTxn Unit := do
  let db ← get
  require (db.items.rows.all fun i =>
      i.confirmationId != item.confirmationId && i.operationId != item.operationId)
    (.unique "confirmation_batch_items")
  require (db.ownsItem item) (.foreignKey "confirmation_batch_items")
  if h : db.items.get? (key item) = none then
    set { db with items := db.items.insert item h }
  else throw (.unique "confirmation_batch_items")

def insertConfirmationBatch (tupleHash : List BatchMember → Hash)
    (input : CreateConfirmationBatchInput) (now : Time) : StoreTxn BatchId := do
  let id ← mintId
  require (tupleHash input.items = input.orderedTupleHash) (.thrown "ordered_tuple_hash_mismatch")
  insertBatch {
    id
    scope := input.scope
    runId := input.runId
    orderedTupleHash := input.orderedTupleHash
    status := .pending
    currentIndex := 0
    expiresAt := input.expiresAt
    createdAt := now
    startedAt := none
    completedAt := none }
  input.items.zipIdx.forM fun (member, itemIndex) => do
    insertBatchItem {
      batchId := id
      itemIndex
      scope := input.scope
      runId := input.runId
      confirmationId := member.confirmationId
      operationId := member.operationId
      status := .pending
      actionResultId := none
      startedAt := none
      completedAt := none }
    modify fun db => { db with
      confirmations := db.confirmations.update member.confirmationId
        fun c => { c with batchId := some id }
      operations := db.operations.update member.operationId
        fun o => { o with batchId := some id } }
  return id

def Db.getConfirmationBatch (db : Db) (id : BatchId) : Option ConfirmationBatch :=
  db.batches.get? id

def Db.getScopedConfirmationBatch (db : Db) (id : BatchId) (scope : SessionScope) :
    Option ConfirmationBatch :=
  (db.batches.get? id).filter fun b => b.scope = scope

/-- `UPDATE confirmation_batches SET … WHERE id = ? AND …`; returns whether a row changed. -/
def updateBatch (id : BatchId) (p : ConfirmationBatch → Bool)
    (f : ConfirmationBatch → ConfirmationBatch)
    (hf : ∀ b, key (f b) = key b := by intro b; rfl) : StoreTxn Bool := do
  let db ← get
  if !(db.batches.get? id).any p then return false
  set { db with batches := db.batches.update id f hf }
  return true

/-- No caller moves a batch back to an active status, so the one-active-batch
index has nothing to check here. -/
def updateConfirmationBatchStatus (id : BatchId) (status : ConfirmationBatchStatus)
    (completedAt : Option Time) : StoreTxn Bool :=
  updateBatch id (fun _ => true) fun b => { b with
    status, completedAt := completedAt <|> b.completedAt }

structure ItemPatch where
  actionResultId : Option ResultId := none
  startedAt : Option Time := none
  completedAt : Option Time := none

def ItemPatch.apply (patch : ItemPatch) (status : ConfirmationBatchItemStatus)
    (item : ConfirmationBatchItem) : ConfirmationBatchItem :=
  { item with
    status
    actionResultId := patch.actionResultId <|> item.actionResultId
    startedAt := patch.startedAt <|> item.startedAt
    completedAt := patch.completedAt <|> item.completedAt }

theorem ItemPatch.key_apply (patch : ItemPatch) (status : ConfirmationBatchItemStatus)
    (item : ConfirmationBatchItem) : key (patch.apply status item) = key item := rfl

/-- An item's result must exist in the item's own scope. -/
def Db.resultInScope (db : Db) (id : ResultId) (scope : SessionScope) : Bool :=
  match db.results.get? id with
  | some r => r.scope = scope
  | none => false

def updateConfirmationBatchItemStatus (batchId : BatchId) (itemIndex : Nat)
    (p : ConfirmationBatchItem → Bool) (status : ConfirmationBatchItemStatus)
    (patch : ItemPatch) : StoreTxn Bool := do
  let db ← get
  match (db.items.get? (batchId, itemIndex)).filter p with
  | none => return false
  | some item =>
      require (patch.actionResultId.all fun id => db.resultInScope id item.scope)
        (.foreignKey "confirmation_batch_items")
      set { db with
        items := db.items.update (batchId, itemIndex) (patch.apply status)
          (patch.key_apply status) }
      return true

def markConfirmationBatchExecuting (batchId : BatchId) (now : Time) : StoreTxn Bool :=
  updateBatch batchId (fun b => b.status == .pending) fun b => { b with
    status := .executing, startedAt := b.startedAt <|> some now }

def advanceConfirmationBatchProgress (batchId : BatchId) (nextIndex : Nat) : StoreTxn Bool :=
  updateBatch batchId (fun b => b.status == .executing) fun b => { b with
    currentIndex := nextIndex }

def cancelPendingItem (now : Time) (item : ConfirmationBatchItem) : StoreTxn Unit := do
  let _ ← updateConfirmationBatchItemStatus item.batchId item.itemIndex
    (fun i => i.status == .pending) .cancelled { completedAt := some now }
  let _ ← cancelConfirmation item.confirmationId now

def cancelUndispatchedBatchItem (now : Time) (item : ConfirmationBatchItem) : StoreTxn Unit := do
  cancelPendingItem now item
  let _ ← updateOperationStatus item.operationId (fun o => o.status == .prepared)
    .definitiveFailed OperationRun.actionResultId now

def cancelUndispatchedBatchItems (batchId : BatchId) (fromIndex : Nat) (now : Time) :
    StoreTxn Nat := do
  let db ← get
  let items := (db.batchItems batchId).filter fun item =>
    decide (fromIndex ≤ item.itemIndex) && item.status == .pending
  items.forM (cancelUndispatchedBatchItem now)
  return items.length

def operationCancelledBeforeDispatch : CommitResult :=
  .receipt <| .error {
    action := "unknown_action"
    code := "operation_cancelled_before_dispatch"
    message := "The server restarted before this queued action reached Clockify. No change was made."
    hint := some "Create a fresh request when the service is available."
    retryable := some false }

def failUndispatchedItem (now : Time) (item : ConfirmationBatchItem) : StoreTxn Unit := do
  let actionResultId ← mintId
  insertActionResult {
    id := actionResultId
    operationId := some item.operationId
    scope := item.scope
    actionName := "unknown_action"
    kind := .definitiveFailed
    result := operationCancelledBeforeDispatch
    createdAt := now }
  let _ ← updateConfirmationBatchItemStatus item.batchId item.itemIndex
    (fun i => i.status == .executing) .definitiveFailed
    { actionResultId := some actionResultId, completedAt := some now }
  let _ ← updateConfirmationStatus item.confirmationId (fun c => c.status == .executing)
    { status := .definitiveFailed, usedAt := some now, actionResultId := some actionResultId,
      clearsIdempotencyKey := true }
  let _ ← updateOperationStatus item.operationId (fun o => o.status == .executing)
    .definitiveFailed (fun _ => some actionResultId) now

def abandonBatch (batchId : BatchId) (items : List ConfirmationBatchItem) (fromIndex : Nat)
    (now : Time) : StoreTxn Unit := do
  let _ ← updateBatch batchId (fun _ => true) fun b => { b with
    status := .outcomeUnknown, completedAt := b.completedAt <|> some now }
  (items.filter fun row => decide (fromIndex ≤ row.itemIndex) && row.status == .pending).forM
    (cancelPendingItem now)

/-- The loop over the executing items; the first dispatched one ends it. -/
def recoverExecutingItems (batchId : BatchId) (items : List ConfirmationBatchItem) (now : Time) :
    List ConfirmationBatchItem → StoreTxn Unit
  | [] => return ()
  | item :: rest => do
      if (← get).operationWasDispatched item.operationId then
        abandonBatch batchId items item.itemIndex now
      else
        failUndispatchedItem now item
        recoverExecutingItems batchId items now rest

/-- Whether a batch stopped before its first member. -/
def ConfirmationBatch.unstarted (batch : ConfirmationBatch)
    (items : List ConfirmationBatchItem) : Bool :=
  batch.currentIndex == 0 && items.all fun item => item.status == .pending

def recoverConfirmationBatch (batchId : BatchId) (now : Time) : StoreTxn Unit := do
  let db ← get
  match (db.batches.get? batchId).filter fun b => b.status == .executing with
  | none => return ()
  | some batch =>
      let items := db.batchItems batchId
      if batch.unstarted items then
        if batch.expiresAt ≤ now then return ()
        let _ ← updateBatch batchId (fun b => b.status == .executing) fun b => { b with
          status := .pending, startedAt := none }
      else
        recoverExecutingItems batchId items now (items.filter fun item => item.status == .executing)

end ClockifyAssistant
