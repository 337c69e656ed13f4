import Mathlib.Data.List.Sort
import ClockifyAssistant.Schema
import ClockifyAssistant.Lib.Txn

/-!
The database and its guarded statements.
A statement that a unique index, a foreign key or a trigger watches is defined
once, with the checks and side effects SQLite runs for it, and every store
function goes through it. A status change of a confirmation fires the
pre-dispatch guard, the pre-dispatch terminal trigger and the settlement scrub.
-/
namespace ClockifyAssistant

open Lib Txn

inductive StoreError
  | unique (index : String)
  | foreignKey (table : String)
  | abort (message : String)
  | thrown (message : String)
  | busy
  deriving DecidableEq

structure Db where
  confirmations : Table PendingConfirmation
  operations : Table OperationRun
  steps : Table OperationStep
  results : Table ActionResult
  undos : Table UndoRecord
  batches : Table ConfirmationBatch
  items : Table ConfirmationBatchItem
  turns : Table TurnRun
  runs : Table AssistantRun
  events : Table RunEvent
  ledger : Table IdempotencyRow
  nextId : Nat
  deriving DecidableEq

namespace Db

def empty : Db where
  confirmations := Table.empty
  operations := Table.empty
  steps := Table.empty
  results := Table.empty
  undos := Table.empty
  batches := Table.empty
  items := Table.empty
  turns := Table.empty
  runs := Table.empty
  events := Table.empty
  ledger := Table.empty
  nextId := 0

/-- `SELECT … FROM action_results WHERE operation_id = ?` -/
def operationResult (db : Db) (operationId : OperationId) : Option ActionResult :=
  db.results.rows.find? fun r => r.operationId == some operationId

def operationWasDispatched (db : Db) (operationId : OperationId) : Bool :=
  db.steps.rows.any fun s => s.operationId == operationId && s.dispatchedAt.isSome

def batchItems (db : Db) (batchId : BatchId) : List ConfirmationBatchItem :=
  (db.items.rows.filter fun item => item.batchId == batchId).insertionSort
    fun a b => a.itemIndex ≤ b.itemIndex

theorem mem_batchItems {db : Db} {batchId : BatchId} {item : ConfirmationBatchItem} :
    item ∈ db.batchItems batchId ↔
      item.batchId = batchId ∧ db.items.get? (batchId, item.itemIndex) = some item := by
  simp only [Db.batchItems, List.mem_insertionSort, List.mem_filter, beq_iff_eq, Table.get?_eq_some]
  constructor
  · rintro ⟨hmem, rfl⟩
    exact ⟨rfl, hmem, rfl⟩
  · rintro ⟨hbatch, hmem, _⟩
    exact ⟨hmem, hbatch⟩

end Db

abbrev StoreTxn (α : Type) := Txn Db StoreError α

/-- `randomUUID()` -/
def mintId : StoreTxn Nat := do
  let db ← get
  set { db with nextId := db.nextId + 1 }
  return db.nextId

def OperationRunStatus.scrubsEnvelope : OperationRunStatus → Bool
  | .succeeded | .partially | .definitiveFailed => true
  | _ => false

/-- Trigger `confirmed_operation_terminal_scrub`. -/
def OperationRun.terminalScrub (o : OperationRun) : OperationRun :=
  if o.confirmationId.isSome && o.status.scrubsEnvelope then { o with envelope := none } else o

def OperationRun.withStatus (o : OperationRun) (status : OperationRunStatus)
    (actionResultId : Option ResultId) (now : Time) : OperationRun :=
  { o with status, actionResultId, updatedAt := now }.terminalScrub

theorem OperationRun.key_withStatus (o : OperationRun) (status : OperationRunStatus)
    (actionResultId : Option ResultId) (now : Time) :
    key (o.withStatus status actionResultId now) = key o := by
  unfold withStatus terminalScrub
  split <;> rfl

section WithStatus

variable (o : OperationRun) (status : OperationRunStatus) (r : Option ResultId) (now : Time)

@[simp] theorem OperationRun.withStatus_status : (o.withStatus status r now).status = status := by
  unfold withStatus terminalScrub
  split <;> rfl

@[simp] theorem OperationRun.withStatus_actionResultId :
    (o.withStatus status r now).actionResultId = r := by
  unfold withStatus terminalScrub
  split <;> rfl

@[simp] theorem OperationRun.withStatus_confirmationId :
    (o.withStatus status r now).confirmationId = o.confirmationId := by
  unfold withStatus terminalScrub
  split <;> rfl

@[simp] theorem OperationRun.withStatus_scope : (o.withStatus status r now).scope = o.scope := by
  unfold withStatus terminalScrub
  split <;> rfl

@[simp] theorem OperationRun.withStatus_id : (o.withStatus status r now).id = o.id :=
  o.key_withStatus status r now

end WithStatus

/-- `UPDATE operation_runs SET status, action_result_id, updated_at WHERE id = ? AND …`;
returns whether a row changed. -/
def updateOperationStatus (id : OperationId) (p : OperationRun → Bool)
    (status : OperationRunStatus) (actionResultId : OperationRun → Option ResultId)
    (now : Time) : StoreTxn Bool := do
  let db ← get
  if !(db.operations.get? id).any p then return false
  set { db with
    operations := db.operations.update id (fun o => o.withStatus status (actionResultId o) now)
      fun o => o.key_withStatus status (actionResultId o) now }
  return true

variable {E : StoreError → Prop} {db : Db}

theorem wp_updateOperationStatus {id : OperationId} {p : OperationRun → Bool}
    {status : OperationRunStatus} {f : OperationRun → Option ResultId} {now : Time}
    {Q : Bool → Db → Prop} :
    wp (updateOperationStatus id p status f now) Q E db ↔
      if (db.operations.get? id).any p then
        Q true { db with
          operations := db.operations.update id (fun o => o.withStatus status (f o) now)
            fun o => o.key_withStatus status (f o) now }
      else Q false db := by
  by_cases h : (db.operations.get? id).any p <;> simp [updateOperationStatus, h]

/-- `INSERT INTO action_results`, under `idx_action_results_operation`. -/
def insertActionResult (r : ActionResult) : StoreTxn Unit := do
  let db ← get
  require (r.operationId.all fun id => (db.operationResult id).isNone)
    (.unique "idx_action_results_operation")
  if h : db.results.get? (key r) = none then
    set { db with results := db.results.insert r h }
  else throw (.unique "action_results")

theorem wp_insertActionResult {r : ActionResult} {Q : Unit → Db → Prop}
    (hQ : ∀ h : db.results.get? (key r) = none,
      (∀ id, r.operationId = some id → db.operationResult id = none) →
        Q () { db with results := db.results.insert r h })
    (hE : ∀ e, E e) : wp (insertActionResult r) Q E db := by
  unfold insertActionResult
  rw [wp_bind, wp_get, wp_bind, wp_require]
  refine ⟨fun hunique => ?_, fun _ => hE _⟩
  by_cases hfresh : db.results.get? (key r) = none
  · rw [dif_pos hfresh, wp_set]
    refine hQ hfresh fun id hid => ?_
    simpa [hid] using hunique
  · rw [dif_neg hfresh, wp_throw]
    exact hE _

/-- A result row added at the end hides none that was found before. -/
theorem Db.operationResult_insert {r : ActionResult}
    {h : db.results.get? (key r) = none} (id : OperationId) :
    ({ db with results := db.results.insert r h } : Db).operationResult id =
      (db.operationResult id).or (if r.operationId = some id then some r else none) := by
  simp [operationResult, Table.insert, List.find?_append, List.find?_singleton]

/-- The columns a status change of a confirmation writes: every such statement
clears the nonce, the stored operation and the agent state. -/
structure ConfirmationPatch where
  status : PendingStatus
  usedAt : Option Time := none
  actionResultId : Option ResultId := none
  scrubsPreview : Bool := false
  clearsIdempotencyKey : Bool := false

def ConfirmationPatch.apply (patch : ConfirmationPatch) (c : PendingConfirmation) :
    PendingConfirmation :=
  { c with
    status := patch.status
    usedAt := patch.usedAt <|> c.usedAt
    actionResultId := patch.actionResultId <|> c.actionResultId
    nonceHash := none
    operation := none
    agentState := none
    risk := if patch.scrubsPreview then [] else c.risk
    preview := if patch.scrubsPreview then none else c.preview
    targetFingerprints := if patch.scrubsPreview then [] else c.targetFingerprints
    idempotencyKey := if patch.clearsIdempotencyKey then none else c.idempotencyKey }

theorem ConfirmationPatch.key_apply (patch : ConfirmationPatch) (c : PendingConfirmation) :
    key (patch.apply c) = key c := rfl

section PatchApply

variable (patch : ConfirmationPatch) (c : PendingConfirmation)

@[simp] theorem ConfirmationPatch.apply_status : (patch.apply c).status = patch.status := rfl

@[simp] theorem ConfirmationPatch.apply_actionResultId :
    (patch.apply c).actionResultId = (patch.actionResultId <|> c.actionResultId) := rfl

@[simp] theorem ConfirmationPatch.apply_id : (patch.apply c).id = c.id := rfl

@[simp] theorem ConfirmationPatch.apply_operationId :
    (patch.apply c).operationId = c.operationId := rfl

@[simp] theorem ConfirmationPatch.apply_scope : (patch.apply c).scope = c.scope := rfl

@[simp] theorem ConfirmationPatch.apply_batchId : (patch.apply c).batchId = c.batchId := rfl

end PatchApply

def PendingStatus.cancelledOrExpired : PendingStatus → Bool
  | .cancelled | .expired => true
  | _ => false

/-- Triggers `pending_confirmations_expired_scrub` and
`pending_confirmation_nonpending_payload_guard`. -/
def PendingConfirmation.scrubError (c : PendingConfirmation) : Option String :=
  let dispatchState := c.nonceHash.isSome || c.operation.isSome || c.agentState.isSome
  if c.status = .expired ∧ (dispatchState || !c.risk.isEmpty || c.preview.isSome ||
      !c.targetFingerprints.isEmpty) then
    some "expired_confirmation_not_scrubbed"
  else if c.status ≠ .pending ∧ c.status ≠ .expired ∧ dispatchState then
    some "terminal_confirmation_not_scrubbed"
  else none

def confirmationTerminalReceipt (action : String) (status : PendingStatus) : ErrorReceipt where
  action := action
  code := if status = .cancelled then "confirmation_cancelled" else "confirmation_expired"
  message :=
    if status = .cancelled then
      "This preview was cancelled before dispatch. No change was made."
    else "This preview expired before dispatch. No change was made."

/-- The status change both pre-dispatch triggers watch. -/
def preDispatch (old new : PendingConfirmation) : Prop :=
  old.status = .pending ∧ new.status.cancelledOrExpired

instance (old new : PendingConfirmation) : Decidable (preDispatch old new) :=
  inferInstanceAs (Decidable (_ ∧ _))

def OperationRun.undispatched (o : OperationRun) : Bool :=
  o.status == .prepared && o.actionResultId.isNone

/-- Trigger `pending_confirmation_pre_dispatch_operation_guard`. -/
def preDispatchOperationGuard (old new : PendingConfirmation) : StoreTxn Unit := do
  let db ← get
  require (preDispatch old new → (db.operations.get? old.operationId).all OperationRun.undispatched)
    (.abort "confirmation_operation_not_prepared")

/-- The operation's half of trigger `pending_confirmation_pre_dispatch_terminal`. -/
def failUndispatchedOperation (operationId : OperationId) (status : PendingStatus)
    (now : Time) : StoreTxn Unit := do
  let db ← get
  match (db.operations.get? operationId).filter OperationRun.undispatched with
  | none => return ()
  | some o =>
      let id ← mintId
      insertActionResult {
        id
        operationId := some o.id
        scope := o.scope
        actionName := o.actionName
        kind := .definitiveFailed
        result := .receipt (.error (confirmationTerminalReceipt o.actionName status))
        createdAt := now }
      modify fun db => { db with
        operations := db.operations.update operationId fun o => { o with
          status := .definitiveFailed
          actionResultId := some id
          envelope := none
          updatedAt := now } }

/-- The confirmation's half: it takes the operation's result when it has none. -/
def Db.adoptOperationResult (db : Db) (id : ConfirmationId) (operationId : OperationId) : Db :=
  { db with
    confirmations := db.confirmations.update id fun c => { c with
      actionResultId :=
        c.actionResultId <|> (db.operationResult operationId).map ActionResult.id } }

/-- Trigger `pending_confirmation_pre_dispatch_terminal`. -/
def preDispatchTerminal (old new : PendingConfirmation) : StoreTxn Unit := do
  if ¬ preDispatch old new then return ()
  failUndispatchedOperation new.operationId new.status (new.usedAt.getD new.createdAt)
  modify fun db => db.adoptOperationResult new.id new.operationId

/-- The status change trigger `pending_confirmation_settlement_scrubs_operation` watches. -/
def settlesDispatched (old new : PendingConfirmation) : Prop :=
  (old.status = .executing ∨ old.status = .outcomeUnknown) ∧
    (new.status = .succeeded ∨ new.status = .partially ∨ new.status = .definitiveFailed)

instance (old new : PendingConfirmation) : Decidable (settlesDispatched old new) :=
  inferInstanceAs (Decidable (_ ∧ _))

/-- Trigger `pending_confirmation_settlement_scrubs_operation`. -/
def settlementScrubsOperation (old new : PendingConfirmation) : StoreTxn Unit := do
  if ¬ settlesDispatched old new then return ()
  modify fun db => { db with
    operations := db.operations.update new.operationId fun o => { o with envelope := none } }

/-- `UPDATE pending_confirmations SET status = … WHERE id = ? AND status = from AND …`,
with its triggers; returns whether a row changed. -/
def updateConfirmationStatus (id : ConfirmationId) (p : PendingConfirmation → Bool)
    (patch : ConfirmationPatch) : StoreTxn Bool := do
  let db ← get
  match (db.confirmations.get? id).filter p with
  | none => return false
  | some old =>
      let new := patch.apply old
      require (new.scrubError = none) (.abort (new.scrubError.getD ""))
      preDispatchOperationGuard old new
      modify fun db => { db with confirmations := db.confirmations.update id patch.apply patch.key_apply }
      preDispatchTerminal old new
      settlementScrubsOperation old new
      return true

/-- The database after a status change that fires no pre-dispatch trigger. -/
def Db.patchConfirmation (db : Db) (old : PendingConfirmation) (patch : ConfirmationPatch) : Db :=
  { db with
    confirmations := db.confirmations.update old.id patch.apply patch.key_apply
    operations :=
      if settlesDispatched old (patch.apply old) then
        db.operations.update old.operationId fun o => { o with envelope := none }
      else db.operations }

theorem ConfirmationPatch.scrubError_apply {patch : ConfirmationPatch} {c : PendingConfirmation}
    (h : patch.status ≠ .expired) : (patch.apply c).scrubError = none := by
  simp [PendingConfirmation.scrubError, apply, h]

theorem updateConfirmationStatus_none {id : ConfirmationId} {p : PendingConfirmation → Bool}
    {patch : ConfirmationPatch} (h : (db.confirmations.get? id).filter p = none) :
    updateConfirmationStatus id p patch db = .ok (false, db) := by
  unfold updateConfirmationStatus
  rw [get_bind, h]
  rfl

theorem updateConfirmationStatus_direct {id : ConfirmationId} {p : PendingConfirmation → Bool}
    {patch : ConfirmationPatch} {old : PendingConfirmation}
    (h : (db.confirmations.get? id).filter p = some old)
    (hpre : ¬ preDispatch old (patch.apply old)) (hpatch : patch.status ≠ .expired)
    {Q : Bool → Db → Prop} :
    wp (updateConfirmationStatus id p patch) Q E db ↔ Q true (db.patchConfirmation old patch) := by
  have hid : old.id = id := Table.key_of_get? (Option.filter_eq_some_iff.mp h).1
  subst hid
  simp only [updateConfirmationStatus, wp_bind, wp_get, h, wp_require,
    ConfirmationPatch.scrubError_apply hpatch, not_true_eq_false, preDispatchOperationGuard, hpre,
    preDispatchTerminal, settlementScrubsOperation, false_imp_iff, true_imp_iff, and_true,
    not_false_eq_true, ↓reduceIte, wp_modify, wp_pure]
  by_cases hsettles : settlesDispatched old (patch.apply old)
  · simp only [hsettles, not_true_eq_false, ↓reduceIte, wp_modify, Db.patchConfirmation,
      ConfirmationPatch.apply_operationId]
  · simp only [hsettles, not_false_eq_true, ↓reduceIte, wp_pure, Db.patchConfirmation]

end ClockifyAssistant
