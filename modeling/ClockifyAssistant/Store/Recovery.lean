import Mathlib.Algebra.Group.Defs
import ClockifyAssistant.Store.ConfirmationBatches
import ClockifyAssistant.Store.Runs
import ClockifyAssistant.Store.Undo

/-!
Startup recovery, one transaction in the order of its statements: turns and
steps, executing confirmations with their operations, undos with theirs, the
remaining operations and undos, executing batches, and orphaned runs. Each
phase reports what it settled.
-/
namespace ClockifyAssistant

open Lib Txn

@[ext] structure RecoverySummary where
  turns : Nat := 0
  operations : Nat := 0
  confirmations : Nat := 0
  undos : Nat := 0
  assistantRuns : Nat := 0
  ambiguousSteps : Nat := 0
  ambiguousOperations : Nat := 0
  deriving DecidableEq

instance : Zero RecoverySummary := ⟨{}⟩

instance : Add RecoverySummary := ⟨fun a b => {
  turns := a.turns + b.turns
  operations := a.operations + b.operations
  confirmations := a.confirmations + b.confirmations
  undos := a.undos + b.undos
  assistantRuns := a.assistantRuns + b.assistantRuns
  ambiguousSteps := a.ambiguousSteps + b.ambiguousSteps
  ambiguousOperations := a.ambiguousOperations + b.ambiguousOperations }⟩

def sumRecovered {ι : Type} (recover : ι → StoreTxn RecoverySummary) :
    List ι → StoreTxn RecoverySummary
  | [] => return 0
  | x :: rest => do
      let first ← recover x
      let others ← sumRecovered recover rest
      return first + others

def TurnRun.stranded (t : TurnRun) : Bool := t.status == .executing

def recoveredTurns (turns : Table TurnRun) (now : Time) : Table TurnRun :=
  turns.updateWhere TurnRun.stranded fun t =>
    { t with status := .outcomeUnknown, updatedAt := now }

def recoverTurns (now : Time) : StoreTxn RecoverySummary := do
  let db ← get
  set { db with turns := recoveredTurns db.turns now }
  return { turns := db.turns.rows.countP TurnRun.stranded }

def OperationStep.undispatched (s : OperationStep) : Bool :=
  s.status == .executing && s.dispatchedAt.isNone

def OperationStep.ambiguous (s : OperationStep) : Bool :=
  s.status == .executing && s.dispatchedAt.isSome

theorem OperationStep.key_failed (now : Time) (s : OperationStep) :
    key { s with status := .definitiveFailed, settledAt := some now } = key s := rfl

/-- A compensating source keeps its known success; a step without durable
evidence of dispatch failed. -/
def failUndispatchedSteps (steps : Table OperationStep) (now : Time) : Table OperationStep :=
  (steps.updateWhere (fun s => s.status == .compensating) fun s =>
    { s with status := .succeeded }).updateWhere OperationStep.undispatched (fun s =>
      { s with status := .definitiveFailed, settledAt := some now }) (OperationStep.key_failed now)

def recoveredSteps (steps : Table OperationStep) (now : Time) : Table OperationStep :=
  (failUndispatchedSteps steps now).updateWhere OperationStep.ambiguous fun s =>
    { s with status := .outcomeUnknown, settledAt := some now }

def recoverSteps (now : Time) : StoreTxn RecoverySummary := do
  let db ← get
  set { db with steps := recoveredSteps db.steps now }
  return {
    ambiguousSteps := (failUndispatchedSteps db.steps now).rows.countP OperationStep.ambiguous }

def Db.recoveryKind (db : Db) (operationId : OperationId) : ActionResultKind :=
  if db.operationWasDispatched operationId then .outcomeUnknown else .definitiveFailed

def recoveryResult (kind : ActionResultKind) (actionName : String) : CommitResult :=
  let undispatched := kind = .definitiveFailed
  .receipt <| .error {
    action := actionName
    code := if undispatched then "operation_cancelled_before_dispatch" else "commit_outcome_unknown"
    message :=
      if undispatched then
        "The server restarted before this queued action reached Clockify. No change was made."
      else "The server restarted while this action was executing, so its outcome is unknown."
    hint := some <|
      if undispatched then "Create a fresh request when the service is available."
      else "Verify the result in Clockify before trying the action again." }

structure ActionResultRef where
  id : ResultId
  kind : ActionResultKind
  deriving DecidableEq

def ActionResult.ref (r : ActionResult) : ActionResultRef := ⟨r.id, r.kind⟩

def insertRecoveryResult (operationId : Option OperationId) (scope : SessionScope)
    (actionName : String) (kind : ActionResultKind) (now : Time) : StoreTxn ActionResultRef := do
  let id ← mintId
  insertActionResult {
    id, operationId, scope, actionName, kind
    result := recoveryResult kind actionName
    createdAt := now }
  return ⟨id, kind⟩

def recoveredResult (operationId : OperationId) (scope : SessionScope) (actionName : String)
    (kind : ActionResultKind) (now : Time) : StoreTxn ActionResultRef := do
  match (← get).operationResult operationId with
  | some r => return r.ref
  | none => insertRecoveryResult (some operationId) scope actionName kind now

def settleRecoveredOperation (operationId : OperationId) (ref : ActionResultRef) (now : Time) :
    StoreTxn Bool :=
  updateOperationStatus operationId (fun o => o.status == .executing) ref.kind.toOperation
    (fun _ => some ref.id) now

def ActionResultRef.patch (ref : ActionResultRef) : ConfirmationPatch where
  status := ref.kind.toPending
  actionResultId := some ref.id
  clearsIdempotencyKey := true

def settledOperation (settled : Bool) (kind : ActionResultKind) : RecoverySummary where
  operations := settled.toNat
  ambiguousOperations := if kind = .outcomeUnknown then settled.toNat else 0

def fillRecoveredClaim (row : PendingConfirmation) (ref : ActionResultRef) (now : Time) :
    StoreTxn Unit := do
  match row.idempotencyKey with
  | none => return ()
  | some ledgerKey =>
      let _ ← fillOpenClaim ledgerKey row.scope ref.id now

def recoverConfirmation (now : Time) (row : PendingConfirmation) :
    StoreTxn RecoverySummary := do
  let db ← get
  let kind := db.recoveryKind row.operationId
  let actionName :=
    match db.operations.get? row.operationId with
    | some o => o.actionName
    | none => "unknown_action"
  let ref ← recoveredResult row.operationId row.scope actionName kind now
  let _ ← updateConfirmationStatus row.id (fun c => c.status == .executing) ref.patch
  let settled ← settleRecoveredOperation row.operationId ref now
  fillRecoveredClaim row ref now
  return settledOperation settled kind + { confirmations := 1 }

structure LinkedUndo where
  undo : UndoRecord
  operation : OperationRun

def OperationRun.reverses (o : OperationRun) (u : UndoRecord) : Bool :=
  o.scope == u.scope && o.actionName == "undo" && o.status == .executing &&
    o.envelope.bind OperationEnvelope.undoId == some u.id

def Db.linkedUndos (db : Db) : List LinkedUndo :=
  (db.undos.rows.filter fun u => u.status == .executing).flatMap fun u =>
    (db.operations.rows.filter fun o => o.reverses u).map fun o => ⟨u, o⟩

def settleRecoveredUndo (id : UndoId) (status : UndoStatus) (ref : ActionResultRef)
    (now : Time) : StoreTxn Bool :=
  updateUndo id (fun u => u.status == .executing) fun u => { u with
    status, actionResultId := some ref.id, undoneAt := some now }

def recoverLinkedUndo (now : Time) (row : LinkedUndo) : StoreTxn RecoverySummary := do
  let db ← get
  let kind := db.recoveryKind row.operation.id
  let ref ← recoveredResult row.operation.id row.undo.scope row.operation.actionName kind now
  let settled ← settleRecoveredOperation row.operation.id ref now
  let undone ← settleRecoveredUndo row.undo.id
    (if kind = .outcomeUnknown then .outcomeUnknown else .failed) ref now
  return settledOperation settled kind + { undos := undone.toNat }

def recoverOperation (now : Time) (row : OperationRun) : StoreTxn RecoverySummary := do
  let db ← get
  let kind := db.recoveryKind row.id
  let ref ← recoveredResult row.id row.scope row.actionName kind now
  let settled ← settleRecoveredOperation row.id ref now
  return settledOperation settled kind

/-- An undo without an operation of its own is settled as unknown. -/
def recoverUndo (now : Time) (row : UndoRecord) : StoreTxn RecoverySummary := do
  let ref ← insertRecoveryResult none row.scope "undo" .outcomeUnknown now
  let settled ← settleRecoveredUndo row.id .outcomeUnknown ref now
  return { undos := settled.toNat, ambiguousOperations := settled.toNat }

def Db.failedRuns (db : Db) (now : Time) : Table AssistantRun :=
  db.runs.updateWhere (fun r => r.phase.active) fun r =>
    { r with phase := .failed, updatedAt := now }

/-- Turns of any session whose request is a run this pass failed. -/
def failTurns (turns : Table TurnRun) (runs : Table AssistantRun) (now : Time) : Table TurnRun :=
  turns.updateWhere
    (fun t => (t.status == .prepared || t.status == .executing) && runs.rows.any fun r =>
      r.runId == t.requestId && r.phase == .failed && r.updatedAt == now)
    fun t => { t with status := .failed, updatedAt := now }

def recoverAssistantRuns (now : Time) : StoreTxn RecoverySummary := do
  let orphaned := (← get).runs.rows.filter fun r => r.phase.active
  orphaned.forM fun run => do
    let _ ← allocateAndInsertEvent run.scope run.runId
      (.runFailed "interrupted_before_durable_completion") now
  let db ← get
  let assistantRuns := db.runs.rows.countP fun r => r.phase.active
  set { db with
    runs := db.failedRuns now
    turns :=
      if 0 < assistantRuns then failTurns db.turns (db.failedRuns now) now else db.turns }
  return { assistantRuns }

def Db.executingConfirmations (db : Db) : List PendingConfirmation :=
  db.confirmations.rows.filter fun c => c.status == .executing

def Db.executingOperations (db : Db) : List OperationRun :=
  db.operations.rows.filter fun o => o.status == .executing

def Db.executingUndos (db : Db) : List UndoRecord :=
  db.undos.rows.filter fun u => u.status == .executing

def Db.executingBatches (db : Db) : List ConfirmationBatch :=
  db.batches.rows.filter fun b => b.status == .executing

def recoverOrphanedRuns (now : Time) : StoreTxn RecoverySummary := do
  let turns ← recoverTurns now
  let steps ← recoverSteps now
  let confirmations ← sumRecovered (recoverConfirmation now) (← get).executingConfirmations
  let linked ← sumRecovered (recoverLinkedUndo now) (← get).linkedUndos
  let operations ← sumRecovered (recoverOperation now) (← get).executingOperations
  let undos ← sumRecovered (recoverUndo now) (← get).executingUndos
  (← get).executingBatches.forM fun b => recoverConfirmationBatch b.id now
  let runs ← recoverAssistantRuns now
  return turns + steps + confirmations + linked + operations + undos + runs

end ClockifyAssistant
