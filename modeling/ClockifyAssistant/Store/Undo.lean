import ClockifyAssistant.Store.OperationRuns

/-!
The undo ledger: a reversible action, its one-use claim, the settlement it shares with
the operation that reverses it, and the bounded statement by which `pruneExpired` expires
the rows that lapsed.
-/
namespace ClockifyAssistant

open Lib Txn

def undoTtlMs : Nat := 30 * 60 * 1000

def recordUndoable (scope : SessionScope) (reversal : Json) (now : Time) : StoreTxn UndoId := do
  let id ← mintId
  let db ← get
  let row : UndoRecord := {
    id
    scope
    status := .available
    reversal := some reversal
    remaining := some reversal
    createdAt := now
    expiresAt := now + undoTtlMs
    undoneAt := none
    actionResultId := none }
  if h : db.undos.get? (key row) = none then
    set { db with undos := db.undos.insert row h }
    return id
  else throw (.unique "undo_records")

/-- `UPDATE undo_records SET … WHERE id = ? AND …`; returns whether a row changed. -/
def updateUndo (id : UndoId) (p : UndoRecord → Bool) (f : UndoRecord → UndoRecord)
    (hf : ∀ u, key (f u) = key u := by intro u; rfl) : StoreTxn Bool := do
  let db ← get
  if !(db.undos.get? id).any p then return false
  set { db with undos := db.undos.update id f hf }
  return true

def getUndoRecord (id : UndoId) (now : Time) : StoreTxn (Option UndoRecord) := do
  let _ ← updateUndo id (fun u => u.status == .available && decide (u.expiresAt ≤ now))
    fun u => { u with status := .expired, reversal := none, remaining := none }
  return (← get).undos.get? id

def markUndoExecuting (id : UndoId) (now : Time) : StoreTxn Bool :=
  updateUndo id (fun u => u.status == .available && decide (now < u.expiresAt))
    fun u => { u with status := .executing }

def startUndoOperation (id : UndoId) (input : PrepareOperationRunInput) (now : Time) :
    StoreTxn (Option OperationId) := do
  if !(← markUndoExecuting id now) then return none
  let operationId ← prepareOperationRun input now
  let executing ← markOperationExecuting operationId now
  require executing (.thrown "operation_not_prepared")
  return some operationId

inductive UndoOutcome
  | partiallyUndone | undone | failed | outcomeUnknown
  deriving DecidableEq

def UndoOutcome.toStatus : UndoOutcome → UndoStatus
  | .partiallyUndone => .partiallyUndone
  | .undone => .undone
  | .failed => .failed
  | .outcomeUnknown => .outcomeUnknown

def UndoOutcome.toKind : UndoOutcome → ActionResultKind
  | .partiallyUndone => .partially
  | .undone => .succeeded
  | .failed => .definitiveFailed
  | .outcomeUnknown => .outcomeUnknown

/-- The shared write of `settleUndo` and `settleUndoOperation` on the undo row. -/
def settleUndoRow (id : UndoId) (status : UndoOutcome) (remaining : Json)
    (actionResultId : ResultId) (now : Time) : StoreTxn Unit := do
  let updated ← updateUndo id (fun u => u.status == .executing) fun u => { u with
    status := status.toStatus
    remaining := some remaining
    actionResultId := some actionResultId
    undoneAt := some now }
  require updated (.thrown "undo_not_executing")

def settleUndoOperation (id : UndoId) (operationId : OperationId) (status : UndoOutcome)
    (remaining : Json) (receipt : Receipt) (now : Time) : StoreTxn ResultId := do
  let db ← get
  let undo := (db.undos.get? id).filter fun u => u.status == .executing
  let owner ← demand ((db.operations.get? operationId).filter fun o =>
      undo.any fun u => o.scope == u.scope && o.actionName == "undo" && o.status == .executing &&
        o.actionResultId.isNone)
    (.thrown "undo_operation_not_executing")
  let actionResultId ← recordActionResult {
    operationId := some operationId
    scope := owner.scope
    actionName := owner.actionName
    kind := status.toKind
    result := .receipt receipt } now
  settleUndoRow id status remaining actionResultId now
  let settled ← updateOperationStatus operationId
    (fun o => o.status == .executing && o.actionResultId.isNone)
    status.toKind.toOperation (fun _ => some actionResultId) now
  require settled (.thrown "operation_not_executing")
  return actionResultId

section Statements

variable {ρ κ : Type} [Keyed ρ κ] [DecidableEq κ]

/-- `SELECT rowid FROM … WHERE p LIMIT ?` -/
def selectRows (t : Table ρ) (p : ρ → Bool) (limit : Nat) : List ρ :=
  (t.rows.filter p).take limit

def selects (rows : List ρ) (r : ρ) : Bool := rows.any fun row => key row == key r

end Statements

def expireUndoRecords (now : Time) (limit : Nat) : StoreTxn Nat := do
  let db ← get
  let due := selectRows db.undos (fun u => u.status == .available && u.expiresAt ≤ now) limit
  set { db with
    undos := db.undos.updateWhere (selects due) fun u => { u with
      status := .expired, reversal := none, remaining := none } }
  return due.length

def UndoStatus.reversed : UndoStatus → Bool
  | .partiallyUndone | .undone | .failed | .outcomeUnknown => true
  | _ => false

end ClockifyAssistant
