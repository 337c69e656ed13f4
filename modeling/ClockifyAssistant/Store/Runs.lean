import ClockifyAssistant.Database

/-!
Assistant runs: the durable phase, continuation and host-call ledger of a run,
and its event log. Consumed host calls are counted in the row; a state write
keeps that count and overwrites the reservation with the caller's copy.
-/
namespace ClockifyAssistant

open Lib Txn

def maxHostCalls : Nat := 60

def canReserveHostCalls (budget : RunBudget) (count : Nat) : Bool :=
  budget.hostCallsUsed + budget.hostCallsReserved + count ≤ maxHostCalls

def reserveHostCalls (budget : RunBudget) (count : Nat) : RunBudget :=
  { budget with hostCallsReserved := budget.hostCallsReserved + count }

structure AssistantRunScope where
  scope : SessionScope
  runId : RunId
  installationGeneration : Nat
  deriving DecidableEq

def AssistantRun.inScope (run : AssistantRun) (s : AssistantRunScope) : Bool :=
  run.scope == s.scope && run.runId == s.runId &&
    run.installationGeneration == s.installationGeneration

def AssistantRunScope.key (s : AssistantRunScope) : SessionId × RunId :=
  (s.scope.sessionId, s.runId)

def RunPhase.active : RunPhase → Bool
  | .model | .discovering | .executingReads | .preparingWrites => true
  | _ => false

def Db.getRun (db : Db) (s : AssistantRunScope) : Option AssistantRun :=
  (db.runs.get? s.key).filter fun run => run.inScope s

/-- `UPDATE assistant_runs SET … WHERE` the run's full scope `AND …`. -/
def updateRun (s : AssistantRunScope) (p : AssistantRun → Bool) (f : AssistantRun → AssistantRun)
    (hf : ∀ r, Lib.key (f r) = Lib.key r := by intro r; rfl) : StoreTxn Bool := do
  let db ← get
  if !(db.getRun s).any p then return false
  set { db with runs := db.runs.update s.key f hf }
  return true

def chargeRunHostCall (s : AssistantRunScope) (now : Time) : StoreTxn Bool :=
  updateRun s (fun run => run.budget.hostCallsUsed + run.budget.hostCallsReserved < 60)
    fun run => { run with
      budget := { run.budget with hostCallsUsed := run.budget.hostCallsUsed + 1 }
      updatedAt := now }

def refundRunHostCall (s : AssistantRunScope) (now : Time) : StoreTxn Unit := do
  let _ ← updateRun s (fun _ => true) fun run => { run with
    budget := { run.budget with hostCallsUsed := run.budget.hostCallsUsed - 1 }
    updatedAt := now }

def convertReservedRunHostCall (s : AssistantRunScope) (now : Time) : StoreTxn Bool :=
  updateRun s
    (fun run => decide (0 < run.budget.hostCallsReserved) ||
      decide (run.budget.hostCallsUsed + run.budget.hostCallsReserved < 60))
    fun run => { run with
      budget := {
        hostCallsUsed := run.budget.hostCallsUsed + 1
        hostCallsReserved := run.budget.hostCallsReserved - 1 }
      updatedAt := now }

def Db.lastEventSequence (db : Db) (sessionId : SessionId) (runId : RunId) : Nat :=
  (db.events.rows.filter fun e => e.scope.sessionId == sessionId && e.runId == runId).foldr
    (fun e last => max e.sequence last) 0

def allocateAndInsertEvent (scope : SessionScope) (runId : RunId) (payload : RunEventPayload)
    (now : Time) : StoreTxn Nat := do
  let db ← get
  let sequence := db.lastEventSequence scope.sessionId runId + 1
  let event : RunEvent := { scope, runId, sequence, payload, createdAt := now }
  require ((db.runs.get? (scope.sessionId, runId)).any fun run => run.scope == scope)
    (.foreignKey "run_events")
  if h : db.events.get? (Lib.key event) = none then
    set { db with events := db.events.insert event h }
    return sequence
  else throw (.unique "run_events")

def startRunWithEvent (s : AssistantRunScope) (now : Time) : StoreTxn Unit := do
  let db ← get
  let turn : TurnRun :=
    { scope := s.scope, requestId := s.runId, status := .prepared, updatedAt := now }
  let run : AssistantRun := {
    scope := s.scope
    runId := s.runId
    installationGeneration := s.installationGeneration
    phase := .model
    continuation := .none
    budget := { hostCallsUsed := 0, hostCallsReserved := 0 }
    updatedAt := now }
  if ht : db.turns.get? (Lib.key turn) = none then
    if hr : db.runs.get? (Lib.key run) = none then
      set { db with turns := db.turns.insert turn ht, runs := db.runs.insert run hr }
      let _ ← allocateAndInsertEvent s.scope s.runId .runStarted now
    else throw (.unique "assistant_runs")
  else throw (.unique "turn_runs")

/-- The fields of a run a state write replaces; the consumed count stays the row's. -/
structure RunStatePatch where
  phase : RunPhase
  continuation : RunContinuation
  budget : RunBudget

def RunStatePatch.apply (patch : RunStatePatch) (now : Time) (run : AssistantRun) : AssistantRun :=
  { run with
    phase := patch.phase
    continuation := patch.continuation
    budget := { patch.budget with hostCallsUsed := run.budget.hostCallsUsed }
    updatedAt := now }

theorem RunStatePatch.key_apply (patch : RunStatePatch) (now : Time) (run : AssistantRun) :
    Lib.key (patch.apply now run) = Lib.key run := rfl

def updateRunState (s : AssistantRunScope) (patch : RunStatePatch) (now : Time) :
    StoreTxn Unit := do
  let updated ← updateRun s (fun _ => true) (patch.apply now) (patch.key_apply now)
  require updated (.thrown "assistant_run_not_found")

def saveRun (s : AssistantRunScope) (patch : RunStatePatch) (now : Time) : StoreTxn Unit := do
  let _ ← updateRun s (fun _ => true) (patch.apply now) (patch.key_apply now)

def commitStateEvent (s : AssistantRunScope) (patch : RunStatePatch) (payload : RunEventPayload)
    (now : Time) : StoreTxn Nat := do
  updateRunState s patch now
  allocateAndInsertEvent s.scope s.runId payload now

structure SettledItem where
  operationId : OperationId
  actionResultId : Option ResultId

def insertOperationCompleted (s : AssistantRunScope) (item : SettledItem) (now : Time) :
    StoreTxn Unit := do
  match item.actionResultId with
  | none => return ()
  | some actionResultId =>
      let _ ← allocateAndInsertEvent s.scope s.runId
        (.operationCompleted item.operationId actionResultId) now

def completeRunAfterBatchWithEvents (s : AssistantRunScope) (budget : RunBudget)
    (items : List SettledItem) (now : Time) : StoreTxn Unit := do
  items.forM fun item => insertOperationCompleted s item now
  updateRunState s { phase := .completed, continuation := .none, budget } now
  let _ ← allocateAndInsertEvent s.scope s.runId
    (.runCompleted (items.filterMap SettledItem.actionResultId)) now

structure CompletedConfirmation where
  operationId : OperationId
  confirmationId : ConfirmationId
  withClaim : Bool
  actionResultId : Option ResultId

def insertClaimEvents (s : AssistantRunScope) (input : CompletedConfirmation) (now : Time) :
    StoreTxn Unit := do
  if !input.withClaim then return ()
  let _ ← allocateAndInsertEvent s.scope s.runId
    (.operationConfirmed input.operationId input.confirmationId) now
  let _ ← allocateAndInsertEvent s.scope s.runId (.operationStarted input.operationId) now

def completeRunAfterConfirmationWithEvents (s : AssistantRunScope) (budget : RunBudget)
    (input : CompletedConfirmation) (now : Time) : StoreTxn Unit := do
  insertClaimEvents s input now
  insertOperationCompleted s ⟨input.operationId, input.actionResultId⟩ now
  updateRunState s { phase := .completed, continuation := .none, budget } now
  let _ ← allocateAndInsertEvent s.scope s.runId
    (.runCompleted input.actionResultId.toList) now

structure RunEventPage where
  runId : RunId
  events : List RunEvent
  nextAfter : Nat
  hasMore : Bool
  lastSequence : Nat

/-- `SELECT * FROM run_events WHERE` the run's scope. -/
def Db.runEvents (db : Db) (s : AssistantRunScope) : List RunEvent :=
  db.events.rows.filter fun e => e.scope == s.scope && e.runId == s.runId

def Db.getLastSequence (db : Db) (s : AssistantRunScope) : Nat :=
  (db.runEvents s).foldr (fun e last => max e.sequence last) 0

def Db.listEvents (db : Db) (s : AssistantRunScope) (after limit : Nat) :
    Except StoreError RunEventPage :=
  match db.getRun s with
  | none => .error (.thrown "run_not_found")
  | some _ =>
      let rows := (((db.runEvents s).filter fun e => after < e.sequence).insertionSort
        fun a b => a.sequence ≤ b.sequence).take (limit + 1)
      let events := rows.take limit
      .ok {
        runId := s.runId
        events
        nextAfter := (events.getLast?.map RunEvent.sequence).getD after
        hasMore := limit < rows.length
        lastSequence := db.getLastSequence s }

end ClockifyAssistant
