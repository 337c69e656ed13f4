import ClockifyAssistant.Lib.Session
import ClockifyAssistant.Rest.MutationPlanScope
import ClockifyAssistant.Store.OperationSteps

/-!
The journaled mutation workflow. Every call of the journal commits on its own
or throws, so what a step wrote stays when a later call throws. What the host
answers to a step's dispatch, and which journal calls throw, is part of the
step.
-/
namespace ClockifyAssistant

open Lib

structure JournalFaults where
  prepare : Bool := false
  markExecuting : Bool := false
  cancel : Bool := false
  settle : Bool := false
  degraded : Bool := false
  deriving DecidableEq

structure StepDispatch where
  /-- When the hook at the host boundary marked the row, if it did. -/
  dispatchedAt : Option Time
  outcome : Except HostError Unit
  faults : JournalFaults := {}
  now : Time
  deriving DecidableEq

structure ExecutableMutationStep where
  id : String
  index : Nat
  kind : StepKind
  targetFingerprint : Option Hash := none
  /-- The evidence for the prepared row, or why it cannot be stored exactly. -/
  preparedDetail : Option (Except String Json) := none
  dispatch : StepDispatch
  deriving DecidableEq

/-- A step as the workflow sees it. `control` is the error its detail names at top level:
evidence stored before the dispatch wraps the dispatch's own detail. -/
structure JournaledMutationStep where
  planStepId : String
  index : Nat
  status : StepStatus
  journalDegraded : Bool
  control : Option HostError
  deriving DecidableEq

inductive WorkflowError
  | thrown (message : String)
  | journalFault
  | store (e : StoreError)

structure WorkflowState where
  db : Db
  dispatched : List ExecutableMutationStep

abbrev JournalSession := Session WorkflowState WorkflowError

def ensure (c : Prop) [Decidable c] (message : String) : JournalSession Unit :=
  if c then pure () else throw (.thrown message)

def journaled {α : Type} (fault : Bool) (m : StoreTxn α) : JournalSession α := do
  if fault then throw .journalFault
  let s ← get
  set { s with db := (m.commit s.db).2 }
  match (m.commit s.db).1 with
  | .ok a => return a
  | .error e => throw (.store e)

def findStep (operationId : OperationId) (stepId : StepId) :
    JournalSession (Option OperationStep) := do
  let s ← get
  return (s.db.steps.get? stepId).filter fun row => row.operationId == operationId

def operationStatus (operationId : OperationId) : JournalSession (Option OperationRunStatus) := do
  let s ← get
  return (s.db.operations.get? operationId).map OperationRun.status

def HostError.definitive : HostError → Bool
  | .definitiveWrite _ | .dispatchDenied _ | .planViolation _ | .budgetExceeded
  | .requestCancelled => true
  | .ambiguousWrite _ | .other _ => false

def dispatchStatus : Except HostError Unit → StepOutcome
  | .ok () => .succeeded
  | .error e => if e.definitive then .definitiveFailed else .outcomeUnknown

def ExecutableMutationStep.control (step : ExecutableMutationStep) : Option HostError :=
  match step.preparedDetail, step.dispatch.outcome with
  | none, .error e => some e
  | _, _ => none

def OperationStep.journaledStep (row : OperationStep) (control : Option HostError) :
    JournaledMutationStep where
  planStepId := row.planStepId
  index := row.index
  status := row.status
  journalDegraded := row.journalDegraded
  control := control

def beginJournaledStep (operationId : OperationId) (step : ExecutableMutationStep) :
    JournalSession StepId := do
  let d := step.dispatch
  let stepId ← journaled d.faults.prepare (prepareOperationStep {
    operationId
    index := step.index
    planStepId := step.id
    kind := .primary
    targetFingerprint := step.targetFingerprint })
  let marked ← journaled d.faults.markExecuting
    (markOperationStepExecuting stepId (some operationId) d.now)
  ensure (marked = true) "operation_step_not_prepared"
  let executing ← findStep operationId stepId
  ensure (executing.isSome = true) "operation_step_not_found"
  return stepId

def callDispatch (operationId : OperationId) (stepId : StepId) (step : ExecutableMutationStep) :
    JournalSession Unit :=
  modify fun s => {
    db := match step.dispatch.dispatchedAt with
      | none => s.db
      | some t => ((markOperationStepDispatched stepId (some operationId) t).commit s.db).2
    dispatched := s.dispatched ++ [step] }

def foundStep (operationId : OperationId) (stepId : StepId) (control : Option HostError) :
    JournalSession JournaledMutationStep := do
  match ← findStep operationId stepId with
  | some row => return row.journaledStep control
  | none => throw (.thrown "operation_step_not_found")

def settleDispatchedStep (operationId : OperationId) (stepId : StepId)
    (step : ExecutableMutationStep) (status : StepOutcome) : JournalSession JournaledMutationStep := do
  let d := step.dispatch
  let settled ← tryCatch
    (do
      journaled d.faults.settle (settleOperationStep stepId status (some operationId) false d.now)
      return true)
    fun _ => return false
  if settled then foundStep operationId stepId step.control
  else
    let degraded ← tryCatch
      (do
        journaled d.faults.degraded
          (settleOperationStep stepId status (some operationId) true d.now)
        findStep operationId stepId)
      fun _ => return none
    match degraded with
    | some row => return row.journaledStep none
    | none => return {
        planStepId := step.id
        index := step.index
        status := status.toStatus
        journalDegraded := true
        control := none }

/-- The step after its dispatch: a cancellation is definitive only while the row proves
that nothing was dispatched. -/
def concludeStep (operationId : OperationId) (stepId : StepId) (step : ExecutableMutationStep) :
    JournalSession JournaledMutationStep := do
  let d := step.dispatch
  if d.outcome = .error .requestCancelled then
    let cancelled ← journaled d.faults.cancel
      (cancelOperationStepBeforeDispatch stepId (some operationId) d.now)
    if cancelled then foundStep operationId stepId step.control
    else settleDispatchedStep operationId stepId step .outcomeUnknown
  else settleDispatchedStep operationId stepId step (dispatchStatus d.outcome)

def executeStep (journal operationId : OperationId) (step : ExecutableMutationStep) :
    JournalSession JournaledMutationStep := do
  ensure (step.kind = .primary) "compensation_requires_dedicated_executor"
  ensure (journal = operationId) "operation_journal_scope_mismatch"
  let status ← operationStatus operationId
  ensure (status = some .executing) "operation_not_executing"
  match step.preparedDetail with
  | some (.error message) => throw (.thrown message)
  | _ =>
      let stepId ← beginJournaledStep operationId step
      callDispatch operationId stepId step
      concludeStep operationId stepId step

inductive WorkflowReport
  | success (completed : List JournaledMutationStep) (degradedWarning : Bool)
  | partially (completed : List JournaledMutationStep) (failed : JournaledMutationStep)
  | journalDegraded (completed : List JournaledMutationStep) (degraded : JournaledMutationStep)
  | outcomeUnknown
  | denied (denial : DispatchDenial)
  | planViolation
  | failure (failed : JournaledMutationStep)
  deriving DecidableEq

def definitiveReport (completed : List JournaledMutationStep) (result : JournaledMutationStep) :
    WorkflowReport :=
  if completed.isEmpty then
    match result.control with
    | some (.dispatchDenied denial) => .denied denial
    | some (.planViolation _) => .planViolation
    | _ => .failure result
  else .partially completed result

def runPrimarySteps (journal operationId : OperationId) (primaryStepCount : Nat) :
    List ExecutableMutationStep → List JournaledMutationStep → JournalSession WorkflowReport
  | [], completed => return .success completed false
  | step :: rest, completed => do
      if step.kind ≠ .primary then
        runPrimarySteps journal operationId primaryStepCount rest completed
      else
        let result ← executeStep journal operationId step
        if result.status = .succeeded then
          if result.journalDegraded then
            if primaryStepCount = 1 then return .success [result] true
            else return .journalDegraded (completed ++ [result]) result
          else
            runPrimarySteps journal operationId primaryStepCount rest (completed ++ [result])
        else if result.status = .outcomeUnknown then return .outcomeUnknown
        else return definitiveReport completed result

def executeMutationWorkflow (journal operationId : OperationId)
    (steps : List ExecutableMutationStep) : JournalSession WorkflowReport := do
  ensure (journal = operationId) "operation_journal_scope_mismatch"
  let status ← operationStatus operationId
  ensure (status = some .executing) "operation_not_executing"
  let primaryStepCount := (steps.filter fun step => step.kind == .primary).length
  runPrimarySteps journal operationId primaryStepCount steps []

end ClockifyAssistant
