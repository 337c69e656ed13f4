import ClockifyAssistant.Harness.MutationWorkflow

/-!
The parts of a commit that sends several mutations: one durable step at a time, each with the
verification and the reconciliation that its dispatch makes, the compensation of a step, and
the result that the commit reports.
-/
namespace ClockifyAssistant

open Lib

namespace Composite

structure EntityRef where
  type : String
  id : String
  name : Option String := none
  deriving DecidableEq

structure ChangeSet where
  created : List EntityRef := []
  updated : List EntityRef := []
  deleted : List EntityRef := []
  deriving DecidableEq

structure ChangeReceipt where
  action : String
  entity : String
  changed : ChangeSet
  warnings : List (String × String) := []
  deriving DecidableEq

inductive CommitResult
  | success (receipt : ChangeReceipt)
  | partially (receipt : ChangeReceipt) (message hint : String)
  | error (receipt : ErrorReceipt)
  deriving DecidableEq

def CommitResult.kind : CommitResult → ActionResultKind
  | success _ => .succeeded
  | partially _ _ _ => .partially
  | error e => if e.code = "commit_outcome_unknown" then .outcomeUnknown else .definitiveFailed

def CommitResult.named : CommitResult → List EntityRef
  | success r => r.changed.created ++ r.changed.updated ++ r.changed.deleted
  | partially r _ _ => r.changed.created ++ r.changed.updated ++ r.changed.deleted
  | error _ => []

inductive SentFailure
  | rejected (status : Option Nat)
  | ambiguous (status : Option Nat)
  | other (message : String)
  deriving DecidableEq

def SentFailure.error : SentFailure → HostError
  | rejected status => .definitiveWrite status
  | ambiguous status => .ambiguousWrite status
  | other message => .other message

/-- What a mutation comes to: it is stopped before it leaves, or the host answers. The abort
signal no longer stops a mutation that has left. -/
inductive HostAnswer (α : Type)
  | refused (e : HostError)
  | sent (dispatchedAt : Time) (answer : Except SentFailure α)

def HostAnswer.dispatchedAt {α : Type} : HostAnswer α → Option Time
  | refused _ => none
  | sent t _ => some t

def HostAnswer.value {α : Type} : HostAnswer α → Except HostError α
  | refused e => .error e
  | sent _ (.ok a) => .ok a
  | sent _ (.error e) => .error e.error

/-- An ambiguous response counts as a success when a reading proves it, and says so. -/
def dispatchWithReconciliation {α : Type} (answer : Except HostError α) (reconcile : Option α) :
    Except HostError (α × Bool) :=
  match answer with
  | .ok a => .ok (a, false)
  | .error (.ambiguousWrite status) =>
      match reconcile with
      | some a => .ok (a, true)
      | none => .error (.ambiguousWrite status)
  | .error e => .error e

structure StepHost (α : Type) where
  /-- The code with which `verifyTargetSnapshots` stops the dispatch. -/
  stale : Option String := none
  answer : HostAnswer α
  /-- What the readings after an ambiguous response prove; one that fails proves nothing. -/
  reconcile : Option α := none
  preparedDetail : Option (Except String Json) := none
  faults : JournalFaults := {}
  now : Time := 0

namespace StepHost

variable {α : Type} (h : StepHost α)

def result : Except HostError (α × Bool) :=
  match h.stale with
  | some _ => .error (.definitiveWrite none)
  | none => dispatchWithReconciliation h.answer.value h.reconcile

def value : Option α :=
  match h.result with
  | .ok (a, _) => some a
  | .error _ => none

def reconciled : Bool :=
  match h.result with
  | .ok (_, reconciled) => reconciled
  | .error _ => false

def dispatch : StepDispatch where
  dispatchedAt := if h.stale.isSome then none else h.answer.dispatchedAt
  outcome := h.result.map fun _ => ()
  faults := h.faults
  now := h.now

end StepHost

structure Operation where
  operationId : OperationId
  /-- The operation that the journal of the context writes for. -/
  journal : OperationId
  actionName : String
  plan : List MutationPlanStep
  deriving DecidableEq

def Operation.plannedPrimary (operation : Operation) (planStepId : String) (index : Nat) :
    Option MutationPlanStep :=
  operation.plan[index]?.filter fun step => step.id == planStepId && step.kind == .primary

def primaryStep {α : Type} (planStepId : String) (index : Nat)
    (targetFingerprint : Option Hash) (h : StepHost α) : ExecutableMutationStep where
  id := planStepId
  index := index
  kind := .primary
  targetFingerprint := targetFingerprint
  preparedDetail := h.preparedDetail
  dispatch := h.dispatch

def executeDurableRiskyStep {α : Type} (operation : Operation) (planStepId : String)
    (index : Nat) (h : StepHost α) : JournalSession JournaledMutationStep :=
  match operation.plannedPrimary planStepId index with
  | none => throw (.thrown "invalid_mutation_plan")
  | some planStep =>
      executeStep operation.journal operation.operationId
        (primaryStep planStepId index planStep.targetFingerprint h)

def executeVerifiedMutationStep {α : Type} (operation : Operation) (planStepId : String)
    (index : Nat) (h : StepHost α) : JournalSession JournaledMutationStep :=
  executeStep operation.journal operation.operationId
    (primaryStep planStepId index (operation.plan[index]?.bind MutationPlanStep.targetFingerprint) h)

def readHost {α : Type} : Except String α → JournalSession α
  | .ok a => return a
  | .error message => throw (.thrown message)

def compensationStatus : Except HostError Unit → CompensationOutcome
  | .ok () => .compensated
  | .error e => if e.definitive then .compensationFailed else .outcomeUnknown

def journaledRow (operationId : OperationId) (planStepId : String) : JournalSession StepId := do
  let s ← get
  match s.db.steps.rows.find? fun row =>
      row.operationId == operationId && row.planStepId == planStepId && row.kind == .primary with
  | some row => return row.id
  | none => throw (.thrown "operation_step_not_found")

def beginCompensation (operationId : OperationId) (sourceId : StepId)
    (step : ExecutableMutationStep) : JournalSession StepId := do
  let d := step.dispatch
  let stepId ← journaled d.faults.prepare (prepareCompensationStep {
    operationId
    index := step.index
    planStepId := step.id
    kind := .compensation
    targetFingerprint := step.targetFingerprint } sourceId)
  let marked ← journaled d.faults.markExecuting
    (markOperationStepCompensating stepId (some operationId) d.now)
  ensure (marked = true) "compensation_step_not_prepared"
  let executing ← findStep operationId stepId
  ensure (executing.isSome = true) "compensation_step_not_found"
  return stepId

def settleCompensation (operationId : OperationId) (stepId : StepId)
    (step : ExecutableMutationStep) : JournalSession StepStatus := do
  let d := step.dispatch
  let status := compensationStatus d.outcome
  let settled ← tryCatch
    (do
      journaled d.faults.settle (settleCompensationStep stepId status (some operationId) false d.now)
      return true)
    fun _ => return false
  if settled then return (← foundStep operationId stepId none).status
  else
    tryCatch
      (journaled d.faults.degraded
        (settleCompensationStep stepId status (some operationId) true d.now))
      fun _ => return ()
    return status.toStatus

def executeCompensationStep (operation : Operation) (sourceId : StepId)
    (step : ExecutableMutationStep) : JournalSession StepStatus := do
  ensure (operation.journal = operation.operationId) "operation_journal_scope_mismatch"
  let stepId ← beginCompensation operation.operationId sourceId step
  callDispatch operation.operationId stepId step
  settleCompensation operation.operationId stepId step

end Composite

end ClockifyAssistant
