import ClockifyAssistant.Store.OperationRuns

/-!
The step journal of an operation. A primary step is journaled before its host
call, marked dispatched at the call, and settled once; a compensation is paired
with the succeeded step it reverses. A step function that names an operation
touches only that operation's rows.
-/
namespace ClockifyAssistant

open Lib Txn

/-- `AND (? IS NULL OR operation_id = ?)` -/
def OperationStep.ownedBy (s : OperationStep) (operationId : Option OperationId) : Bool :=
  operationId.all fun id => s.operationId == id

/-- `INSERT INTO operation_steps`, under its two unique pairs and its foreign keys. -/
def insertStep (step : OperationStep) : StoreTxn Unit := do
  let db ← get
  require (db.steps.rows.all fun s => !(s.operationId == step.operationId &&
      (s.index == step.index || s.planStepId == step.planStepId))) (.unique "operation_steps")
  require ((db.operations.get? step.operationId).isSome &&
      step.compensatesStepId.all fun id => (db.steps.get? id).isSome)
    (.foreignKey "operation_steps")
  if h : db.steps.get? (key step) = none then
    set { db with steps := db.steps.insert step h }
  else throw (.unique "operation_steps")

/-- `UPDATE operation_steps SET … WHERE id = ? AND …`; returns whether a row changed. -/
def updateStep (id : StepId) (p : OperationStep → Bool) (f : OperationStep → OperationStep)
    (hf : ∀ s, key (f s) = key s := by intro s; rfl) : StoreTxn Bool := do
  let db ← get
  if !(db.steps.get? id).any p then return false
  set { db with steps := db.steps.update id f hf }
  return true

structure PrepareOperationStepInput where
  operationId : OperationId
  index : Nat
  planStepId : String
  kind : StepKind
  targetFingerprint : Option Hash := none
  compensatesStepId : Option StepId := none

def preparedStep (id : StepId) (input : PrepareOperationStepInput) : OperationStep where
  id := id
  operationId := input.operationId
  index := input.index
  planStepId := input.planStepId
  kind := input.kind
  status := .prepared
  targetFingerprint := input.targetFingerprint
  queuedAt := none
  dispatchedAt := none
  settledAt := none
  compensatesStepId := input.compensatesStepId
  journalDegraded := false

def prepareOperationStep (input : PrepareOperationStepInput) : StoreTxn StepId := do
  require (input.kind = .primary) (.thrown "compensation_requires_eligibility")
  let id ← mintId
  insertStep (preparedStep id input)
  return id

def markOperationStepExecuting (id : StepId) (operationId : Option OperationId) (now : Time) :
    StoreTxn Bool := do
  let db ← get
  updateStep id
    (fun s => s.ownedBy operationId && s.status == .prepared && s.kind == .primary &&
      (db.operations.get? s.operationId).any fun o => o.status == .executing)
    fun s => { s with status := .executing, queuedAt := some now }

def markOperationStepDispatched (id : StepId) (operationId : Option OperationId) (now : Time) :
    StoreTxn Bool :=
  updateStep id (fun s => s.ownedBy operationId && s.status == .executing && s.dispatchedAt.isNone)
    fun s => { s with dispatchedAt := some now }

def cancelOperationStepBeforeDispatch (id : StepId) (operationId : Option OperationId)
    (now : Time) : StoreTxn Bool :=
  updateStep id (fun s => s.ownedBy operationId && s.status == .executing && s.dispatchedAt.isNone)
    fun s => { s with status := .definitiveFailed, settledAt := some now }

inductive StepOutcome
  | succeeded | definitiveFailed | outcomeUnknown
  deriving DecidableEq

def StepOutcome.toStatus : StepOutcome → StepStatus
  | .succeeded => .succeeded
  | .definitiveFailed => .definitiveFailed
  | .outcomeUnknown => .outcomeUnknown

/-- `settleOperationStep`, and `settleOperationStepDegraded` when the full effect
could not be persisted. -/
def settleOperationStep (id : StepId) (status : StepOutcome) (operationId : Option OperationId)
    (degraded : Bool) (now : Time) : StoreTxn Unit := do
  let updated ← updateStep id
    (fun s => s.ownedBy operationId && s.status == .executing && s.kind == .primary)
    fun s => { s with
      status := status.toStatus, settledAt := some now
      journalDegraded := s.journalDegraded || degraded }
  require updated (.thrown "operation_step_not_executing")

def settleReconciledStep (id : StepId) (applied : Bool) (operationId : Option OperationId)
    (now : Time) : StoreTxn Unit := do
  let db ← get
  let reconciled := (db.steps.get? id).any fun s =>
    s.ownedBy operationId && s.status == .outcomeUnknown &&
      (db.operations.get? s.operationId).any fun o =>
        o.reconciliation == some { stepId := id, authoritative := true }
  require reconciled (.thrown "authoritative_reconciliation_required")
  let updated ← updateStep id (fun s => s.status == .outcomeUnknown && s.kind == .primary)
    fun s => { s with
      status := if applied then .succeeded else .definitiveFailed, settledAt := some now }
  require updated (.thrown "operation_step_not_unknown")

def ExternalMutationPlan.describes (plan : ExternalMutationPlan) (index : Nat)
    (planStepId : String) (targetFingerprint : Option Hash) (kind : StepKind) : Bool :=
  match plan.steps[index]? with
  | some descriptor =>
      descriptor.id == planStepId && descriptor.kind == kind &&
        (descriptor.targetFingerprint.isNone || descriptor.targetFingerprint == targetFingerprint)
  | none => false

def ExternalMutationPlan.matchesStep (plan : ExternalMutationPlan) (s : OperationStep)
    (kind : StepKind) : Bool :=
  plan.describes s.index s.planStepId s.targetFingerprint kind && s.kind == kind

/-- When a primary step may be compensated: its plan binds both steps, the
compensation is fresh, and the step's success is settled or a later step failed. -/
def Db.compensationEligible (db : Db) (input : PrepareOperationStepInput) (sourceId : StepId)
    (source : OperationStep) (operation : OperationRun) : Bool :=
  let plan := (operation.envelope.bind OperationEnvelope.mutationPlan).filter
    ExternalMutationPlan.valid
  plan.any fun plan =>
    let siblings := db.steps.rows.filter fun s => s.operationId == source.operationId
    let alreadyUsed := siblings.any fun s =>
      s.index == input.index || s.planStepId == input.planStepId ||
        (s.kind == .compensation && s.compensatesStepId == some sourceId)
    let laterDefinitiveFailure := operation.status == .executing &&
      siblings.any fun s => decide (source.index < s.index) && s.status == .definitiveFailed &&
        plan.matchesStep s .primary
    plan.matchesStep source .primary &&
      plan.describes input.index input.planStepId input.targetFingerprint .compensation &&
      !alreadyUsed && source.status == .succeeded &&
      (operation.status == .definitiveFailed ||
        operation.reconciliation == some { stepId := sourceId, authoritative := true } ||
        laterDefinitiveFailure)

def prepareCompensationStep (input : PrepareOperationStepInput) (sourceId : StepId) :
    StoreTxn StepId := do
  let db ← get
  let source := (db.steps.get? sourceId).filter fun s =>
    s.operationId == input.operationId && s.kind == .primary
  let eligible := source.any fun source =>
    (db.operations.get? source.operationId).any fun operation =>
      db.compensationEligible input sourceId source operation
  require eligible (.thrown "compensation_not_eligible")
  let id ← mintId
  insertStep (preparedStep id
    { input with kind := .compensation, compensatesStepId := some sourceId })
  return id

def Db.compensatedStep (db : Db) (id : StepId) (operationId : Option OperationId)
    (status : StepStatus) : Option StepId :=
  ((db.steps.get? id).filter fun s =>
    s.ownedBy operationId && s.status == status && s.kind == .compensation).bind
      OperationStep.compensatesStepId

def markOperationStepCompensating (id : StepId) (operationId : Option OperationId)
    (now : Time) : StoreTxn Bool := do
  let db ← get
  match db.compensatedStep id operationId .prepared with
  | none => return false
  | some sourceId =>
      let compensation ← updateStep id
        (fun s => s.status == .prepared && s.kind == .compensation)
        fun s => { s with status := .executing, queuedAt := some now }
      let source ← updateStep sourceId (fun s => s.status == .succeeded && s.kind == .primary)
        fun s => { s with status := .compensating }
      require (compensation && source) (.thrown "compensation_step_not_prepared")
      return true

inductive CompensationOutcome
  | compensated | compensationFailed | outcomeUnknown
  deriving DecidableEq

def CompensationOutcome.toStatus : CompensationOutcome → StepStatus
  | .compensated => .compensated
  | .compensationFailed => .compensationFailed
  | .outcomeUnknown => .outcomeUnknown

/-- `settleCompensationStep` and `settleCompensationStepDegraded`: only a successful
compensation changes what is known about the step it reverses. -/
def settleCompensationStep (id : StepId) (status : CompensationOutcome)
    (operationId : Option OperationId) (degraded : Bool) (now : Time) : StoreTxn Unit := do
  let db ← get
  let sourceId ← demand (db.compensatedStep id operationId .executing)
    (.thrown "compensation_step_not_executing")
  let updated ← updateStep id (fun s => s.status == .executing && s.kind == .compensation)
    fun s => { s with
      status := status.toStatus, settledAt := some now
      journalDegraded := s.journalDegraded || degraded }
  require updated (.thrown "compensation_step_not_executing")
  let source ← updateStep sourceId (fun s => s.status == .compensating)
    fun s => { s with
      status := if status = .compensated then .compensated else .succeeded
      settledAt := if status = .compensated then some now else s.settledAt }
  require source (.thrown "compensation_source_not_executing")

end ClockifyAssistant
