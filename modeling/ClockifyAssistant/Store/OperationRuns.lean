import ClockifyAssistant.Database

/-!
Operation runs and their results: preparation, the unguarded settlement used by
run settlement, the guarded settlement of an executing operation, and the
settlement that startup reconciliation makes from complete host evidence.
-/
namespace ClockifyAssistant

open Lib Txn

def hostCallBudgetMaximum : Nat := 60

/-- A plan whose step ids repeat or whose bounds are off authorizes nothing. -/
def ExternalMutationPlan.valid (plan : ExternalMutationPlan) : Bool :=
  decide (1 ≤ plan.maxHostCalls) && decide (plan.maxHostCalls ≤ hostCallBudgetMaximum) &&
    !plan.steps.isEmpty && decide (plan.steps.length ≤ plan.maxHostCalls) &&
    (plan.mode != .single || plan.steps.length == 1) &&
    plan.steps.all (fun step => !step.id.isEmpty) &&
    decide (plan.steps.map MutationPlanStep.id).Nodup

structure PrepareOperationRunInput where
  id : OperationId
  confirmationId : Option ConfirmationId
  scope : SessionScope
  actionName : String
  actionFingerprint : Hash
  catalogHash : Hash
  operationHash : Hash
  envelope : OperationEnvelope
  discriminator : Discriminator

/-- The four discriminator columns an operation row may carry; an assistant's
operation needs its run in the database. -/
def Discriminator.validOperation (d : Discriminator) (runInScope : Bool) : Bool :=
  (d.registryId == .v1Internal &&
    (d.authorityModel == .legacyV1 || d.authorityModel == .intentCapabilityV1) &&
    d.executorKind == .legacyV1) ||
  (d.origin == .assistant && d.registryId == .v2Api && d.authorityModel == .previewConfirmationV2 &&
    (d.executorKind == .preparedSafeWrite || d.executorKind == .riskyCommit) && runInScope) ||
  (d.origin != .assistant && d.registryId != .v1Internal &&
    d.authorityModel == .trustedDirectV2 && d.executorKind == .directSafeWrite) ||
  (d.origin != .assistant && d.registryId == .v2Local && d.authorityModel == .undoV2 &&
    d.executorKind == .undoCommit && d.sourceUndoId.isSome)

def Db.runInScope (db : Db) (scope : SessionScope) (runId : Option RunId) : Bool :=
  match runId with
  | none => false
  | some runId => (db.runs.get? (scope.sessionId, runId)).any fun r => r.scope = scope

def preparedOperationRun (input : PrepareOperationRunInput) (now : Time) : OperationRun where
  id := input.id
  confirmationId := input.confirmationId
  scope := input.scope
  actionName := input.actionName
  actionFingerprint := input.actionFingerprint
  catalogHash := input.catalogHash
  operationHash := input.operationHash
  status := .prepared
  actionResultId := none
  envelope := some input.envelope
  reconciliation := none
  discriminator := input.discriminator
  batchId := none
  updatedAt := now

def prepareOperationRun (input : PrepareOperationRunInput) (now : Time) :
    StoreTxn OperationId := do
  let db ← get
  require (input.envelope.mutationPlan.all ExternalMutationPlan.valid)
    (.thrown "invalid_mutation_plan")
  require (input.discriminator.validOperation (db.runInScope input.scope input.discriminator.runId))
    (.abort "discriminator_matrix_invalid")
  let row := preparedOperationRun input now
  if h : db.operations.get? (key row) = none then
    set { db with operations := db.operations.insert row h }
    return input.id
  else throw (.unique "operation_runs")

def markOperationExecuting (id : OperationId) (now : Time) : StoreTxn Bool :=
  updateOperationStatus id (fun o => o.status == .prepared) .executing
    OperationRun.actionResultId now

def settleOperationRun (id : OperationId) (status : ActionResultKind)
    (actionResultId : Option ResultId) (now : Time) : StoreTxn Unit := do
  let _ ← updateOperationStatus id (fun _ => true) status.toOperation
    (fun _ => actionResultId) now

structure ActionResultInput where
  operationId : Option OperationId := none
  scope : SessionScope
  actionName : String
  kind : ActionResultKind
  result : CommitResult

def recordActionResult (input : ActionResultInput) (now : Time) : StoreTxn ResultId := do
  let id ← mintId
  insertActionResult {
    id
    operationId := input.operationId
    scope := input.scope
    actionName := input.actionName
    kind := input.kind
    result := input.result
    createdAt := now }
  return id

def OperationStep.unknownPrimary (s : OperationStep) (operationId : OperationId) : Bool :=
  s.operationId == operationId && s.kind == .primary && s.status == .outcomeUnknown

structure ReconciliationResult where
  authoritative : Bool
  reason : String
  operationId : OperationId
  stepId : StepId
  planStepId : String
  strategy : Option ReconciliationStrategy
  actionName : String
  actionFingerprint : Hash
  catalogHash : Hash
  /-- The ids and data of the receipt built from the evidence. -/
  content : Json

def ReconciliationResult.bindsTo (r : ReconciliationResult) (run : OperationRun)
    (step : OperationStep) : Bool :=
  r.authoritative && r.reason == "authoritative_match" && r.operationId == run.id &&
    r.stepId == step.id && r.planStepId == step.planStepId && r.actionName == run.actionName &&
    r.actionFingerprint == run.actionFingerprint && r.catalogHash == run.catalogHash

def ExternalMutationPlan.reconciles (plan : ExternalMutationPlan) (step : OperationStep)
    (r : ReconciliationResult) : Bool :=
  match plan.steps[step.index]? with
  | some descriptor =>
      descriptor.id == step.planStepId && descriptor.kind == .primary &&
        descriptor.reconciliationStrategy == r.strategy
  | none => false

def Db.primarySteps (db : Db) (id : OperationId) : List OperationStep :=
  db.steps.rows.filter fun s => s.operationId == id && s.kind == .primary

def Db.fullyApplied (db : Db) (id : OperationId) (stepId : StepId)
    (plan : ExternalMutationPlan) : Bool :=
  let journal := db.primarySteps id
  (plan.steps.filter fun s => s.kind == .primary).length == journal.length &&
    journal.all fun s =>
      if s.id = stepId then s.status == .outcomeUnknown else s.status == .succeeded

def reconciledResult (actionName : String) (applied : Bool) (content : Json) : CommitResult :=
  let receipt warning := Receipt.success { action := actionName, content, warnings := [warning] }
  if applied then
    .receipt (receipt ("startup_reconciled",
      "The prior unknown mutation was verified from complete Clockify evidence."))
  else
    .partially
      (receipt ("partial",
        "The dispatched step was reconciled, but later planned mutations were not dispatched."))
      "A prior mutation was verified, but the complete mutation plan did not finish."
      "Refresh Clockify and create a fresh preview for any remaining changes."

def reconcileConfirmation (operation : OperationRun) (actionResultId : ResultId)
    (status : ActionResultKind) : StoreTxn Unit := do
  match operation.confirmationId with
  | none => return ()
  | some confirmationId =>
      let _ ← updateConfirmationStatus confirmationId
        (fun c => c.operationId == operation.id && c.status == .outcomeUnknown &&
          c.actionResultId == some actionResultId)
        { status := status.toPending, clearsIdempotencyKey := true }

def settleReconciledResult (run : OperationRun) (status : ActionResultKind)
    (result : CommitResult) (now : Time) : StoreTxn ResultId := do
  match run.actionResultId with
  | none =>
      recordActionResult {
        operationId := some run.id
        scope := run.scope
        actionName := run.actionName
        kind := status
        result } now
  | some actionResultId =>
      let db ← get
      require ((db.results.get? actionResultId).any fun row =>
        row.operationId == some run.id && row.scope == run.scope)
        (.thrown "reconciliation_result_not_found")
      set { db with
        results := db.results.update actionResultId fun row => { row with
          kind := status, result } }
      return actionResultId

def settleReconciled (run : OperationRun) (kind : ActionResultKind) (result : CommitResult)
    (now : Time) : StoreTxn ResultId := do
  let actionResultId ← settleReconciledResult run kind result now
  reconcileConfirmation run actionResultId kind
  let updated ← updateOperationStatus run.id (fun o => o.status == .outcomeUnknown)
    kind.toOperation (fun _ => some actionResultId) now
  require updated (.thrown "reconciliation_operation_not_unknown")
  return actionResultId

/-- `validHash` is the comparison of the stored operation hash with the stored JSON. -/
def settleStartupReconciliation (validHash : OperationRun → Bool) (id : OperationId)
    (stepId : StepId) (r : ReconciliationResult) (now : Time) : StoreTxn ResultId := do
  let db ← get
  let run ← demand (db.operations.get? id) (.thrown "reconciliation_operation_not_found")
  require (run.status = .outcomeUnknown ∧ validHash run)
    (.thrown "reconciliation_operation_not_unknown")
  let step ← demand ((db.steps.get? stepId).filter fun s => s.unknownPrimary id)
    (.thrown "reconciliation_step_not_unknown")
  let plan ← demand (run.envelope.bind OperationEnvelope.mutationPlan)
    (.thrown "reconciliation_plan_drift")
  require (plan.valid && plan.reconciles step r) (.thrown "reconciliation_plan_drift")
  require (r.bindsTo run step) (.thrown "authoritative_reconciliation_required")
  let applied := db.fullyApplied id stepId plan
  let status : ActionResultKind := if applied then .succeeded else .partially
  modify fun db => { db with
    steps := db.steps.update stepId fun s => { s with
      status := .succeeded, settledAt := some now } }
  let actionResultId ← settleReconciled run status
    (reconciledResult run.actionName applied r.content) now
  modify fun db => { db with
    operations := db.operations.update id fun o => { o with
      reconciliation := some { stepId, authoritative := true } } }
  return actionResultId

end ClockifyAssistant
