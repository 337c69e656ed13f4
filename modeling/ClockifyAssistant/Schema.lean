import ClockifyAssistant.Lib.Table

/-!
The rows of the assistant's database and the values they hold.
Identifiers minted by the store are drawn from one counter. Timestamps are
milliseconds. A JSON column whose content no modelled function reads is an
opaque token; a column that is scrubbed to `NULL`, `{}` or the empty string is
an option that becomes `none`.
-/
namespace ClockifyAssistant

open Lib

abbrev Time := Nat
abbrev SessionId := Nat
abbrev WorkspaceId := Nat
abbrev AdminUserId := Nat
abbrev RunId := Nat
abbrev RequestId := Nat
abbrev ConfirmationId := Nat
abbrev OperationId := Nat
abbrev StepId := Nat
abbrev ResultId := Nat
abbrev BatchId := Nat
abbrev UndoId := Nat
abbrev LedgerKey := Nat
abbrev Hash := Nat
abbrev Json := Nat

def maxSafeInteger : Nat := 9007199254740991

inductive FeatureGroup
  | timeTracking | workStructure | reports | invoices | expenses | usersGroups
  | timeOffApprovals | scheduling | webhooks | workspaceSettings | customFields
  | approvals | auditLog
  deriving DecidableEq

inductive RiskLabel
  | read | safeWrite | highRiskWrite | destructive | billing | payment
  | permissionChange | externalSideEffect | bulk
  deriving DecidableEq

inductive ActionOrigin
  | assistant | directUi | system | liveTest
  deriving DecidableEq

inductive RegistryId
  | v1Internal | v2Api | v2Local
  deriving DecidableEq

inductive AuthorityModel
  | legacyV1 | intentCapabilityV1 | previewConfirmationV2 | trustedDirectV2 | undoV2
  deriving DecidableEq

inductive ExecutorKind
  | legacyV1 | preparedSafeWrite | riskyCommit | directSafeWrite | undoCommit
  deriving DecidableEq

inductive PendingStatus
  | pending | executing | succeeded | partially | definitiveFailed | outcomeUnknown
  | cancelled | expired
  deriving DecidableEq

inductive OperationRunStatus
  | prepared | executing | succeeded | partially | definitiveFailed | outcomeUnknown
  deriving DecidableEq

inductive ActionResultKind
  | succeeded | partially | definitiveFailed | outcomeUnknown
  deriving DecidableEq

inductive StepStatus
  | prepared | executing | succeeded | definitiveFailed | outcomeUnknown
  | compensating | compensated | compensationFailed | skipped
  deriving DecidableEq

inductive StepKind
  | primary | compensation
  deriving DecidableEq

inductive PlanMode
  | single | curated | batch
  deriving DecidableEq

inductive ReconciliationStrategy
  | create | update | delete | stateCommand | composed
  deriving DecidableEq

inductive ConfirmationBatchStatus
  | pending | executing | succeeded | partially | definitiveFailed | outcomeUnknown
  | cancelled | expired
  deriving DecidableEq

inductive ConfirmationBatchItemStatus
  | pending | executing | succeeded | definitiveFailed | outcomeUnknown | cancelled
  deriving DecidableEq

inductive UndoStatus
  | available | executing | partiallyUndone | undone | failed | outcomeUnknown | expired
  deriving DecidableEq

inductive TurnStatus
  | prepared | executing | succeeded | failed | outcomeUnknown
  deriving DecidableEq

inductive RunPhase
  | model | discovering | executingReads | preparingWrites
  | awaitingConfirmation | awaitingClarification | completed | failed
  deriving DecidableEq

def ActionResultKind.toOperation : ActionResultKind → OperationRunStatus
  | .succeeded => .succeeded
  | .partially => .partially
  | .definitiveFailed => .definitiveFailed
  | .outcomeUnknown => .outcomeUnknown

def ActionResultKind.toPending : ActionResultKind → PendingStatus
  | .succeeded => .succeeded
  | .partially => .partially
  | .definitiveFailed => .definitiveFailed
  | .outcomeUnknown => .outcomeUnknown

/-- `partial` is stored as `succeeded` on a batch item. -/
def ActionResultKind.toItem : ActionResultKind → ConfirmationBatchItemStatus
  | .succeeded => .succeeded
  | .partially => .succeeded
  | .definitiveFailed => .definitiveFailed
  | .outcomeUnknown => .outcomeUnknown

@[simp] theorem ActionResultKind.toPending_ne_pending (kind : ActionResultKind) :
    kind.toPending ≠ .pending := by
  cases kind <;> simp [toPending]

@[simp] theorem ActionResultKind.toPending_ne_executing (kind : ActionResultKind) :
    kind.toPending ≠ .executing := by
  cases kind <;> simp [toPending]

@[simp] theorem ActionResultKind.toPending_ne_cancelled (kind : ActionResultKind) :
    kind.toPending ≠ .cancelled := by
  cases kind <;> simp [toPending]

@[simp] theorem ActionResultKind.toPending_ne_expired (kind : ActionResultKind) :
    kind.toPending ≠ .expired := by
  cases kind <;> simp [toPending]

@[simp] theorem ActionResultKind.toOperation_ne_prepared (kind : ActionResultKind) :
    kind.toOperation ≠ .prepared := by
  cases kind <;> simp [toOperation]

@[simp] theorem ActionResultKind.toOperation_ne_executing (kind : ActionResultKind) :
    kind.toOperation ≠ .executing := by
  cases kind <;> simp [toOperation]

structure SessionScope where
  sessionId : SessionId
  workspaceId : WorkspaceId
  adminUserId : AdminUserId
  deriving DecidableEq

structure SuccessReceipt where
  action : String
  content : Json
  warnings : List (String × String) := []
  deriving DecidableEq

structure ErrorReceipt where
  action : String
  code : String
  message : String
  hint : Option String := none
  retryable : Option Bool := none
  deriving DecidableEq

inductive Receipt
  | success (receipt : SuccessReceipt)
  | error (receipt : ErrorReceipt)
  deriving DecidableEq

inductive CommitResult
  | receipt (receipt : Receipt)
  | partially (receipt : Receipt) (message : String) (hint : String)
  deriving DecidableEq

structure MutationPlanStep where
  id : String
  kind : StepKind
  targetFingerprint : Option Hash := none
  reconciliationStrategy : Option ReconciliationStrategy := none
  deriving DecidableEq

structure ExternalMutationPlan where
  mode : PlanMode
  maxHostCalls : Nat
  steps : List MutationPlanStep
  deriving DecidableEq

structure ConfirmableOperation where
  operationId : OperationId
  actionName : String
  installationGeneration : Option Nat
  featureGroup : FeatureGroup
  risks : List RiskLabel
  payload : Json
  mutationPlan : Option ExternalMutationPlan
  deriving DecidableEq

structure Discriminator where
  origin : ActionOrigin
  registryId : RegistryId
  authorityModel : AuthorityModel
  executorKind : ExecutorKind
  runId : Option RunId
  sourceUndoId : Option UndoId := none
  deriving DecidableEq

structure PendingConfirmation where
  id : ConfirmationId
  operationId : OperationId
  scope : SessionScope
  status : PendingStatus
  risk : List RiskLabel
  preview : Option Json
  operation : Option ConfirmableOperation
  operationHash : Hash
  targetFingerprints : List Hash
  actionFingerprint : Hash
  catalogHash : Hash
  capabilityId : Option Nat
  nonceHash : Option Hash
  expiresAt : Time
  createdAt : Time
  usedAt : Option Time
  actionResultId : Option ResultId
  idempotencyKey : Option LedgerKey
  agentState : Option Json
  installationGeneration : Option Nat
  discriminator : Discriminator
  batchId : Option BatchId
  deriving DecidableEq

/-- The JSON of `operation_runs.operation_json`; `{}` is `none` in the row. -/
structure OperationEnvelope where
  undoId : Option UndoId
  mutationPlan : Option ExternalMutationPlan
  deriving DecidableEq

structure OperationReconciliation where
  stepId : StepId
  authoritative : Bool
  deriving DecidableEq

structure OperationRun where
  id : OperationId
  confirmationId : Option ConfirmationId
  scope : SessionScope
  actionName : String
  actionFingerprint : Hash
  catalogHash : Hash
  operationHash : Hash
  status : OperationRunStatus
  actionResultId : Option ResultId
  envelope : Option OperationEnvelope
  reconciliation : Option OperationReconciliation
  discriminator : Discriminator
  batchId : Option BatchId
  updatedAt : Time
  deriving DecidableEq

structure OperationStep where
  id : StepId
  operationId : OperationId
  index : Nat
  planStepId : String
  kind : StepKind
  status : StepStatus
  targetFingerprint : Option Hash
  queuedAt : Option Time
  dispatchedAt : Option Time
  settledAt : Option Time
  compensatesStepId : Option StepId
  journalDegraded : Bool
  deriving DecidableEq

structure ActionResult where
  id : ResultId
  operationId : Option OperationId
  scope : SessionScope
  actionName : String
  kind : ActionResultKind
  result : CommitResult
  createdAt : Time
  deriving DecidableEq

structure UndoRecord where
  id : UndoId
  scope : SessionScope
  status : UndoStatus
  reversal : Option Json
  remaining : Option Json
  createdAt : Time
  expiresAt : Time
  undoneAt : Option Time
  actionResultId : Option ResultId
  deriving DecidableEq

structure ConfirmationBatch where
  id : BatchId
  scope : SessionScope
  runId : RunId
  orderedTupleHash : Hash
  status : ConfirmationBatchStatus
  currentIndex : Nat
  expiresAt : Time
  createdAt : Time
  startedAt : Option Time
  completedAt : Option Time
  deriving DecidableEq

structure ConfirmationBatchItem where
  batchId : BatchId
  itemIndex : Nat
  scope : SessionScope
  runId : RunId
  confirmationId : ConfirmationId
  operationId : OperationId
  status : ConfirmationBatchItemStatus
  actionResultId : Option ResultId
  startedAt : Option Time
  completedAt : Option Time
  deriving DecidableEq

structure TurnRun where
  scope : SessionScope
  requestId : RequestId
  status : TurnStatus
  updatedAt : Time
  deriving DecidableEq

structure RunBudget where
  hostCallsUsed : Nat
  hostCallsReserved : Nat
  deriving DecidableEq

inductive RunContinuation
  | none
  | awaitingOperations (operationIds : List OperationId) (batchId : Option BatchId)
  | awaitingClarification (clarificationId : Nat)
  deriving DecidableEq

structure AssistantRun where
  scope : SessionScope
  runId : RunId
  installationGeneration : Nat
  phase : RunPhase
  continuation : RunContinuation
  budget : RunBudget
  updatedAt : Time
  deriving DecidableEq

inductive RunEventPayload
  | runStarted
  | operationPrepared (operationId : OperationId) (confirmationId : ConfirmationId)
  | operationConfirmed (operationId : OperationId) (confirmationId : ConfirmationId)
  | operationStarted (operationId : OperationId)
  | operationCompleted (operationId : OperationId) (actionResultId : ResultId)
  | runSuspended
  | runCompleted (actionResultIds : List ResultId)
  | runFailed (code : String)
  | progress (eventType : Nat)
  deriving DecidableEq

structure RunEvent where
  scope : SessionScope
  runId : RunId
  sequence : Nat
  payload : RunEventPayload
  createdAt : Time
  deriving DecidableEq

structure IdempotencyRow where
  ledgerKey : LedgerKey
  workspaceId : WorkspaceId
  adminUserId : AdminUserId
  actionResultId : Option ResultId
  committedAt : Option Time
  claimedAt : Time
  deriving DecidableEq

instance : Keyed PendingConfirmation ConfirmationId := ⟨PendingConfirmation.id⟩
instance : Keyed OperationRun OperationId := ⟨OperationRun.id⟩
instance : Keyed OperationStep StepId := ⟨OperationStep.id⟩
instance : Keyed ActionResult ResultId := ⟨ActionResult.id⟩
instance : Keyed UndoRecord UndoId := ⟨UndoRecord.id⟩
instance : Keyed ConfirmationBatch BatchId := ⟨ConfirmationBatch.id⟩
instance : Keyed ConfirmationBatchItem (BatchId × Nat) :=
  ⟨fun item => (item.batchId, item.itemIndex)⟩
instance : Keyed TurnRun (SessionId × RequestId) :=
  ⟨fun turn => (turn.scope.sessionId, turn.requestId)⟩
instance : Keyed AssistantRun (SessionId × RunId) :=
  ⟨fun run => (run.scope.sessionId, run.runId)⟩
instance : Keyed RunEvent (SessionId × RunId × Nat) :=
  ⟨fun event => (event.scope.sessionId, event.runId, event.sequence)⟩
instance : Keyed IdempotencyRow (LedgerKey × WorkspaceId × AdminUserId) :=
  ⟨fun row => (row.ledgerKey, row.workspaceId, row.adminUserId)⟩

end ClockifyAssistant
