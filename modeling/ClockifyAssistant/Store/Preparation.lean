import ClockifyAssistant.Store.ConfirmationBatches
import ClockifyAssistant.Store.OperationRuns
import ClockifyAssistant.Store.Runs

/-!
Preparation of an assistant's writes: one transaction stores every operation
with its preview, reserves their host calls, opens the batch of a Confirm-all
preview and suspends the run. The ids of a preview are drawn here, where its
rows are written.
-/
namespace ClockifyAssistant

open Lib Txn

/-- What `buildPreparedWriteInput` knows of one write before its ids are drawn. -/
structure PreviewDraft where
  actionName : String
  featureGroup : FeatureGroup
  risks : List RiskLabel
  payload : Json
  preview : Json
  mutationPlan : ExternalMutationPlan
  executorKind : ExecutorKind
  targetFingerprints : List Hash
  actionFingerprint : Hash
  catalogHash : Hash
  operationHash : Hash
  nonceHash : Hash
  createdAt : Time
  expiresAt : Time
  deriving DecidableEq

namespace PreviewDraft

variable (d : PreviewDraft) (s : AssistantRunScope) (member : BatchMember)

def discriminator : Discriminator where
  origin := .assistant
  registryId := .v2Api
  authorityModel := .previewConfirmationV2
  executorKind := d.executorKind
  runId := some s.runId

def operation : ConfirmableOperation where
  operationId := member.operationId
  actionName := d.actionName
  installationGeneration := some s.installationGeneration
  featureGroup := d.featureGroup
  risks := d.risks
  payload := d.payload
  mutationPlan := some d.mutationPlan

def operationRun : PrepareOperationRunInput where
  id := member.operationId
  confirmationId := some member.confirmationId
  scope := s.scope
  actionName := d.actionName
  actionFingerprint := d.actionFingerprint
  catalogHash := d.catalogHash
  operationHash := d.operationHash
  envelope := { undoId := none, mutationPlan := some d.mutationPlan }
  discriminator := d.discriminator s

/-- `createPendingConfirmation` -/
def confirmation : PendingConfirmation where
  id := member.confirmationId
  operationId := member.operationId
  scope := s.scope
  status := .pending
  risk := d.risks
  preview := some d.preview
  operation := some (d.operation s member)
  operationHash := d.operationHash
  targetFingerprints := d.targetFingerprints
  actionFingerprint := d.actionFingerprint
  catalogHash := d.catalogHash
  capabilityId := none
  nonceHash := some d.nonceHash
  expiresAt := d.expiresAt
  createdAt := d.createdAt
  usedAt := none
  actionResultId := none
  idempotencyKey := none
  agentState := none
  installationGeneration := some s.installationGeneration
  discriminator := d.discriminator s
  batchId := none

end PreviewDraft

/-- A draft of one safe write with a single step, for runs on fixed inputs. -/
def PreviewDraft.simple (expiresAt : Time) : PreviewDraft where
  actionName := "clockify_clients_create"
  featureGroup := .workStructure
  risks := [.safeWrite]
  payload := 0
  preview := 0
  mutationPlan := { mode := .single, maxHostCalls := 2, steps := [{ id := "create", kind := .primary }] }
  executorKind := .preparedSafeWrite
  targetFingerprints := []
  actionFingerprint := 0
  catalogHash := 0
  operationHash := 0
  nonceHash := 0
  createdAt := 0
  expiresAt := expiresAt

/-- The row keeps its own count of consumed calls; the reservation is the caller's. -/
def updateBudget (s : AssistantRunScope) (budget : RunBudget) (now : Time) : StoreTxn Unit := do
  let _ ← updateRun s (fun _ => true) fun run => { run with
    budget := { budget with hostCallsUsed := run.budget.hostCallsUsed }
    updatedAt := now }

def suspendRunForConfirmation (s : AssistantRunScope) (continuation : RunContinuation)
    (now : Time) : StoreTxn Unit := do
  let _ ← updateRun s (fun _ => true) fun run => { run with
    phase := .awaitingConfirmation, continuation, updatedAt := now }
  let _ ← allocateAndInsertEvent s.scope s.runId .runSuspended now

def insertPreview (s : AssistantRunScope) (draft : PreviewDraft) (now : Time) :
    StoreTxn BatchMember := do
  let operationId ← mintId
  let confirmationId ← mintId
  let member : BatchMember := ⟨confirmationId, operationId⟩
  let _ ← prepareOperationRun (draft.operationRun s member) now
  savePendingConfirmation (draft.confirmation s member)
  return member

def applyPreparedWrite (s : AssistantRunScope) (budget : RunBudget) (draft : PreviewDraft)
    (now : Time) : StoreTxn (RunBudget × BatchMember) := do
  require (canReserveHostCalls budget draft.mutationPlan.maxHostCalls)
    (.thrown "host_call_budget_exceeded")
  let budget := reserveHostCalls budget draft.mutationPlan.maxHostCalls
  let member ← insertPreview s draft now
  updateBudget s budget now
  let _ ← allocateAndInsertEvent s.scope s.runId
    (.operationPrepared member.operationId member.confirmationId) now
  return (budget, member)

def applyPreparedWrites (s : AssistantRunScope) (now : Time) :
    RunBudget → List PreviewDraft → StoreTxn (List BatchMember)
  | _, [] => return []
  | budget, draft :: rest => do
      let (budget, member) ← applyPreparedWrite s budget draft now
      let members ← applyPreparedWrites s now budget rest
      return member :: members

def earliestExpiry (first : PreviewDraft) (rest : List PreviewDraft) : Time :=
  rest.foldl (fun earliest draft => min earliest draft.expiresAt) first.expiresAt

def openPreparedBatch (tupleHash : List BatchMember → Hash) (s : AssistantRunScope)
    (drafts : List PreviewDraft) (members : List BatchMember) (now : Time) :
    StoreTxn (Option BatchId) := do
  match drafts with
  | first :: second :: rest =>
      let id ← insertConfirmationBatch tupleHash {
        scope := s.scope
        runId := s.runId
        items := members
        orderedTupleHash := tupleHash members
        expiresAt := earliestExpiry first (second :: rest) } now
      return some id
  | _ => return none

structure PreparedBatch where
  members : List BatchMember
  batchId : Option BatchId
  deriving DecidableEq

/-- `budget` is the caller's copy of the run's ledger, read before this transaction. -/
def prepareAssistantWriteBatchWithEvents (tupleHash : List BatchMember → Hash)
    (s : AssistantRunScope) (budget : RunBudget) (drafts : List PreviewDraft) (now : Time) :
    StoreTxn PreparedBatch := do
  let members ← applyPreparedWrites s now budget drafts
  let batchId ← openPreparedBatch tupleHash s drafts members now
  suspendRunForConfirmation s
    (.awaitingOperations (members.map BatchMember.operationId) batchId) now
  return { members, batchId }

/-- A run of the first user turn that ends with these previews waiting; their ids are
drawn in order, the operation's before its confirmation's, the batch's last. -/
def prepareRun (drafts : List PreviewDraft) : StoreTxn PreparedBatch := do
  let s : AssistantRunScope := ⟨⟨1, 1, 1⟩, 1, 1⟩
  startRunWithEvent s 0
  prepareAssistantWriteBatchWithEvents (fun _ => 0) s
    { hostCallsUsed := 0, hostCallsReserved := 0 } drafts 1

end ClockifyAssistant
