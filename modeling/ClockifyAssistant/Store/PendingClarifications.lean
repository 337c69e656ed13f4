import ClockifyAssistant.Store.Recovery

/-!
Pending clarifications: the exact-choice questions of the runs. A question is
pending, claimed for work, and then settled once; settling scrubs what it asked.
The calls that also write the run do both in one transaction.
-/
namespace ClockifyAssistant

open Lib Txn

abbrev ClarificationId := Nat

def clarificationTtlMs : Nat := 5 * 60 * 1000

structure ClarificationCandidate where
  optionId : String
  externalId : String
  label : String
  deriving DecidableEq

inductive ClarificationStatus
  | pending | resolving | resolved | continued | expired | cancelled
  deriving DecidableEq

def ClarificationStatus.active : ClarificationStatus → Bool
  | .pending | .resolving => true
  | _ => false

inductive ClarificationTerminalReason
  | selectedOption | freeTextContinuation | expired | superseded | staleReplaced | userCancelled
  deriving DecidableEq

inductive ClarificationCancelReason
  | superseded | staleReplaced | userCancelled
  deriving DecidableEq

def ClarificationCancelReason.terminal : ClarificationCancelReason → ClarificationTerminalReason
  | .superseded => .superseded
  | .staleReplaced => .staleReplaced
  | .userCancelled => .userCancelled

structure PendingClarification where
  id : ClarificationId
  scope : SessionScope
  runId : RunId
  originalToolName : String
  partialArguments : Option Json
  missingField : String
  candidates : List ClarificationCandidate
  status : ClarificationStatus
  selectedOptionId : Option String
  terminalReason : Option ClarificationTerminalReason
  actionResultId : Option ResultId
  operationId : Option OperationId
  expiresAt : Time
  createdAt : Time
  updatedAt : Time
  resolvedAt : Option Time
  deriving DecidableEq

/-- `free_text_continuation` requests that went on with a run. -/
structure RunRequestLink where
  sessionId : SessionId
  requestId : RequestId
  runId : RunId
  deriving DecidableEq

instance : Keyed PendingClarification ClarificationId := ⟨PendingClarification.id⟩
instance : Keyed RunRequestLink (SessionId × RequestId) :=
  ⟨fun link => (link.sessionId, link.requestId)⟩

structure ClarificationStore where
  clarifications : Table PendingClarification
  requestLinks : Table RunRequestLink
  db : Db

abbrev ClarificationTxn (α : Type) : Type := Txn ClarificationStore StoreError α

def onDb {α : Type} (m : StoreTxn α) : ClarificationTxn α := fun store =>
  match m store.db with
  | .ok (a, db) => .ok (a, { store with db })
  | .error e => .error e

structure ClarificationScope where
  scope : SessionScope
  runId : RunId

def AssistantRunScope.clarification (s : AssistantRunScope) : ClarificationScope :=
  ⟨s.scope, s.runId⟩

structure CreatePendingClarificationInput where
  id : ClarificationId
  scope : SessionScope
  runId : RunId
  originalToolName : String
  partialArguments : Option Json
  missingField : String
  candidates : List ClarificationCandidate

def assertClarificationScope (row : PendingClarification) (s : ClarificationScope) :
    ClarificationTxn Unit := do
  require (row.scope.sessionId = s.scope.sessionId) (.thrown "clarification_session_drift")
  require (row.runId = s.runId) (.thrown "clarification_run_drift")
  require (row.scope.workspaceId = s.scope.workspaceId) (.thrown "clarification_workspace_drift")
  require (row.scope.adminUserId = s.scope.adminUserId) (.thrown "clarification_admin_drift")

def scopedClarification (id : ClarificationId) (s : ClarificationScope) :
    ClarificationTxn PendingClarification := do
  let store ← get
  let row ← demand (store.clarifications.get? id) (.thrown "clarification_not_found")
  assertClarificationScope row s
  return row

/-- `idx_pending_clarifications_one_active_per_run`. -/
def ClarificationStore.activeOf (store : ClarificationStore) (sessionId : SessionId)
    (runId : RunId) : List PendingClarification :=
  store.clarifications.rows.filter fun c =>
    c.scope.sessionId == sessionId && c.runId == runId && c.status.active

def createPendingClarification (input : CreatePendingClarificationInput) (now : Time) :
    ClarificationTxn PendingClarification := do
  let store ← get
  let row : PendingClarification := {
    id := input.id
    scope := input.scope
    runId := input.runId
    originalToolName := input.originalToolName
    partialArguments := input.partialArguments
    missingField := input.missingField
    candidates := input.candidates
    status := .pending
    selectedOptionId := none
    terminalReason := none
    actionResultId := none
    operationId := none
    expiresAt := now + clarificationTtlMs
    createdAt := now
    updatedAt := now
    resolvedAt := none }
  require (store.activeOf input.scope.sessionId input.runId = [])
    (.thrown "clarification_already_active")
  require ((store.db.runs.get? (input.scope.sessionId, input.runId)).any
    fun run => run.scope == input.scope) (.foreignKey "pending_clarifications")
  if h : store.clarifications.get? (key row) = none then
    set { store with clarifications := store.clarifications.insert row h }
    return row
  else throw (.thrown "clarification_already_active")

/-- `UPDATE pending_clarifications SET … WHERE id = ?` -/
def updateClarification (id : ClarificationId) (f : PendingClarification → PendingClarification)
    (hf : ∀ r, key (f r) = key r := by intro r; rfl) : ClarificationTxn Unit :=
  modify fun store => { store with clarifications := store.clarifications.update id f hf }

def claimClarificationResolving (id : ClarificationId) (s : ClarificationScope) (now : Time) :
    ClarificationTxn PendingClarification := do
  let row ← scopedClarification id s
  require (row.status = .pending) (.thrown "clarification_not_pending")
  require (now < row.expiresAt) (.thrown "clarification_expired")
  updateClarification id fun c => { c with status := .resolving, updatedAt := now }
  return { row with status := .resolving, updatedAt := now }

def resetClarificationToPending (id : ClarificationId) (s : ClarificationScope) (now : Time) :
    ClarificationTxn PendingClarification := do
  let row ← scopedClarification id s
  require (row.status = .resolving) (.thrown "clarification_not_resolving")
  require (now < row.expiresAt) (.thrown "clarification_expired")
  updateClarification id fun c => { c with status := .pending, updatedAt := now }
  return { row with status := .pending, updatedAt := now }

structure ResolveClarificationInput where
  id : ClarificationId
  scope : ClarificationScope
  selectedOptionId : String
  actionResultId : ResultId
  operationId : Option OperationId

def resolvedClarification (input : ResolveClarificationInput) (now : Time)
    (c : PendingClarification) : PendingClarification :=
  { c with
    status := .resolved
    selectedOptionId := some input.selectedOptionId
    terminalReason := some .selectedOption
    actionResultId := some input.actionResultId
    operationId := input.operationId
    partialArguments := none
    candidates := []
    updatedAt := now
    resolvedAt := some now }

theorem key_resolvedClarification (input : ResolveClarificationInput) (now : Time)
    (c : PendingClarification) : key (resolvedClarification input now c) = key c := rfl

def resolveClarificationWithOption (input : ResolveClarificationInput) (now : Time) :
    ClarificationTxn PendingClarification := do
  let row ← scopedClarification input.id input.scope
  require (row.status = .resolving) (.thrown "clarification_not_resolving")
  let store ← get
  require ((store.db.results.get? input.actionResultId).any fun r => r.scope == row.scope)
    (.foreignKey "pending_clarifications")
  require (∀ operationId ∈ input.operationId, (store.db.operations.get? operationId).any
    fun o => o.scope == row.scope && o.discriminator.runId == some row.runId)
    (.foreignKey "pending_clarifications")
  updateClarification input.id (resolvedClarification input now)
    (key_resolvedClarification input now)
  return resolvedClarification input now row

def endedClarification (status : ClarificationStatus) (reason : ClarificationTerminalReason)
    (now : Time) (c : PendingClarification) : PendingClarification :=
  { c with
    status
    terminalReason := some reason
    partialArguments := none
    candidates := []
    updatedAt := now
    resolvedAt := some now }

theorem key_endedClarification (status : ClarificationStatus)
    (reason : ClarificationTerminalReason) (now : Time) (c : PendingClarification) :
    key (endedClarification status reason now c) = key c := rfl

def cancelClarification (id : ClarificationId) (s : ClarificationScope)
    (reason : ClarificationCancelReason) (now : Time) : ClarificationTxn PendingClarification := do
  let row ← scopedClarification id s
  require (row.status = .pending ∨ row.status = .resolving) (.thrown "clarification_not_active")
  updateClarification id (endedClarification .cancelled reason.terminal now)
    (key_endedClarification .cancelled reason.terminal now)
  return endedClarification .cancelled reason.terminal now row

def continueClarificationWithFreeText (id : ClarificationId) (s : ClarificationScope)
    (now : Time) : ClarificationTxn PendingClarification := do
  let row ← scopedClarification id s
  require (row.status = .pending) (.thrown "clarification_not_pending")
  updateClarification id (endedClarification .continued .freeTextContinuation now)
    (key_endedClarification .continued .freeTextContinuation now)
  return endedClarification .continued .freeTextContinuation now row

def clarificationLapsed (now : Time) (c : PendingClarification) : Bool :=
  c.status == .pending && decide (c.expiresAt ≤ now)

/-- One batch of the retention pass. -/
def expireClarifications (limit : Nat) (now : Time) : ClarificationTxn Nat := do
  let store ← get
  let ids := ((store.clarifications.rows.filter (clarificationLapsed now)).take limit).map
    PendingClarification.id
  set { store with
    clarifications := store.clarifications.updateWhere (fun c => ids.contains c.id)
      (endedClarification .expired .expired now) (key_endedClarification .expired .expired now) }
  return ids.length

def resolveClarificationOption (s : AssistantRunScope) (input : ResolveClarificationInput)
    (patch : RunStatePatch) (toolCompleted : RunEventPayload) (now : Time) :
    ClarificationTxn PendingClarification := do
  let clarification ← resolveClarificationWithOption { input with scope := s.clarification } now
  let _ ← onDb (commitStateEvent s { patch with continuation := .none, phase := .model }
    toolCompleted now)
  return clarification

def insertRequestLink (link : RunRequestLink) : ClarificationTxn Unit := do
  let store ← get
  if h : store.requestLinks.get? (key link) = none then
    set { store with requestLinks := store.requestLinks.insert link h }
  else throw (.unique "assistant_run_request_links")

def continueClarificationWithFreeTextAndLink (id : ClarificationId) (s : AssistantRunScope)
    (requestId : RequestId) (now : Time) : ClarificationTxn PendingClarification := do
  let clarification ← continueClarificationWithFreeText id s.clarification now
  insertRequestLink { sessionId := s.scope.sessionId, requestId, runId := s.runId }
  let _ ← onDb (updateRun s (fun _ => true) fun run =>
    { run with phase := .model, continuation := .none, updatedAt := now })
  return clarification

def supersedeClarificationForNewRun (id : ClarificationId) (s : AssistantRunScope)
    (budget : RunBudget) (now : Time) : ClarificationTxn PendingClarification := do
  let clarification ← cancelClarification id s.clarification .superseded now
  let _ ← onDb (commitStateEvent s { phase := .failed, continuation := .none, budget }
    (.runFailed "clarification_superseded") now)
  return clarification

end ClockifyAssistant
