import ClockifyAssistant.Harness.Confirmations
import ClockifyAssistant.Lib.FallibleProcess
import ClockifyAssistant.Store.Recovery
import ClockifyAssistant.Store.Settlement

/-!
The confirmation service as processes over the database. Every store call and
every reading of the clock is one operation; only the verification of the write
authority and the dispatch of a write suspend the process. A store call may fail
without effect.
-/
namespace ClockifyAssistant

open Lib Txn

/-- What a request is committed with: its rows of another session are not seen. -/
structure Installation where
  active : Bool
  generation : Nat
  deriving DecidableEq

inductive ServiceError
  | store (e : StoreError)
  | persistence
  | thrown (message : String)
  deriving DecidableEq

inductive MutationLease
  | held | aborted | revoked (message : String)
  deriving DecidableEq

structure ServiceRejection where
  status : Nat
  code : String
  message : String
  deriving DecidableEq

structure ConfirmationService where
  hashes : ConfirmationHashes
  computeOrderedTupleHash : List BatchMember → Hash

/-- What the rest of the program does to the database. None of it claims a confirmation:
`markConfirmationExecuting` alone writes the status `executing`. -/
structure OtherChange where
  apply : Db → Db
  unclaimed : ∀ db, Table.NoNew (fun c => c.status = .executing) db.confirmations
    (apply db).confirmations

/-- The calls of the service. The authority check and the claim name the preview and the
nonce they are made for; the store sees only the preview's id. -/
inductive ServiceOp
  | now
  | getPendingConfirmation (id : ConfirmationId)
  | expireConfirmation (id : ConfirmationId)
  | cancelConfirmation (id : ConfirmationId)
  | updateConfirmationNonceHash (id : ConfirmationId) (nonceHash : Hash)
  | getOperationRun (id : OperationId)
  | getInstallation (workspaceId : WorkspaceId)
  | loadPolicy (claims : SessionScope)
  | verifyWriteAuthority (claims : SessionScope) (preview : Option (PendingConfirmation × Nonce))
  | acquire (workspaceId : WorkspaceId) (generation : Nat)
  | markConfirmationExecuting (record : PendingConfirmation) (nonce : Nonce)
  | executeStoredV2Write (record : PendingConfirmation)
  | settleConfirmedOperation (id : ConfirmationId) (status : ActionResultKind)
      (actionName : String) (result : CommitResult)
  | recordUndoIfReversible (claims : SessionScope) (generation : Nat) (receipt : Receipt)
  | settleV2ConfirmationRun (record : PendingConfirmation) (kind : SettlementKind)
      (actionResultId : Option ResultId)
  | getActionResult (id : ResultId)
  | getScopedConfirmationBatch (id : BatchId) (claims : SessionScope)
  | getConfirmationBatch (id : BatchId)
  | listConfirmationBatchItems (id : BatchId)
  | recoverConfirmationBatch (id : BatchId) (nowIso : Time)
  | updateConfirmationBatchStatus (id : BatchId) (status : ConfirmationBatchStatus)
      (completedAt : Time)
  | markConfirmationBatchExecuting (id : BatchId)
  | updateConfirmationBatchItemStatus (id : BatchId) (index : Nat)
      (status : ConfirmationBatchItemStatus) (patch : ItemPatch)
  | advanceConfirmationBatchProgress (id : BatchId) (nextIndex : Nat)
  | cancelUndispatchedBatchItems (id : BatchId) (fromIndex : Nat) (nowIso : Time)
  | settleV2ConfirmationBatchRun (id : BatchId) (kind : SettlementKind)
  | other (change : OtherChange)

abbrev ServiceOp.Val : ServiceOp → Type
  | now => Time
  | getPendingConfirmation _ => Option PendingConfirmation
  | expireConfirmation _ => Bool
  | cancelConfirmation _ => Bool
  | updateConfirmationNonceHash _ _ => Bool
  | getOperationRun _ => Option OperationRun
  | getInstallation _ => Option Installation
  | loadPolicy _ => FeatureGroup → Bool
  | verifyWriteAuthority _ _ => Option ServiceRejection
  | acquire _ _ => MutationLease
  | markConfirmationExecuting _ _ => Bool
  | executeStoredV2Write _ => CommitResult
  | settleConfirmedOperation _ _ _ _ => ResultId
  | recordUndoIfReversible _ _ _ => Option UndoId
  | settleV2ConfirmationRun _ _ _ => Bool
  | getActionResult _ => Option CommitResult
  | getScopedConfirmationBatch _ _ => Option ConfirmationBatch
  | getConfirmationBatch _ => Option ConfirmationBatch
  | listConfirmationBatchItems _ => List ConfirmationBatchItem
  | recoverConfirmationBatch _ _ => Unit
  | updateConfirmationBatchStatus _ _ _ => Bool
  | markConfirmationBatchExecuting _ => Bool
  | updateConfirmationBatchItemStatus _ _ _ _ => Bool
  | advanceConfirmationBatchProgress _ _ => Bool
  | cancelUndispatchedBatchItems _ _ _ => Nat
  | settleV2ConfirmationBatchRun _ _ => Bool
  | other _ => Unit

/-- The database, and the clock as a process last read it or was woken by it. -/
structure ServiceWorld where
  db : Db
  clock : Time

/-- What one operation finds: the time, a store that may fail, and the answers of the
authority, the lease, the policy, the installation, the host and the undo recorder. -/
structure ServiceEnv where
  now : Time
  fails : Bool := false
  installation : Option Installation := none
  policy : FeatureGroup → Bool := fun _ => true
  authority : Except ServiceError (Option ServiceRejection) := .ok none
  lease : Except ServiceError MutationLease := .ok .held
  commit : Except ServiceError CommitResult := .error (.thrown "")
  undoId : Option UndoId := none

/-- One transaction of the store; a failure of the store itself has no effect. -/
def ServiceEnv.transact {α : Type} (env : ServiceEnv) (m : StoreTxn α) (w : ServiceWorld) :
    Except ServiceError α × ServiceWorld :=
  if env.fails then (.error .persistence, w)
  else
    let (result, db) := m.commit w.db
    (result.mapError .store, { w with db })

def ServiceEnv.query {α : Type} (env : ServiceEnv) (f : Db → α) (w : ServiceWorld) :
    Except ServiceError α × ServiceWorld :=
  env.transact (do return f (← get)) w

def ServiceEnv.answer {α : Type} (env : ServiceEnv) (r : Except ServiceError α)
    (w : ServiceWorld) : Except ServiceError α × ServiceWorld :=
  (r, { w with clock := env.now })

def ServiceOp.exec (env : ServiceEnv) (w : ServiceWorld) : (o : ServiceOp) → Except ServiceError o.Val × ServiceWorld
  | now => env.answer (.ok env.now) w
  | getPendingConfirmation id => env.transact (ClockifyAssistant.getPendingConfirmation id env.now) w
  | expireConfirmation id => env.transact (ClockifyAssistant.expireConfirmation id env.now) w
  | cancelConfirmation id => env.transact (ClockifyAssistant.cancelConfirmation id env.now) w
  | updateConfirmationNonceHash id nonceHash =>
      env.transact (ClockifyAssistant.updateConfirmationNonceHash id nonceHash) w
  | getOperationRun id => env.query (fun db => db.operations.get? id) w
  | getInstallation _ => (.ok env.installation, w)
  | loadPolicy _ => (.ok env.policy, w)
  | verifyWriteAuthority _ _ => env.answer env.authority w
  | acquire _ _ => (env.lease, w)
  | markConfirmationExecuting record _ =>
      env.transact (ClockifyAssistant.markConfirmationExecuting record.id env.now) w
  | executeStoredV2Write _ => env.answer env.commit w
  | settleConfirmedOperation id status actionName result =>
      env.transact (settleConfirmation id status actionName result env.now) w
  | recordUndoIfReversible _ _ _ => (.ok env.undoId, w)
  | settleV2ConfirmationRun record kind actionResultId =>
      env.transact (ClockifyAssistant.settleV2ConfirmationRun record kind actionResultId env.now) w
  | getActionResult id => env.query (fun db => db.getActionResult id) w
  | getScopedConfirmationBatch id claims =>
      env.query (fun db => db.getScopedConfirmationBatch id claims) w
  | getConfirmationBatch id => env.query (fun db => db.getConfirmationBatch id) w
  | listConfirmationBatchItems id => env.query (fun db => db.batchItems id) w
  | recoverConfirmationBatch id nowIso =>
      env.transact (ClockifyAssistant.recoverConfirmationBatch id nowIso) w
  | updateConfirmationBatchStatus id status completedAt =>
      env.transact (ClockifyAssistant.updateConfirmationBatchStatus id status (some completedAt)) w
  | markConfirmationBatchExecuting id =>
      env.transact (ClockifyAssistant.markConfirmationBatchExecuting id env.now) w
  | updateConfirmationBatchItemStatus id index status patch =>
      env.transact (ClockifyAssistant.updateConfirmationBatchItemStatus id index (fun _ => true)
        status patch) w
  | advanceConfirmationBatchProgress id nextIndex =>
      env.transact (ClockifyAssistant.advanceConfirmationBatchProgress id nextIndex) w
  | cancelUndispatchedBatchItems id fromIndex nowIso =>
      env.transact (ClockifyAssistant.cancelUndispatchedBatchItems id fromIndex nowIso) w
  | settleV2ConfirmationBatchRun id kind =>
      env.transact (ClockifyAssistant.settleV2ConfirmationBatchRun id kind env.now) w
  | other change => (.ok (), { w with db := change.apply w.db })

/-- Only these two are awaited. -/
def ServiceOp.suspends : ServiceOp → Bool
  | verifyWriteAuthority _ _ => true
  | executeStoredV2Write _ => true
  | _ => false

abbrev Service (α : Type) : Type := Fallible ServiceOp ServiceOp.Val ServiceError α

abbrev perform (o : ServiceOp) : Service o.Val := Fallible.perform o

inductive ConfirmSingleOutcome
  | rejected (rejection : ServiceRejection)
  | committed (result : CommitResult) (undoId : Option UndoId) (persistenceDegraded : Bool)

structure DispatchedPreview where
  result : CommitResult
  terminalStatus : ActionResultKind
  undoId : Option UndoId
  resultRef : Option ResultId

def CommitResult.shownReceipt : CommitResult → Receipt
  | receipt r => r
  | partially r _ _ => r

def CommitResult.terminalStatus : CommitResult → ActionResultKind
  | partially _ _ _ => .partially
  | receipt (.success _) => .succeeded
  | receipt (.error e) =>
      if e.code = "commit_outcome_unknown" then .outcomeUnknown else .definitiveFailed

/-- A store call whose failure is logged and forgotten. -/
def bestEffort {α : Type} (m : Service α) : Service (Option α) :=
  tryCatch (some <$> m) fun _ => return none

/-- Two attempts to persist the outcome; the known effect outlives both failing. -/
def settleDispatched (record : PendingConfirmation) (commitResult : CommitResult) :
    Service (Option ResultId) := do
  let actionName := (record.operation.map ConfirmableOperation.actionName).getD ""
  let settle := perform
    (.settleConfirmedOperation record.id commitResult.terminalStatus actionName commitResult)
  match ← bestEffort settle with
  | some resultRef => return some resultRef
  | none => bestEffort settle

def recordUndo (claims : SessionScope) (installation : Installation) (commitResult : CommitResult) :
    Option ResultId → Service (Option UndoId)
  | some _ =>
      perform (.recordUndoIfReversible claims installation.generation commitResult.shownReceipt)
  | none => return none

def dispatchConfirmedPreview (claims : SessionScope) (record : PendingConfirmation)
    (installation : Installation) : Service DispatchedPreview := do
  let commitResult ← perform (.executeStoredV2Write record)
  let resultRef ← settleDispatched record commitResult
  let undoId ← recordUndo claims installation commitResult resultRef
  return { result := commitResult, terminalStatus := commitResult.terminalStatus, undoId, resultRef }

def PendingConfirmation.preparedMatches (record : PendingConfirmation) (run : OperationRun) : Bool :=
  run.status == .prepared && record.discriminator.authorityModel == .previewConfirmationV2 &&
    record.discriminator.registryId == .v2Api && run.discriminator.runId == record.discriminator.runId &&
    run.discriminator.registryId == record.discriminator.registryId &&
    run.discriminator.authorityModel == record.discriminator.authorityModel &&
    run.discriminator.executorKind == record.discriminator.executorKind &&
    run.actionFingerprint == record.actionFingerprint && run.catalogHash == record.catalogHash &&
    run.operationHash == record.operationHash

def rejection (status : Nat) (code message : String) : ServiceRejection :=
  { status, code, message }

def installationChanged : ServiceRejection :=
  rejection 409 "installation_changed"
    "The Clockify installation changed after this preview was created. Create a fresh preview."

def alreadyUsed : ServiceRejection :=
  rejection 409 "already_used" "This preview was already used."

def FeatureGroup.name : FeatureGroup → String
  | timeTracking => "time_tracking"
  | workStructure => "work_structure"
  | reports => "reports"
  | invoices => "invoices"
  | expenses => "expenses"
  | usersGroups => "users_groups"
  | timeOffApprovals => "time_off_approvals"
  | scheduling => "scheduling"
  | webhooks => "webhooks"
  | workspaceSettings => "workspace_settings"
  | customFields => "custom_fields"
  | approvals => "approvals"
  | auditLog => "audit_log"

def accessDeniedMessage (group : FeatureGroup) : String :=
  "Write access to " ++ group.name ++ " is disabled in your assistant permissions."

/-- The generation of record and operation, when both are the same number. -/
def PendingConfirmation.boundGeneration (record : PendingConfirmation)
    (operation : ConfirmableOperation) : Option Nat :=
  if operation.installationGeneration = record.installationGeneration then
    record.installationGeneration
  else none

def checkOperationRun (record : PendingConfirmation) (run : Option OperationRun) :
    Except ServiceRejection Unit :=
  match run.filter fun run => run.status == .prepared with
  | none => .error (rejection 409 "operation_not_prepared" "The stored operation is no longer prepared.")
  | some run =>
      if record.preparedMatches run then .ok ()
      else .error (rejection 409 "operation_mismatch"
        "The stored operation no longer matches this preview.")

/-- The policy is read unless the write changes permissions. -/
def checkPolicy (claims : SessionScope) (operation : ConfirmableOperation) :
    Service (Except ServiceRejection Unit) := do
  if operation.risks.contains .permissionChange then return .ok ()
  let canWrite ← perform (.loadPolicy claims)
  if canWrite operation.featureGroup then return .ok ()
  return .error (rejection 400 "policy_denied" (accessDeniedMessage operation.featureGroup))

variable (service : ConfirmationService)

def checkSingle (claims : SessionScope) (record : PendingConfirmation) (nonce : Nonce) :
    Service (Except ServiceRejection Installation) := do
  if record.isBatchOwned then
    return .error (rejection 400 "batch_confirmation_required"
      "This preview belongs to a Confirm all batch. Use the batch confirmation route.")
  if !record.isV2AssistantPreview then
    return .error (rejection 400 "incompatible_confirmation"
      "This preview is not a v2 assistant confirmation.")
  let now ← perform .now
  match confirmPending service.hashes record claims nonce now with
  | .error failed =>
      if failed.code = "expired" then let _ ← perform (.expireConfirmation record.id)
      return .error (rejection 400 failed.code failed.message)
  | .ok () =>
  match record.operation.filter fun operation => operation.mutationPlan.isSome with
  | none =>
      return .error (rejection 400 "invalid_mutation_plan"
        "The stored preview is missing its host plan.")
  | some operation =>
  match record.boundGeneration operation with
  | none => return .error installationChanged
  | some generation =>
  let run ← perform (.getOperationRun record.operationId)
  match checkOperationRun record run with
  | .error failed => return .error failed
  | .ok () =>
  let installation ← perform (.getInstallation claims.workspaceId)
  match installation.filter Installation.active with
  | none =>
      return .error (rejection 503 "role_verification_unavailable"
        "The add-on is not active for this workspace. No change was made.")
  | some installation =>
  if generation ≠ installation.generation then return .error installationChanged
  match ← checkPolicy claims operation with
  | .error failed => return .error failed
  | .ok () => return .ok installation

def acquireLease (claims : SessionScope) (installation : Installation) :
    Service (Except ServiceRejection Unit) := do
  match ← perform (.acquire claims.workspaceId installation.generation) with
  | .revoked message => return .error (rejection 409 "installation_changed" message)
  | .aborted =>
      return .error (rejection 409 "request_cancelled"
        "The confirmation was cancelled before dispatch. No change was made.")
  | .held => return .ok ()

def confirmSingle (claims : SessionScope) (record : PendingConfirmation) (nonce : Nonce) :
    Service ConfirmSingleOutcome := do
  match ← checkSingle service claims record nonce with
  | .error failed => return .rejected failed
  | .ok installation =>
  match ← perform (.verifyWriteAuthority claims (some (record, nonce))) with
  | some denied => return .rejected denied
  | none =>
  match ← acquireLease claims installation with
  | .error failed => return .rejected failed
  | .ok () =>
  if !(← perform (.markConfirmationExecuting record nonce)) then return .rejected alreadyUsed
  let dispatched ← dispatchConfirmedPreview claims record installation
  let _ ← bestEffort (perform (.settleV2ConfirmationRun record .confirmed dispatched.resultRef))
  return .committed dispatched.result dispatched.undoId dispatched.resultRef.isNone

section Batch

structure ConfirmBatchItemInput where
  confirmationId : ConfirmationId
  nonce : Option Nonce

structure ConfirmBatchItemOutcome where
  confirmationId : ConfirmationId
  operationId : OperationId
  status : ActionResultKind
  result : CommitResult
  undoId : Option UndoId := none
  replayed : Bool := false
  deriving DecidableEq

inductive ConfirmBatchOutcome
  | rejected (rejection : ServiceRejection)
  | committed (batchId : BatchId) (status : ConfirmationBatchStatus)
      (items : List ConfirmBatchItemOutcome) (persistenceDegraded : Bool)

def PendingStatus.shownStatus : PendingStatus → ActionResultKind
  | .partially => .partially
  | .succeeded => .succeeded
  | .outcomeUnknown => .outcomeUnknown
  | _ => .definitiveFailed

def terminalItemOutcome (item : ConfirmationBatchItem) (record : Option PendingConfirmation) :
    Service (Option ConfirmBatchItemOutcome) := do
  match item.actionResultId, record with
  | none, _ => return none
  | some _, none => throw (.thrown "TypeError")
  | some resultId, some record =>
      if record.status = .pending ∨ record.status = .executing then return none
      match ← perform (.getActionResult resultId) with
      | none => return none
      | some stored =>
          return some {
            confirmationId := item.confirmationId
            operationId := item.operationId
            status := record.status.shownStatus
            result := stored
            replayed := true }

def summarizeBatchStatus (items : List ConfirmBatchItemOutcome) : ConfirmationBatchStatus :=
  if items.any fun item => item.status == .outcomeUnknown then .outcomeUnknown
  else if items.any fun item => item.status == .partially then .partially
  else
    let failures := (items.filter fun item => item.status == .definitiveFailed).length
    let successes := (items.filter fun item => item.status == .succeeded).length
    if 0 < failures ∧ 0 < successes then .partially
    else if failures = items.length then .definitiveFailed
    else .succeeded

def ConfirmationBatchStatus.terminal : ConfirmationBatchStatus → Bool
  | .pending | .executing => false
  | _ => true

def settleBatchRunBestEffort (batchId : BatchId) (kind : SettlementKind) : Service Unit := do
  let _ ← bestEffort (perform (.settleV2ConfirmationBatchRun batchId kind))

/-- A member of the batch with what the request says of it. -/
structure BatchEntry where
  item : ConfirmationBatchItem
  nonce : Option Nonce
  index : Nat

def batchEntries (items : List ConfirmationBatchItem) (bodyItems : List ConfirmBatchItemInput) :
    List BatchEntry :=
  (items.zip bodyItems).zipIdx.map fun ((item, body), index) => { item, nonce := body.nonce, index }

def matchMembers (items : List ConfirmationBatchItem) (bodyItems : List ConfirmBatchItemInput) :
    Option ServiceRejection :=
  if bodyItems.length ≠ items.length then
    some (rejection 400 "batch_items_mismatch"
      "The confirmation batch members do not match the stored preview.")
  else if bodyItems.map ConfirmBatchItemInput.confirmationId ≠
      items.map ConfirmationBatchItem.confirmationId then
    some (rejection 400 "batch_items_mismatch"
      "The confirmation batch members do not match the stored preview order.")
  else none

def integrityFailed : ServiceRejection :=
  rejection 409 "batch_integrity_failed" "A batch member is no longer available."

def batchIncomplete : ServiceRejection :=
  rejection 409 "batch_incomplete" "The stored batch is not fully settled for replay."

def replayMembers : List ConfirmationBatchItem →
    Service (Except ServiceRejection (List ConfirmBatchItemOutcome))
  | [] => return .ok []
  | item :: items => do
      match ← perform (.getPendingConfirmation item.confirmationId) with
      | none => return .error integrityFailed
      | some record =>
          match ← terminalItemOutcome item (some record) with
          | none => return .error batchIncomplete
          | some outcome =>
              match ← replayMembers items with
              | .error failed => return .error failed
              | .ok outcomes => return .ok (outcome :: outcomes)

def validateMembers (batchId : BatchId) : List BatchEntry → Service (Except ServiceRejection Unit)
  | [] => return .ok ()
  | entry :: entries => do
      match (← perform (.getPendingConfirmation entry.item.confirmationId)).filter
          fun record => record.batchId == some batchId with
      | none => return .error integrityFailed
      | some record =>
          if entry.item.status ≠ .pending then
            match ← terminalItemOutcome entry.item (some record) with
            | none => return .error batchIncomplete
            | some _ => validateMembers batchId entries
          else if entry.nonce.isNone then
            return .error (rejection 400 "invalid_confirmation"
              "A live batch member requires its confirmation nonce.")
          else validateMembers batchId entries

def checkMember (claims : SessionScope) (installation : Installation)
    (record : PendingConfirmation) (nonce : Nonce) : Service (Except ServiceRejection Unit) := do
  if !record.isV2AssistantBatch then
    return .error (rejection 400 "incompatible_confirmation"
      "This preview is not a v2 assistant batch confirmation.")
  let now ← perform .now
  match confirmPending service.hashes record claims nonce now with
  | .error failed =>
      if failed.code = "expired" then let _ ← perform (.expireConfirmation record.id)
      return .error (rejection 400 failed.code failed.message)
  | .ok () =>
  match record.operation.filter fun operation => operation.mutationPlan.isSome with
  | none =>
      return .error (rejection 400 "invalid_mutation_plan"
        "The stored preview is missing its host plan.")
  | some operation =>
  if record.boundGeneration operation ≠ some installation.generation then
    return .error installationChanged
  let run ← perform (.getOperationRun record.operationId)
  match checkOperationRun record run with
  | .error failed => return .error failed
  | .ok () => checkPolicy claims operation

structure BatchProgress where
  outcomes : List ConfirmBatchItemOutcome
  persistenceDegraded : Bool
  stopRemaining : Bool

def dispatchMember (claims : SessionScope) (installation : Installation) (batchId : BatchId)
    (nowIso : Time) (entry : BatchEntry) (record : PendingConfirmation) (nonce : Nonce) :
    Service (Except ServiceRejection (ConfirmBatchItemOutcome × Bool)) := do
  match ← checkMember service claims installation record nonce with
  | .error failed => return .error failed
  | .ok () =>
  if !(← perform (.markConfirmationExecuting record nonce)) then return .error alreadyUsed
  let _ ← perform (.updateConfirmationBatchItemStatus batchId entry.index .executing
    { startedAt := some nowIso })
  let dispatched ← dispatchConfirmedPreview claims record installation
  let settled ← perform (.getPendingConfirmation record.id)
  let _ ← perform (.updateConfirmationBatchItemStatus batchId entry.index
    dispatched.terminalStatus.toItem
    { actionResultId := settled.bind PendingConfirmation.actionResultId, completedAt := some nowIso })
  let _ ← perform (.advanceConfirmationBatchProgress batchId (entry.index + 1))
  return .ok ({
    confirmationId := record.id
    operationId := record.operationId
    status := dispatched.terminalStatus
    result := dispatched.result
    undoId := dispatched.undoId }, dispatched.resultRef.isNone)

def dispatchMembers (claims : SessionScope) (installation : Installation) (batchId : BatchId)
    (nowIso : Time) : List BatchEntry → BatchProgress →
    Service (Except ServiceRejection BatchProgress)
  | [], progress => return .ok progress
  | entry :: entries, progress => do
      let record ← perform (.getPendingConfirmation entry.item.confirmationId)
      if entry.item.status ≠ .pending then
        let replay ← terminalItemOutcome entry.item record
        dispatchMembers claims installation batchId nowIso entries
          { progress with outcomes := progress.outcomes ++ replay.toList }
      else
        match record, entry.nonce with
        | some record, some nonce =>
            match ← dispatchMember service claims installation batchId nowIso entry record nonce with
            | .error failed => return .error failed
            | .ok (outcome, degraded) =>
                let progress := { progress with
                  outcomes := progress.outcomes ++ [outcome]
                  persistenceDegraded := progress.persistenceDegraded || degraded }
                if outcome.status = .outcomeUnknown then
                  let _ ← perform (.cancelUndispatchedBatchItems batchId (entry.index + 1) nowIso)
                  let _ ← perform (.updateConfirmationBatchStatus batchId .outcomeUnknown nowIso)
                  return .ok { progress with stopRemaining := true }
                else dispatchMembers claims installation batchId nowIso entries progress
        | _, _ => throw (.thrown "TypeError")

def priorOutcomes : List ConfirmationBatchItem → Service (List ConfirmBatchItemOutcome)
  | [] => return []
  | item :: items => do
      let record ← perform (.getPendingConfirmation item.confirmationId)
      let replay ← terminalItemOutcome item record
      return replay.toList ++ (← priorOutcomes items)

def finalOutcomes (outcomes : List ConfirmBatchItemOutcome) :
    List ConfirmationBatchItem → Service (List ConfirmBatchItemOutcome)
  | [] => return []
  | item :: items => do
      let record ← perform (.getPendingConfirmation item.confirmationId)
      let stored ← terminalItemOutcome item record
      let shown := stored <|> outcomes.find? fun o => o.confirmationId == item.confirmationId
      return shown.toList ++ (← finalOutcomes outcomes items)

def expireBatch (batchId : BatchId) (nowIso : Time) : Service ConfirmBatchOutcome := do
  let _ ← perform (.updateConfirmationBatchStatus batchId .expired nowIso)
  settleBatchRunBestEffort batchId .expired
  return .rejected (rejection 400 "expired"
    "This confirmation batch has expired. Ask me to run a fresh preview.")

def replayBatch (batch : ConfirmationBatch) (items : List ConfirmationBatchItem) :
    Service ConfirmBatchOutcome := do
  match ← replayMembers items with
  | .error failed => return .rejected failed
  | .ok outcomes => return .committed batch.id batch.status outcomes false

def finalStatus (batch : ConfirmationBatch) (items : List ConfirmationBatchItem) (nowIso : Time)
    (progress : BatchProgress) : Service ConfirmationBatchStatus := do
  if progress.stopRemaining then
    match ← perform (.getConfirmationBatch batch.id) with
    | none => throw (.thrown "TypeError")
    | some batch => return batch.status
  else
    let prior ← priorOutcomes (items.take batch.currentIndex)
    let status := summarizeBatchStatus (prior ++ progress.outcomes)
    let _ ← perform (.updateConfirmationBatchStatus batch.id status nowIso)
    return status

def finishBatch (batch : ConfirmationBatch) (items : List ConfirmationBatchItem) (nowIso : Time)
    (progress : BatchProgress) : Service ConfirmBatchOutcome := do
  let status ← finalStatus batch items nowIso progress
  settleBatchRunBestEffort batch.id .confirmed
  let stored ← perform (.listConfirmationBatchItems batch.id)
  let shown ← finalOutcomes progress.outcomes stored
  return .committed batch.id status shown progress.persistenceDegraded

def commitBatch (claims : SessionScope) (installation : Installation) (batch : ConfirmationBatch)
    (items : List ConfirmationBatchItem) (entries : List BatchEntry) (nowIso : Time) :
    Service ConfirmBatchOutcome := do
  if batch.status = .pending then
    if !(← perform (.markConfirmationBatchExecuting batch.id)) then
      return .rejected (rejection 409 "already_used" "This batch was already used.")
  match ← dispatchMembers service claims installation batch.id nowIso entries ⟨[], false, false⟩ with
  | .error failed => return .rejected failed
  | .ok progress => finishBatch batch items nowIso progress

def confirmLiveBatch (claims : SessionScope) (batch : ConfirmationBatch)
    (items : List ConfirmationBatchItem) (bodyItems : List ConfirmBatchItemInput) (nowIso : Time) :
    Service ConfirmBatchOutcome := do
  let entries := (batchEntries items bodyItems).drop batch.currentIndex
  match ← validateMembers batch.id entries with
  | .error failed => return .rejected failed
  | .ok () =>
  match (← perform (.getInstallation claims.workspaceId)).filter Installation.active with
  | none =>
      return .rejected (rejection 503 "role_verification_unavailable"
        "The add-on is not active for this workspace. No change was made.")
  | some installation =>
  match ← perform (.verifyWriteAuthority claims none) with
  | some denied => return .rejected denied
  | none =>
  match ← acquireLease claims installation with
  | .error failed => return .rejected failed
  | .ok () => commitBatch service claims installation batch items entries nowIso

def confirmBatch (claims : SessionScope) (batchId : BatchId)
    (bodyItems : List ConfirmBatchItemInput) : Service ConfirmBatchOutcome := do
  let nowIso ← perform .now
  match ← perform (.getScopedConfirmationBatch batchId claims) with
  | none => return .rejected (rejection 404 "not_found" "No such confirmation batch.")
  | some _ =>
  let _ ← perform (.recoverConfirmationBatch batchId nowIso)
  match ← perform (.getConfirmationBatch batchId) with
  | none => throw (.thrown "TypeError")
  | some batch =>
  let items ← perform (.listConfirmationBatchItems batchId)
  match matchMembers items bodyItems with
  | some failed => return .rejected failed
  | none =>
  if service.computeOrderedTupleHash (items.map ConfirmationBatchItem.member) ≠
      batch.orderedTupleHash then
    return .rejected (rejection 409 "batch_integrity_failed"
      "The stored batch no longer matches its membership hash.")
  let now ← perform .now
  if batch.expiresAt ≤ now then expireBatch batchId nowIso
  else if batch.status.terminal then replayBatch batch items
  else confirmLiveBatch service claims batch items bodyItems nowIso

end Batch

section Others

def cancelMembers : List ConfirmationBatchItem → Service Unit
  | [] => return ()
  | item :: items => do
      let record ← perform (.getPendingConfirmation item.confirmationId)
      if record.any fun c => c.status == .pending then
        let _ ← perform (.cancelConfirmation item.confirmationId)
      cancelMembers items

def cancelBatch (claims : SessionScope) (batchId : BatchId) :
    Service (Except ServiceRejection Unit) := do
  match ← perform (.getScopedConfirmationBatch batchId claims) with
  | none => return .error (rejection 404 "not_found" "No such confirmation batch.")
  | some _ =>
  if !(← perform (.settleV2ConfirmationBatchRun batchId .cancelled)) then
    cancelMembers (← perform (.listConfirmationBatchItems batchId))
    let current ← perform (.getConfirmationBatch batchId)
    if current.any fun b => b.status == .pending then
      let now ← perform .now
      let _ ← perform (.updateConfirmationBatchStatus batchId .cancelled now)
  return .ok ()

def reissueNonce (claims : SessionScope) (id : ConfirmationId) (nonce : Nonce) :
    Service (Option Nonce) := do
  match ← perform (.getPendingConfirmation id) with
  | none => return none
  | some record =>
      let now ← perform .now
      match rotatePendingNonce service.hashes record claims nonce now with
      | .error _ => return none
      | .ok nonceHash =>
          if ← perform (.updateConfirmationNonceHash record.id nonceHash) then return some nonce
          return none

end Others

inductive ServiceRequest
  | confirmSingle (claims : SessionScope) (record : PendingConfirmation) (nonce : Nonce)
  | confirmBatch (claims : SessionScope) (batchId : BatchId)
      (bodyItems : List ConfirmBatchItemInput)
  | cancelBatch (claims : SessionScope) (batchId : BatchId)
  | cancelConfirmation (id : ConfirmationId)
  | reissueNonce (claims : SessionScope) (id : ConfirmationId) (nonce : Nonce)
  | other (change : OtherChange)

inductive ServiceResponse
  | confirmSingle (outcome : ConfirmSingleOutcome)
  | confirmBatch (outcome : ConfirmBatchOutcome)
  | cancelBatch (outcome : Except ServiceRejection Unit)
  | cancelConfirmation (cancelled : Bool)
  | reissueNonce (nonce : Option Nonce)
  | other

def ServiceRequest.handler : ServiceRequest → Service ServiceResponse
  | confirmSingle claims record nonce =>
      .confirmSingle <$> ClockifyAssistant.confirmSingle service claims record nonce
  | confirmBatch claims batchId bodyItems =>
      .confirmBatch <$> ClockifyAssistant.confirmBatch service claims batchId bodyItems
  | cancelBatch claims batchId => .cancelBatch <$> ClockifyAssistant.cancelBatch claims batchId
  | cancelConfirmation id => .cancelConfirmation <$> perform (.cancelConfirmation id)
  | reissueNonce claims id nonce =>
      .reissueNonce <$> ClockifyAssistant.reissueNonce service claims id nonce
  | other change => (fun _ => .other) <$> perform (.other change)

/-- The requests of the service over one database, in any interleaving; opening the
database again recovers it first. -/
def confirmationServer : Server ServiceOp fun o => Except ServiceError o.Val where
  World := ServiceWorld
  Env := ServiceEnv
  exec o env w := o.exec env w
  suspends := ServiceOp.suspends
  Request := ServiceRequest
  Response := Except ServiceError ServiceResponse
  handler request := (request.handler service).run
  restart env w :=
    match recoverOrphanedRuns env.now w.db with
    | .ok (_, db) => some ⟨db, env.now⟩
    | .error _ => none

end ClockifyAssistant
