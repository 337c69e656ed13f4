import ClockifyAssistant.Database

/-!
Intent capabilities: the writes that one request declared, bound to the operations
that were prepared from it and used up when these execute.
-/
namespace ClockifyAssistant

open Lib Txn

abbrev CapabilityId := Nat

structure IntentWriteAction where
  actionName : String
  maxExecutions : Nat
  deriving DecidableEq

inductive IntentMode
  | allow | denyAllWrites
  deriving DecidableEq

structure IntentCapability where
  mode : IntentMode
  requestHash : Hash
  catalogHash : Hash
  writeActions : List IntentWriteAction
  distinct : (writeActions.map IntentWriteAction.actionName).Nodup
  denies : mode = .denyAllWrites → writeActions = []
  limits : ∀ a ∈ writeActions, 1 ≤ a.maxExecutions ∧ a.maxExecutions ≤ 1000

structure IntentCapabilityScope where
  workspaceId : WorkspaceId
  adminUserId : AdminUserId
  sessionId : SessionId
  requestId : RequestId
  requestHash : Hash
  catalogHash : Hash
  deriving DecidableEq

structure CapabilityRow where
  id : CapabilityId
  scope : IntentCapabilityScope
  capabilityHash : Hash
  capability : IntentCapability
  createdAt : Time

structure OperationBindingRow where
  id : OperationId
  requestId : Option RequestId
  confirmationId : Option ConfirmationId
  sessionId : SessionId
  workspaceId : WorkspaceId
  adminUserId : AdminUserId
  actionName : String
  catalogHash : Hash
  capabilityId : Option CapabilityId
  capabilityHash : Option Hash

structure ConfirmationBindingRow where
  id : ConfirmationId
  operationId : OperationId
  sessionId : SessionId
  workspaceId : WorkspaceId
  adminUserId : AdminUserId
  catalogHash : Hash
  capabilityId : Option CapabilityId
  capabilityHash : Option Hash

structure CapabilityUsage where
  capabilityId : CapabilityId
  operationId : OperationId
  actionName : String
  executionIndex : Nat
  createdAt : Time

instance : Keyed CapabilityRow CapabilityId := ⟨CapabilityRow.id⟩
instance : Keyed OperationBindingRow OperationId := ⟨OperationBindingRow.id⟩
instance : Keyed ConfirmationBindingRow ConfirmationId := ⟨ConfirmationBindingRow.id⟩
instance : Keyed CapabilityUsage OperationId := ⟨CapabilityUsage.operationId⟩

structure CapabilityDb where
  capabilities : Table CapabilityRow
  operations : Table OperationBindingRow
  confirmations : Table ConfirmationBindingRow
  usage : Table CapabilityUsage

abbrev CapabilityTxn (α : Type) : Type := Txn CapabilityDb StoreError α

structure CreateIntentCapabilityInput where
  id : CapabilityId
  workspaceId : WorkspaceId
  adminUserId : AdminUserId
  sessionId : SessionId
  requestId : RequestId
  capability : IntentCapability

structure BindIntentCapabilityOperationInput where
  scope : IntentCapabilityScope
  capabilityId : CapabilityId
  capabilityHash : Hash
  operationId : OperationId
  confirmationId : Option ConfirmationId
  actionName : String

structure IntentCapabilityOperationScope where
  operationId : OperationId
  workspaceId : WorkspaceId
  adminUserId : AdminUserId
  sessionId : SessionId
  capabilityId : CapabilityId
  capabilityHash : Hash
  expectedCatalogHash : Option Hash
  expectedActionName : Option String

inductive BindState
  | bound | replay
  deriving DecidableEq

inductive DeniedReason
  | denyAllWrites | actionNotDeclared | executionLimit
  deriving DecidableEq

inductive ConsumeResult
  | consumed (execution : Nat)
  | replay (execution : Nat)
  | denied (reason : DeniedReason)
  deriving DecidableEq

def assertScope (row : CapabilityRow) (scope : IntentCapabilityScope)
    (capabilityHash : Option Hash) : CapabilityTxn Unit := do
  require (row.scope.workspaceId = scope.workspaceId) (.thrown "intent_capability_workspace_drift")
  require (row.scope.adminUserId = scope.adminUserId) (.thrown "intent_capability_admin_drift")
  require (row.scope.sessionId = scope.sessionId) (.thrown "intent_capability_session_drift")
  require (row.scope.requestId = scope.requestId ∧ row.scope.requestHash = scope.requestHash)
    (.thrown "intent_capability_request_drift")
  require (row.scope.catalogHash = scope.catalogHash) (.thrown "intent_capability_catalog_drift")
  require (∀ hash ∈ capabilityHash, row.capabilityHash = hash)
    (.thrown "intent_capability_hash_drift")

def scopedCapability (id : CapabilityId) (scope : IntentCapabilityScope)
    (capabilityHash : Option Hash) : CapabilityTxn CapabilityRow := do
  let db ← get
  let row ← demand (db.capabilities.get? id) (.thrown "intent_capability_not_found")
  assertScope row scope capabilityHash
  return row

def operationBinding (input : BindIntentCapabilityOperationInput) :
    CapabilityTxn OperationBindingRow := do
  let db ← get
  let operation ← demand (db.operations.get? input.operationId)
    (.thrown "intent_capability_operation_not_found")
  require (operation.workspaceId = input.scope.workspaceId)
    (.thrown "intent_capability_workspace_drift")
  require (operation.adminUserId = input.scope.adminUserId)
    (.thrown "intent_capability_admin_drift")
  require (operation.sessionId = input.scope.sessionId) (.thrown "intent_capability_session_drift")
  require (operation.requestId = some input.scope.requestId)
    (.thrown "intent_capability_request_drift")
  require (operation.catalogHash = input.scope.catalogHash)
    (.thrown "intent_capability_catalog_drift")
  require (operation.actionName = input.actionName) (.thrown "intent_capability_action_drift")
  return operation

/-- The capability an operation is bound to; `hashIntentCapability` is its digest. -/
def capabilityForOperation (hashIntentCapability : IntentCapability → Hash)
    (input : IntentCapabilityOperationScope) :
    CapabilityTxn (CapabilityRow × OperationBindingRow) := do
  let db ← get
  let operation ← demand (db.operations.get? input.operationId)
    (.thrown "intent_capability_operation_not_found")
  require (operation.workspaceId = input.workspaceId) (.thrown "intent_capability_workspace_drift")
  require (operation.adminUserId = input.adminUserId) (.thrown "intent_capability_admin_drift")
  require (operation.sessionId = input.sessionId) (.thrown "intent_capability_session_drift")
  require (operation.capabilityId ≠ none ∧ operation.capabilityHash ≠ none)
    (.thrown "intent_capability_binding_missing")
  require (operation.capabilityId = some input.capabilityId)
    (.thrown "intent_capability_binding_drift")
  require (operation.capabilityHash = some input.capabilityHash)
    (.thrown "intent_capability_hash_drift")
  let row ← demand (db.capabilities.get? input.capabilityId)
    (.thrown "intent_capability_not_found")
  require (row.scope.workspaceId = operation.workspaceId)
    (.thrown "intent_capability_workspace_drift")
  require (row.scope.adminUserId = operation.adminUserId) (.thrown "intent_capability_admin_drift")
  require (row.scope.sessionId = operation.sessionId) (.thrown "intent_capability_session_drift")
  require (some row.scope.requestId = operation.requestId)
    (.thrown "intent_capability_request_drift")
  require (row.scope.catalogHash = operation.catalogHash ∧
      ∀ hash ∈ input.expectedCatalogHash, operation.catalogHash = hash)
    (.thrown "intent_capability_catalog_drift")
  require (∀ name ∈ input.expectedActionName, operation.actionName = name)
    (.thrown "intent_capability_action_drift")
  require (row.capability.requestHash = row.scope.requestHash)
    (.thrown "intent_capability_request_drift")
  require (row.capability.catalogHash = row.scope.catalogHash)
    (.thrown "intent_capability_catalog_drift")
  require (operation.capabilityHash = some row.capabilityHash ∧
      hashIntentCapability row.capability = row.capabilityHash)
    (.thrown "intent_capability_hash_drift")
  require (∃ action ∈ row.capability.writeActions, action.actionName = operation.actionName)
    (.thrown "intent_capability_action_drift")
  return (row, operation)

def CapabilityDb.usageOf (db : CapabilityDb) (capabilityId : CapabilityId)
    (actionName : String) : List CapabilityUsage :=
  db.usage.rows.filter fun u => u.capabilityId == capabilityId && u.actionName == actionName

/-- `INSERT INTO intent_capability_usage`. -/
def insertUsage (usage : CapabilityUsage) : CapabilityTxn Unit := do
  let db ← get
  require (db.capabilities.get? usage.capabilityId).isSome (.foreignKey "intent_capability_usage")
  require (db.operations.get? usage.operationId).isSome (.foreignKey "intent_capability_usage")
  require (∀ u ∈ db.usageOf usage.capabilityId usage.actionName,
    u.executionIndex ≠ usage.executionIndex) (.unique "intent_capability_usage")
  if h : db.usage.get? (key usage) = none then
    set { db with usage := db.usage.insert usage h }
  else throw (.unique "intent_capability_usage")

def consumeBoundOperation (record : CapabilityRow) (operationId : OperationId)
    (actionName : String) (now : Time) : CapabilityTxn ConsumeResult := do
  if record.capability.mode = .denyAllWrites then return .denied .denyAllWrites
  match record.capability.writeActions.find? fun action => action.actionName = actionName with
  | none => return .denied .actionNotDeclared
  | some grant =>
      let db ← get
      match db.usage.get? operationId with
      | some existing =>
          require (existing.capabilityId = record.id ∧ existing.actionName = actionName)
            (.thrown "intent_capability_usage_drift")
          return .replay existing.executionIndex
      | none =>
          let count := (db.usageOf record.id actionName).length
          if grant.maxExecutions ≤ count then return .denied .executionLimit
          let execution := count + 1
          insertUsage {
            capabilityId := record.id
            operationId
            actionName
            executionIndex := execution
            createdAt := now }
          return .consumed execution

def createIntentCapability (hashIntentCapability : IntentCapability → Hash)
    (input : CreateIntentCapabilityInput) (now : Time) : CapabilityTxn CapabilityRow := do
  let db ← get
  let scope : IntentCapabilityScope := {
    workspaceId := input.workspaceId
    adminUserId := input.adminUserId
    sessionId := input.sessionId
    requestId := input.requestId
    requestHash := input.capability.requestHash
    catalogHash := input.capability.catalogHash }
  let row : CapabilityRow := {
    id := input.id
    scope
    capabilityHash := hashIntentCapability input.capability
    capability := input.capability
    createdAt := now }
  match db.capabilities.rows.find? fun r => r.scope.workspaceId = input.workspaceId ∧
      r.scope.adminUserId = input.adminUserId ∧ r.scope.sessionId = input.sessionId ∧
      r.scope.requestId = input.requestId with
  | some existing =>
      assertScope existing scope (some row.capabilityHash)
      return existing
  | none =>
      if h : db.capabilities.get? (key row) = none then
        set { db with capabilities := db.capabilities.insert row h }
        return row
      else throw (.unique "intent_capabilities")

def assertConfirmation (input : BindIntentCapabilityOperationInput)
    (confirmation : ConfirmationBindingRow) : CapabilityTxn Unit := do
  require (confirmation.operationId = input.operationId)
    (.thrown "intent_capability_confirmation_drift")
  require (confirmation.workspaceId = input.scope.workspaceId)
    (.thrown "intent_capability_workspace_drift")
  require (confirmation.adminUserId = input.scope.adminUserId)
    (.thrown "intent_capability_admin_drift")
  require (confirmation.sessionId = input.scope.sessionId)
    (.thrown "intent_capability_session_drift")
  require (confirmation.catalogHash = input.scope.catalogHash)
    (.thrown "intent_capability_catalog_drift")
  require (confirmation.capabilityId.isNone = confirmation.capabilityHash.isNone)
    (.thrown "intent_capability_binding_drift")
  require (confirmation.capabilityId = none ∨
      confirmation.capabilityId = some input.capabilityId ∧
        confirmation.capabilityHash = some input.capabilityHash)
    (.thrown "intent_capability_binding_drift")

def boundConfirmation (input : BindIntentCapabilityOperationInput) :
    Option ConfirmationId → CapabilityTxn (Option ConfirmationBindingRow)
  | none => return none
  | some confirmationId => do
      let db ← get
      let confirmation ← demand (db.confirmations.get? confirmationId)
        (.thrown "intent_capability_confirmation_drift")
      assertConfirmation input confirmation
      return some confirmation

def bindOperationRow (input : BindIntentCapabilityOperationInput)
    (confirmationId : Option ConfirmationId) (operation : OperationBindingRow) :
    OperationBindingRow :=
  { operation with
    capabilityId := some input.capabilityId
    capabilityHash := some input.capabilityHash
    confirmationId := operation.confirmationId <|> confirmationId }

theorem key_bindOperationRow (input : BindIntentCapabilityOperationInput)
    (confirmationId : Option ConfirmationId) (operation : OperationBindingRow) :
    key (bindOperationRow input confirmationId operation) = key operation := rfl

def bindConfirmationRow (input : BindIntentCapabilityOperationInput)
    (confirmation : ConfirmationBindingRow) : ConfirmationBindingRow :=
  { confirmation with
    capabilityId := some input.capabilityId
    capabilityHash := some input.capabilityHash }

theorem key_bindConfirmationRow (input : BindIntentCapabilityOperationInput)
    (confirmation : ConfirmationBindingRow) :
    key (bindConfirmationRow input confirmation) = key confirmation := rfl

def bindIntentCapabilityOperation (input : BindIntentCapabilityOperationInput) :
    CapabilityTxn BindState := do
  let row ← scopedCapability input.capabilityId input.scope (some input.capabilityHash)
  let operation ← operationBinding input
  require (∃ action ∈ row.capability.writeActions, action.actionName = input.actionName)
    (.thrown "intent_capability_action_denied")
  require (operation.capabilityId.isNone = operation.capabilityHash.isNone)
    (.thrown "intent_capability_binding_drift")
  require (operation.capabilityId = none ∨ operation.capabilityId = some input.capabilityId ∧
      operation.capabilityHash = some input.capabilityHash)
    (.thrown "intent_capability_binding_drift")
  let confirmationId := input.confirmationId <|> operation.confirmationId
  let confirmation ← boundConfirmation input confirmationId
  if operation.capabilityId ≠ none ∧ (∀ c ∈ confirmation, c.capabilityId ≠ none) ∧
      operation.confirmationId = confirmationId then
    return .replay
  require (operation.capabilityId ≠ none ∨ operation.confirmationId = none ∨
      operation.confirmationId = confirmationId) (.thrown "intent_capability_binding_drift")
  modify fun db => { db with
    operations := db.operations.updateWhere
      (fun o => o.id == input.operationId && o.capabilityId.isNone && o.capabilityHash.isNone &&
        (o.confirmationId.isNone || o.confirmationId == confirmationId))
      (bindOperationRow input confirmationId) (key_bindOperationRow input confirmationId)
    confirmations := db.confirmations.updateWhere
      (fun c => confirmationId == some c.id && c.operationId == input.operationId &&
        c.capabilityId.isNone && c.capabilityHash.isNone)
      (bindConfirmationRow input) (key_bindConfirmationRow input) }
  return .bound

def consumeIntentCapabilityExecution (input : BindIntentCapabilityOperationInput) (now : Time) :
    CapabilityTxn ConsumeResult := do
  let row ← scopedCapability input.capabilityId input.scope (some input.capabilityHash)
  let operation ← operationBinding input
  require (operation.capabilityId = some input.capabilityId ∧
      operation.capabilityHash = some input.capabilityHash)
    (.thrown "intent_capability_binding_missing")
  consumeBoundOperation row input.operationId input.actionName now

def consumeIntentCapabilityForOperation (hashIntentCapability : IntentCapability → Hash)
    (input : IntentCapabilityOperationScope) (now : Time) : CapabilityTxn ConsumeResult := do
  let (row, operation) ← capabilityForOperation hashIntentCapability input
  consumeBoundOperation row operation.id operation.actionName now

end ClockifyAssistant
