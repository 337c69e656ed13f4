import ClockifyAssistant.Routes.TurnMachinery
import ClockifyAssistant.Services.ActionExecution

/-!
The chat turn: the execution of an action, the emitters of its result, the loop of the
agent and its settlement, and the planned turn that runs each proposed action once.
-/
namespace ClockifyAssistant

open Lib Fallible

namespace TurnMachinery

def newObject : Turn ResultObject := do
  let m ← perform .memory
  perform (.remember { m with made := m.made + 1 })
  return .made m.made

/-- `errorReceipt({ … })` makes an object of its own. -/
def errorOutcome (e : ErrorReceipt) : Turn (ActionOutcome ResultObject) := do
  return .receipt (← newObject) { receipt := .error e } none

def bestEffort {α : Type} (m : Turn α) : Turn (Option α) :=
  tryCatch (some <$> m) fun _ => return none

/-! The executor of an action. -/

def writeFailureReceipt (actionName : String) (e : TurnError) : ErrorReceipt :=
  match e.kind with
  | .budgetExceeded => {
      action := actionName
      code := "host_call_budget_exceeded"
      message := e.message
      hint := some "Start a fresh request with a smaller batch."
      retryable := some true }
  | .ambiguousWrite => {
      action := actionName
      code := "commit_outcome_unknown"
      message := "Clockify did not provide a definitive response, so this change may or may not have been applied. I will not retry it automatically."
      hint := some "Check Clockify for the intended change before deciding whether to try again."
      retryable := some false }
  | .definitiveWrite => {
      action := actionName
      code := "definitive_write_failure"
      message := e.message
      hint := some "Correct the request or permissions, then run a fresh attempt."
      retryable := some false }
  | _ => {
      action := actionName
      code := "execution_error"
      message := e.message
      hint := some "The action failed during execution."
      retryable := some true }

def unknownAction (actionName : String) (suggestions : List String) : ErrorReceipt where
  action := actionName
  code := "unknown_action"
  message := "Unknown action: " ++ actionName
  hint := some (if suggestions.isEmpty then "Use only the actions in the catalog."
    else "Did you mean: " ++ String.intercalate ", " suggestions ++ "? Use only catalog action names.")
  retryable := some (!suggestions.isEmpty)

def unclassifiedAction (actionName : String) : ErrorReceipt where
  action := actionName
  code := "unclassified_action"
  message := "Action kind and risk classification are inconsistent; refusing to execute."
  hint := some "This action needs a valid discriminated risk classification."
  retryable := some false

def riskyWithoutConfirmation (actionName : String) : ErrorReceipt where
  action := actionName
  code := "risky_without_confirmation"
  message := "Risky action attempted to execute without confirmation."
  hint := some "This is a bug; the action was blocked."
  retryable := some false

def invalidWriteAuthority (actionName detail : String) : ErrorReceipt where
  action := actionName
  code := "intent_capability_denied"
  message := "The normalized operation exceeds this action's reviewed write authority."
  hint := some ("Create a fresh request after the action contract is corrected (" ++ detail ++ ").")
  retryable := some false

def invalidSafeWritePreparation (actionName : String) : ErrorReceipt where
  action := actionName
  code := "invalid_safe_write_preparation"
  message := "Safe-write preparation returned an invalid result."
  hint := some "Correct the action's prepare contract before retrying."
  retryable := some false

/-- The journal of a chat turn settles nothing here; a result gets its operation, which
makes a partial result another object. -/
def settleImmediateOperation (operationId : Option OperationId)
    (result : ActionOutcome ResultObject) : Turn (ActionOutcome ResultObject) := do
  match operationId, result with
  | none, _ => return result
  | some id, .receipt object r _ => return .receipt object r (some id)
  | some id, .partially _ r _ => return .partially (← newObject) r (some id)
  | some _, other => return other

/-- A risky write only ever previews. -/
def proposeRiskyWrite (call : ToolCall) : Turn (ActionOutcome ResultObject) := do
  match (← perform (.handler call)).returned with
  | .receipt object r operationId =>
      if r.ok then errorOutcome (riskyWithoutConfirmation call.name)
      else return .receipt object r operationId
  | .preview operation card => do
      match ← perform (.checkWriteAuthority call) with
      | some detail => errorOutcome (invalidWriteAuthority call.name detail)
      | none => return .preview operation card
  | other => return other

/-- A failure becomes a receipt; the failure of a preparation names its own operation. -/
def settleFailedWrite (call : ToolCall) (operationId : Option OperationId) (e : TurnError) :
    Turn (ActionOutcome ResultObject) := do
  let failed ← errorOutcome (writeFailureReceipt call.name e)
  settleImmediateOperation (e.operationId.or operationId) failed

/-- The journaled execution of a prepared write; one without a plan ends before it starts. -/
def dispatchSafeWrite (config : TurnConfig) (call : ToolCall) (lease : Option Nat)
    (bounded : Bool) : Turn (ActionOutcome ResultObject) := do
  let prepared ← caught (if config.journaled then some <$> perform (.prepareOperation call)
    else return none)
  match prepared with
  | .error e => settleFailedWrite call none e
  | .ok operationId =>
      let executed ← caught (do
        if let some id := operationId then perform (.markExecuting id)
        if bounded then some <$> perform (.executeSafeWrite call lease) else return none)
      match executed with
      | .error e => settleFailedWrite call operationId e
      | .ok none => do
          let invalid ← errorOutcome (invalidSafeWritePreparation call.name)
          settleImmediateOperation operationId invalid
      | .ok (some (true, object, r)) =>
          settleImmediateOperation operationId (.partially (.returned object) r none)
      | .ok (some (false, object, r)) =>
          settleImmediateOperation operationId (.receipt (.returned object) r none)

def authorizedWrite (config : TurnConfig) (call : ToolCall) (lease : Option Nat)
    (bounded : Bool) : Turn (ActionOutcome ResultObject) := do
  match ← perform (.authorizeWrite call.name) with
  | some denial => errorOutcome denial
  | none => dispatchSafeWrite config call lease bounded

def executePreparedWrite (config : TurnConfig) (call : ToolCall) (lease : Option Nat) :
    Turn (ActionOutcome ResultObject) := do
  match ← caught (perform (.prepareSafeWrite call)) with
  | .error e => errorOutcome (writeFailureReceipt call.name e)
  | .ok (.clarification message options) => return .clarify message options
  | .ok (.noop object r) => return .receipt (.returned object) r none
  | .ok .invalid => errorOutcome (invalidSafeWritePreparation call.name)
  | .ok .absent => authorizedWrite config call lease false
  | .ok .prepared => do
      match ← perform (.checkWriteAuthority call) with
      | some detail => errorOutcome (invalidWriteAuthority call.name detail)
      | none => authorizedWrite config call lease true

def executeAction (config : TurnConfig) (call : ToolCall) (lease : Option Nat) :
    Turn (ActionOutcome ResultObject) := do
  match config.getAction call.name with
  | none => errorOutcome (unknownAction call.name (config.suggestActionNames call.name))
  | some action =>
      match ← perform (.checkAction call) with
      | some refusal => errorOutcome refusal
      | none =>
          if action.kindMatchesRisk then
            match ← perform (.checkPolicy call) with
            | some refusal => errorOutcome refusal
            | none =>
                match action.kind with
                | .riskyWrite => proposeRiskyWrite call
                | .read => return (← perform (.handler call)).returned
                | .safeWrite => executePreparedWrite config call lease
          else errorOutcome (unclassifiedAction call.name)

/-! The emitters. -/

def releaseResultLease (result : ResultObject) : Turn Unit := do
  let m ← perform .memory
  match m.resultLeases result with
  | none => return
  | some lease => do
      perform (.remember { m with resultLeases := Function.update m.resultLeases result none })
      perform (.release lease)

def emit (result : TurnResult) : Turn Unit := do
  let m ← perform .memory
  perform (.remember { m with results := m.results ++ [result] })
  perform (.onResult result)

def storedOrGivenUp (store : Turn ResultId) (giveUp : Turn Unit) : Turn (Option ResultId) := do
  match ← bestEffort store with
  | some resultRef => return some resultRef
  | none =>
      match ← bestEffort store with
      | some resultRef => return some resultRef
      | none => do
          giveUp
          return none

def persistCanonicalResult (owner : ResultObject) (status : ActionResultKind)
    (operationId : Option OperationId) : Turn (Option ResultId) :=
  storedOrGivenUp (perform (.persistResult owner status operationId))
    (perform (.reportDegraded owner))

def emitCanonical (owner : ResultObject) (outcome : ActionOutcome ResultObject)
    (status : ActionResultKind) (operationId : Option OperationId) : Turn Unit := do
  match ← persistCanonicalResult owner status operationId with
  | some resultRef => do
      let _ ← bestEffort (perform (.addAuditEvent resultRef))
      emit (.stored outcome resultRef)
  | none => emit (.degraded outcome)

/-- A result with no lease is not recorded for a workspace that is gone. -/
def auditAndEmit (owner : ResultObject) (outcome : ActionOutcome ResultObject)
    (r : TurnReceipt) (status : ActionResultKind) (operationId : Option OperationId) : Turn Unit :=
  ensuring (do
    let m ← perform .memory
    let current ← if (m.resultLeases owner).isSome then pure true
      else perform .turnAuthorityCurrent
    if current then
      let _ ← bestEffort (perform (.recordUndoIfReversible r))
      emitCanonical owner outcome status operationId)
    (releaseResultLease owner)

def TurnReceipt.resultKind (r : TurnReceipt) : ActionResultKind :=
  if r.ok then .succeeded
  else if r.code = some "commit_outcome_unknown" then .outcomeUnknown
  else .definitiveFailed

def auditAndEmitReceipt (owner : ResultObject) (r : TurnReceipt)
    (operationId : Option OperationId) : Turn Unit :=
  auditAndEmit owner (.receipt owner r operationId) r r.resultKind operationId

def auditAndEmitPartial (owner : ResultObject) (r : TurnReceipt)
    (operationId : Option OperationId) : Turn Unit :=
  auditAndEmit owner (.partially owner r none) r .partially operationId

def previewAborted (operation : ResultObject) : Turn Bool := do
  let m ← perform .memory
  match m.resultLeases operation with
  | some lease => perform (.leaseAborted lease)
  | none => return false

def savePreview (config : TurnConfig) (card : Json) (operation : ResultObject) : Turn Unit := do
  if !(← perform .turnAuthorityCurrent) then throw revokedError
  perform (.prepareOperationRun operation)
  perform (.savePendingConfirmation operation)
  if config.intentCapability.isSome then
    perform (.bindIntentCapabilityOperation operation)
  emit (.preview card)

def emitPreviewFor (config : TurnConfig) (card : Json) (operation : ResultObject) : Turn Unit :=
  ensuring (do
    if config.intentCapabilitiesEnforced && config.intentCapability.isNone then
      throw ⟨.other, "intent_capability_missing"⟩
    if ← previewAborted operation then throw cancelledError
    savePreview config card operation)
    (releaseResultLease operation)

/-! The execution of one tool call. -/

def correctsProject (name : String) (call : ToolCall) : Bool :=
  call.name == "clockify_projects_update" &&
    call.arguments.property "currentName" == some (.str name) &&
    call.arguments.property "isPublic" == some (.bool false) &&
    (call.arguments.record?.map fun fields => fields.length) == some 2

def correctionNotSatisfied (actionName : String) : ErrorReceipt where
  action := actionName
  code := "intent_capability_argument_mismatch"
  message := "The pending project-name correction was not satisfied. No change was made."
  hint := some "Restate the intended project update in a fresh request."
  retryable := some false

def writeNotAuthorized (actionName : String) : ErrorReceipt where
  action := actionName
  code := "intent_capability_denied"
  message := "This write was not authorized by the admin-authored request."
  hint := some "Ask for the write explicitly in a fresh request."
  retryable := some false

def internalCorrection (actionName projectName : String) : ErrorReceipt where
  action := actionName
  code := "internal_argument_correction"
  message := "Use the exact admin-authored project name \"" ++ projectName ++ "\" as currentName. Do not use the project id in a name-shaped field. Call clockify_projects_update again with that exact currentName."
  hint := some "Retry once with the exact capability-bound project name."
  retryable := some true

def TurnConfig.writeDeclared (config : TurnConfig) (actionName : String) : Bool :=
  ((config.intentCapability.bind IntentCapability.writeActions).getD []).contains actionName

def TurnConfig.capabilityLiteralBound (config : TurnConfig) (actionName path : String)
    (value : JsonValue) : Bool :=
  config.writeDeclared actionName &&
    (config.intentCapability.any fun capability => capability.literalConstraints.any fun c =>
      c.actionName == actionName && c.path == path && c.value == value)

def TurnConfig.isWrite (config : TurnConfig) (actionName : String) : Bool :=
  (config.getAction actionName).any ActionDefinition.isWrite

def TurnConfig.correctableProject (config : TurnConfig) (m : TurnMemory) (call : ToolCall) :
    Option AdjacentProject :=
  config.adjacentCreatedProject.filter fun project =>
    m.adjacentProjectResolvedInLoop && !m.adjacentProjectCorrectionIssued &&
      correctsProject project.id call &&
      config.capabilityLiteralBound call.name "currentName" (.str project.name) &&
      config.capabilityLiteralBound call.name "isPublic" (.bool false)

/-- A write that the request does not declare is turned away; so is one that names the
project by its id, once, with the correction. -/
def refuseUndeclared (config : TurnConfig) (m : TurnMemory) (call : ToolCall) :
    Turn (Option (ActionOutcome ResultObject)) := do
  if config.intentCapabilitiesEnforced && config.isWrite call.name &&
      !config.writeDeclared call.name then
    return some (← errorOutcome (writeNotAuthorized call.name))
  match config.correctableProject m call with
  | none => return none
  | some project => do
      let object ← newObject
      let m ← perform .memory
      perform (.remember { m with
        adjacentProjectCorrectionIssued := true
        adjacentProjectCorrectionPending := true
        internalCorrectionReceipts := object :: m.internalCorrectionReceipts })
      return some (.receipt object
        { receipt := .error (internalCorrection call.name project.name) } none)

def refuseAction (config : TurnConfig) (call : ToolCall) :
    Turn (Option (ActionOutcome ResultObject)) := do
  let m ← perform .memory
  if m.adjacentProjectCorrectionPending then
    if (config.adjacentCreatedProject.any fun project => correctsProject project.name call) then
      perform (.remember { m with adjacentProjectCorrectionPending := false })
      refuseUndeclared config m call
    else return some (← errorOutcome (correctionNotSatisfied call.name))
  else refuseUndeclared config m call

def trackProject (config : TurnConfig) (call : ToolCall) (result : ActionOutcome ResultObject) :
    Turn Unit := do
  match config.adjacentCreatedProject, result with
  | some project, .receipt _ r _ =>
      match r.data with
      | some entity =>
          if call.name = "clockify_projects_get" && r.ok then
            let m ← perform .memory
            perform (.remember { m with
              adjacentProjectResolvedInLoop := entity == some (project.id, project.name) })
      | none => return
  | _, _ => return

def executeTracked (config : TurnConfig) (call : ToolCall) (lease : Option Nat) :
    Turn (ActionOutcome ResultObject) := do
  let result ← executeAction config call lease
  trackProject config call result
  return result

def holdLease (object : ResultObject) (lease : Nat) : Turn Unit := do
  let m ← perform .memory
  perform (.remember { m with
    resultLeases := Function.update m.resultLeases object (some lease) })

/-- The lease goes to the object whose emitter will release it; a question needs none. -/
def handOver (lease : Nat) : ActionOutcome ResultObject → Turn Unit
  | .receipt object _ _ => holdLease object lease
  | .partially object _ _ => holdLease object lease
  | .preview operation _ => holdLease operation lease
  | .clarify _ _ => perform (.release lease)

def executeLeased (config : TurnConfig) (call : ToolCall) (lease : Nat) :
    Turn (ActionOutcome ResultObject) :=
  tryCatch (do
    if ← perform (.leaseAborted lease) then throw cancelledError
    executeTracked config call (some lease))
    fun e => do
      perform (.release lease)
      throw e

def failedAction (actionName : String) (e : TurnError) : ErrorReceipt :=
  match e.kind with
  | .revoked => {
      action := actionName
      code := "installation_changed"
      message := "The Clockify installation changed before this action could run. No change was made."
      hint := some "Retry from the active installation."
      retryable := some false }
  | .cancelled => {
      action := actionName
      code := "request_cancelled"
      message := "The request was cancelled before the Clockify change was dispatched. No change was made."
      hint := some "Send the request again if you still want this change."
      retryable := some false }
  | _ => { action := actionName, code := "action_failed", message := e.message.take 200 |>.toString }

/-- A write runs under a lease of its own. -/
def performAction (config : TurnConfig) (call : ToolCall) : Turn (ActionOutcome ResultObject) := do
  let isWrite := config.isWrite call.name
  if (config.getAction call.name).isSome && (!isWrite || !config.intentCapabilitiesEnforced) then
    perform .ensureCalendar
  if isWrite then
    let lease ← perform .acquire
    let result ← executeLeased config call lease
    handOver lease result
    return result
  else executeTracked config call none

def runAction (config : TurnConfig) (call : ToolCall) : Turn (ActionOutcome ResultObject) := do
  perform (.onStatus call)
  let attempt ← caught (do
    match ← refuseAction config call with
    | some refusal => return refusal
    | none => performAction config call)
  match attempt with
  | .ok result => return result
  | .error e => errorOutcome (failedAction call.name e)

def onStep (result : ActionOutcome ResultObject) : Turn Unit := do
  match result with
  | .receipt object r operationId =>
      let m ← perform .memory
      if m.internalCorrectionReceipts.contains object then return
      else auditAndEmitReceipt object r operationId
  | .partially object r operationId => auditAndEmitPartial object r operationId
  | .clarify message options => emit (.clarify message options)
  | .preview _ _ => return

end TurnMachinery

end ClockifyAssistant
