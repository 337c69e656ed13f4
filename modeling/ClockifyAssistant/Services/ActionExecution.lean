import ClockifyAssistant.Services.ApiDiscovery

/-!
The tool calls of a completion: each is accepted or denied, the accepted ones are parted
into reads, writes and searches, and the reads and writes are run against what the
budget of the run has left.
-/
namespace ClockifyAssistant

open Lib RunnerProcess

structure DeniedToolCall where
  toolCallId : ToolCallId
  actionName : String
  code : String
  deriving DecidableEq

structure RunnerScope where
  registry : ActionRegistry
  authClass : AuthClass

def ToolCall.isDiscovery (call : ToolCall) : Bool := call.name == discoveryMetaToolName

namespace ActionExecution

def validateLoadedToolCall (scope : RunnerScope) (toolName : String) (loadedNames : List String)
    (expectedCatalogHash currentCatalogHash : String) : Except String Unit :=
  if toolName = discoveryMetaToolName then
    if loadedNames.contains discoveryMetaToolName then .ok () else .error "tool_not_loaded"
  else if expectedCatalogHash ≠ currentCatalogHash then .error "stale_catalog_hash"
  else if !loadedNames.contains toolName then .error "tool_not_loaded"
  else match scope.registry.get toolName with
    | none => .error "unknown_tool"
    | some _ =>
        if scope.registry.available toolName scope.authClass then .ok ()
        else .error "unavailable_for_auth_class"

def mixedDiscovery (toolCalls : List ToolCall) : Bool :=
  toolCalls.any ToolCall.isDiscovery && toolCalls.any fun call => !call.isDiscovery

/-- A call with the code of its denial, `none` where it is accepted. -/
abbrev ToolVerdict : Type := ToolCall × Option String

def mixedVerdict (call : ToolCall) : ToolVerdict :=
  (call, if call.isDiscovery then none else some "mixed_discovery_batch")

def validateEach (validate : String → Except String Unit) :
    List ToolCallId → List ToolCall → List ToolVerdict
  | _, [] => []
  | seenIds, call :: rest =>
      if seenIds.contains call.id then
        (call, some "duplicate_tool_call_id") :: validateEach validate seenIds rest
      else match validate call.name with
        | .error reason => (call, some reason) :: validateEach validate (call.id :: seenIds) rest
        | .ok _ => (call, none) :: validateEach validate (call.id :: seenIds) rest

def validateCall (scope : RunnerScope) (decision : ToolDecision) (toolName : String) :
    Except String Unit :=
  validateLoadedToolCall scope toolName decision.loadedNames decision.catalogHash
    decision.catalogHash

def toolVerdicts (scope : RunnerScope) (decision : ToolDecision) : List ToolVerdict :=
  if mixedDiscovery decision.toolCalls then decision.toolCalls.map mixedVerdict
  else validateEach (validateCall scope decision) decision.priorToolCallIds decision.toolCalls

def ToolVerdict.accepted? (verdict : ToolVerdict) : Option ToolCall :=
  if verdict.2.isNone then some verdict.1 else none

def ToolVerdict.denied? (verdict : ToolVerdict) : Option DeniedToolCall :=
  verdict.2.map fun code => { toolCallId := verdict.1.id, actionName := verdict.1.name, code }

structure ToolValidation where
  accepted : List ToolCall
  denied : List DeniedToolCall

def validateCompletionToolCalls (scope : RunnerScope) (decision : ToolDecision) :
    ToolValidation where
  accepted := (toolVerdicts scope decision).filterMap ToolVerdict.accepted?
  denied := (toolVerdicts scope decision).filterMap ToolVerdict.denied?

mutual

def canonicalArguments : JsonValue → JsonValue
  | .arr items => .arr (canonicalItems items)
  | .obj fields => .obj ((canonicalFields fields).insertionSort fun a b => a.1 ≤ b.1)
  | value => value

def canonicalItems : List JsonValue → List JsonValue
  | [] => []
  | item :: rest => canonicalArguments item :: canonicalItems rest

def canonicalFields : List (String × JsonValue) → List (String × JsonValue)
  | [] => []
  | (name, value) :: rest => (name, canonicalArguments value) :: canonicalFields rest

end

structure PartitionedToolCalls where
  readCalls : List ToolCall
  writeCalls : List ToolCall
  discoveryCalls : List ToolCall
  denied : List DeniedToolCall
  /-- Two write calls of one completion with the same name and arguments. -/
  duplicateWrite : Bool

inductive ToolSlot
  | discovery | write | read
  deriving DecidableEq

/-- An operation of unknown access counts as a write. -/
def slotOf (registry : ActionRegistry) (call : ToolCall) : ToolSlot :=
  if call.isDiscovery then .discovery
  else if registry.isWriteAction call.name then .write
  else if registry.isReadAction call.name then .read
  else .write

def hasDuplicateWrite (writeCalls : List ToolCall) : Bool :=
  let writeNames := writeCalls.map fun call => (call.name, canonicalArguments call.arguments)
  writeNames.eraseDups.length != writeNames.length

def partitionToolCalls (scope : RunnerScope) (decision : ToolDecision) : PartitionedToolCalls :=
  let validation := validateCompletionToolCalls scope decision
  let inSlot := fun slot => validation.accepted.filter fun call =>
    slotOf scope.registry call == slot
  let readCalls := inSlot .read
  let dependent := !readCalls.isEmpty && !(inSlot .write).isEmpty
  let writeCalls := if dependent then [] else inSlot .write
  let denied := if dependent then
      validation.denied ++ (inSlot .write).map fun call =>
        { toolCallId := call.id, actionName := call.name, code := "read_write_dependency" }
    else validation.denied
  { readCalls
    writeCalls
    discoveryCalls := inSlot .discovery
    denied
    duplicateWrite := hasDuplicateWrite writeCalls }

/-- The longest prefix of at most `bytes` bytes. -/
def prefixWithin (bytes : Nat) : List Char → List Char
  | [] => []
  | c :: rest => if c.utf8Size ≤ bytes then c :: prefixWithin (bytes - c.utf8Size) rest else []

def boundedDenialCode (code : String) : String :=
  if boundedString code then code
  else String.ofList (prefixWithin 253 code.toList) ++ "…"

/-- The code of an exception that ended a read: a known reason, or `internal_error`. -/
def readErrorCode : RunError → String
  | .installationNotCurrent => "installation_changed"
  | _ => "internal_error"

/-- The reads of the pool in the order of the calls. A worker asks before each call whether
it may go on, and none goes on once one of them was told to stop; reads in flight still
end. `none` is a call that was not admitted. -/
def runReadPool (stopped : Bool) :
    List ToolCall → RunnerProcess (List (ToolCall × Option ReadExecutionOutcome))
  | [] => return []
  | call :: rest => do
      let admitted ← if stopped then pure false else perform .admitRead
      if !admitted then
        return (call, none) :: (← runReadPool true rest)
      else
        let outcome ← attempted (perform (.executeRead call))
        let outcome := match outcome with
          | .ok outcome => outcome
          | .error e => .denied (readErrorCode e)
        return (call, some outcome) :: (← runReadPool false rest)

def executeReadsConcurrently (calls : List ToolCall) :
    RunnerProcess (List (ToolCall × ReadExecutionOutcome)) := do
  let ordered ← runReadPool false calls
  let aborted ← perform .aborted
  let refused : ReadExecutionOutcome :=
    .denied (if aborted then "cancelled_before_dispatch" else "not_admitted")
  return ordered.map fun entry => (entry.1, entry.2.getD refused)

def requestTool (state : RunState) (call : ToolCall) : RunnerProcess RunState := do
  commitEvent state (.toolRequested call.id call.name)
  reload state

def denyTool (state : RunState) (toolCallId : ToolCallId) (actionName code : String) :
    RunnerProcess RunState := do
  commitEvent state (.toolDenied toolCallId actionName code)
  reload state

/-- The start of a read counts it as an API call. -/
def startTool (state : RunState) (call : ToolCall) : RunnerProcess RunState := do
  let budget := { state.budget with apiCallsUsed := state.budget.apiCallsUsed + 1 }
  commitEvent { state with budget, phase := .executingReads } (.toolStarted call.id call.name)
  reload state

def linkCompleted (results : List CompletedToolResult) (result : CompletedToolResult) :
    List CompletedToolResult :=
  if results.any fun link => link.toolCallId == result.toolCallId then results
  else results ++ [result]

def completeTool (state : RunState) (call : ToolCall) (actionResultId : Option ResultId) :
    RunnerProcess RunState := do
  let completedResults := linkCompleted state.completedResults
    { toolCallId := call.id, actionName := call.name, actionResultId }
  commitEvent { state with completedResults } (.toolCompleted call.id call.name actionResultId)
  reload state

structure ReadJournal where
  state : RunState
  observations : List RunObservation
  firstClarification : Option (Nat × ResultId)

def journalRead (journal : ReadJournal) (call : ToolCall) (outcome : ReadExecutionOutcome) :
    RunnerProcess ReadJournal := do
  let state ← requestTool journal.state call
  let state ← startTool state call
  let state := { state with usedToolNames := ApiDiscovery.addName state.usedToolNames call.name }
  let deny := fun (code : String) => do
    let code := boundedDenialCode code
    let state ← denyTool state call.id call.name code
    return { journal with state, observations := journal.observations ++ [.denied call.name code] }
  match outcome with
  | .succeeded actionResultId modelSummary =>
      let state ← completeTool state call (some actionResultId)
      let learned := (modelSummary.map (RunObservation.result call.name)).toList
      return { journal with state, observations := journal.observations ++ learned }
  | .denied code => deny code
  | .validationFailed code => deny code
  | .failed code => deny code
  | .clarification clarificationId actionResultId =>
      let firstClarification :=
        journal.firstClarification <|> some (clarificationId, actionResultId)
      return { journal with state, firstClarification }

def journalReads (journal : ReadJournal) :
    List (ToolCall × ReadExecutionOutcome) → RunnerProcess ReadJournal
  | [] => return journal
  | entry :: rest => do journalReads (← journalRead journal entry.1 entry.2) rest

def requireClarificationAndSuspend (state : RunState) (clarificationId : Nat)
    (actionResultId : ResultId) : RunnerProcess RunState := do
  let continuation := .awaitingClarification clarificationId
  perform (.commitStateEvents { state with continuation, phase := .awaitingClarification }
    [.clarificationRequired clarificationId actionResultId, .runSuspended .awaitingClarification])
  reload state

structure ReadBatchResult where
  state : RunState
  clarification : Option Nat
  observations : List RunObservation
  denied : List DeniedToolCall

def remainingLogical (state : RunState) : Nat := maxApiCalls - state.budget.apiCallsUsed

def executeReads (state : RunState) (readCalls : List ToolCall) (denied : List DeniedToolCall) :
    RunnerProcess ReadBatchResult := do
  let readCallsToRun := readCalls.take (remainingLogical state)
  let denied := denied ++ (readCalls.drop (remainingLogical state)).map fun call =>
    { toolCallId := call.id, actionName := call.name, code := "budget_exhausted" }
  let readOutcomes ← executeReadsConcurrently readCallsToRun
  let journal ← journalReads ⟨state, [], none⟩ readOutcomes
  match journal.firstClarification with
  | some (clarificationId, actionResultId) =>
      let state ← requireClarificationAndSuspend journal.state clarificationId actionResultId
      return {
        state, clarification := some clarificationId, observations := journal.observations, denied }
  | none =>
      return {
        state := journal.state, clarification := none, observations := journal.observations, denied }

def denyTools (state : RunState) (observations : List RunObservation) :
    List DeniedToolCall → RunnerProcess (RunState × List RunObservation)
  | [] => return (state, observations)
  | d :: rest => do
      let state ← denyTool state d.toolCallId d.actionName d.code
      denyTools state (observations ++ [.denied d.actionName d.code]) rest

def recordDenials (state : RunState) (denied : List DeniedToolCall) :
    RunnerProcess (RunState × List RunObservation) :=
  denyTools state [] (denied.map fun d => { d with code := boundedDenialCode d.code })

def requestTools (state : RunState) : List ToolCall → RunnerProcess RunState
  | [] => return state
  | call :: rest => do requestTools (← requestTool state call) rest

structure WriteBatchResult where
  state : RunState
  suspended : Option (Option ConfirmationId)
  clarification : Option Nat
  observations : List RunObservation

def denialsOf (calls : List ToolCall) (code : String) : List DeniedToolCall :=
  calls.map fun call => { toolCallId := call.id, actionName := call.name, code }

def settlePreparation (state : RunState) (writeCalls : List ToolCall)
    (observations : List RunObservation) (preparation : WritePreparationOutcome) :
    RunnerProcess WriteBatchResult := do
  match preparation with
  | .prepared _ confirmationIds _ _ =>
      let state ← reload state
      return { state, suspended := some confirmationIds.head?, clarification := none, observations }
  | .clarification clarificationId actionResultId =>
      let state ← requireClarificationAndSuspend state clarificationId actionResultId
      return { state, suspended := none, clarification := some clarificationId, observations }
  | .notReady actionResultId =>
      match writeCalls.head? with
      | none => return { state, suspended := none, clarification := none, observations }
      | some call =>
          let state ← completeTool state call actionResultId
          return {
            state, suspended := none, clarification := none
            observations := observations ++ [.denied call.name "write_port_not_ready"] }
  | .denied code =>
      let denied ← denyTools state observations (denialsOf writeCalls code)
      return {
        state := denied.1, suspended := none, clarification := none, observations := denied.2 }

def prepareWrites (state : RunState) (writeCalls : List ToolCall) :
    RunnerProcess WriteBatchResult := do
  let admitted := writeCalls.take (remainingLogical state)
  let excess := writeCalls.drop (remainingLogical state)
  let (state, observations) ← denyTools state [] (denialsOf excess "budget_exhausted")
  if admitted.isEmpty then
    return { state, suspended := none, clarification := none, observations }
  else
    let state := { state with
      budget := { state.budget with
        apiCallsUsed := state.budget.apiCallsUsed + admitted.length } }
    perform (.saveAdmission state admitted)
    let state ← requestTools state admitted
    let preparation ← attempted (perform (.prepare admitted))
    let preparation := match preparation with
      | .ok outcome => outcome
      | .error _ => .notReady none
    settlePreparation state admitted observations preparation

end ActionExecution

end ClockifyAssistant
