import ClockifyAssistant.Services.ActionExecution

/-!
The durable loop of a run: a model call, then the searches, reads and writes of its
completion, until the run ends or is suspended; and the resolution of a clarification,
which executes a call of its own and resumes the loop.
-/
namespace ClockifyAssistant

open Lib RunnerProcess RunService

structure RunAssistantInput where
  originalRequest : Option String

namespace Runner

structure LoopState where
  state : RunState
  modelCall : Nat
  observations : List RunObservation := []
  lastIteration : Option (List (String × JsonValue) × List RunObservation) := none
  lastDenialCode : Option String := none

inductive IterationEnd
  | ended (outcome : RunOutcome)
  | next (loop : LoopState)

inductive BatchEnd
  | ended (outcome : RunOutcome)
  | done (state : RunState) (observations : List RunObservation)

def modelFailureCode : RunError → String
  | .providerProtocol .unofferedTool => "unoffered_tool"
  | .providerProtocol .malformedTool => "malformed_tool"
  | .providerProtocol .malformedCompletion => "malformed_completion"
  | .tokenBudgetExhausted => "budget_exhausted"
  | _ => "model_failed"

/-- The model call of an iteration. Where it throws, the run fails with the copy of it that
was read before the call. -/
def modelStep (state : RunState) (modelCall : Nat) :
    RunnerProcess (Except RunOutcome ToolCompletion) := do
  match ← attempted (callModel state modelCall) with
  | .ok completion => return .ok completion
  | .error e => return .error (← failRun state (modelFailureCode e))

def decisionOf (state : RunState) (completion : ToolCompletion) : ToolDecision where
  priorToolCallIds := state.completedResults.map CompletedToolResult.toolCallId
  loadedNames := state.loadedToolNames
  catalogHash := state.catalogHash
  toolCalls := completion.toolCalls

def runWrites (state : RunState) (observations : List RunObservation)
    (denied : List DeniedToolCall) (writeCalls : List ToolCall) : RunnerProcess BatchEnd := do
  let recorded (state : RunState) (observations : List RunObservation) :
      RunnerProcess BatchEnd := do
    let denials ← ActionExecution.recordDenials state denied
    return .done denials.1 (observations ++ denials.2)
  if writeCalls.isEmpty then recorded state observations
  else
    let batch ← ActionExecution.prepareWrites state writeCalls
    match batch.suspended, batch.clarification with
    | some confirmationId, _ =>
        return .ended (suspendOutcome batch.state .awaitingConfirmation confirmationId)
    | none, some clarificationId =>
        return .ended (suspendOutcome batch.state .awaitingClarification (some clarificationId))
    | none, none => recorded batch.state (observations ++ batch.observations)

def runCalls (scope : RunnerScope) (state : RunState) (completion : ToolCompletion) :
    RunnerProcess BatchEnd := do
  let decision := decisionOf state completion
  perform (.decide decision)
  let partitioned := ActionExecution.partitionToolCalls scope decision
  if partitioned.duplicateWrite then return .ended (← failRun state "duplicate_write")
  else
    let discovered ← ApiDiscovery.executeDiscoveryBatch state partitioned.discoveryCalls
    let readBatch ← ActionExecution.executeReads discovered.state partitioned.readCalls
      partitioned.denied
    match readBatch.clarification with
    | some clarificationId =>
        return .ended (suspendOutcome readBatch.state .awaitingClarification (some clarificationId))
    | none =>
        if !(← perform .installationCurrent) then
          return .ended (← failRun readBatch.state "installation_changed")
        else
          runWrites readBatch.state (discovered.observations ++ readBatch.observations)
            readBatch.denied partitioned.writeCalls

def runCallsSafely (scope : RunnerScope) (state : RunState) (completion : ToolCompletion) :
    RunnerProcess BatchEnd := do
  match ← attempted (runCalls scope state completion) with
  | .ok ended => return ended
  | .error _ => return .ended (← failRun (← reload state) "internal_error")

def denialCode? : RunObservation → Option String
  | .denied _ code => some code
  | .result _ _ => none

def closeIteration (loop : LoopState) (state : RunState) (iterationStarted : Nat)
    (completion : ToolCompletion) (observations : List RunObservation) :
    RunnerProcess IterationEnd := do
  let iterationElapsed := (← perform .monotonicMs) - iterationStarted
  let state ← reload state
  let state := { state with
    budget := { state.budget with
      activeWallMsUsed := state.budget.activeWallMsUsed + iterationElapsed } }
  perform (.saveRun state)
  let lastDenialCode := (observations.findSome? denialCode?).or loop.lastDenialCode
  let iteration := (completion.toolCalls.map fun call => (call.name, call.arguments), observations)
  if loop.lastIteration == some iteration then
    return .ended (← failRun state (lastDenialCode.getD "no_progress"))
  else
    return .next {
      state
      modelCall := loop.modelCall + 1
      observations := loop.observations ++ observations
      lastIteration := some iteration
      lastDenialCode }

def runIteration (scope : RunnerScope) (loop : LoopState) : RunnerProcess IterationEnd := do
  if ← perform .aborted then return .ended (← failRun loop.state "cancelled")
  else match ← modelStep loop.state (loop.modelCall + 1) with
    | .error outcome => return .ended outcome
    | .ok completion =>
        let state ← reload loop.state
        if !(← perform .installationCurrent) then
          return .ended (← failRun state "installation_changed")
        else
          let iterationStarted ← perform .monotonicMs
          if completion.toolCalls.isEmpty then return .ended (← completeRun state)
          else match ← runCallsSafely scope state completion with
            | .ended outcome => return .ended outcome
            | .done state observations =>
                closeIteration loop state iterationStarted completion observations

def mayContinue (state : RunState) : Bool :=
  canReserveModelCall state.budget && !isTokenBudgetExceeded state.budget &&
    !isActiveWallBudgetExceeded state.budget

def stopLoop (loop : LoopState) : RunnerProcess RunOutcome :=
  failRun loop.state (loop.lastDenialCode.getD "budget_exhausted")

/-- Each iteration reserves a model call, so `fuel` iterations are never used up. -/
def runLoop (scope : RunnerScope) : Nat → LoopState → RunnerProcess RunOutcome
  | 0, loop => if mayContinue loop.state then throw .loopUnbounded else stopLoop loop
  | fuel + 1, loop => do
      if !mayContinue loop.state then stopLoop loop
      else match ← runIteration scope loop with
        | .ended outcome => return outcome
        | .next loop =>
            if !canReserveModelCall loop.state.budget then stopLoop loop
            else runLoop scope fuel loop

def enterLoop (scope : RunnerScope) (state : RunState) : RunnerProcess RunOutcome := do
  if ← perform .aborted then failRun state "cancelled"
  else runLoop scope maxModelCalls { state, modelCall := state.budget.modelCallsUsed }

def freshState (scope : RunnerScope) (prior : Option RunState) : RunState where
  phase := .model
  catalogHash := scope.registry.hash
  loadedToolNames := ApiDiscovery.seedCacheFromPriorRun scope.registry prior scope.registry.hash
  usedToolNames := []
  completedResults := []
  continuation := .none
  budget := createEmptyRunBudget

def startFresh (scope : RunnerScope) (input : RunAssistantInput) : RunnerProcess RunOutcome := do
  if input.originalRequest.getD "" = "" then return .failed "missing_original_request" []
  else
    let prior ← perform .findLatestEligibleRunForCache
    let state := freshState scope prior
    perform (.startRun state)
    enterLoop scope (← reload state)

def pendingClarification : RunContinuation → Option Nat
  | .awaitingClarification clarificationId => some clarificationId
  | _ => none

def pendingOperation : RunContinuation → Option Nat
  | .awaitingOperations operationIds _ => operationIds.head?
  | _ => none

def runAssistantV2 (scope : RunnerScope) (input : RunAssistantInput) :
    RunnerProcess RunOutcome := do
  if !(← perform .installationCurrent) then throw .installationNotCurrent
  match ← perform .getRun with
  | none => startFresh scope input
  | some state =>
      match state.phase with
      | .failed => return budgetStopOutcome state "interrupted_before_durable_completion"
      | .completed => return completeOutcome state
      | .awaitingConfirmation =>
          return suspendOutcome state .awaitingConfirmation (pendingOperation state.continuation)
      | .awaitingClarification =>
          return suspendOutcome state .awaitingClarification
            (pendingClarification state.continuation)
      | _ => enterLoop scope state

/-- What the admin chose, once the clarification is claimed and the arguments parse. -/
structure ChosenOption where
  clarificationId : Nat
  originalToolName : String
  arguments : JsonValue

def clarificationCall (chosen : ChosenOption) : ToolCall where
  id := "clarification:" ++ toString chosen.clarificationId
  name := chosen.originalToolName
  arguments := chosen.arguments

def resolveClarificationOption (state : RunState) (call : ToolCall)
    (actionResultId : ResultId) : RunnerProcess Unit := do
  let completedResults := ActionExecution.linkCompleted state.completedResults
    { toolCallId := call.id, actionName := call.name, actionResultId := some actionResultId }
  commitEvent { state with completedResults, continuation := .none, phase := .model }
    (.toolCompleted call.id call.name (some actionResultId))

/-- `none` where the choice is refused and the clarification goes back to pending. -/
def resolveOption (scope : RunnerScope) (chosen : ChosenOption) :
    RunnerProcess (Option RunOutcome) := do
  let call := clarificationCall chosen
  match (scope.registry.get chosen.originalToolName).bind RegisteredAction.access with
  | none => return none
  | some .read =>
      match ← perform (.executeRead call) with
      | .succeeded actionResultId _ =>
          match ← perform .getRun with
          | none => return none
          | some state =>
              resolveClarificationOption state call actionResultId
              return some (← runAssistantV2 scope ⟨none⟩)
      | _ => return none
  | some .write =>
      match ← perform (.prepare [call]) with
      | .prepared _ confirmationIds _ _ =>
          return some (.suspended .awaitingConfirmation confirmationIds.head? [])
      | _ => return none

end Runner

inductive RunRequest
  | runAssistant (input : RunAssistantInput)
  | resolveOption (chosen : Runner.ChosenOption)
  | other

def RunRequest.handler (scope : RunnerScope) : RunRequest → RunnerProcess (Option RunOutcome)
  | runAssistant input => do return some (← Runner.runAssistantV2 scope input)
  | resolveOption chosen => Runner.resolveOption scope chosen
  | other => do
      perform .wait
      return none

/-- The invocations for one run, one at a time. A crash drops the invocation under way, and
the restart may write to the run. -/
def runController (scope : RunnerScope) : Server RunnerOp fun o => Except RunError o.Val where
  World := RunWorld
  Env := RunnerEnv
  exec o env w := o.exec env w
  suspends := fun _ => false
  Request := RunRequest
  Response := Except RunError (Option RunOutcome)
  handler request := (request.handler scope).run
  restart env w := some (w.await env.others)

end ClockifyAssistant
