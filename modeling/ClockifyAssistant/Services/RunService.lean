import ClockifyAssistant.AssistantV2.RunController

/-!
The model call of a run: preflight, at most two attempts at the provider, the charge
for each attempt, and the ends of a run.
-/
namespace ClockifyAssistant

open Lib RunnerProcess

inductive RunOutcome
  | completed (presentationRefs : List (Option ResultId))
  | suspended (reason : SuspensionReason) (continuationId : Option Nat)
      (presentationRefs : List (Option ResultId))
  | failed (code : String) (presentationRefs : List (Option ResultId))
  deriving DecidableEq

namespace RunService

def presentationRefs (state : RunState) : List (Option ResultId) :=
  state.completedResults.map CompletedToolResult.actionResultId

def budgetStopOutcome (state : RunState) (code : String) : RunOutcome :=
  .failed code (presentationRefs state)

def suspendOutcome (state : RunState) (reason : SuspensionReason)
    (continuationId : Option Nat) : RunOutcome :=
  .suspended reason continuationId (presentationRefs state)

def completeOutcome (state : RunState) : RunOutcome :=
  .completed (presentationRefs state)

def failRun (state : RunState) (code : String) : RunnerProcess RunOutcome := do
  commitEvent { state with phase := .failed } (.runFailed code)
  return budgetStopOutcome (← reload state) code

def completeRun (state : RunState) : RunnerProcess RunOutcome := do
  commitEvent { state with phase := .completed } (.runCompleted (presentationRefs state))
  return completeOutcome (← reload state)

def loadedOperationIds (state : RunState) : List String :=
  state.loadedToolNames.filter fun name => name != discoveryMetaToolName

/-- The reservation of the first attempt counts the logical call. -/
def reserveModelCall (state : RunState) (modelCall providerAttempt : Nat) : RunnerProcess Unit :=
  let budget :=
    if providerAttempt = 1 then
      { state.budget with modelCallsUsed := state.budget.modelCallsUsed + 1 }
    else state.budget
  commitEvent { state with budget, phase := .model }
    (.modelStarted modelCall providerAttempt (loadedOperationIds state)
      (0 < state.usedToolNames.length))

def chargeAttemptFailure (state : RunState) (preflight : ModelPreflight) :
    RunnerProcess RunState := do
  let fresh ← reload state
  let fresh := { fresh with
    budget := chargeFailedModelAttempt fresh.budget preflight.inputReserve
      preflight.maxOutputTokens }
  perform (.saveRun fresh)
  return fresh

/-- The second attempt first charges the failure of the first. -/
def onProviderAttempt2 (state : RunState) (preflight : ModelPreflight) (modelCall : Nat) :
    RunnerProcess Unit := do
  let state ← chargeAttemptFailure state preflight
  reserveModelCall (← reload state) modelCall 2

def firstAttempt : RunnerProcess ProviderAttempt := do
  if ← perform .aborted then throw .callerAborted
  perform .fetch

/-- An abort between the attempts leaves the second one out. -/
def retryBackoff : RunnerProcess Unit := do
  if ← perform .aborted then throw .callerAborted

def secondAttempt : RunnerProcess ToolCompletion := do
  match ← perform .fetch with
  | .answered completion => return completion
  | .transient => throw .provider
  | .failed e => throw e

/-- The completion or the exception of the provider client, and the number of attempts
that its observer has seen when it ends. -/
def completeWithTools (state : RunState) (preflight : ModelPreflight) (modelCall : Nat) :
    RunnerProcess (Nat × Except RunError ToolCompletion) := do
  match ← attempted firstAttempt with
  | .error e => return (1, .error e)
  | .ok (.answered completion) => return (1, .ok completion)
  | .ok (.failed e) => return (1, .error e)
  | .ok .transient =>
      match ← attempted retryBackoff with
      | .error e => return (1, .error e)
      | .ok _ =>
          let second ← attempted do
            onProviderAttempt2 state preflight modelCall
            secondAttempt
          return (2, second)

def completeModelCall (state : RunState) (modelCall providerAttempts requestBytes started : Nat)
    (completion : ToolCompletion) : RunnerProcess ToolCompletion := do
  let state ← reload state
  let budget := chargeSuccessfulModelAttempt state.budget
    (completion.usage.bind TokenUsage.safeUsage) requestBytes completion.responseBytes
  let latencyMs := (← perform .monotonicMs) - started
  commitEvent { state with budget }
    (.modelCompleted modelCall providerAttempts completion.usage latencyMs)
  let _ ← reload state
  return completion

/-- The charge after an exception: with a single attempt it is made to a copy of the run
that is read again before it is saved. -/
def chargeException (state : RunState) (preflight : ModelPreflight) (providerAttempts : Nat) :
    RunnerProcess Unit := do
  let state ← reload state
  if providerAttempts = 1 then
    let _copy := { state with
      budget := chargeFailedModelAttempt state.budget preflight.inputReserve
        preflight.maxOutputTokens }
    return ()
  else
    let _ ← chargeAttemptFailure state preflight

/-- The `finally` block: a fresh read of the run, charged with the elapsed time. -/
def chargeWallTime (state : RunState) (started : Nat) : RunnerProcess Unit := do
  let state ← reload state
  let elapsed := (← perform .monotonicMs) - started
  perform (.saveRun { state with
    budget := { state.budget with activeWallMsUsed := state.budget.activeWallMsUsed + elapsed } })

def chargeAnswer (state : RunState) (modelCall requestBytes started : Nat)
    (answer : Nat × Except RunError ToolCompletion) :
    RunnerProcess (Except RunError ToolCompletion) :=
  match answer.2 with
  | .ok completion =>
      attempted (completeModelCall state modelCall answer.1 requestBytes started completion)
  | .error e => return .error e

/-- The `catch` block: what it throws itself replaces the exception that it handles. -/
def finishCall (state : RunState) (preflight : ModelPreflight)
    (modelCall requestBytes started : Nat)
    (answer : Nat × Except RunError ToolCompletion) :
    RunnerProcess (Except RunError ToolCompletion) := do
  match ← chargeAnswer state modelCall requestBytes started answer with
  | .ok completion => return .ok completion
  | .error e =>
      match ← attempted (chargeException state preflight answer.1) with
      | .ok _ => return .error e
      | .error e' => return .error e'

def callReserved (state : RunState) (preflight : ModelPreflight)
    (modelCall requestBytes : Nat) : RunnerProcess ToolCompletion := do
  let state ← reload state
  let started ← perform .monotonicMs
  let answer ← completeWithTools state preflight modelCall
  let ended ← finishCall state preflight modelCall requestBytes started answer
  chargeWallTime state started
  match ended with
  | .ok completion => return completion
  | .error e => throw e

def callModel (state : RunState) (modelCall : Nat) : RunnerProcess ToolCompletion := do
  let requestBytes ← perform .serializeRequest
  match preflightModelRequest state.budget requestBytes with
  | none => throw .tokenBudgetExhausted
  | some preflight =>
      reserveModelCall state modelCall 1
      callReserved state preflight modelCall requestBytes

end RunService

end ClockifyAssistant
