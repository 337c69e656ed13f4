import ClockifyAssistant.AssistantV2.RunState
import ClockifyAssistant.Lib.FallibleProcess
import ClockifyAssistant.Lib.JsonValue

/-!
The controller of one run: the durable row and event log of the run, and the
operations with which its services read, write and wait. One invocation runs at a
time; while it waits, the rest of the program may write the phase, the continuation
and the host calls of the row.
-/
namespace ClockifyAssistant

open Lib

structure ToolCall where
  id : ToolCallId
  name : String
  arguments : JsonValue

structure ToolCompletion where
  toolCalls : List ToolCall
  usage : Option TokenUsage
  /-- The size of the serialized completion. -/
  responseBytes : ℕ+

inductive ApiSearchAccessFilter
  | read | write | any
  deriving DecidableEq

structure FindApiOperationsInput where
  query : String
  access : Option ApiSearchAccessFilter
  groups : Option (List String)
  limit : Option Nat
  deriving DecidableEq

inductive ProviderProtocolErrorReason
  | unofferedTool | malformedTool | malformedCompletion
  deriving DecidableEq

inductive RunError
  | invalidEventPayload
  | assistantRunNotFound
  | resultLink
  | runExists
  | installationNotCurrent
  | tokenBudgetExhausted
  | callerAborted
  | providerProtocol (reason : ProviderProtocolErrorReason)
  | provider
  | discovery
  | loopUnbounded
  deriving DecidableEq

/-- How one HTTP attempt at the provider ends; a 429 or 5xx is transient. -/
inductive ProviderAttempt
  | answered (completion : ToolCompletion)
  | transient
  | failed (error : RunError)

inductive ReadExecutionOutcome
  | succeeded (actionResultId : ResultId) (modelSummary : Option String)
  | clarification (clarificationId : Nat) (actionResultId : ResultId)
  | denied (code : String)
  | validationFailed (code : String)
  | failed (code : String)

inductive WritePreparationOutcome
  | prepared (operationIds : List OperationId) (confirmationIds : List ConfirmationId)
      (batchId : Option BatchId) (hostCallsReserved : Nat)
  | clarification (clarificationId : Nat) (actionResultId : ResultId)
  | denied (code : String)
  | notReady (actionResultId : Option ResultId)

inductive SuspensionReason
  | awaitingConfirmation | awaitingClarification
  deriving DecidableEq

inductive RunnerEvent
  | runStarted
  | modelStarted (modelCall providerAttempt : Nat) (loadedOperationIds : List String)
      (cacheSeeded : Bool)
  | modelCompleted (modelCall providerAttempts : Nat) (usage : Option TokenUsage) (latencyMs : Nat)
  | apiSearchStarted (searchIndex : Nat) (access : ApiSearchAccessFilter) (groups : List String)
  | apiOperationsLoaded (operationIds : List String)
  | toolRequested (toolCallId : ToolCallId) (actionName : String)
  | toolDenied (toolCallId : ToolCallId) (actionName : String) (code : String)
  | toolStarted (toolCallId : ToolCallId) (actionName : String)
  | toolCompleted (toolCallId : ToolCallId) (actionName : String) (actionResultId : Option ResultId)
  | clarificationRequired (clarificationId : Nat) (actionResultId : ResultId)
  | runSuspended (reason : SuspensionReason)
  | runCompleted (actionResultIds : List (Option ResultId))
  | runFailed (code : String)
  deriving DecidableEq

def featureGroupNames : List String :=
  ["time_tracking", "work_structure", "reports", "invoices", "expenses", "users_groups",
    "time_off_approvals", "scheduling", "webhooks", "workspace_settings", "custom_fields",
    "approvals", "audit_log"]

def boundedString (text : String) : Bool := text.utf8ByteSize ≤ 256

def boundedStringArray (texts : List String) : Bool :=
  texts.length ≤ 12 && texts.all boundedString

def ReportedCount.parses (count : ReportedCount) : Bool :=
  count.isInteger && count.nonnegative

def TokenUsage.parses (usage : TokenUsage) : Bool :=
  usage.promptTokens.parses && usage.completionTokens.parses

def RunnerEvent.parses : RunnerEvent → Bool
  | runStarted => true
  | modelStarted modelCall providerAttempt loadedOperationIds _ =>
      0 < modelCall && (providerAttempt == 1 || providerAttempt == 2) &&
        boundedStringArray loadedOperationIds
  | modelCompleted modelCall providerAttempts usage _ =>
      0 < modelCall && (providerAttempts == 1 || providerAttempts == 2) &&
        usage.all TokenUsage.parses
  | apiSearchStarted searchIndex _ groups =>
      0 < searchIndex && groups.length ≤ featureGroupNames.length &&
        groups.all fun group => featureGroupNames.contains group
  | apiOperationsLoaded operationIds => boundedStringArray operationIds
  | toolRequested toolCallId actionName => boundedString toolCallId && boundedString actionName
  | toolDenied toolCallId actionName code =>
      boundedString toolCallId && boundedString actionName && boundedString code
  | toolStarted toolCallId actionName => boundedString toolCallId && boundedString actionName
  | toolCompleted toolCallId actionName _ =>
      boundedString toolCallId && boundedString actionName
  | clarificationRequired _ _ => true
  | runSuspended _ => true
  | runCompleted actionResultIds => actionResultIds.length ≤ 12
  | runFailed code => boundedString code

/-- What the rest of the program writes into the row while the controller waits. -/
structure OtherRunWrites where
  phase : Option RunPhase := none
  continuation : Option RunContinuation := none
  hostCallsUsed : Option Nat := none
  hostCallsReserved : Option Nat := none

def OtherRunWrites.apply (writes : OtherRunWrites) (run : RunState) : RunState :=
  { run with
    phase := writes.phase.getD run.phase
    continuation := writes.continuation.getD run.continuation
    budget := { run.budget with
      hostCallsUsed := writes.hostCallsUsed.getD run.budget.hostCallsUsed
      hostCallsReserved := writes.hostCallsReserved.getD run.budget.hostCallsReserved } }

/-- How the runner takes a completion apart, and what it knew of the run. -/
structure ToolDecision where
  priorToolCallIds : List ToolCallId
  loadedNames : List String
  catalogHash : String
  toolCalls : List ToolCall

inductive RunAct
  | attempt (attempt : ProviderAttempt)
  /-- A decision, with the completed calls of the durable run. -/
  | decided (decision : ToolDecision) (completedIds : List ToolCallId)
  | searched
  | readExecuted (call : ToolCall)
  | writesAdmitted (calls : List ToolCall)
  | handedOver (calls : List ToolCall)

structure RunWorld where
  run : Option RunState
  events : List RunnerEvent
  acts : List RunAct

def resultLinkable (result : CompletedToolResult) : Bool :=
  !result.toolCallId.isEmpty && boundedString result.toolCallId &&
    !result.actionName.isEmpty && boundedString result.actionName &&
    result.actionResultId.isSome

/-- `INSERT … ON CONFLICT(session_id, run_id, tool_call_id) DO NOTHING`; the sequence number
of a link is its position. -/
def linkResult (links : List CompletedToolResult) (entry : CompletedToolResult × Nat) :
    Except RunError (List CompletedToolResult) :=
  if links.any fun link => link.toolCallId == entry.1.toolCallId then .ok links
  else if entry.2 < links.length || !resultLinkable entry.1 then .error .resultLink
  else .ok (links ++ [entry.1])

def linkResults (links results : List CompletedToolResult) :
    Except RunError (List CompletedToolResult) :=
  results.zipIdx.foldlM linkResult links

/-- The row once `state` is written to it; the ledger owns the consumed host calls. -/
def RunState.written (run state : RunState) (links : List CompletedToolResult) : RunState :=
  { state with
    completedResults := links
    budget := { state.budget with hostCallsUsed := run.budget.hostCallsUsed } }

def RunWorld.commitStateEvents (w : RunWorld) (state : RunState) (events : List RunnerEvent) :
    Except RunError Unit × RunWorld :=
  if !events.all RunnerEvent.parses then (.error .invalidEventPayload, w)
  else match w.run with
    | none => (.error .assistantRunNotFound, w)
    | some run =>
        match linkResults run.completedResults state.completedResults with
        | .error e => (.error e, w)
        | .ok links =>
            (.ok (), { w with run := some (run.written state links), events := w.events ++ events })

def RunWorld.saveRun (w : RunWorld) (state : RunState) : Except RunError Unit × RunWorld :=
  match w.run with
  | none => (if state.completedResults.isEmpty then .ok () else .error .resultLink, w)
  | some run =>
      match linkResults run.completedResults state.completedResults with
      | .error e => (.error e, w)
      | .ok links => (.ok (), { w with run := some (run.written state links) })

def RunWorld.startRun (w : RunWorld) (state : RunState) : Except RunError Unit × RunWorld :=
  match w.run with
  | some _ => (.error .runExists, w)
  | none => (.ok (), { w with
      run := some { state with
        phase := .model
        usedToolNames := []
        completedResults := []
        continuation := .none
        budget := createEmptyRunBudget }
      events := w.events ++ [.runStarted] })

def RunWorld.completedIds (w : RunWorld) : List ToolCallId :=
  (w.run.toList.flatMap RunState.completedResults).map CompletedToolResult.toolCallId

def RunWorld.act (w : RunWorld) (act : RunAct) : RunWorld := { w with acts := w.acts ++ [act] }

def RunWorld.await (w : RunWorld) (others : OtherRunWrites) : RunWorld :=
  { w with run := w.run.map others.apply }

def RunWorld.prepared (w : RunWorld) : WritePreparationOutcome → RunWorld
  | .prepared operationIds _ batchId hostCallsReserved =>
      { w with
        run := w.run.map fun run => { run with
          phase := .awaitingConfirmation
          continuation := .awaitingOperations operationIds batchId
          budget := { run.budget with hostCallsReserved } }
        events := w.events ++ [.runSuspended .awaitingConfirmation] }
  | _ => w

inductive RunnerOp
  | getRun
  | startRun (state : RunState)
  | commitStateEvents (state : RunState) (events : List RunnerEvent)
  | saveRun (state : RunState)
  /-- `saveRun`, with the writes whose admission it persists. -/
  | saveAdmission (state : RunState) (admitted : List ToolCall)
  | serializeRequest
  | aborted
  | monotonicMs
  | installationCurrent
  | fetch
  | decide (decision : ToolDecision)
  | search (input : FindApiOperationsInput)
  | admitRead
  | executeRead (call : ToolCall)
  | prepare (calls : List ToolCall)
  | findLatestEligibleRunForCache
  | wait

abbrev RunnerOp.Val : RunnerOp → Type
  | getRun => Option RunState
  | serializeRequest => Nat
  | aborted => Bool
  | monotonicMs => Nat
  | installationCurrent => Bool
  | fetch => ProviderAttempt
  | search _ => List String
  | admitRead => Bool
  | executeRead _ => ReadExecutionOutcome
  | prepare _ => WritePreparationOutcome
  | findLatestEligibleRunForCache => Option RunState
  | _ => Unit

/-- What the world outside the controller answers to one operation. -/
structure RunnerEnv where
  aborted : Bool := false
  requestBytes : Nat := 0
  clock : Nat := 0
  current : Bool := true
  attempt : ProviderAttempt := .transient
  search : Except RunError (List String) := .ok []
  admitted : Bool := true
  read : Except RunError ReadExecutionOutcome := .ok (.failed "read_failed")
  preparation : Except RunError WritePreparationOutcome := .ok (.denied "policy_denied")
  prior : Option RunState := none
  others : OtherRunWrites := {}

def RunnerOp.exec (env : RunnerEnv) (w : RunWorld) :
    (o : RunnerOp) → Except RunError o.Val × RunWorld
  | getRun => (.ok w.run, w)
  | startRun state => w.startRun state
  | commitStateEvents state events => w.commitStateEvents state events
  | saveRun state => w.saveRun state
  | saveAdmission state admitted =>
      match w.saveRun state with
      | (.ok _, saved) => (.ok (), saved.act (.writesAdmitted admitted))
      | (.error e, saved) => (.error e, saved)
  | serializeRequest => (.ok env.requestBytes, w)
  | aborted => (.ok env.aborted, w)
  | monotonicMs => (.ok env.clock, w)
  | installationCurrent => (.ok env.current, w)
  | fetch => (.ok env.attempt, (w.act (.attempt env.attempt)).await env.others)
  | decide decision => (.ok (), w.act (.decided decision w.completedIds))
  | search _ => (env.search, (w.act .searched).await env.others)
  | admitRead => (.ok env.admitted, w)
  | executeRead call => (env.read, (w.act (.readExecuted call)).await env.others)
  | prepare calls =>
      let w := (w.act (.handedOver calls)).await env.others
      match env.preparation with
      | .ok outcome => (.ok outcome, w.prepared outcome)
      | .error e => (.error e, w)
  | findLatestEligibleRunForCache => (.ok env.prior, w)
  | wait => (.ok (), w.await env.others)

abbrev RunnerProcess (α : Type) : Type := Fallible RunnerOp RunnerOp.Val RunError α

namespace RunnerProcess

abbrev perform (o : RunnerOp) : RunnerProcess o.Val := Fallible.perform o

/-- `deps.runStore.getRun(scopedRun(state)) ?? state` -/
def reload (state : RunState) : RunnerProcess RunState := do
  return (← perform .getRun).getD state

def commitEvent (state : RunState) (event : RunnerEvent) : RunnerProcess Unit :=
  perform (.commitStateEvents state [event])

/-- A block with its exception, for a `catch` that goes on. -/
def attempted {α : Type} (block : RunnerProcess α) : RunnerProcess (Except RunError α) :=
  tryCatch (do return .ok (← block)) fun e => return .error e

end RunnerProcess

end ClockifyAssistant
