import ClockifyAssistant.Routes.ChatPipeline

/-!
The loop of the agent, and the turns that run actions for a model: the turn of the agent,
the planned turn, and the resume after a confirmation.
-/
namespace ClockifyAssistant

open Lib Fallible

namespace TurnMachinery

/-! The loop of the agent. -/

inductive AgentTurnResult
  | final (text : String) (transcript : List ModelMessage)
  | clarify (message : String) (options : List String) (transcript : List ModelMessage)
  | partially (transcript : List ModelMessage)
  | interrupt (call : ToolCall) (card : Json) (operation : ResultObject)
      (transcript : List ModelMessage)
  | exhausted (text : String) (transcript : List ModelMessage)
  | aborted (transcript : List ModelMessage)

def exhaustedText : String :=
  "I wasn't able to finish that within my step limit. Could you narrow it down or break it into smaller steps?"

/-- A denial that no further turn of the provider can repair. -/
def TurnReceipt.isTerminalSafetyDenial (r : TurnReceipt) : Bool :=
  r.code.any fun code => code == "policy_denied" || code.startsWith "intent_capability_"

/-- Two calls have one signature when they name one action with the same arguments. -/
abbrev ToolCallSignature : Type := String × JsonValue

def toolCallSignature (call : ToolCall) : ToolCallSignature :=
  (call.name, ActionExecution.canonicalArguments call.arguments)

/-- The reads that need no second execution; any change forgets them. -/
def completedAfter (completed : List ToolCallSignature) (call : ToolCall) (r : TurnReceipt) :
    List ToolCallSignature :=
  if r.ok then
    if r.changes then [] else completed ++ [toolCallSignature call]
  else completed

inductive CallsEnd
  | stop (turn : AgentTurnResult)
  | goOn (transcript : List ModelMessage) (completed : List ToolCallSignature)

/-- The calls of one completion in order; `honored` and `replies` are those before. -/
def runCalls (config : TurnConfig) (transcript : List ModelMessage) (text : String) :
    List ToolCall → List ToolCall → List ModelMessage → List ToolCallSignature → Turn CallsEnd
  | [], honored, replies, completed =>
      return .goOn (transcript ++ .assistant text honored :: replies) completed
  | call :: rest, honored, replies, completed => do
      if ← perform .aborted then return .stop (.aborted transcript)
      if completed.contains (toolCallSignature call) then
        return .stop (.final "The requested information is already recorded in the result above."
          (if honored.isEmpty then transcript
            else transcript ++ .assistant text honored :: replies))
      let result ← runAction config call
      let honored := honored ++ [call]
      let transcript' := transcript ++ .assistant text honored :: replies
      match result with
      | .preview operation card => return .stop (.interrupt call card operation transcript')
      | .clarify message options => do
          onStep (.clarify message options)
          return .stop (.clarify message options transcript')
      | .partially object r operationId => do
          onStep (.partially object r operationId)
          return .stop (.partially transcript')
      | .receipt object r operationId => do
          onStep (.receipt object r operationId)
          let replies := replies ++ [.tool call.id r]
          if r.isTerminalSafetyDenial then
            return .stop (.final "" (transcript ++ .assistant text honored :: replies))
          else runCalls config transcript text rest honored replies (completedAfter completed call r)

def runSteps (config : TurnConfig) :
    Nat → List ModelMessage → List ToolCallSignature → Turn AgentTurnResult
  | 0, transcript, _ => return .exhausted exhaustedText transcript
  | steps + 1, transcript, completed => do
      if ← perform .aborted then return .aborted transcript
      match ← caught (perform (.completeWithTools transcript)) with
      | .error e => do
          if ← perform .aborted then return .aborted transcript
          throw e
      | .ok completion =>
          let calls := completion.toolCalls.take config.maxToolCallsPerStep
          if calls.isEmpty then return .final completion.text transcript
          match ← runCalls config transcript completion.text calls [] [] completed with
          | .stop turn => return turn
          | .goOn transcript completed => runSteps config steps transcript completed

def runAgentTurn (config : TurnConfig) (messages : List ModelMessage) : Turn AgentTurnResult :=
  runSteps config config.maxSteps messages []

structure TurnReply where
  replyKind : String
  baseText : String

def correctionOwed : String :=
  "I could not apply the project update because the corrected project name was not provided. No change was made."

/-- An interrupt becomes a pending preview, unless the model still owes the correction. -/
def settleAgentTurn (config : TurnConfig) (turn : AgentTurnResult) : Turn TurnReply := do
  let m ← perform .memory
  if m.adjacentProjectCorrectionPending then return ⟨"answer", correctionOwed⟩
  match turn with
  | .interrupt _ card operation _ => do
      emitPreviewFor config card operation
      return ⟨"actions", ""⟩
  | .clarify _ _ _ => return ⟨"clarify", ""⟩
  | .partially _ => return ⟨"partial", ""⟩
  | .aborted _ => return ⟨"aborted", ""⟩
  | .final text _ => return ⟨"answer", text⟩
  | .exhausted text _ => return ⟨"answer", text⟩

/-! The model turn of a chat request. -/

inductive ModelTurnEnd
  | replied (reply : TurnReply)
  | failed (code : String)

def modelFailure (e : TurnError) : ModelTurnEnd :=
  .failed (if e.kind = .providerProtocol then "provider_protocol_error" else "model_unavailable")

def AgentTurnResult.ranOut : AgentTurnResult → Bool
  | final _ _ => true
  | exhausted _ _ => true
  | _ => false

/-- A narrowed turn that showed nothing is run once more with the whole catalog. -/
def runAgenticTurn (config : TurnConfig) (messages : List ModelMessage) (narrowed : Bool) :
    Turn ModelTurnEnd := do
  let turn ← caught (do
    let turn ← runAgentTurn config messages
    let m ← perform .memory
    if narrowed && m.results.isEmpty && turn.ranOut then runAgentTurn config messages
    else return turn)
  match turn with
  | .error e => return modelFailure e
  | .ok turn => return .replied (← settleAgentTurn config turn)

/-- Whether a question was shown, or `none` when the caller went away. -/
def runPlannedActions (config : TurnConfig) : List ToolCall → Turn (Option Bool)
  | [] => return some false
  | proposed :: rest => do
      if ← perform .aborted then return none
      match ← runAction config proposed with
      | .receipt object r operationId => do
          auditAndEmitReceipt object r operationId
          runPlannedActions config rest
      | .partially object r operationId => do
          auditAndEmitPartial object r operationId
          return some false
      | .clarify message options => do
          emit (.clarify message options)
          return some true
      | .preview operation card => do
          emitPreviewFor config card operation
          return some false

def planTurn (narrowed : Bool) : Turn (Option ModelPlan) := do
  let plan ← perform (.planConversation false)
  if ← perform .aborted then return none
  if narrowed && plan.kind != "actions" then
    let plan ← perform (.planConversation true)
    if ← perform .aborted then return none
    return some plan
  return some plan

def abortedReply : ModelTurnEnd := .replied ⟨"aborted", ""⟩

def runPlannedTurn (config : TurnConfig) (narrowed : Bool) : Turn ModelTurnEnd := do
  match ← caught (planTurn narrowed) with
  | .error e => do
      if ← perform .aborted then return abortedReply
      return modelFailure e
  | .ok none => return abortedReply
  | .ok (some plan) => do
      let actions := if plan.kind = "actions" then plan.actions else []
      match ← runPlannedActions config actions with
      | none => return abortedReply
      | some asked => return .replied ⟨plan.kind, if asked then "" else plan.text⟩

/-- The follow-up of a confirmed preview; a failing model costs only the narration. -/
def runResume (config : TurnConfig) (messages : List ModelMessage) : Turn (Option TurnReply) := do
  if !(← perform .resumable) then return none
  match ← caught (runAgentTurn config messages) with
  | .error _ => return none
  | .ok turn => return some (← settleAgentTurn config turn)

end TurnMachinery

end ClockifyAssistant
