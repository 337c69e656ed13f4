import ClockifyAssistant.AssistantV2.RunController
import ClockifyAssistant.Clockify.WorkspaceMutationCoordinator
import ClockifyAssistant.Lib.LeaseLedger
import ClockifyAssistant.Store.Undo

/-!
The machinery of one chat turn: how a tool call of the model is executed, how a
write gets its workspace lease, and how the emitters hand the result of a write on
and release its lease. A turn is a process; whatever it does not compute itself is
answered by its environment, and the rest of the program may use the coordinator
whenever the turn asks.
-/
namespace ClockifyAssistant

open Lib

namespace TurnMachinery

/-- An object as the weak collections of a turn tell it from others: one that an action
returned, or one that the turn made itself. -/
inductive ResultObject
  | returned (id : Nat)
  | made (id : Nat)
  deriving DecidableEq

/-- A receipt, whether its change set names anything, and the entity of its data. -/
structure TurnReceipt where
  receipt : Receipt
  changes : Bool := false
  data : Option (Option (String × String)) := none

def TurnReceipt.ok (r : TurnReceipt) : Bool :=
  match r.receipt with
  | .success _ => true
  | .error _ => false

def TurnReceipt.code (r : TurnReceipt) : Option String :=
  match r.receipt with
  | .success _ => none
  | .error e => some e.code

inductive ActionOutcome (Object : Type)
  | receipt (object : Object) (receipt : TurnReceipt) (operationId : Option OperationId)
  | partially (object : Object) (receipt : TurnReceipt) (operationId : Option OperationId)
  | clarify (message : String) (options : List String)
  | preview (operation : Object) (card : Json)

def ActionOutcome.returned : ActionOutcome Nat → ActionOutcome ResultObject
  | receipt object r operationId => .receipt (.returned object) r operationId
  | partially object r operationId => .partially (.returned object) r operationId
  | clarify message options => .clarify message options
  | preview operation card => .preview (.returned operation) card

inductive ActionKind
  | read | safeWrite | riskyWrite
  deriving DecidableEq

structure ActionDefinition where
  kind : ActionKind
  risks : List RiskLabel

def requiresConfirmation (risks : List RiskLabel) : Bool :=
  risks.any fun risk => [.highRiskWrite, .destructive, .billing, .payment, .permissionChange,
    .externalSideEffect, .bulk].contains risk

def isSafeWrite (risks : List RiskLabel) : Bool :=
  risks.contains .safeWrite && !requiresConfirmation risks

def ActionDefinition.kindMatchesRisk (action : ActionDefinition) : Bool :=
  match action.kind with
  | .read => !action.risks.isEmpty && action.risks.all (· == .read)
  | .safeWrite => isSafeWrite action.risks
  | .riskyWrite => requiresConfirmation action.risks

def ActionDefinition.isWrite (action : ActionDefinition) : Bool :=
  action.risks.any (· != .read)

/-- What `prepareSafeWrite` comes to. -/
inductive SafeWritePreparation
  | clarification (message : String) (options : List String)
  | noop (object : Nat) (receipt : TurnReceipt)
  | invalid
  | absent
  | prepared

structure LiteralConstraint where
  actionName : String
  path : String
  value : JsonValue

/-- The admin-authored writes of a turn; `none` stands for a capability that denies all. -/
structure IntentCapability where
  writeActions : Option (List String)
  literalConstraints : List LiteralConstraint

structure AdjacentProject where
  id : String
  name : String

structure TurnConfig where
  workspaceId : WorkspaceId
  generation : Int
  getAction : String → Option ActionDefinition
  suggestActionNames : String → List String
  intentCapabilitiesEnforced : Bool
  intentCapability : Option IntentCapability
  adjacentCreatedProject : Option AdjacentProject
  /-- Whether the turn has a request that its operations are journaled under. -/
  journaled : Bool
  maxSteps : Nat
  maxToolCallsPerStep : Nat

inductive ModelMessage
  | given (role content : String)
  | assistant (text : String) (calls : List ToolCall)
  | tool (toolCallId : ToolCallId) (receipt : TurnReceipt)

structure AgentCompletion where
  text : String
  toolCalls : List ToolCall

structure ModelPlan where
  kind : String
  text : String
  actions : List ToolCall

/-- What the turn shows: a canonical result, one that could not be stored, a preview, or a
question. -/
inductive TurnResult
  | stored (outcome : ActionOutcome ResultObject) (resultRef : ResultId)
  | degraded (outcome : ActionOutcome ResultObject)
  | preview (card : Json)
  | clarify (message : String) (options : List String)

/-- The variables of the closure that the turn's functions share. -/
structure TurnMemory where
  resultLeases : ResultObject → Option Nat
  internalCorrectionReceipts : List ResultObject
  made : Nat
  results : List TurnResult
  adjacentProjectResolvedInLoop : Bool
  adjacentProjectCorrectionIssued : Bool
  adjacentProjectCorrectionPending : Bool

def TurnMemory.fresh : TurnMemory where
  resultLeases := fun _ => none
  internalCorrectionReceipts := []
  made := 0
  results := []
  adjacentProjectResolvedInLoop := false
  adjacentProjectCorrectionIssued := false
  adjacentProjectCorrectionPending := false

inductive TurnErrorKind
  | revoked
  | cancelled
  | providerProtocol
  | budgetExceeded
  | ambiguousWrite
  | definitiveWrite
  /-- Thrown by the preparation of an operation whose row is already there. -/
  | operationPreparation (operationId : OperationId)
  | other
  deriving DecidableEq

structure TurnError where
  kind : TurnErrorKind
  message : String
  deriving DecidableEq

def revokedError : TurnError :=
  ⟨.revoked, "The Clockify installation changed before this mutation could run."⟩

def cancelledError : TurnError :=
  ⟨.cancelled, "Clockify request was cancelled before dispatch."⟩

def TurnError.operationId (e : TurnError) : Option OperationId :=
  match e.kind with
  | .operationPreparation operationId => some operationId
  | _ => none

structure UndoStep where
  status : StepStatus
  journalDegraded : Bool

structure EntityRef where
  type : String
  id : String
  name : Option String := none

structure UndoPlanStep where
  ref : EntityRef
  transition : Bool

/-- The operations of a turn. A call that acts or records under a lease names it, or the
object whose lease it is. -/
inductive TurnOp
  | memory
  | remember (m : TurnMemory)
  | onStatus (call : ToolCall)
  | onResult (result : TurnResult)
  | aborted
  | acquire
  | leaseAborted (lease : Nat)
  | release (lease : Nat)
  | turnAuthorityCurrent
  | ensureCalendar
  | checkAction (call : ToolCall)
  | checkPolicy (call : ToolCall)
  | handler (call : ToolCall)
  | checkWriteAuthority (call : ToolCall)
  | prepareSafeWrite (call : ToolCall)
  | authorizeWrite (actionName : String)
  | prepareOperation (call : ToolCall)
  | markExecuting (operationId : OperationId)
  | executeSafeWrite (call : ToolCall) (lease : Option Nat)
  | recordUndoIfReversible (receipt : TurnReceipt)
  | persistResult (owner : ResultObject) (status : ActionResultKind)
      (operationId : Option OperationId)
  | reportDegraded (owner : ResultObject)
  | addAuditEvent (resultRef : ResultId)
  | prepareOperationRun (operation : ResultObject)
  | savePendingConfirmation (operation : ResultObject)
  | bindIntentCapabilityOperation (operation : ResultObject)
  | completeWithTools (transcript : List ModelMessage)
  | planConversation (full : Bool)
  | resumable
  | checkUndo
  | startUndoOperation
  | checkUndoPolicy
  | openUndoScope
  | prepareTransition (ref : EntityRef)
  | undoStep (lease : Nat) (spec : UndoPlanStep)
  | listUndoSteps (lease : Nat)
  | settleUndoOperation (lease : Nat) (status : UndoOutcome)
  | reportUndoDegraded (lease : Nat)
  | checkConfirmation
  | markConfirmationExecuting
  | consumeIntentCapability
  | commit (lease : Nat)
  | settleConfirmedOperation (lease : Nat) (status : ActionResultKind)
  | reportConfirmationDegraded (lease : Nat)

abbrev TurnOp.Val : TurnOp → Type
  | memory => TurnMemory
  | remember _ => Unit
  | onStatus _ => Unit
  | onResult _ => Unit
  | aborted => Bool
  | acquire => Nat
  | leaseAborted _ => Bool
  | release _ => Unit
  | turnAuthorityCurrent => Bool
  | ensureCalendar => Unit
  | checkAction _ => Option ErrorReceipt
  | checkPolicy _ => Option ErrorReceipt
  | handler _ => ActionOutcome Nat
  | checkWriteAuthority _ => Option String
  | prepareSafeWrite _ => SafeWritePreparation
  | authorizeWrite _ => Option ErrorReceipt
  | prepareOperation _ => OperationId
  | markExecuting _ => Unit
  | executeSafeWrite _ _ => Bool × Nat × TurnReceipt
  | recordUndoIfReversible _ => Option UndoId
  | persistResult _ _ _ => ResultId
  | reportDegraded _ => Unit
  | addAuditEvent _ => Unit
  | prepareOperationRun _ => Unit
  | savePendingConfirmation _ => Unit
  | bindIntentCapabilityOperation _ => Unit
  | completeWithTools _ => AgentCompletion
  | planConversation _ => ModelPlan
  | resumable => Bool
  | checkUndo => Option (Nat × String)
  | startUndoOperation => Option OperationId
  | checkUndoPolicy => Option ErrorReceipt
  | openUndoScope => Unit
  | prepareTransition _ => Unit
  | undoStep _ _ => UndoStep
  | listUndoSteps _ => Nat
  | settleUndoOperation _ _ => ResultId
  | reportUndoDegraded _ => Unit
  | checkConfirmation => Option (Nat × String)
  | markConfirmationExecuting => Bool
  | consumeIntentCapability => Bool
  | commit _ => CommitResult
  | settleConfirmedOperation _ _ => ResultId
  | reportConfirmationDegraded _ => Unit

/-- What one operation finds: how it ends, whether a request to change something left for the
host meanwhile, and what the rest of the program did with the coordinator. -/
structure TurnEnv where
  answer : (o : TurnOp) → Except TurnError o.Val
  aborted : Bool := false
  dispatched : Bool := false
  others : List CoordinatorStep := []

/-- The log notes what happened under the leases that the turn acquired. -/
structure TurnWorld where
  coordinator : MutationCoordinator
  log : LeaseLog
  memory : TurnMemory

namespace TurnWorld

variable (w : TurnWorld)

def note (lease : Nat) (event : LeaseEvent) : TurnWorld :=
  { w with log := w.log ++ [(lease, event)] }

/-- A lease is released through its own closure, which nobody but the turn has. -/
def foreign : CoordinatorStep → Bool
  | .release lease => !w.log.contains (lease, .acquired)
  | _ => true

def await (others : List CoordinatorStep) : TurnWorld :=
  { w with coordinator := w.coordinator.run (others.filter w.foreign) }

def noteOwner (owner : ResultObject) (event : LeaseEvent) : TurnWorld :=
  match w.memory.resultLeases owner with
  | some lease => w.note lease event
  | none => w

def act (env : TurnEnv) (lease : Nat) : TurnWorld :=
  (if env.dispatched then w.note lease .dispatched else w).await env.others

def acquire (config : TurnConfig) : Except TurnError Nat × TurnWorld :=
  let granted := { w with
    coordinator := (w.coordinator.acquire config.workspaceId config.generation).2 }
  match (w.coordinator.acquire config.workspaceId config.generation).1 with
  | .ok lease => (.ok lease, granted.note lease .acquired)
  | .error _ => (.error revokedError, granted)

def release (lease : Nat) : TurnWorld :=
  { w with coordinator := w.coordinator.release lease }.note lease .released

end TurnWorld

/-- A store call: it throws without effect, or what it records is noted. -/
def recording {α : Type} (r : Except TurnError α) (w after : TurnWorld) :
    Except TurnError α × TurnWorld :=
  (r, match r with
    | .ok _ => after
    | .error _ => w)

variable (config : TurnConfig)

def TurnOp.exec (env : TurnEnv) (w : TurnWorld) : (o : TurnOp) → Except TurnError o.Val × TurnWorld
  | memory => (.ok w.memory, w)
  | remember m => (.ok (), { w with memory := m })
  | aborted => (.ok env.aborted, w)
  | leaseAborted _ => (.ok env.aborted, w)
  | acquire => w.acquire config
  | release lease => (.ok (), w.release lease)
  | executeSafeWrite call (some lease) =>
      (env.answer (executeSafeWrite call (some lease)), w.act env lease)
  | persistResult owner status operationId =>
      recording (env.answer (persistResult owner status operationId)) w (w.noteOwner owner .stored)
  | reportDegraded owner => (.ok (), w.noteOwner owner .givenUp)
  | undoStep lease spec => (env.answer (undoStep lease spec), w.act env lease)
  | settleUndoOperation lease status =>
      recording (env.answer (settleUndoOperation lease status)) w (w.note lease .stored)
  | reportUndoDegraded lease => (.ok (), w.note lease .givenUp)
  | commit lease => (env.answer (commit lease), w.act env lease)
  | settleConfirmedOperation lease status =>
      recording (env.answer (settleConfirmedOperation lease status)) w (w.note lease .stored)
  | reportConfirmationDegraded lease => (.ok (), w.note lease .givenUp)
  | o => (env.answer o, w.await env.others)

abbrev Turn (α : Type) : Type := Fallible TurnOp TurnOp.Val TurnError α

abbrev perform (o : TurnOp) : Turn o.Val := Fallible.perform o

end TurnMachinery

end ClockifyAssistant
