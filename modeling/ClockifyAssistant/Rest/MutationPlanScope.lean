import ClockifyAssistant.Lib.History
import ClockifyAssistant.Store.OperationRuns

/-!
The plan scope of the REST core: one descriptor for each step of the stored
plan, the step that is open, and the poison a failed primary step leaves. A
function that awaits something is cut there, so that the calls of a handler may
interleave in any order.
-/
namespace ClockifyAssistant

open Lib

inductive DispatchDenial
  | receipt (receipt : ErrorReceipt)
  | journalUnavailable
  deriving DecidableEq

/-- The error classes that the scope and the mutation workflow tell apart. -/
inductive HostError
  | planViolation (message : String)
  | dispatchDenied (denial : DispatchDenial)
  | budgetExceeded
  | requestCancelled
  | definitiveWrite (status : Option Nat)
  | ambiguousWrite (status : Option Nat)
  | other (message : String)
  deriving DecidableEq

inductive MutationDescriptorStatus
  | pending | dispatching | completed | failed
  deriving DecidableEq

structure MutationDescriptor where
  step : MutationPlanStep
  status : MutationDescriptorStatus
  authorized : Bool
  networkCalls : Nat
  failure : Option HostError
  deriving DecidableEq

def MutationDescriptor.fail (e : HostError) (d : MutationDescriptor) : MutationDescriptor :=
  { d with status := .failed, failure := some e }

structure MutationPlanScope where
  descriptors : List MutationDescriptor
  active : Option Nat
  primaryPoison : Option String
  deriving DecidableEq

namespace MutationPlanScope

def update (scope : MutationPlanScope) (index : Nat)
    (f : MutationDescriptor → MutationDescriptor) : MutationPlanScope :=
  { scope with descriptors := scope.descriptors.modify index f }

/-- Only a primary step poisons the scope. -/
def poison (scope : MutationPlanScope) (kind : StepKind) (message : String) : MutationPlanScope :=
  if kind = .primary then { scope with primaryPoison := some message } else scope

def activeDescriptor (scope : MutationPlanScope) : Option (Nat × MutationDescriptor) :=
  scope.active.bind fun index => scope.descriptors[index]?.map fun d => (index, d)

end MutationPlanScope

structure PlanStepInput where
  id : String
  index : Nat
  kind : StepKind
  deriving DecidableEq

def openMutationPlanScope (plan : ExternalMutationPlan) : Except HostError MutationPlanScope :=
  if plan.maxHostCalls < 1 ∨ hostCallBudgetMaximum < plan.maxHostCalls then
    .error (.planViolation "mutation_plan_host_call_budget_required")
  else if plan.steps.isEmpty ∨ plan.steps.any (fun s => s.id.isEmpty) ∨
      ¬ (plan.steps.map MutationPlanStep.id).Nodup then
    .error (.planViolation "invalid_mutation_plan_scope")
  else .ok {
    descriptors := plan.steps.map fun step =>
      { step, status := .pending, authorized := false, networkCalls := 0, failure := none }
    active := none
    primaryPoison := none }

namespace MutationPlanScope

def violate (scope : MutationPlanScope) (kind : StepKind) (message : String) :
    Except HostError Unit × MutationPlanScope :=
  (.error (.planViolation message), scope.poison kind message)

def earlierPrimaryInvalid (scope : MutationPlanScope) (input : PlanStepInput) : Bool :=
  ((scope.descriptors.take input.index).filter fun d => d.step.kind == .primary).any fun d =>
    match input.kind with
    | .primary => d.status != .completed
    | .compensation => d.status == .pending || d.status == .dispatching

/-- `withMutationPlanStep` up to its callback. -/
def beginStep (scope : MutationPlanScope) (input : PlanStepInput) (eligible : Bool) :
    Except HostError Unit × MutationPlanScope :=
  if input.kind = .primary ∧ scope.primaryPoison.isSome then
    (.error (.planViolation ("mutation_scope_poisoned:" ++ scope.primaryPoison.getD "")), scope)
  else
    match scope.descriptors[input.index]? with
    | none => scope.violate input.kind ("mutation_step_out_of_order:" ++ input.id)
    | some d =>
        if d.step.id ≠ input.id ∨ d.step.kind ≠ input.kind then
          scope.violate input.kind ("mutation_step_out_of_order:" ++ input.id)
        else if scope.active.isSome ∨ d.status ≠ .pending then
          scope.violate input.kind ("mutation_step_repeated:" ++ input.id)
        else if scope.earlierPrimaryInvalid input then
          scope.violate input.kind ("mutation_step_out_of_order:" ++ input.id)
        else if input.kind = .compensation ∧ !eligible then
          (.error (.planViolation ("compensation_not_eligible:" ++ input.id)), scope)
        else (.ok (), { scope with active := some input.index })

def stepOutcome (d : MutationDescriptor) (outcome : Except HostError Unit) :
    Except HostError Unit :=
  match outcome with
  | .error e => .error e
  | .ok () =>
      if d.status = .failed then .error (d.failure.getD (.other ""))
      else if d.networkCalls ≠ 1 then
        .error (.planViolation ("mutation_step_incomplete_dispatch:" ++ d.step.id))
      else .ok ()

def primaryFailure (d : MutationDescriptor) (e : HostError) : String :=
  match e with
  | .planViolation message => message
  | _ => "mutation_primary_failed:" ++ d.step.id

/-- `withMutationPlanStep` from the end of its callback. -/
def finishStep (scope : MutationPlanScope) (index : Nat) (outcome : Except HostError Unit) :
    Except HostError Unit × MutationPlanScope :=
  match scope.descriptors[index]? with
  | none => (outcome, { scope with active := none })
  | some d =>
      match stepOutcome d outcome with
      | .ok () =>
          (.ok (), { scope.update index fun d => { d with status := .completed } with
            active := none })
      | .error e =>
          (.error e, { (scope.update index fun d => { d with
              status := .failed, failure := d.failure <|> some e }).poison d.step.kind
                (primaryFailure d e) with
            active := none })

def excessDispatch (scope : MutationPlanScope) (index : Nat) (d : MutationDescriptor) :
    HostError × MutationPlanScope :=
  let message := "mutation_step_excess_dispatch:" ++ d.step.id
  (.planViolation message,
    (scope.update index (MutationDescriptor.fail (.planViolation message))).poison d.step.kind
      message)

/-- `authorizeScopedMutationDispatch` up to its await; the descriptor it captures. -/
def authorizeDispatch (scope : MutationPlanScope) : Except HostError Nat × MutationPlanScope :=
  match scope.activeDescriptor with
  | none => (.error (.planViolation "mutation_scope_required"), scope)
  | some (index, d) =>
      if d.status ≠ .pending ∨ d.authorized ∨ 0 < d.networkCalls then
        let (e, scope) := scope.excessDispatch index d
        (.error e, scope)
      else (.ok index, scope)

/-- What the injected `authorizeDispatch` gate answers. -/
inductive DispatchAnswer
  | granted
  | denied (denial : DispatchDenial)
  | threw (e : HostError)
  deriving DecidableEq

def DispatchAnswer.denies : DispatchAnswer → Bool
  | .denied _ => true
  | _ => false

/-- `authorizeScopedMutationDispatch` after its await, for the captured descriptor. -/
def dispatchAnswered (scope : MutationPlanScope) (index : Nat) (answer : DispatchAnswer)
    (aborted : Bool) : Except HostError Unit × MutationPlanScope :=
  match scope.descriptors[index]? with
  | none => (.error (.planViolation "mutation_scope_required"), scope)
  | some d =>
      match answer with
      | .threw e => (.error e, scope)
      | .denied denial =>
          (.error (.dispatchDenied denial),
            (scope.update index (MutationDescriptor.fail (.dispatchDenied denial))).poison
              d.step.kind ("mutation_primary_denied:" ++ d.step.id))
      | .granted =>
          if aborted then (.error .requestCancelled, scope)
          else (.ok (), scope.update index fun d => { d with authorized := true })

/-- `commitScopedMutationDispatch`; the fetch starts where it returns the descriptor. -/
def commitDispatch (scope : MutationPlanScope) (aborted journaled : Bool) :
    Except HostError Nat × MutationPlanScope :=
  match scope.activeDescriptor with
  | none => (.error (.planViolation "mutation_scope_required"), scope)
  | some (index, d) =>
      if d.status ≠ .pending ∨ !d.authorized ∨ 0 < d.networkCalls then
        let (e, scope) := scope.excessDispatch index d
        (.error e, scope)
      else if aborted then (.error .requestCancelled, scope)
      else if !journaled then
        (.error (.dispatchDenied .journalUnavailable),
          (scope.update index (MutationDescriptor.fail (.dispatchDenied .journalUnavailable))).poison
            d.step.kind ("mutation_primary_denied:" ++ d.step.id))
      else (.ok index, scope.update index fun d => { d with
        status := .dispatching, authorized := false, networkCalls := d.networkCalls + 1 })

/-- A primary whose ambiguous failure the caller proved settled; a check that throws
proves nothing. -/
def reconciledAmbiguous (reconciled : String → Option Bool) (d : MutationDescriptor) : Bool :=
  d.status == .failed &&
    (match d.failure with
      | some (.planViolation _) | some (.dispatchDenied _) | some (.definitiveWrite _) => false
      | _ => true) &&
    reconciled d.step.id == some true

/-- The end of `withMutationPlanScope`: `result` is what the handler returned, with whether
the caller calls it complete. -/
def close (scope : MutationPlanScope) (result : Except HostError Bool)
    (reconciled : String → Option Bool) : Except HostError Bool :=
  match result with
  | .error e => .error e
  | .ok requiresComplete =>
      if requiresComplete then
        match scope.descriptors.find? fun d => d.step.kind == .primary &&
            d.status != .completed && !reconciledAmbiguous reconciled d with
        | some d => .error (.planViolation ("mutation_plan_incomplete:" ++ d.step.id))
        | none => .ok requiresComplete
      else .ok requiresComplete

end MutationPlanScope

inductive MutationResponse
  | transportError (message : String)
  | answered (status : Nat) (json : Bool)
  deriving DecidableEq

/-- The outcome `request` gives a mutation for the response to its one fetch. -/
def MutationResponse.outcome : MutationResponse → Except HostError Unit
  | .transportError _ => .error (.ambiguousWrite none)
  | .answered status json =>
      if 200 ≤ status ∧ status < 300 then
        if json then .ok () else .error (.ambiguousWrite (some status))
      else if status = 408 ∨ 500 ≤ status ∨ status < 400 then .error (.ambiguousWrite (some status))
      else .error (.definitiveWrite (some status))

inductive ScopeEvent
  | beginStep (input : PlanStepInput) (eligible : Bool)
  | authorizeDispatch
  | dispatchAnswered (index : Nat) (answer : MutationPlanScope.DispatchAnswer) (aborted : Bool)
  | commitDispatch (aborted journaled : Bool)
  | hostAnswered (index : Nat) (response : MutationResponse)
  | finishStep (outcome : Except HostError Unit)

inductive ScopeFact
  | begun (input : PlanStepInput)
  | denied (index : Nat)
  | issued (index : Nat)
  | answered (index : Nat) (outcome : Except HostError Unit)
  | finished (index : Nat) (completed : Bool)
  deriving DecidableEq

/-- An event: the scope it leaves and the fact it adds to the log. -/
def ScopeEvent.apply (scope : MutationPlanScope) : ScopeEvent → MutationPlanScope × Option ScopeFact
  | beginStep input eligible =>
      let (r, scope) := scope.beginStep input eligible
      (scope, r.toOption.map fun _ => .begun input)
  | authorizeDispatch => (scope.authorizeDispatch.2, none)
  | dispatchAnswered index answer aborted =>
      let (_, left) := scope.dispatchAnswered index answer aborted
      (left, if answer.denies && scope.descriptors[index]?.isSome then some (.denied index)
        else none)
  | commitDispatch aborted journaled =>
      let (r, scope) := scope.commitDispatch aborted journaled
      (scope, r.toOption.map .issued)
  | hostAnswered index response => (scope, some (.answered index response.outcome))
  | finishStep outcome =>
      match scope.active with
      | none => (scope, none)
      | some index =>
          let (r, scope) := scope.finishStep index outcome
          (scope, some (.finished index r.toOption.isSome))

structure ScopeRun where
  scope : MutationPlanScope
  log : List ScopeFact

def ScopeRun.step (run : ScopeRun) (e : ScopeEvent) : ScopeRun :=
  let (scope, fact) := e.apply run.scope
  { scope, log := run.log ++ fact.toList }

/-- A scope over a plan, whose handler's work is `events` and ends with `result`. -/
def withMutationPlanScope (plan : ExternalMutationPlan) (events : List ScopeEvent)
    (result : Except HostError Bool) (reconciled : String → Option Bool) :
    Except HostError Bool × List ScopeFact :=
  match openMutationPlanScope plan with
  | .error e => (.error e, [])
  | .ok scope =>
      let run := events.foldl ScopeRun.step ⟨scope, []⟩
      (run.scope.close result reconciled, run.log)

end ClockifyAssistant
