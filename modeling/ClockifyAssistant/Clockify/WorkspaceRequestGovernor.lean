import Mathlib.Logic.Function.Basic

/-!
The request governor of one workspace. A charge, a dispatch hook, an external
operation and an abort listener run on the call stack and may call the governor
again; what the governor does after such a call is a frame of its own. Everything
else is a callback and starts on an empty stack. Times are in milliseconds; the log
is kept for the theorems.
-/
namespace ClockifyAssistant

inductive HostRequestKind
  | read | mutation
  deriving DecidableEq

structure WorkspaceRequestGovernorOptions where
  requestsPerSecond : Nat
  burst : Nat
  concurrency : Nat
  requestsPerSecond_pos : 0 < requestsPerSecond
  burst_pos : 0 < burst
  concurrency_pos : 0 < concurrency

def WorkspaceRequestGovernorOptions.rateCap (options : WorkspaceRequestGovernorOptions) : Nat :=
  min options.requestsPerSecond options.burst

inductive RequestState
  | queued | preDispatch | cancelled | dispatched | settled
  deriving DecidableEq

/-- The callback a request still has to come: of its hook's promise, of its
operation's promise, or of the `finally` behind that. -/
inductive RequestCallback
  | nothing | hook | operation | cleanup
  deriving DecidableEq

structure GovernedRequest where
  kind : HostRequestKind
  signal : Option Nat
  onDispatch : Bool
  state : RequestState
  activeReleased : Bool
  budgetRefunded : Bool
  promiseSettled : Bool
  callback : RequestCallback

/-- How the promise of a call settles; `cancelled` is a rejection before dispatch. -/
inductive RequestOutcome
  | resolved | rejected | cancelled
  deriving DecidableEq

inductive RequestEvent
  | dequeued
  | invoked
  | refunded
  | settled (outcome : RequestOutcome)
  deriving DecidableEq

inductive GovernorEntry
  | request (request : Nat) (event : RequestEvent) (at_ : Nat)
  | rateLimited (delay : Nat) (until_ : Nat)
  deriving DecidableEq

inductive GovernorFrame
  | drain
  | charge (kind : HostRequestKind) (signal : Option Nat) (onDispatch : Bool)
  | listener (request : Nat)
  | hook (request : Nat)
  | operation (request : Nat)
  deriving DecidableEq

structure WorkspaceRequestGovernor where
  requests : Nat → GovernedRequest
  nextRequest : Nat
  queue : List Nat
  starts : List Nat
  active : Nat
  mutationActive : Bool
  cooldownUntil : Nat
  timer : Option Nat
  aborted : Nat → Bool
  now : Nat
  stack : List GovernorFrame
  log : List GovernorEntry

def GovernedRequest.fresh (kind : HostRequestKind) (signal : Option Nat) (onDispatch : Bool) :
    GovernedRequest where
  kind := kind
  signal := signal
  onDispatch := onDispatch
  state := .queued
  activeReleased := false
  budgetRefunded := false
  promiseSettled := false
  callback := .nothing

def createWorkspaceRequestGovernor (now : Nat) : WorkspaceRequestGovernor where
  requests := fun _ => .fresh .read none false
  nextRequest := 0
  queue := []
  starts := []
  active := 0
  mutationActive := false
  cooldownUntil := 0
  timer := none
  aborted := fun _ => false
  now := now
  stack := []
  log := []

namespace WorkspaceRequestGovernor

variable (options : WorkspaceRequestGovernorOptions) (g : WorkspaceRequestGovernor)

def modify (r : Nat) (f : GovernedRequest → GovernedRequest) : WorkspaceRequestGovernor :=
  { g with requests := Function.update g.requests r (f (g.requests r)) }

def push (frame : GovernorFrame) : WorkspaceRequestGovernor :=
  { g with stack := frame :: g.stack }

def record (r : Nat) (event : RequestEvent) : WorkspaceRequestGovernor :=
  { g with log := g.log ++ [.request r event g.now] }

def signalAborted (r : Nat) : Bool := (g.requests r).signal.any g.aborted

def schedule (delayMs : Nat) : WorkspaceRequestGovernor :=
  if g.timer.isSome then g else { g with timer := some (g.now + max 1 delayMs) }

def pruneStarts : WorkspaceRequestGovernor :=
  { g with starts := g.starts.dropWhile fun start => start + 1000 ≤ g.now }

def refundBeforeDispatch (r : Nat) : WorkspaceRequestGovernor :=
  if (g.requests r).budgetRefunded then g
  else (g.modify r ({ · with budgetRefunded := true })).record r .refunded

def settleOnce (r : Nat) (outcome : RequestOutcome) : WorkspaceRequestGovernor :=
  if (g.requests r).promiseSettled then g
  else (g.modify r ({ · with promiseSettled := true })).record r (.settled outcome)

def releaseActive (r : Nat) : WorkspaceRequestGovernor :=
  if (g.requests r).activeReleased then g
  else
    let released := g.modify r ({ · with activeReleased := true })
    { released with
      active := g.active - 1
      mutationActive := if (g.requests r).kind = HostRequestKind.mutation then false else g.mutationActive
    } |>.push .drain

def cancelBeforeDispatch (r : Nat) : WorkspaceRequestGovernor :=
  match (g.requests r).state with
  | .queued =>
      let cancelled := { g.modify r ({ · with state := .cancelled }) with
        queue := g.queue.filter (· ≠ r) }
      ((cancelled.refundBeforeDispatch r).settleOnce r .cancelled).push .drain
  | .preDispatch =>
      let cancelled := g.modify r ({ · with state := .cancelled })
      ((cancelled.refundBeforeDispatch r).settleOnce r .cancelled).releaseActive r
  | .cancelled | .dispatched | .settled => g

def failBeforeDispatch (r : Nat) : WorkspaceRequestGovernor :=
  if (g.requests r).state = .cancelled then g.releaseActive r
  else
    let failed := g.modify r ({ · with state := .settled })
    ((failed.refundBeforeDispatch r).settleOnce r .rejected).releaseActive r

def startExternalOperation (r : Nat) : WorkspaceRequestGovernor :=
  if (g.requests r).state = .cancelled then g.releaseActive r
  else if g.signalAborted r then (g.cancelBeforeDispatch r).releaseActive r
  else
    ((g.modify r ({ · with state := .dispatched })).record r .invoked).push (.operation r)

def dispatch (r : Nat) : WorkspaceRequestGovernor :=
  let ready := g.modify r ({ · with state := .preDispatch })
  if (g.requests r).onDispatch then ready.push (.hook r) else ready.startExternalOperation r

/-- The request at the head leaves the queue; another call of `drain` follows its dispatch. -/
def dequeue (r : Nat) (rest : List Nat) : WorkspaceRequestGovernor :=
  let taken := { g with
    queue := rest
    active := g.active + 1
    mutationActive := g.mutationActive || (g.requests r).kind == HostRequestKind.mutation
    starts := g.starts ++ [g.now] }
  ((taken.record r .dequeued).push .drain).dispatch r

def drain : WorkspaceRequestGovernor :=
  match g.queue with
  | [] => g
  | next :: rest =>
      if options.concurrency ≤ g.active then g
      else if g.now < g.cooldownUntil then g.schedule (g.cooldownUntil - g.now)
      else
        let pruned := g.pruneStarts
        if options.rateCap ≤ pruned.starts.length then
          pruned.schedule (pruned.starts.headD 0 + 1000 - g.now)
        else if (g.requests next).kind = .mutation ∧ g.mutationActive then pruned
        else pruned.dequeue next rest

/-- A signal that is aborted already rejects the call; else it is charged. -/
def run (kind : HostRequestKind) (signal : Option Nat) (onDispatch : Bool) :
    WorkspaceRequestGovernor :=
  if signal.any g.aborted then g else g.push (.charge kind signal onDispatch)

/-- A charged call is queued, and dropped at once when its signal was aborted meanwhile. -/
def enqueue (kind : HostRequestKind) (signal : Option Nat) (onDispatch : Bool) :
    WorkspaceRequestGovernor :=
  let r := g.nextRequest
  let added := ({ g with
    requests := Function.update g.requests r (.fresh kind signal onDispatch)
    nextRequest := r + 1
    queue := g.queue ++ [r] }).push .drain
  if signal.any g.aborted then added.cancelBeforeDispatch r else added

def listeners (signal : Nat) : List Nat :=
  (List.range g.nextRequest).filter fun r =>
    (g.requests r).signal == some signal &&
      ((g.requests r).state == .queued || (g.requests r).state == .preDispatch)

def abort (signal : Nat) : WorkspaceRequestGovernor :=
  if g.aborted signal then g
  else
    { g with
      aborted := Function.update g.aborted signal true
      stack := (g.listeners signal).map .listener ++ g.stack }

def noteRateLimited (delayMs : Int) : WorkspaceRequestGovernor :=
  let until_ := max g.cooldownUntil (g.now + (max 0 delayMs).toNat)
  let noted := { g with
    cooldownUntil := until_
    log := g.log ++ [.rateLimited (max 0 delayMs).toNat until_] }
  if g.queue = [] then noted else noted.schedule (until_ - g.now)

def advance : WorkspaceRequestGovernor :=
  match g.stack with
  | .drain :: rest => { g with stack := rest }.drain options
  | .listener r :: rest => { g with stack := rest }.cancelBeforeDispatch r
  | _ => g

end WorkspaceRequestGovernor

inductive HookReturn
  | value | thrown | promise
  deriving DecidableEq

namespace WorkspaceRequestGovernor

variable (options : WorkspaceRequestGovernorOptions) (g : WorkspaceRequestGovernor)

/-- The charge of a call is made or refused; a refusal rejects the call. -/
def chargeReturns (charged : Bool) : WorkspaceRequestGovernor :=
  match g.stack with
  | .charge kind signal onDispatch :: rest =>
      let left := { g with stack := rest }
      if charged then left.enqueue kind signal onDispatch else left
  | _ => g

def hookReturns (returned : HookReturn) : WorkspaceRequestGovernor :=
  match g.stack with
  | .hook r :: rest =>
      let left := { g with stack := rest }
      match returned with
      | .value => left.startExternalOperation r
      | .thrown => left.failBeforeDispatch r
      | .promise => left.modify r ({ · with callback := .hook })
  | _ => g

def operationReturns (promised : Bool) : WorkspaceRequestGovernor :=
  match g.stack with
  | .operation r :: rest =>
      let left := { g with stack := rest }
      if promised then left.modify r ({ · with callback := .operation })
      else ((left.modify r ({ · with state := .settled })).settleOnce r .rejected).releaseActive r
  | _ => g

def hookSettles (r : Nat) (fulfilled : Bool) : WorkspaceRequestGovernor :=
  if g.stack = [] ∧ (g.requests r).callback = .hook then
    let due := g.modify r ({ · with callback := .nothing })
    if fulfilled then due.startExternalOperation r else due.failBeforeDispatch r
  else g

def operationSettles (r : Nat) (fulfilled : Bool) : WorkspaceRequestGovernor :=
  if g.stack = [] ∧ (g.requests r).callback = .operation then
    (g.modify r ({ · with state := .settled, callback := .cleanup })).settleOnce r
      (if fulfilled then .resolved else .rejected)
  else g

def cleanup (r : Nat) : WorkspaceRequestGovernor :=
  if g.stack = [] ∧ (g.requests r).callback = .cleanup then
    (g.modify r ({ · with callback := .nothing })).releaseActive r
  else g

def fireTimer : WorkspaceRequestGovernor :=
  if g.stack = [] ∧ g.timer.any (· ≤ g.now) then { g with timer := none }.push .drain else g

/-- Code of a caller runs: on an empty stack, in a charge, a hook, an operation or a listener. -/
def callable : Bool :=
  match g.stack with
  | .drain :: _ => false
  | _ => true

end WorkspaceRequestGovernor

inductive GovernorStep
  | run (kind : HostRequestKind) (signal : Option Nat) (onDispatch : Bool)
  | abort (signal : Nat)
  | noteRateLimited (delayMs : Int)
  | wait (elapsed : Nat)
  | fireTimer
  | advance
  | chargeReturns (charged : Bool)
  | hookReturns (returned : HookReturn)
  | operationReturns (promised : Bool)
  | hookSettles (request : Nat) (fulfilled : Bool)
  | operationSettles (request : Nat) (fulfilled : Bool)
  | cleanup (request : Nat)

def WorkspaceRequestGovernor.step (options : WorkspaceRequestGovernorOptions)
    (g : WorkspaceRequestGovernor) : GovernorStep → WorkspaceRequestGovernor
  | .run kind signal onDispatch => if g.callable then g.run kind signal onDispatch else g
  | .abort signal => if g.callable then g.abort signal else g
  | .noteRateLimited delayMs => if g.callable then g.noteRateLimited delayMs else g
  | .wait elapsed => { g with now := g.now + elapsed }
  | .fireTimer => g.fireTimer
  | .advance => g.advance options
  | .chargeReturns charged => g.chargeReturns charged
  | .hookReturns returned => g.hookReturns returned
  | .operationReturns promised => g.operationReturns promised
  | .hookSettles request fulfilled => g.hookSettles request fulfilled
  | .operationSettles request fulfilled => g.operationSettles request fulfilled
  | .cleanup request => g.cleanup request

/-- The steps of a workspace's governor, created at `start`. -/
def runGovernor (options : WorkspaceRequestGovernorOptions) (start : Nat)
    (steps : List GovernorStep) : WorkspaceRequestGovernor :=
  steps.foldl (WorkspaceRequestGovernor.step options) (createWorkspaceRequestGovernor start)

theorem runGovernor_concat (options : WorkspaceRequestGovernorOptions) (start : Nat)
    (steps : List GovernorStep) (step : GovernorStep) :
    runGovernor options start (steps ++ [step]) =
      (runGovernor options start steps).step options step := by
  simp [runGovernor]

end ClockifyAssistant
