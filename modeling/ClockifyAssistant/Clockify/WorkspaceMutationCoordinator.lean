import ClockifyAssistant.Lib.PromiseChain
import ClockifyAssistant.Schema

/-!
The settlement barrier of each workspace: the leases of every installation
generation, the drains that wait for them, the deletion that keeps a workspace
closed, and the chain of lifecycle callbacks. Continuations of resolved promises
are steps of their own and run at any later point.
-/
namespace ClockifyAssistant

open Lib

inductive CoordinatorError
  | error (message : String)
  | revoked (workspaceId : WorkspaceId) (expectedGeneration : Int)
  deriving DecidableEq

/-- The revocation holds the reason it was aborted with. A drain waits for the
state while it is among the waiters. -/
structure WorkspaceState where
  workspaceId : WorkspaceId
  generation : Int
  blocked : Bool
  revocation : Option CoordinatorError
  leases : List Nat
  drainWaiters : List Nat
  nextLease : Nat

def activeState (workspaceId : WorkspaceId) (generation : Int) : WorkspaceState where
  workspaceId := workspaceId
  generation := generation
  blocked := false
  revocation := none
  leases := []
  drainWaiters := []
  nextLease := 1

namespace WorkspaceState

variable (state : WorkspaceState)

def abort : WorkspaceState :=
  { state with
    revocation := state.revocation.or (some (.revoked state.workspaceId state.generation)) }

def resolveDrain : WorkspaceState :=
  if state.leases = [] then { state with drainWaiters := [] } else state

def block : WorkspaceState := ({ state with blocked := true }.abort).resolveDrain

def grant : WorkspaceState :=
  { state with nextLease := state.nextLease + 1, leases := state.leases ++ [state.nextLease] }

def drop (leaseId : Nat) : WorkspaceState :=
  { state with leases := state.leases.filter (· ≠ leaseId) }.resolveDrain

def stateDrain (drain : Nat) : WorkspaceState :=
  if state.leases = [] then state
  else { state with drainWaiters := state.drainWaiters ++ [drain] }

end WorkspaceState

structure LeaseHandle where
  workspaceId : WorkspaceId
  state : Nat
  leaseId : Nat
  released : Bool

structure Drain where
  workspaceId : WorkspaceId
  epochs : List Nat
  generation : Int

/-- A drain that belongs to no deletion stays `absent`. -/
inductive DeletionPhase
  | absent | begun | finished | completed
  deriving DecidableEq

structure LifecycleEntry where
  workspaceId : WorkspaceId
  callback : Nat
  sequence : Option Int
  stale : Bool
  deriving DecidableEq

structure MutationCoordinator where
  heap : Nat → WorkspaceState
  nextState : Nat
  states : WorkspaceId → Option Nat
  retiredStates : WorkspaceId → List Nat
  handles : Nat → Option LeaseHandle
  nextHandle : Nat
  drains : Nat → Option Drain
  nextDrain : Nat
  deletions : WorkspaceId → Option Nat
  deletionPhase : Nat → DeletionPhase
  chain : PromiseChain WorkspaceId
  ordering : Nat → Option Int
  latestLifecycleSequences : WorkspaceId → Option Int
  log : List LifecycleEntry

def createWorkspaceMutationCoordinator : MutationCoordinator where
  heap := fun _ => activeState 0 0
  nextState := 0
  states := fun _ => none
  retiredStates := fun _ => []
  handles := fun _ => none
  nextHandle := 0
  drains := fun _ => none
  nextDrain := 0
  deletions := fun _ => none
  deletionPhase := fun _ => .absent
  chain := .empty
  ordering := fun _ => none
  latestLifecycleSequences := fun _ => none
  log := []

namespace MutationCoordinator

variable (c : MutationCoordinator)

def install (state : WorkspaceState) : MutationCoordinator :=
  { c with
    heap := Function.update c.heap c.nextState state
    nextState := c.nextState + 1
    states := Function.update c.states state.workspaceId (some c.nextState) }

def modify (id : Nat) (f : WorkspaceState → WorkspaceState) : MutationCoordinator :=
  { c with heap := Function.update c.heap id (f (c.heap id)) }

def block (workspaceId : WorkspaceId) : MutationCoordinator :=
  match c.states workspaceId with
  | none => c.install { activeState workspaceId 0 with blocked := true }.abort
  | some id => c.modify id .block

def retire (workspaceId : WorkspaceId) (id : Nat) : MutationCoordinator :=
  { c with
    retiredStates :=
      Function.update c.retiredStates workspaceId (c.retiredStates workspaceId ++ [id]) }

def activate (workspaceId : WorkspaceId) (generation : Int) :
    Except CoordinatorError Unit × MutationCoordinator :=
  if generation < 1 ∨ maxSafeInteger < generation then
    (.error (.error "Installation generation must be a positive safe integer."), c)
  else if (c.deletions workspaceId).isSome then (.error (.revoked workspaceId generation), c)
  else match c.states workspaceId with
  | none => (.ok (), c.install (activeState workspaceId generation))
  | some id =>
      let current := c.heap id
      if generation < current.generation then
        (.error (.error "Installation generation cannot move backwards."), c)
      else if generation = current.generation then
        if current.blocked then (.error (.revoked workspaceId generation), c) else (.ok (), c)
      else
        let aborted := c.modify id .abort
        let kept := if current.leases = [] then aborted else aborted.retire workspaceId id
        (.ok (), kept.install (activeState workspaceId generation))

def seed (workspaceId : WorkspaceId) (generation : Int) : Nat × MutationCoordinator :=
  match c.states workspaceId with
  | some id => (id, c)
  | none => (c.nextState, c.install (activeState workspaceId generation))

def refuses (id : Nat) (generation : Int) : Bool :=
  (c.heap id).blocked || (c.heap id).generation != generation

def observe (workspaceId : WorkspaceId) (generation : Int) :
    Except CoordinatorError Nat × MutationCoordinator :=
  let (id, seeded) := c.seed workspaceId generation
  if seeded.refuses id generation then (.error (.revoked workspaceId generation), seeded)
  else (.ok id, seeded)

def grantLease (workspaceId : WorkspaceId) (id : Nat) : MutationCoordinator :=
  { c.modify id .grant with
    handles := Function.update c.handles c.nextHandle
      (some ⟨workspaceId, id, (c.heap id).nextLease, false⟩)
    nextHandle := c.nextHandle + 1 }

def acquire (workspaceId : WorkspaceId) (generation : Int) :
    Except CoordinatorError Nat × MutationCoordinator :=
  let (id, seeded) := c.seed workspaceId generation
  if seeded.refuses id generation then (.error (.revoked workspaceId generation), seeded)
  else (.ok seeded.nextHandle, seeded.grantLease workspaceId id)

def dropLease (lease : Nat) (handle : LeaseHandle) : MutationCoordinator :=
  { c.modify handle.state (·.drop handle.leaseId) with
    handles := Function.update c.handles lease (some { handle with released := true }) }

def unretire (workspaceId : WorkspaceId) (id : Nat) : MutationCoordinator :=
  if (c.heap id).leases = [] ∧ c.states workspaceId ≠ some id then
    { c with
      retiredStates := Function.update c.retiredStates workspaceId
        ((c.retiredStates workspaceId).filter (· ≠ id)) }
  else c

def release (lease : Nat) : MutationCoordinator :=
  match c.handles lease with
  | none => c
  | some handle =>
      if handle.released then c
      else (c.dropLease lease handle).unretire handle.workspaceId handle.state

def workspaceEpochs (workspaceId : WorkspaceId) : List Nat :=
  (c.states workspaceId).toList ++ c.retiredStates workspaceId

def currentGeneration (workspaceId : WorkspaceId) : Int :=
  ((c.states workspaceId).map fun id => (c.heap id).generation).getD 0

def workspaceDrain (workspaceId : WorkspaceId) : MutationCoordinator :=
  { c with
    heap := fun id =>
      if id ∈ c.workspaceEpochs workspaceId then (c.heap id).stateDrain c.nextDrain else c.heap id
    drains := Function.update c.drains c.nextDrain
      (some ⟨workspaceId, c.workspaceEpochs workspaceId, c.currentGeneration workspaceId⟩)
    nextDrain := c.nextDrain + 1 }

def drained (drain : Nat) : Bool :=
  (c.drains drain).any fun d => d.epochs.all fun id => drain ∉ (c.heap id).drainWaiters

def blockAndDrain (workspaceId : WorkspaceId) : Nat × MutationCoordinator :=
  (c.nextDrain, (c.block workspaceId).workspaceDrain workspaceId)

def beginDeletion (workspaceId : WorkspaceId) : (Bool × Nat) × MutationCoordinator :=
  match c.deletions workspaceId with
  | some existing => ((false, existing), c)
  | none =>
      let begun := (c.block workspaceId).workspaceDrain workspaceId
      ((true, c.nextDrain),
        { begun with
          deletions := Function.update begun.deletions workspaceId (some c.nextDrain)
          deletionPhase := Function.update begun.deletionPhase c.nextDrain .begun })

def finish (drain : Nat) : MutationCoordinator :=
  if c.deletionPhase drain = .begun then
    { c with deletionPhase := Function.update c.deletionPhase drain .finished }
  else c

def complete (drain : Nat) : MutationCoordinator :=
  match c.drains drain with
  | some d =>
      if c.deletionPhase drain = .finished ∧ c.drained drain then
        { c with
          deletions :=
            if c.deletions d.workspaceId = some drain then
              Function.update c.deletions d.workspaceId none
            else c.deletions
          deletionPhase := Function.update c.deletionPhase drain .completed }
      else c
  | none => c

def runLifecycle (workspaceId : WorkspaceId) (ordering : Option Int) :
    Except CoordinatorError Nat × MutationCoordinator :=
  if ordering.any fun sequence : Int => sequence < 1 || (maxSafeInteger : Int) < sequence then
    (.error (.error "invalid_lifecycle_request_sequence"), c)
  else
    (.ok c.chain.next,
      { c with
        chain := c.chain.register workspaceId
        ordering := Function.update c.ordering c.chain.next ordering })

def superseded (workspaceId : WorkspaceId) (sequence : Int) : Bool :=
  sequence < (c.latestLifecycleSequences workspaceId).getD 0

def latestAfter (workspaceId : WorkspaceId) : Option Int → WorkspaceId → Option Int
  | none => c.latestLifecycleSequences
  | some sequence =>
      if c.superseded workspaceId sequence then c.latestLifecycleSequences
      else Function.update c.latestLifecycleSequences workspaceId (some sequence)

def startLifecycle (callback : Nat) : MutationCoordinator :=
  match c.chain.links callback with
  | some link =>
      if c.chain.startable callback then
        { c with
          chain := c.chain.start callback
          latestLifecycleSequences := c.latestAfter link.key (c.ordering callback)
          log := c.log ++ [{
            workspaceId := link.key
            callback := callback
            sequence := c.ordering callback
            stale := (c.ordering callback).any (c.superseded link.key) }] }
      else c
  | none => c

end MutationCoordinator

inductive CoordinatorStep
  | activate (workspaceId : WorkspaceId) (generation : Int)
  | observe (workspaceId : WorkspaceId) (generation : Int)
  | acquire (workspaceId : WorkspaceId) (generation : Int)
  | release (lease : Nat)
  | block (workspaceId : WorkspaceId)
  | blockAndDrain (workspaceId : WorkspaceId)
  | beginDeletion (workspaceId : WorkspaceId)
  | finish (drain : Nat)
  | complete (drain : Nat)
  | runLifecycle (workspaceId : WorkspaceId) (ordering : Option Int)
  | startLifecycle (callback : Nat)
  | settleLifecycle (callback : Nat)
  | releaseLifecycle (callback : Nat)
  | resolveTail (callback : Nat)
  | forgetTail (callback : Nat)

def MutationCoordinator.step (c : MutationCoordinator) : CoordinatorStep → MutationCoordinator
  | .activate workspaceId generation => (c.activate workspaceId generation).2
  | .observe workspaceId generation => (c.observe workspaceId generation).2
  | .acquire workspaceId generation => (c.acquire workspaceId generation).2
  | .release lease => c.release lease
  | .block workspaceId => c.block workspaceId
  | .blockAndDrain workspaceId => (c.blockAndDrain workspaceId).2
  | .beginDeletion workspaceId => (c.beginDeletion workspaceId).2
  | .finish drain => c.finish drain
  | .complete drain => c.complete drain
  | .runLifecycle workspaceId ordering => (c.runLifecycle workspaceId ordering).2
  | .startLifecycle callback => c.startLifecycle callback
  | .settleLifecycle callback => { c with chain := c.chain.settle callback }
  | .releaseLifecycle callback => { c with chain := c.chain.release callback }
  | .resolveTail callback => { c with chain := c.chain.resolve callback }
  | .forgetTail callback => { c with chain := c.chain.forget callback }

def MutationCoordinator.run (c : MutationCoordinator) (steps : List CoordinatorStep) :
    MutationCoordinator :=
  steps.foldl MutationCoordinator.step c

end ClockifyAssistant
