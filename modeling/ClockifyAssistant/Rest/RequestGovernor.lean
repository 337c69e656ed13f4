import ClockifyAssistant.Rest.MutationPlanScope
import ClockifyAssistant.Store.Runs

/-!
The host-call budgets of a request. A budget counts the calls of a turn, in
memory or in the durable ledger of a run; a reservation counts the calls of one
operation. A charge is made against the reservation when one is installed, else
against the budget, and a queued call that never starts is refunded where it
was charged.
-/
namespace ClockifyAssistant

open Lib

/-- A turn's budget; a run-scoped one charges the run's row instead of its maximum. -/
structure HostCallBudget where
  used : Nat
  maximum : Nat
  runScope : Option AssistantRunScope

inductive HostCallCharge
  | reservation | turn | nothing
  deriving DecidableEq

/-- The store, the installed budget and reservation, the calls that wait in the
governor's queue, and how many were sent. -/
structure HostCallState where
  db : Db
  budget : Option HostCallBudget
  reservation : Option Nat
  queued : List HostCallCharge
  sent : Nat

/-- `withRunScopedHostCallBudget`: always nests. -/
def HostCallState.runScoped (db : Db) (s : AssistantRunScope) : HostCallState where
  db := db
  budget := some { used := 0, maximum := hostCallBudgetMaximum, runScope := some s }
  reservation := none
  queued := []
  sent := 0

namespace HostCallState

def setUsed (st : HostCallState) (budget : HostCallBudget) (used : Nat) : HostCallState :=
  { st with budget := some { budget with used } }

def reserveHostCallBudget (st : HostCallState) (count : Nat) : Except HostError HostCallState :=
  match st.budget with
  | none => .ok st
  | some budget =>
      if budget.maximum < budget.used + count then .error .budgetExceeded
      else .ok (st.setUsed budget (budget.used + count))

def chargeTurn (st : HostCallState) (budget : HostCallBudget) (now : Time) :
    Except HostError HostCallCharge × HostCallState :=
  match budget.runScope with
  | some s =>
      let (charged, db) := (convertReservedRunHostCall s now).commit st.db
      match charged with
      | .ok true => (.ok .turn, { st with db }.setUsed budget (budget.used + 1))
      | .ok false => (.error .budgetExceeded, { st with db })
      | .error _ => (.error (.other "charge"), { st with db })
  | none =>
      if budget.maximum < budget.used + 1 then (.error .budgetExceeded, st)
      else (.ok .turn, st.setUsed budget (budget.used + 1))

def chargeHostCallBudget (st : HostCallState) (now : Time) :
    Except HostError HostCallCharge × HostCallState :=
  match st.reservation with
  | some 0 => (.error .budgetExceeded, st)
  | some (remaining + 1) => (.ok .reservation, { st with reservation := some remaining })
  | none =>
      match st.budget with
      | some budget => st.chargeTurn budget now
      | none => (.ok .nothing, st)

def refundTurn (st : HostCallState) (now : Time) : HostCallState :=
  match st.budget with
  | none => st
  | some budget =>
      { st with
        db := match budget.runScope with
          | some s => ((refundRunHostCall s now).commit st.db).2
          | none => st.db }.setUsed budget (budget.used - 1)

def refund (st : HostCallState) (charge : HostCallCharge) (now : Time) : HostCallState :=
  match charge with
  | .reservation => { st with reservation := st.reservation.map (· + 1) }
  | .turn => st.refundTurn now
  | .nothing => st

end HostCallState

/-- What the governor does with a call: charge and queue it, drop it before its dispatch,
or start it. A started mutation that the plan scope refuses is not sent. -/
inductive GovernorEvent
  | run (now : Time)
  | failBeforeDispatch (index : Nat) (now : Time)
  | startExternalOperation (index : Nat) (fetches : Bool)

def GovernorEvent.apply (st : HostCallState) : GovernorEvent → HostCallState
  | run now =>
      let (charged, left) := st.chargeHostCallBudget now
      match charged with
      | .ok charge => { left with queued := left.queued ++ [charge] }
      | .error _ => left
  | failBeforeDispatch index now =>
      match st.queued[index]? with
      | some charge => { st with queued := st.queued.eraseIdx index }.refund charge now
      | none => st
  | startExternalOperation index fetches =>
      if st.queued[index]?.isSome then
        { st with
          queued := st.queued.eraseIdx index
          sent := if fetches then st.sent + 1 else st.sent }
      else st

/-- `withReservedHostCallBudget` around an operation whose calls are `events`. The calls
made before it were awaited, and its reservation ends with it. -/
def withReservedHostCallBudget (st : HostCallState) (count : Nat) (events : List GovernorEvent) :
    HostCallState :=
  match st.reserveHostCallBudget count with
  | .error _ => st
  | .ok reserved =>
      { events.foldl GovernorEvent.apply { reserved with reservation := some count, queued := [] } with
        reservation := st.reservation
        queued := st.queued }

end ClockifyAssistant
