import Mathlib.Algebra.Order.BigOperators.Group.Finset
import ClockifyAssistant.GovernorLifecycle

/-!
The work a governor has before it: for each request the callbacks that it may still
need, and for each charge under way those of the request it may admit. Whatever
moves a request on leaves less of it.
-/
namespace ClockifyAssistant

/-- How many callbacks the request may still need. -/
def GovernedRequest.load (q : GovernedRequest) : Nat :=
  match q.state, q.callback with
  | .queued, _ => 6
  | .preDispatch, .hook => 4
  | .preDispatch, _ => 5
  | .dispatched, .operation => 2
  | .dispatched, _ => 3
  | .settled, .cleanup => 1
  | .settled, _ => 0
  | .cancelled, _ => 0

def GovernorFrame.isCharge : GovernorFrame → Bool
  | charge _ _ _ => true
  | _ => false

theorem countP_isCharge_cons {frame : GovernorFrame} (h : frame.isCharge = false)
    (stack : List GovernorFrame) :
    (frame :: stack).countP GovernorFrame.isCharge = stack.countP GovernorFrame.isCharge :=
  List.countP_cons_of_neg (by simp [h])

namespace WorkspaceRequestGovernor

def charges (g : WorkspaceRequestGovernor) : Nat := g.stack.countP GovernorFrame.isCharge

def work (g : WorkspaceRequestGovernor) : Nat :=
  (∑ r ∈ Finset.range g.nextRequest, (g.requests r).load) + 7 * g.charges

variable {g g' : WorkspaceRequestGovernor} {r : Nat} {q : GovernedRequest}

theorem sum_load_update {n : Nat} (requests : Nat → GovernedRequest) (q : GovernedRequest)
    (hr : r < n) : ∑ x ∈ Finset.range n, (Function.update requests r q x).load + (requests r).load =
      ∑ x ∈ Finset.range n, (requests x).load + q.load := by
  have hmem : r ∈ Finset.range n := Finset.mem_range.mpr hr
  have hrest : ∑ x ∈ (Finset.range n).erase r, (Function.update requests r q x).load =
      ∑ x ∈ (Finset.range n).erase r, (requests x).load := by
    refine Finset.sum_congr rfl ?_
    intro x hx
    rw [Function.update_of_ne (Finset.ne_of_mem_erase hx)]
  rw [← Finset.add_sum_erase _ _ hmem, ← Finset.add_sum_erase _ (fun x => (requests x).load) hmem,
    Function.update_self, hrest]
  omega

theorem work_update (hr : r < g.nextRequest) (hnext : g'.nextRequest = g.nextRequest)
    (hrequests : g'.requests = Function.update g.requests r q) (hcharges : g'.charges = g.charges) :
    g'.work + (g.requests r).load = g.work + q.load := by
  have hsum := sum_load_update g.requests q hr
  unfold work
  rw [hnext, hrequests, hcharges]
  omega

theorem work_modify (hr : r < g.nextRequest) (f : GovernedRequest → GovernedRequest) :
    (g.modify r f).work + (g.requests r).load = g.work + (f (g.requests r)).load :=
  work_update hr rfl rfl rfl

theorem work_drop {k : Nat} (hr : r < g.nextRequest) (hnext : g'.nextRequest = g.nextRequest)
    (hrequests : g'.requests = Function.update g.requests r q)
    (hload : q.load + k ≤ (g.requests r).load) (hcharges : g'.charges = g.charges) :
    g'.work + k ≤ g.work := by
  have := work_update hr hnext hrequests hcharges
  omega

theorem work_lt (hr : r < g.nextRequest) (hnext : g'.nextRequest = g.nextRequest)
    (hrequests : g'.requests = Function.update g.requests r q)
    (hload : q.load < (g.requests r).load) (hcharges : g'.charges = g.charges) : g'.work < g.work :=
  work_drop (k := 1) hr hnext hrequests hload hcharges

theorem work_pop {frame : GovernorFrame} {rest : List GovernorFrame}
    (hstack : g.stack = frame :: rest) :
    ({ g with stack := rest } : WorkspaceRequestGovernor).work +
      (if frame.isCharge then 7 else 0) = g.work := by
  have hcharges : g.charges = rest.countP GovernorFrame.isCharge +
      if frame.isCharge then 1 else 0 := by
    unfold charges
    rw [hstack, List.countP_cons]
  show (∑ x ∈ Finset.range g.nextRequest, (g.requests x).load) +
    7 * rest.countP GovernorFrame.isCharge + _ = _
  unfold work
  rw [hcharges]
  by_cases hcharge : frame.isCharge = true
  · rw [if_pos hcharge, if_pos hcharge]
    omega
  · rw [if_neg hcharge, if_neg hcharge]
    omega

theorem retire_work {events : List RequestEvent} {k : Nat} (hr : r < g.nextRequest)
    (hload : q.load + k ≤ (g.requests r).load) : (g.retire r q events).work + k ≤ g.work :=
  work_drop hr rfl rfl hload ((countP_isCharge_cons rfl g.stack))

theorem cancel_preDispatch_work {p : RequestPhase} (hd : p.Describes (g.requests r))
    (hstate : p.state = .preDispatch) (hr : r < g.nextRequest) :
    (g.cancelBeforeDispatch r).work + 2 ≤ g.work := by
  rw [cancelBeforeDispatch_preDispatch hd hstate]
  refine retire_work hr ?_
  have hq : (g.requests r).state = .preDispatch := by rw [hd.state, hstate]
  cases hcallback : (g.requests r).callback <;> simp [GovernedRequest.load, hq, hcallback]

theorem cancel_queued_work (hd : RequestPhase.queued.Describes (g.requests r))
    (hr : r < g.nextRequest) : (g.cancelBeforeDispatch r).work < g.work := by
  have hq : (g.requests r).state = .queued := hd.state
  rw [cancelBeforeDispatch_queued hd]
  refine work_lt (g := g) hr rfl rfl ?_ ?_
  · simp [GovernedRequest.load, hq]
  · exact countP_isCharge_cons rfl g.stack

theorem start_work (hd : RequestPhase.starting.Describes (g.requests r))
    (hr : r < g.nextRequest) : (g.startExternalOperation r).work + 2 ≤ g.work := by
  cases haborted : g.signalAborted r with
  | true =>
    rw [startExternalOperation_aborted hd haborted]
    exact cancel_preDispatch_work hd rfl hr
  | false =>
    have hstate : (g.requests r).state = .preDispatch := hd.state
    have hcallback : (g.requests r).callback = .nothing := hd.callback
    rw [startExternalOperation_invokes hd haborted]
    refine work_drop (g := g) hr rfl rfl ?_ ?_
    · simp [GovernedRequest.load, hstate, hcallback]
    · exact countP_isCharge_cons rfl g.stack

theorem fail_work (hd : RequestPhase.starting.Describes (g.requests r))
    (hr : r < g.nextRequest) : (g.failBeforeDispatch r).work + 2 ≤ g.work := by
  rw [failBeforeDispatch_starting hd]
  refine retire_work hr ?_
  have hstate : (g.requests r).state = .preDispatch := hd.state
  have hcallback : (g.requests r).callback = .nothing := hd.callback
  simp [GovernedRequest.load, hstate, hcallback]

theorem leave_work (hd : RequestPhase.queued.Describes (g.requests r)) (hr : r < g.nextRequest)
    (rest : List Nat) : (g.leave r rest).work < g.work := by
  have hstate : (g.requests r).state = .queued := hd.state
  have hcallback : (g.requests r).callback = .nothing := hd.callback
  refine work_lt (g := g) hr rfl rfl ?_ ?_
  · simp [GovernedRequest.load, hstate, hcallback]
  · exact countP_isCharge_cons rfl g.stack

theorem dequeue_work (hd : RequestPhase.queued.Describes (g.requests r)) (hr : r < g.nextRequest)
    (rest : List Nat) : (g.dequeue r rest).work < g.work := by
  have hleft := leave_work hd hr rest
  rw [dequeue_eq]
  split
  · have hpush : ((g.leave r rest).push (.hook r)).work = (g.leave r rest).work := by
      have hcharges : ((g.leave r rest).push (.hook r)).charges = (g.leave r rest).charges :=
        countP_isCharge_cons rfl _
      unfold work
      rw [hcharges]
      rfl
    rw [hpush]
    exact hleft
  · have hself : (g.leave r rest).requests r = { g.requests r with state := .preDispatch } :=
      Function.update_self _ _ _
    have hstarting : RequestPhase.starting.Describes ((g.leave r rest).requests r) := by
      rw [hself]
      exact ⟨rfl, hd.activeReleased, hd.budgetRefunded, hd.promiseSettled, hd.callback⟩
    have := start_work hstarting (show r < (g.leave r rest).nextRequest from hr)
    omega

theorem join_work (g : WorkspaceRequestGovernor) (kind : HostRequestKind) (signal : Option Nat)
    (onDispatch : Bool) :
    (({ g with
      requests := Function.update g.requests g.nextRequest (.fresh kind signal onDispatch)
      nextRequest := g.nextRequest + 1
      queue := g.queue ++ [g.nextRequest] }).push .drain).work = g.work + 6 := by
  have hold : ∑ x ∈ Finset.range g.nextRequest,
      (Function.update g.requests g.nextRequest (.fresh kind signal onDispatch) x).load =
      ∑ x ∈ Finset.range g.nextRequest, (g.requests x).load := by
    refine Finset.sum_congr rfl ?_
    intro x hx
    rw [Function.update_of_ne (Nat.ne_of_lt (Finset.mem_range.mp hx))]
  show (∑ x ∈ Finset.range (g.nextRequest + 1), (Function.update g.requests g.nextRequest
    (.fresh kind signal onDispatch) x).load) + 7 * List.countP _ (.drain :: g.stack) = _
  rw [countP_isCharge_cons rfl, Finset.sum_range_succ, hold, Function.update_self]
  show _ + 6 + 7 * g.charges = _
  unfold work
  omega

end WorkspaceRequestGovernor

end ClockifyAssistant
