import ClockifyAssistant.GovernorPhases

/-!
Every step of the governor moves its requests from phase to phase, and the law of
the governor follows: the slots, the order of the queue, and one settlement and
at most one refund for each call.
-/
namespace ClockifyAssistant

open Lib

namespace WorkspaceRequestGovernor

structure Tracks (options : WorkspaceRequestGovernorOptions) (g : WorkspaceRequestGovernor)
    (phase : Nat → RequestPhase) : Prop where
  follows : g.Follows phase
  slotted : Slotted options g phase

/-- A request gives its slot back; another call of `drain` follows. -/
def retire (g : WorkspaceRequestGovernor) (r : Nat) (q : GovernedRequest)
    (events : List RequestEvent) : WorkspaceRequestGovernor :=
  { g with
    requests := Function.update g.requests r q
    active := g.active - 1
    mutationActive :=
      if (g.requests r).kind = HostRequestKind.mutation then false else g.mutationActive
    log := g.log ++ entriesOf r events g.now
    stack := .drain :: g.stack }

/-- The request at the head has left the queue and is about to be dispatched. -/
def leave (g : WorkspaceRequestGovernor) (r : Nat) (rest : List Nat) : WorkspaceRequestGovernor :=
  { g with
    requests := Function.update g.requests r { g.requests r with state := .preDispatch }
    queue := rest
    active := g.active + 1
    mutationActive := g.mutationActive || (g.requests r).kind == HostRequestKind.mutation
    starts := g.starts ++ [g.now]
    log := g.log ++ entriesOf r [.dequeued] g.now
    stack := .drain :: g.stack }

section Specs

variable (g : WorkspaceRequestGovernor) (r : Nat)

theorem dequeue_eq (rest : List Nat) :
    g.dequeue r rest =
      if (g.requests r).onDispatch then (g.leave r rest).push (.hook r)
      else (g.leave r rest).startExternalOperation r :=
  rfl

variable {g r}

theorem releaseActive_released (h : (g.requests r).activeReleased = true) :
    g.releaseActive r = g := by
  unfold releaseActive
  rw [if_pos h]

theorem cancelBeforeDispatch_queued (h : RequestPhase.queued.Describes (g.requests r)) :
    g.cancelBeforeDispatch r =
      { g with
        requests := Function.update g.requests r
          { g.requests r with state := .cancelled, budgetRefunded := true, promiseSettled := true }
        queue := g.queue.filter (· ≠ r)
        log := g.log ++ entriesOf r [.refunded, .settled .cancelled] g.now
        stack := .drain :: g.stack } := by
  have hstate : (g.requests r).state = .queued := h.state
  have hrefunded : (g.requests r).budgetRefunded = false := h.budgetRefunded
  have hsettled : (g.requests r).promiseSettled = false := h.promiseSettled
  simp [cancelBeforeDispatch, hstate, refundBeforeDispatch, settleOnce, modify, record, push,
    hrefunded, hsettled, entriesOf]

theorem cancelBeforeDispatch_preDispatch {p : RequestPhase} (h : p.Describes (g.requests r))
    (hstate : p.state = .preDispatch) :
    g.cancelBeforeDispatch r = g.retire r
      { g.requests r with
        state := .cancelled
        activeReleased := true
        budgetRefunded := true
        promiseSettled := true } [.refunded, .settled .cancelled] := by
  have hq : (g.requests r).state = .preDispatch := by rw [h.state, hstate]
  have hflags : p.activeReleased = false ∧ p.budgetRefunded = false ∧ p.promiseSettled = false := by
    cases p <;> simp_all [RequestPhase.state, RequestPhase.activeReleased,
      RequestPhase.budgetRefunded, RequestPhase.promiseSettled]
  have hreleased : (g.requests r).activeReleased = false := by rw [h.activeReleased, hflags.1]
  have hrefunded : (g.requests r).budgetRefunded = false := by rw [h.budgetRefunded, hflags.2.1]
  have hsettled : (g.requests r).promiseSettled = false := by rw [h.promiseSettled, hflags.2.2]
  simp [cancelBeforeDispatch, hq, refundBeforeDispatch, settleOnce, modify, record, push,
    releaseActive, retire, hreleased, hrefunded, hsettled, entriesOf]

theorem cancelBeforeDispatch_other {p : RequestPhase} (h : p.Describes (g.requests r))
    (hqueued : p.state ≠ .queued) (hpre : p.state ≠ .preDispatch) :
    g.cancelBeforeDispatch r = g := by
  unfold cancelBeforeDispatch
  rw [h.state]
  cases hstate : p.state <;> simp_all

theorem failBeforeDispatch_starting (h : RequestPhase.starting.Describes (g.requests r)) :
    g.failBeforeDispatch r = g.retire r
      { g.requests r with
        state := .settled
        activeReleased := true
        budgetRefunded := true
        promiseSettled := true } [.refunded, .settled .rejected] := by
  have hstate : (g.requests r).state = .preDispatch := h.state
  have hreleased : (g.requests r).activeReleased = false := h.activeReleased
  have hrefunded : (g.requests r).budgetRefunded = false := h.budgetRefunded
  have hsettled : (g.requests r).promiseSettled = false := h.promiseSettled
  simp [failBeforeDispatch, hstate, refundBeforeDispatch, settleOnce, modify, record,
    releaseActive, retire, push, hreleased, hrefunded, hsettled, entriesOf]

theorem failBeforeDispatch_cancelled (h : RequestPhase.cancelled.Describes (g.requests r)) :
    g.failBeforeDispatch r = g := by
  have hstate : (g.requests r).state = .cancelled := h.state
  unfold failBeforeDispatch
  rw [if_pos hstate]
  exact releaseActive_released h.activeReleased

theorem startExternalOperation_cancelled (h : RequestPhase.cancelled.Describes (g.requests r)) :
    g.startExternalOperation r = g := by
  have hstate : (g.requests r).state = .cancelled := h.state
  unfold startExternalOperation
  rw [if_pos hstate]
  exact releaseActive_released h.activeReleased

/-- A request whose signal has been aborted is cancelled and its slot given back once. -/
theorem startExternalOperation_aborted (h : RequestPhase.starting.Describes (g.requests r))
    (haborted : g.signalAborted r = true) :
    g.startExternalOperation r = g.cancelBeforeDispatch r := by
  have hstate : (g.requests r).state ≠ .cancelled := by
    rw [h.state]
    simp [RequestPhase.state]
  unfold startExternalOperation
  rw [if_neg hstate, if_pos haborted]
  refine releaseActive_released ?_
  rw [cancelBeforeDispatch_preDispatch h rfl]
  simp [retire]

theorem startExternalOperation_invokes (h : RequestPhase.starting.Describes (g.requests r))
    (hlive : g.signalAborted r = false) :
    g.startExternalOperation r =
      { g with
        requests := Function.update g.requests r { g.requests r with state := .dispatched }
        log := g.log ++ entriesOf r [.invoked] g.now
        stack := .operation r :: g.stack } := by
  have hstate : (g.requests r).state ≠ .cancelled := by
    rw [h.state]
    simp [RequestPhase.state]
  unfold startExternalOperation
  rw [if_neg hstate, if_neg (by simp [hlive])]
  rfl

end Specs

namespace Tracks

variable {options : WorkspaceRequestGovernorOptions} {g g' : WorkspaceRequestGovernor}
  {phase : Nat → RequestPhase}

theorem initial (start : Nat) :
    Tracks options (createWorkspaceRequestGovernor start) fun _ => .absent :=
  ⟨Follows.initial start, Slotted.initial start⟩

theorem lt_next (h : Tracks options g phase) {r : Nat} (hr : phase r ≠ .absent) :
    r < g.nextRequest := by
  by_contra hge
  exact hr ((h.follows.absent_iff r).mpr (by omega))

/-- Changes that touch neither a request, the queue, the slots nor the log of requests. -/
theorem restack (h : Tracks options g phase) (hrequests : g'.requests = g.requests)
    (hnext : g'.nextRequest = g.nextRequest) (hqueue : g'.queue = g.queue)
    (hactive : g'.active = g.active) (hmutation : g'.mutationActive = g.mutationActive)
    (hlog : g'.log = g.log) (hhooks : ∀ r, g'.stack.count (.hook r) = g.stack.count (.hook r))
    (hoperations : ∀ r, g'.stack.count (.operation r) = g.stack.count (.operation r))
    (hlisteners : ∀ r, .listener r ∈ g'.stack → phase r ≠ .absent) : Tracks options g' phase := by
  constructor
  · exact h.follows.restack hrequests hnext hqueue (by simp [hlog])
      (by rw [hlog]; exact h.follows.fifo) hhooks hoperations hlisteners
  · refine h.slotted.keep (by rw [hnext]) ?_ hactive hmutation
    intro r _
    rw [hrequests]

variable {p : RequestPhase}

/-- A request moves on and keeps its slot, or goes on without one. -/
theorem evolve (h : Tracks options g phase) {r : Nat} {q : GovernedRequest}
    {events : List RequestEvent} (hpresent : phase r ≠ .absent) (hp : p ≠ .absent)
    (hunqueued : p ≠ .queued) (hdescribes : p.Describes q) (hkind : q.kind = (g.requests r).kind)
    (hdequeued : p.dequeued = (phase r).dequeued)
    (hreleased : p.activeReleased = (phase r).activeReleased)
    (hrequests : g'.requests = Function.update g.requests r q)
    (hnext : g'.nextRequest = g.nextRequest)
    (hqueue : g'.queue = g.queue.filter (· ≠ r))
    (hactive : g'.active = g.active) (hmutation : g'.mutationActive = g.mutationActive)
    (hlog : g'.log = g.log ++ entriesOf r events g.now) (hquiet : .dequeued ∉ events)
    (htrace : p.trace = (phase r).trace ++ events)
    (hhooks : ∀ x, g'.stack.count (.hook x) =
      if x = r then p.hookFrames else g.stack.count (.hook x))
    (hoperations : ∀ x, g'.stack.count (.operation x) =
      if x = r then p.operationFrames else g.stack.count (.operation x))
    (hlisteners : ∀ x, .listener x ∈ g'.stack → .listener x ∈ g.stack) :
    Tracks options g' (Function.update phase r p) := by
  constructor
  · refine h.follows.move hpresent hp hunqueued hdescribes hrequests hnext hqueue ?_ hlog htrace
      hhooks hoperations hlisteners ?_
    · intro hd
      rw [hdequeued] at hd
      exact .inl hd
    · rw [hlog]
      exact always_inOrder_append h.follows.fifo hquiet _
  · refine h.slotted.keep ?_ ?_ hactive hmutation
    · rw [hnext]
      refine Slotted.slots_update_same ?_
      rw [RequestPhase.holdsSlot, RequestPhase.holdsSlot, hdequeued, hreleased]
    · intro x _
      rw [hrequests]
      by_cases hx : x = r
      · rw [hx, Function.update_self, hkind]
      · rw [Function.update_of_ne hx]

theorem retire (h : Tracks options g phase) {r : Nat} {q : GovernedRequest}
    {events : List RequestEvent} (hholds : (phase r).holdsSlot = true)
    (hdequeued : p.dequeued = true) (hreleased : p.activeReleased = true)
    (hdescribes : p.Describes q) (hkind : q.kind = (g.requests r).kind)
    (hquiet : .dequeued ∉ events) (htrace : p.trace = (phase r).trace ++ events)
    (hhooks : p.hookFrames = (phase r).hookFrames)
    (hoperations : p.operationFrames = (phase r).operationFrames) :
    Tracks options (g.retire r q events) (Function.update phase r p) := by
  have hpresent : phase r ≠ .absent := by
    intro heq
    simp [heq, RequestPhase.holdsSlot, RequestPhase.dequeued] at hholds
  have hqueued : phase r ≠ .queued := by
    intro heq
    simp [heq, RequestPhase.holdsSlot, RequestPhase.dequeued] at hholds
  have hp : p ≠ .absent := by
    intro heq
    simp [heq, RequestPhase.dequeued] at hdequeued
  have hp' : p ≠ .queued := by
    intro heq
    simp [heq, RequestPhase.dequeued] at hdequeued
  constructor
  · refine h.follows.move hpresent hp hp' hdescribes rfl rfl
      (h.follows.queue_filter hqueued).symm ?_ rfl htrace ?_ ?_ ?_ ?_
    · intro _
      simp only [RequestPhase.holdsSlot, Bool.and_eq_true] at hholds
      exact .inl hholds.1
    · exact h.follows.hooks_kept (fun x => List.count_cons_of_ne (by simp)) hhooks
    · exact h.follows.operations_kept (fun x => List.count_cons_of_ne (by simp)) hoperations
    · intro x hx
      have hx' : GovernorFrame.listener x ∈ .drain :: g.stack := hx
      simpa using hx'
    · exact always_inOrder_append h.follows.fifo hquiet _
  · refine h.slotted.lose (r := r) ?_ ?_ ?_ rfl rfl
    · exact Slotted.mem_slots.mpr ⟨h.lt_next hpresent, hholds⟩
    · refine Slotted.slots_update_lose ?_
      simp [RequestPhase.holdsSlot, hreleased]
    · intro x
      show (Function.update g.requests r q x).kind = _
      by_cases hx : x = r
      · rw [hx, Function.update_self, hkind]
      · rw [Function.update_of_ne hx]

theorem leave (h : Tracks options g phase) {r : Nat} {rest : List Nat}
    (hqueue : g.queue = r :: rest) (hfree : g.active < options.concurrency)
    (hsingle : ¬((g.requests r).kind = .mutation ∧ g.mutationActive = true)) :
    Tracks options (g.leave r rest) (Function.update phase r .starting) := by
  have hqueued : phase r = .queued := by
    refine (h.follows.queue_iff r).mp ?_
    simp [hqueue]
  have hsorted : (r :: rest).Pairwise (· < ·) := hqueue ▸ h.follows.queue_sorted
  have hlater : ∀ x ∈ rest, r < x := (List.pairwise_cons.mp hsorted).1
  have hrest : rest = g.queue.filter (· ≠ r) := by
    rw [hqueue, List.filter_cons_of_neg (by simp)]
    refine (List.filter_eq_self.mpr ?_).symm
    intro x hx
    have := hlater x hx
    simpa using (show x ≠ r by omega)
  have hd := h.follows.describes r
  rw [hqueued] at hd
  have hpresent : phase r ≠ .absent := by simp [hqueued]
  have hstarting : RequestPhase.starting.Describes
      { g.requests r with state := .preDispatch } :=
    ⟨rfl, hd.activeReleased, hd.budgetRefunded, hd.promiseSettled, hd.callback⟩
  have hlog : (g.leave r rest).log = g.log ++ entriesOf r [.dequeued] g.now := rfl
  constructor
  · refine h.follows.move hpresent (by simp) (by simp) hstarting rfl rfl hrest ?_ hlog
      ?_ ?_ ?_ ?_ ?_
    · intro _
      exact .inr hlater
    · rw [hqueued]
      rfl
    · exact h.follows.hooks_kept (fun x => List.count_cons_of_ne (by simp)) (by rw [hqueued]; rfl)
    · exact h.follows.operations_kept (fun x => List.count_cons_of_ne (by simp))
        (by rw [hqueued]; rfl)
    · intro x hx
      have hx' : GovernorFrame.listener x ∈ .drain :: g.stack := hx
      simpa using hx'
    · refine h.follows.fifo.concat ?_
      intro r' t hentry
      obtain rfl : r = r' := by
        injection hentry
      constructor
      · intro x t' hx
        have hmem : .dequeued ∈ traceOf x g.log := mem_traceOf.mpr ⟨t', hx⟩
        rw [h.follows.trace x] at hmem
        refine h.follows.before_queue x ((RequestPhase.dequeued_iff _).mpr hmem) r ?_
        simp [hqueue]
      · intro x hx
        have hxpresent : phase x ≠ .absent := by
          intro heq
          have := (h.follows.absent_iff x).mp heq
          have := h.lt_next hpresent
          omega
        have hxqueued : phase x ≠ .queued := by
          intro heq
          have hmem := (h.follows.queue_iff x).mpr heq
          rw [hqueue] at hmem
          rcases List.mem_cons.mp hmem with heqr | hin
          · omega
          · have := hlater x hin
            omega
        by_cases hdropped : phase x = .dropped
        · have hmem : .settled .cancelled ∈ traceOf x g.log := by
            rw [h.follows.trace x, hdropped]
            simp [RequestPhase.trace]
          exact .inr (mem_traceOf.mp hmem)
        · have hmem : .dequeued ∈ traceOf x g.log := by
            rw [h.follows.trace x, ← RequestPhase.dequeued_iff]
            exact RequestPhase.dequeued_of_ne hxpresent hxqueued hdropped
          exact .inl (mem_traceOf.mp hmem)
  · refine h.slotted.gain (r := r) ?_ ?_ ?_ hfree hsingle rfl rfl
    · exact Slotted.slots_update_gain (h.lt_next hpresent) rfl
    · intro hin
      have := (Slotted.mem_slots.mp hin).2
      rw [hqueued] at this
      simp [RequestPhase.holdsSlot, RequestPhase.dequeued] at this
    · intro x
      show (Function.update g.requests r _ x).kind = _
      by_cases hx : x = r
      · rw [hx, Function.update_self]
      · rw [Function.update_of_ne hx]

theorem dropQueued (h : Tracks options g phase) {r : Nat} (hr : phase r = .queued) :
    Tracks options (g.cancelBeforeDispatch r) (Function.update phase r .dropped) := by
  have hd := h.follows.describes r
  rw [hr] at hd
  have hdropped : RequestPhase.dropped.Describes { g.requests r with
      state := .cancelled, budgetRefunded := true, promiseSettled := true } :=
    ⟨rfl, hd.activeReleased, rfl, rfl, hd.callback⟩
  rw [cancelBeforeDispatch_queued hd]
  refine h.evolve (by simp [hr]) (by simp) (by simp) hdropped rfl (by rw [hr]; rfl)
    (by rw [hr]; rfl) rfl rfl rfl rfl rfl rfl (by simp) (by rw [hr]; rfl) ?_ ?_ ?_
  · exact h.follows.hooks_kept (fun x => List.count_cons_of_ne (by simp)) (by rw [hr]; rfl)
  · exact h.follows.operations_kept (fun x => List.count_cons_of_ne (by simp)) (by rw [hr]; rfl)
  · intro x hx
    simpa using hx

theorem cancelPreDispatch (h : Tracks options g phase) {r : Nat}
    (hstate : (phase r).state = .preDispatch) :
    Tracks options (g.cancelBeforeDispatch r) (Function.update phase r (phase r).cancel) := by
  have hd := h.follows.describes r
  obtain ⟨hholds, hdequeued, hreleased, hcancelled, hrefunded, hsettled, hcallback, htrace, hhooks,
    hoperations⟩ := RequestPhase.cancel_preDispatch hstate
  rw [cancelBeforeDispatch_preDispatch hd hstate]
  exact h.retire hholds hdequeued hreleased
    ⟨hcancelled.symm, hreleased.symm, hrefunded.symm, hsettled.symm, hd.callback.trans hcallback.symm⟩
    rfl (by simp) htrace hhooks hoperations

theorem cancelBeforeDispatch (h : Tracks options g phase) (r : Nat) (hr : phase r ≠ .absent) :
    Tracks options (g.cancelBeforeDispatch r) (Function.update phase r (phase r).cancel) := by
  have hd := h.follows.describes r
  by_cases hqueued : phase r = .queued
  · have hcancel : (phase r).cancel = .dropped := by
      rw [hqueued]
      rfl
    rw [hcancel]
    exact h.dropQueued hqueued
  by_cases hpre : (phase r).state = .preDispatch
  · exact h.cancelPreDispatch hpre
  · have hstate : (phase r).state ≠ .queued := by
      cases hphase : phase r <;> simp [hphase, RequestPhase.state] at hr hqueued ⊢
    rw [cancelBeforeDispatch_other hd hstate hpre, RequestPhase.cancel_other hqueued hpre,
      Function.update_eq_self]
    exact h

/-- A request about to be dispatched is invoked, or cancelled when its signal was aborted. -/
theorem startExternalOperation (h : Tracks options g phase) {r : Nat}
    (hr : phase r = .starting ∨ phase r = .cancelled) : ∃ p, p.rests = true ∧
      Tracks options (g.startExternalOperation r) (Function.update phase r p) := by
  have hd := h.follows.describes r
  rcases hr with hr | hr
  · rw [hr] at hd
    cases haborted : g.signalAborted r with
    | true =>
      rw [startExternalOperation_aborted hd haborted]
      exact ⟨_, by rw [hr]; rfl, h.cancelPreDispatch (by rw [hr]; rfl)⟩
    | false =>
      have hinvoked : RequestPhase.inOperation.Describes
          { g.requests r with state := .dispatched } :=
        ⟨rfl, hd.activeReleased, hd.budgetRefunded, hd.promiseSettled, hd.callback⟩
      have hoperations := h.follows.operations r
      rw [hr] at hoperations
      rw [startExternalOperation_invokes hd haborted]
      refine ⟨_, rfl, h.evolve (by simp [hr]) (by simp) (by simp) hinvoked rfl (by rw [hr]; rfl)
        (by rw [hr]; rfl) rfl rfl (h.follows.queue_filter (by simp [hr])).symm rfl rfl rfl
        (by simp) (by rw [hr]; rfl) ?_ ?_ ?_⟩
      · exact h.follows.hooks_kept (fun x => List.count_cons_of_ne (by simp)) (by rw [hr]; rfl)
      · intro x
        by_cases hx : x = r
        · rw [if_pos hx, hx, List.count_cons_self, hoperations]
          rfl
        · rw [if_neg hx, List.count_cons_of_ne (by simpa using Ne.symm hx)]
      · intro x hx
        simpa using hx
  · rw [hr] at hd
    refine ⟨.cancelled, rfl, ?_⟩
    rw [startExternalOperation_cancelled hd, ← hr, Function.update_eq_self]
    exact h

theorem failBeforeDispatch (h : Tracks options g phase) {r : Nat}
    (hr : phase r = .starting ∨ phase r = .cancelled) :
    ∃ p, p.rests = true ∧ Tracks options (g.failBeforeDispatch r) (Function.update phase r p) := by
  have hd := h.follows.describes r
  rcases hr with hr | hr
  · rw [hr] at hd
    have hfailed : RequestPhase.failed.Describes { g.requests r with
        state := .settled, activeReleased := true, budgetRefunded := true,
        promiseSettled := true } :=
      ⟨rfl, rfl, rfl, rfl, hd.callback⟩
    rw [failBeforeDispatch_starting hd]
    exact ⟨_, rfl, h.retire (by rw [hr]; rfl) rfl rfl hfailed rfl (by simp) (by rw [hr]; rfl)
      (by rw [hr]; rfl) (by rw [hr]; rfl)⟩
  · rw [hr] at hd
    refine ⟨.cancelled, rfl, ?_⟩
    rw [failBeforeDispatch_cancelled hd, ← hr, Function.update_eq_self]
    exact h

/-- A move that only takes a frame of the request off the stack, or changes its callback. -/
theorem resume (h : Tracks options g phase) {r : Nat}
    {callback : RequestCallback} (stack : List GovernorFrame) (hpresent : phase r ≠ .absent)
    (hqueued : phase r ≠ .queued) (hp : p ≠ .absent) (hp' : p ≠ .queued)
    (hstate : p.state = (phase r).state) (hdequeued : p.dequeued = (phase r).dequeued)
    (hreleased : p.activeReleased = (phase r).activeReleased)
    (hrefunded : p.budgetRefunded = (phase r).budgetRefunded)
    (hsettled : p.promiseSettled = (phase r).promiseSettled)
    (htrace : p.trace = (phase r).trace) (hcallback : callback = p.callback)
    (hhooks : ∀ x, stack.count (.hook x) =
      if x = r then p.hookFrames else g.stack.count (.hook x))
    (hoperations : ∀ x, stack.count (.operation x) =
      if x = r then p.operationFrames else g.stack.count (.operation x))
    (hlisteners : ∀ x, .listener x ∈ stack → .listener x ∈ g.stack) :
    Tracks options (({ g with stack := stack }).modify r ({ · with callback := callback }))
      (Function.update phase r p) := by
  have hd := h.follows.describes r
  have hdescribes : p.Describes { g.requests r with callback := callback } :=
    ⟨by rw [hstate]; exact hd.state, by rw [hreleased]; exact hd.activeReleased,
      by rw [hrefunded]; exact hd.budgetRefunded, by rw [hsettled]; exact hd.promiseSettled,
      hcallback⟩
  have hlog : g.log = g.log ++ entriesOf r [] g.now := by simp [entriesOf]
  exact h.evolve hpresent hp hp' hdescribes rfl hdequeued hreleased rfl rfl
    (h.follows.queue_filter hqueued).symm rfl rfl hlog (by simp) (by simpa using htrace) hhooks
    hoperations hlisteners

variable {rest : List GovernorFrame}

theorem popHook (h : Tracks options g phase) {r : Nat} (hstack : g.stack = .hook r :: rest) :
    Tracks options { g with stack := rest } (Function.update phase r (phase r).hookReturned) := by
  have hd := h.follows.describes r
  have hcount : (phase r).hookFrames = rest.count (.hook r) + 1 := by
    rw [← h.follows.hooks r, hstack, List.count_cons_self]
  have hin : phase r = .inHook ∨ phase r = .cancelledInHook := by
    cases hphase : phase r <;> simp [hphase, RequestPhase.hookFrames] at hcount ⊢
  have hsame : ({ g with stack := rest }).modify r ({ · with callback := .nothing }) =
      { g with stack := rest } := by
    have hnothing : (g.requests r).callback = .nothing := by
      rw [hd.callback]
      rcases hin with hr | hr <;> rw [hr] <;> rfl
    have hreq : { g.requests r with callback := .nothing } = g.requests r := by
      rw [← hnothing]
    simp only [modify, hreq, Function.update_eq_self]
  have hhooks : ∀ x, rest.count (.hook x) =
      if x = r then (phase r).hookReturned.hookFrames else g.stack.count (.hook x) := by
    intro x
    by_cases hx : x = r
    · rw [if_pos hx, hx]
      rcases hin with hr | hr <;> rw [hr] at hcount ⊢ <;>
        simp only [RequestPhase.hookFrames, RequestPhase.hookReturned] at hcount ⊢ <;> omega
    · rw [if_neg hx, hstack, List.count_cons_of_ne (by simpa using Ne.symm hx)]
  have hoperations : ∀ x, rest.count (.operation x) =
      if x = r then (phase r).hookReturned.operationFrames else g.stack.count (.operation x) := by
    refine h.follows.operations_kept ?_ ?_
    · intro x
      rw [hstack, List.count_cons_of_ne (by simp)]
    · rcases hin with hr | hr <;> rw [hr] <;> rfl
  have hlisteners : ∀ x, .listener x ∈ rest → .listener x ∈ g.stack := by
    intro x hx
    rw [hstack]
    exact List.mem_cons_of_mem _ hx
  rw [← hsame]
  refine h.resume rest ?_ ?_ ?_ ?_ ?_ ?_ ?_ ?_ ?_ ?_ ?_ hhooks hoperations hlisteners <;>
    rcases hin with hr | hr <;> rw [hr] <;> first | rfl | simp [RequestPhase.hookReturned]

theorem clearHook (h : Tracks options g phase) {r : Nat}
    (hcallback : (g.requests r).callback = .hook) :
    Tracks options (g.modify r ({ · with callback := .nothing }))
      (Function.update phase r (phase r).hookReturned) := by
  have hd := h.follows.describes r
  have hin : phase r = .awaitingHook ∨ phase r = .cancelledAwaitingHook := by
    have hphase := hd.callback
    rw [hcallback] at hphase
    cases hr : phase r <;> simp [hr, RequestPhase.callback] at hphase ⊢
  refine h.resume g.stack ?_ ?_ ?_ ?_ ?_ ?_ ?_ ?_ ?_ ?_ ?_
    (h.follows.hooks_kept (fun _ => rfl) ?_) (h.follows.operations_kept (fun _ => rfl) ?_)
    (fun _ hx => hx) <;>
    rcases hin with hr | hr <;> rw [hr] <;> first | rfl | simp [RequestPhase.hookReturned]

theorem parkHook (h : Tracks options g phase) {r : Nat}
    (hr : phase r = .starting ∨ phase r = .cancelled) : ∃ p, p.rests = true ∧
      Tracks options (g.modify r ({ · with callback := .hook })) (Function.update phase r p) := by
  rcases hr with hr | hr
  · refine ⟨.awaitingHook, rfl, h.resume g.stack ?_ ?_ ?_ ?_ ?_ ?_ ?_
      ?_ ?_ ?_ ?_ (h.follows.hooks_kept (fun _ => rfl) ?_)
      (h.follows.operations_kept (fun _ => rfl) ?_) (fun _ hx => hx)⟩ <;>
      first | (rw [hr]; rfl) | rfl | simp [hr]
  · refine ⟨.cancelledAwaitingHook, rfl, h.resume g.stack ?_ ?_ ?_ ?_
      ?_ ?_ ?_ ?_ ?_ ?_ ?_ (h.follows.hooks_kept (fun _ => rfl) ?_)
      (h.follows.operations_kept (fun _ => rfl) ?_) (fun _ hx => hx)⟩ <;>
      first | (rw [hr]; rfl) | rfl | simp [hr]

theorem operation_phase (h : Tracks options g phase) {r : Nat}
    (hstack : g.stack = .operation r :: rest) :
    phase r = .inOperation ∧ rest.count (.operation r) = 0 := by
  have hcount : (phase r).operationFrames = rest.count (.operation r) + 1 := by
    rw [← h.follows.operations r, hstack, List.count_cons_self]
  cases hphase : phase r <;> simp [hphase, RequestPhase.operationFrames] at hcount ⊢
  exact hcount

/-- An operation frame leaves the stack; the promise that it returned may be awaited. -/
theorem popOperation (h : Tracks options g phase) {r : Nat}
    (hstack : g.stack = .operation r :: rest) {callback : RequestCallback}
    (hp : (p = .returned ∧ callback = .nothing) ∨
      (p = .awaitingOperation ∧ callback = .operation)) :
    Tracks options (({ g with stack := rest }).modify r ({ · with callback := callback }))
      (Function.update phase r p) := by
  obtain ⟨hr, hone⟩ := h.operation_phase hstack
  have hhooks : ∀ x, rest.count (.hook x) =
      if x = r then p.hookFrames else g.stack.count (.hook x) := by
    refine h.follows.hooks_kept ?_ ?_
    · intro x
      rw [hstack, List.count_cons_of_ne (by simp)]
    · rw [hr]
      rcases hp with ⟨rfl, -⟩ | ⟨rfl, -⟩ <;> rfl
  have hoperations : ∀ x, rest.count (.operation x) =
      if x = r then p.operationFrames else g.stack.count (.operation x) := by
    intro x
    by_cases hx : x = r
    · rw [if_pos hx, hx, hone]
      rcases hp with ⟨rfl, -⟩ | ⟨rfl, -⟩ <;> rfl
    · rw [if_neg hx, hstack, List.count_cons_of_ne (by simpa using Ne.symm hx)]
  have hlisteners : ∀ x, .listener x ∈ rest → .listener x ∈ g.stack := by
    intro x hx
    rw [hstack]
    exact List.mem_cons_of_mem _ hx
  refine h.resume rest ?_ ?_ ?_ ?_ ?_ ?_ ?_ ?_ ?_ ?_ ?_ hhooks hoperations hlisteners <;>
    rcases hp with ⟨rfl, rfl⟩ | ⟨rfl, rfl⟩ <;> first | rfl | (rw [hr]; rfl) | simp [hr]

/-- An operation that throws settles its request and gives the slot back. -/
theorem thrown_eq (hheld : (g.requests r).activeReleased = false)
    (hsettled : (g.requests r).promiseSettled = false) (rest : List GovernorFrame) :
    ((({ g with stack := rest }).modify r ({ · with state := .settled })).settleOnce
      r .rejected).releaseActive r = ({ g with stack := rest }).retire r
        { g.requests r with state := .settled, activeReleased := true, promiseSettled := true }
        [.settled .rejected] := by
  simp [modify, settleOnce, releaseActive, record, push, WorkspaceRequestGovernor.retire,
    entriesOf, hheld, hsettled]

theorem settled_eq (hunsettled : (g.requests r).promiseSettled = false) (outcome : RequestOutcome) :
    (g.modify r ({ · with state := .settled, callback := .cleanup })).settleOnce r outcome = { g with
      requests := Function.update g.requests r { g.requests r with
        state := .settled, callback := .cleanup, promiseSettled := true }
      log := g.log ++ entriesOf r [.settled outcome] g.now } := by
  simp [modify, settleOnce, record, entriesOf, hunsettled]

theorem released_eq (hheld : (g.requests r).activeReleased = false) :
    (g.modify r ({ · with callback := .nothing })).releaseActive r = g.retire r
      { g.requests r with callback := .nothing, activeReleased := true } [] := by
  simp [modify, releaseActive, push, WorkspaceRequestGovernor.retire, entriesOf, hheld]

theorem phase_of_operation (h : Tracks options g phase)
    (hcallback : (g.requests r).callback = .operation) : phase r = .awaitingOperation := by
  have hphase := (h.follows.describes r).callback
  rw [hcallback] at hphase
  cases hr : phase r <;> simp [hr, RequestPhase.callback] at hphase ⊢

theorem phase_of_cleanup (h : Tracks options g phase)
    (hcallback : (g.requests r).callback = .cleanup) : ∃ outcome, phase r = .cleanup outcome := by
  have hphase := (h.follows.describes r).callback
  rw [hcallback] at hphase
  cases hr : phase r <;> simp [hr, RequestPhase.callback] at hphase ⊢

theorem operationReturns (h : Tracks options g phase) (hrests : Rests phase) (promised : Bool) :
    ∃ phase', Tracks options (g.operationReturns promised) phase' ∧ Rests phase' := by
  unfold WorkspaceRequestGovernor.operationReturns
  split
  · rename_i r rest hstack
    cases promised with
    | true => exact ⟨_, h.popOperation hstack (.inr ⟨rfl, rfl⟩), hrests.update r rfl⟩
    | false =>
      have hpop := h.popOperation hstack (.inl ⟨rfl, rfl⟩)
      have hd := hpop.follows.describes r
      rw [Function.update_self] at hd
      -- the frame's request throws: it settles and gives its slot back
      have hq : (g.requests r).activeReleased = false ∧ (g.requests r).promiseSettled = false := by
        have hd' := h.follows.describes r
        rw [(h.operation_phase hstack).1] at hd'
        exact ⟨hd'.activeReleased, hd'.promiseSettled⟩
      have hcallback : (g.requests r).callback = .nothing := by
        have hd' := h.follows.describes r
        rw [(h.operation_phase hstack).1] at hd'
        exact hd'.callback
      have hreq : { g.requests r with callback := .nothing } = g.requests r := by
        rw [← hcallback]
      have hsame : ({ g with stack := rest }).modify r ({ · with callback := .nothing }) =
          { g with stack := rest } := by
        simp only [modify, hreq, Function.update_eq_self]
      rw [hsame] at hpop
      have hdone : (RequestPhase.done .rejected).Describes { g.requests r with
          state := .settled, activeReleased := true, promiseSettled := true } := by
        have hd' := h.follows.describes r
        rw [(h.operation_phase hstack).1] at hd'
        exact ⟨rfl, rfl, hd'.budgetRefunded, rfl, hd'.callback⟩
      simp only [Bool.false_eq_true, if_false]
      refine ⟨Function.update phase r (.done .rejected), ?_, hrests.update r rfl⟩
      rw [thrown_eq hq.1 hq.2, ← Function.update_idem RequestPhase.returned]
      exact hpop.retire (by rw [Function.update_self]; rfl) rfl rfl hdone rfl (by simp)
        (by rw [Function.update_self]; rfl) (by rw [Function.update_self]; rfl)
        (by rw [Function.update_self]; rfl)
  · exact ⟨phase, h, hrests⟩

theorem operationSettles (h : Tracks options g phase) (hrests : Rests phase) (r : Nat)
    (fulfilled : Bool) :
    ∃ phase', Tracks options (g.operationSettles r fulfilled) phase' ∧ Rests phase' := by
  unfold WorkspaceRequestGovernor.operationSettles
  split
  · rename_i hdue
    have hd := h.follows.describes r
    have hr := h.phase_of_operation hdue.2
    rw [hr] at hd
    have hunsettled : (g.requests r).promiseSettled = false := hd.promiseSettled
    generalize (if fulfilled = true then RequestOutcome.resolved else .rejected) = outcome
    have hcleanup : (RequestPhase.cleanup outcome).Describes { g.requests r with
        state := .settled, callback := .cleanup, promiseSettled := true } :=
      ⟨rfl, hd.activeReleased, hd.budgetRefunded, rfl, rfl⟩
    rw [settled_eq hunsettled]
    exact ⟨_, h.evolve (by simp [hr]) (by simp) (by simp) hcleanup rfl (by rw [hr]; rfl)
      (by rw [hr]; rfl) rfl rfl (h.follows.queue_filter (by simp [hr])).symm rfl rfl rfl (by simp)
      (by rw [hr]; rfl) (h.follows.hooks_kept (fun _ => rfl) (by rw [hr]; rfl))
      (h.follows.operations_kept (fun _ => rfl) (by rw [hr]; rfl)) (fun _ hx => hx),
      hrests.update r rfl⟩
  · exact ⟨phase, h, hrests⟩

theorem cleanup (h : Tracks options g phase) (hrests : Rests phase) (r : Nat) :
    ∃ phase', Tracks options (g.cleanup r) phase' ∧ Rests phase' := by
  unfold WorkspaceRequestGovernor.cleanup
  split
  · rename_i hdue
    have hd := h.follows.describes r
    obtain ⟨outcome, hr⟩ := h.phase_of_cleanup hdue.2
    rw [hr] at hd
    have hheld : (g.requests r).activeReleased = false := hd.activeReleased
    rw [released_eq hheld]
    exact ⟨_, h.retire (p := .done outcome) (by rw [hr]; rfl) rfl rfl
      ⟨hd.state, rfl, hd.budgetRefunded, hd.promiseSettled, rfl⟩ rfl (by simp) (by rw [hr]; rfl)
      (by rw [hr]; rfl) (by rw [hr]; rfl), hrests.update r rfl⟩
  · exact ⟨phase, h, hrests⟩

theorem hookReturned_self (phase : Nat → RequestPhase) (r : Nat) :
    Function.update phase r (phase r).hookReturned r = .starting ∨
      Function.update phase r (phase r).hookReturned r = .cancelled := by
  rw [Function.update_self]
  exact RequestPhase.hookReturned_cases _

theorem rests_of_settled (hrests : Rests phase) {p₀ : RequestPhase} (h : ∃ p, p.rests = true ∧
    Tracks options g (Function.update (Function.update phase r p₀) r p)) :
    ∃ phase', Tracks options g phase' ∧ Rests phase' := by
  obtain ⟨p, hp, htracks⟩ := h
  rw [Function.update_idem] at htracks
  exact ⟨_, htracks, hrests.update r hp⟩

theorem hookReturns (h : Tracks options g phase) (hrests : Rests phase) (returned : HookReturn) :
    ∃ phase', Tracks options (g.hookReturns returned) phase' ∧ Rests phase' := by
  unfold WorkspaceRequestGovernor.hookReturns
  split
  · rename_i r rest hstack
    have hpop := h.popHook hstack
    have hr := hookReturned_self phase r
    cases returned with
    | value => exact rests_of_settled hrests (hpop.startExternalOperation hr)
    | thrown => exact rests_of_settled hrests (hpop.failBeforeDispatch hr)
    | promise => exact rests_of_settled hrests (hpop.parkHook hr)
  · exact ⟨phase, h, hrests⟩

theorem hookSettles (h : Tracks options g phase) (hrests : Rests phase) (r : Nat)
    (fulfilled : Bool) :
    ∃ phase', Tracks options (g.hookSettles r fulfilled) phase' ∧ Rests phase' := by
  unfold WorkspaceRequestGovernor.hookSettles
  split
  · rename_i hdue
    have hclear := h.clearHook hdue.2
    have hr := hookReturned_self phase r
    cases fulfilled with
    | true => exact rests_of_settled hrests (hclear.startExternalOperation hr)
    | false => exact rests_of_settled hrests (hclear.failBeforeDispatch hr)
  · exact ⟨phase, h, hrests⟩

theorem push (h : Tracks options g phase) {frame : GovernorFrame}
    (hhook : ∀ r, frame ≠ .hook r) (hoperation : ∀ r, frame ≠ .operation r)
    (hlistener : ∀ r, frame ≠ .listener r) : Tracks options (g.push frame) phase := by
  refine h.restack rfl rfl rfl rfl rfl rfl ?_ ?_ ?_
  · intro r
    exact List.count_cons_of_ne (hhook r)
  · intro r
    exact List.count_cons_of_ne (hoperation r)
  · intro r hr
    rcases List.mem_cons.mp hr with heq | hin
    · exact absurd heq.symm (hlistener r)
    · exact h.follows.listeners r hin

/-- A frame that belongs to no request, or a listener, leaves the stack. -/
theorem pop (h : Tracks options g phase) {frame : GovernorFrame}
    (hstack : g.stack = frame :: rest) (hhook : ∀ r, frame ≠ .hook r)
    (hoperation : ∀ r, frame ≠ .operation r) : Tracks options { g with stack := rest } phase := by
  refine h.restack rfl rfl rfl rfl rfl rfl ?_ ?_ ?_
  · intro r
    rw [hstack, List.count_cons_of_ne (hhook r)]
  · intro r
    rw [hstack, List.count_cons_of_ne (hoperation r)]
  · intro r hr
    refine h.follows.listeners r ?_
    rw [hstack]
    exact List.mem_cons_of_mem _ hr

theorem schedule (h : Tracks options g phase) (delay : Nat) :
    Tracks options (g.schedule delay) phase := by
  unfold WorkspaceRequestGovernor.schedule
  split
  · exact h
  · exact h.restack rfl rfl rfl rfl rfl rfl (fun _ => rfl) (fun _ => rfl) h.follows.listeners

theorem pruneStarts (h : Tracks options g phase) : Tracks options g.pruneStarts phase :=
  h.restack rfl rfl rfl rfl rfl rfl (fun _ => rfl) (fun _ => rfl) h.follows.listeners

theorem dequeue (h : Tracks options g phase) (hrests : Rests phase) {r : Nat} {rest : List Nat}
    (hqueue : g.queue = r :: rest) (hfree : g.active < options.concurrency)
    (hsingle : ¬((g.requests r).kind = .mutation ∧ g.mutationActive = true)) :
    ∃ phase', Tracks options (g.dequeue r rest) phase' ∧ Rests phase' := by
  have hleft := h.leave hqueue hfree hsingle
  have hself : Function.update phase r .starting r = .starting := Function.update_self _ _ _
  rw [dequeue_eq]
  split
  · have hd := hleft.follows.describes r
    rw [hself] at hd
    have hhooks := hleft.follows.hooks r
    rw [hself] at hhooks
    have hrequests : (g.leave r rest).requests =
        Function.update (g.leave r rest).requests r ((g.leave r rest).requests r) :=
      (Function.update_eq_self _ _).symm
    have hlog : (g.leave r rest).log =
        (g.leave r rest).log ++ entriesOf r [] (g.leave r rest).now := by
      simp [entriesOf]
    have hin : Tracks options ((g.leave r rest).push (.hook r))
        (Function.update (Function.update phase r .starting) r .inHook) := by
      refine hleft.evolve (by simp) (by simp) (by simp)
        ⟨hd.state, hd.activeReleased, hd.budgetRefunded, hd.promiseSettled, hd.callback⟩ rfl
        (by rw [hself]; rfl) (by rw [hself]; rfl) hrequests rfl
        (hleft.follows.queue_filter (by simp)).symm rfl rfl hlog (by simp) (by rw [hself]; rfl)
        ?_ ?_ ?_
      · intro x
        show List.count _ (.hook r :: (g.leave r rest).stack) = _
        by_cases hx : x = r
        · rw [if_pos hx, hx, List.count_cons_self, hhooks]
          rfl
        · rw [if_neg hx, List.count_cons_of_ne (by simpa using Ne.symm hx)]
      · exact hleft.follows.operations_kept (fun x => List.count_cons_of_ne (by simp))
          (by rw [hself]; rfl)
      · intro x hx
        have hx' : GovernorFrame.listener x ∈ .hook r :: (g.leave r rest).stack := hx
        simpa using hx'
    rw [Function.update_idem] at hin
    exact ⟨_, hin, hrests.update r rfl⟩
  · obtain ⟨p, hp, hstarted⟩ := hleft.startExternalOperation (.inl hself)
    rw [Function.update_idem] at hstarted
    exact ⟨_, hstarted, hrests.update r hp⟩

theorem drain (h : Tracks options g phase) (hrests : Rests phase) :
    ∃ phase', Tracks options (g.drain options) phase' ∧ Rests phase' := by
  unfold WorkspaceRequestGovernor.drain
  split
  · exact ⟨phase, h, hrests⟩
  · rename_i r rest hqueue
    split
    · exact ⟨phase, h, hrests⟩
    · rename_i hfree
      split
      · exact ⟨phase, h.schedule _, hrests⟩
      · simp only
        split
        · exact ⟨phase, h.pruneStarts.schedule _, hrests⟩
        · split
          · exact ⟨phase, h.pruneStarts, hrests⟩
          · rename_i hsingle
            exact h.pruneStarts.dequeue hrests hqueue (by show g.active < _; omega) hsingle

theorem join (h : Tracks options g phase) (kind : HostRequestKind) (signal : Option Nat)
    (onDispatch : Bool) :
    Tracks options (({ g with
      requests := Function.update g.requests g.nextRequest (.fresh kind signal onDispatch)
      nextRequest := g.nextRequest + 1
      queue := g.queue ++ [g.nextRequest] }).push .drain)
      (Function.update phase g.nextRequest .queued) := by
  have habsent : phase g.nextRequest = .absent := (h.follows.absent_iff _).mpr (Nat.le_refl _)
  have hother : ∀ x, x ≠ g.nextRequest →
      Function.update phase g.nextRequest .queued x = phase x := by
    intro x hx
    exact Function.update_of_ne hx _ _
  have hself : Function.update phase g.nextRequest .queued g.nextRequest = .queued :=
    Function.update_self _ _ _
  have hqueue_lt : ∀ x ∈ g.queue, x < g.nextRequest := by
    intro x hx
    exact h.lt_next (by rw [(h.follows.queue_iff x).mp hx]; simp)
  have hframes : ∀ f : GovernorFrame, f ≠ .drain → List.count f (.drain :: g.stack) =
      g.stack.count f := by
    intro f hf
    exact List.count_cons_of_ne (Ne.symm hf)
  constructor
  · refine ⟨?_, ?_, ?_, ?_, ?_, ?_, ?_, ?_, ?_, h.follows.fifo⟩
    · intro x
      show ((Function.update phase _ _) x).Describes (Function.update g.requests _ _ x)
      by_cases hx : x = g.nextRequest
      · rw [hx, hself, Function.update_self]
        exact ⟨rfl, rfl, rfl, rfl, rfl⟩
      · rw [hother x hx, Function.update_of_ne hx]
        exact h.follows.describes x
    · intro x
      show _ ↔ g.nextRequest + 1 ≤ x
      by_cases hx : x = g.nextRequest
      · rw [hx, hself]
        simp
      · rw [hother x hx, h.follows.absent_iff x]
        omega
    · intro x
      show x ∈ g.queue ++ [g.nextRequest] ↔ _
      by_cases hx : x = g.nextRequest
      · rw [hx, hself]
        simp
      · rw [hother x hx, ← h.follows.queue_iff x]
        simp [hx]
    · show (g.queue ++ [g.nextRequest]).Pairwise (· < ·)
      refine List.pairwise_append.mpr ⟨h.follows.queue_sorted, by simp, ?_⟩
      intro x hx y hy
      rw [List.mem_singleton.mp hy]
      exact hqueue_lt x hx
    · intro x hx y hy
      have hxne : x ≠ g.nextRequest := by
        intro heq
        rw [heq, hself] at hx
        simp [RequestPhase.dequeued] at hx
      rw [hother x hxne] at hx
      rcases List.mem_append.mp hy with hold | hnew
      · exact h.follows.before_queue x hx y hold
      · rw [List.mem_singleton.mp hnew]
        refine h.lt_next ?_
        intro heq
        simp [heq, RequestPhase.dequeued] at hx
    · intro x
      show traceOf x g.log = _
      rw [h.follows.trace x]
      by_cases hx : x = g.nextRequest
      · rw [hx, hself, habsent]
        rfl
      · rw [hother x hx]
    · intro x
      show List.count _ (.drain :: g.stack) = _
      rw [hframes _ (by simp), h.follows.hooks x]
      by_cases hx : x = g.nextRequest
      · rw [hx, hself, habsent]
        rfl
      · rw [hother x hx]
    · intro x
      show List.count _ (.drain :: g.stack) = _
      rw [hframes _ (by simp), h.follows.operations x]
      by_cases hx : x = g.nextRequest
      · rw [hx, hself, habsent]
        rfl
      · rw [hother x hx]
    · intro x hx
      have hx' : GovernorFrame.listener x ∈ .drain :: g.stack := hx
      have hpresent := h.follows.listeners x (by simpa using hx')
      by_cases hxr : x = g.nextRequest
      · rw [hxr, hself]
        simp
      · rwa [hother x hxr]
  · refine h.slotted.keep ?_ ?_ rfl rfl
    · show slots (g.nextRequest + 1) _ = _
      ext x
      rw [Slotted.mem_slots, Slotted.mem_slots]
      by_cases hx : x = g.nextRequest
      · rw [hx, hself]
        simp [RequestPhase.holdsSlot, RequestPhase.dequeued]
      · rw [hother x hx]
        constructor
        · intro hin
          exact ⟨by omega, hin.2⟩
        · intro hin
          exact ⟨by omega, hin.2⟩
    · intro x hx
      have hlt := (Slotted.mem_slots.mp hx).1
      show (Function.update g.requests _ _ x).kind = _
      rw [Function.update_of_ne (Nat.ne_of_lt hlt)]

theorem enqueue (h : Tracks options g phase) (hrests : Rests phase) (kind : HostRequestKind)
    (signal : Option Nat) (onDispatch : Bool) :
    ∃ phase', Tracks options (g.enqueue kind signal onDispatch) phase' ∧ Rests phase' := by
  have hjoined := h.join kind signal onDispatch
  unfold WorkspaceRequestGovernor.enqueue
  simp only
  split
  · refine ⟨_, hjoined.cancelBeforeDispatch g.nextRequest (by rw [Function.update_self]; simp),
      (hrests.update _ rfl).update _ ?_⟩
    rw [Function.update_self]
    rfl
  · exact ⟨_, hjoined, hrests.update _ rfl⟩

theorem chargeReturns (h : Tracks options g phase) (hrests : Rests phase) (charged : Bool) :
    ∃ phase', Tracks options (g.chargeReturns charged) phase' ∧ Rests phase' := by
  unfold WorkspaceRequestGovernor.chargeReturns
  split
  · rename_i kind signal onDispatch rest hstack
    have hpop := h.pop hstack (by simp) (by simp)
    cases charged with
    | true => exact hpop.enqueue hrests kind signal onDispatch
    | false => exact ⟨phase, hpop, hrests⟩
  · exact ⟨phase, h, hrests⟩

theorem run (h : Tracks options g phase) (kind : HostRequestKind) (signal : Option Nat)
    (onDispatch : Bool) : Tracks options (g.run kind signal onDispatch) phase := by
  unfold WorkspaceRequestGovernor.run
  split
  · exact h
  · exact h.push (by simp) (by simp) (by simp)

theorem abort (h : Tracks options g phase) (signal : Nat) :
    Tracks options (g.abort signal) phase := by
  unfold WorkspaceRequestGovernor.abort
  split
  · exact h
  · refine h.restack rfl rfl rfl rfl rfl rfl ?_ ?_ ?_
    · intro r
      show List.count _ (_ ++ g.stack) = _
      rw [List.count_append, List.count_eq_zero_of_not_mem (by simp), Nat.zero_add]
    · intro r
      show List.count _ (_ ++ g.stack) = _
      rw [List.count_append, List.count_eq_zero_of_not_mem (by simp), Nat.zero_add]
    · intro r hr
      rcases List.mem_append.mp hr with hnew | hold
      · obtain ⟨x, hx, heq⟩ := List.mem_map.mp hnew
        obtain rfl : x = r := by simpa using heq
        have hlt : x < g.nextRequest := by
          simpa using (List.mem_filter.mp hx).1
        intro habsent
        have := (h.follows.absent_iff x).mp habsent
        omega
      · exact h.follows.listeners r hold

theorem noteRateLimited (h : Tracks options g phase) (delayMs : Int) :
    Tracks options (g.noteRateLimited delayMs) phase := by
  have hnoted : Tracks options { g with
      cooldownUntil := max g.cooldownUntil (g.now + (max 0 delayMs).toNat)
      log := g.log ++ [.rateLimited (max 0 delayMs).toNat
        (max g.cooldownUntil (g.now + (max 0 delayMs).toNat))] } phase := by
    constructor
    · refine h.follows.restack rfl rfl rfl ?_ ?_ (fun _ => rfl) (fun _ => rfl) h.follows.listeners
      · intro r
        rw [traceOf_append]
        simp [traceOf]
      · refine h.follows.fifo.concat ?_
        intro r t hentry
        cases hentry
    · exact h.slotted.keep rfl (fun _ _ => rfl) rfl rfl
  unfold WorkspaceRequestGovernor.noteRateLimited
  simp only
  split
  · exact hnoted
  · exact hnoted.schedule _

theorem advance (h : Tracks options g phase) (hrests : Rests phase) :
    ∃ phase', Tracks options (g.advance options) phase' ∧ Rests phase' := by
  unfold WorkspaceRequestGovernor.advance
  split
  · rename_i rest hstack
    exact (h.pop hstack (by simp) (by simp)).drain hrests
  · rename_i r rest hstack
    have hpresent := h.follows.listeners r (by rw [hstack]; simp)
    exact ⟨_, (h.pop hstack (by simp) (by simp)).cancelBeforeDispatch r hpresent,
      hrests.update r (RequestPhase.rests_cancel (hrests r))⟩
  · exact ⟨phase, h, hrests⟩

theorem fireTimer (h : Tracks options g phase) : Tracks options g.fireTimer phase := by
  unfold WorkspaceRequestGovernor.fireTimer
  split
  · have hcleared : Tracks options { g with timer := none } phase :=
      h.restack rfl rfl rfl rfl rfl rfl (fun _ => rfl) (fun _ => rfl) h.follows.listeners
    exact hcleared.push (by simp) (by simp) (by simp)
  · exact h

theorem step (h : Tracks options g phase) (hrests : Rests phase) (s : GovernorStep) :
    ∃ phase', Tracks options (g.step options s) phase' ∧ Rests phase' := by
  cases s with
  | run kind signal onDispatch =>
    show ∃ phase', Tracks options (if g.callable then g.run kind signal onDispatch else g) phase' ∧ Rests phase'
    split
    · exact ⟨phase, h.run kind signal onDispatch, hrests⟩
    · exact ⟨phase, h, hrests⟩
  | abort signal =>
    show ∃ phase', Tracks options (if g.callable then g.abort signal else g) phase' ∧ Rests phase'
    split
    · exact ⟨phase, h.abort signal, hrests⟩
    · exact ⟨phase, h, hrests⟩
  | noteRateLimited delayMs =>
    show ∃ phase', Tracks options (if g.callable then g.noteRateLimited delayMs else g) phase' ∧ Rests phase'
    split
    · exact ⟨phase, h.noteRateLimited delayMs, hrests⟩
    · exact ⟨phase, h, hrests⟩
  | wait elapsed =>
    exact ⟨phase, h.restack rfl rfl rfl rfl rfl rfl (fun _ => rfl) (fun _ => rfl)
      h.follows.listeners, hrests⟩
  | fireTimer => exact ⟨phase, h.fireTimer, hrests⟩
  | advance => exact h.advance hrests
  | chargeReturns charged => exact h.chargeReturns hrests charged
  | hookReturns returned => exact h.hookReturns hrests returned
  | operationReturns promised => exact h.operationReturns hrests promised
  | hookSettles r fulfilled => exact h.hookSettles hrests r fulfilled
  | operationSettles r fulfilled => exact h.operationSettles hrests r fulfilled
  | cleanup r => exact h.cleanup hrests r

end Tracks

theorem tracks_runGovernor (options : WorkspaceRequestGovernorOptions) (start : Nat)
    (steps : List GovernorStep) :
    ∃ phase, Tracks options (runGovernor options start steps) phase ∧ Rests phase := by
  induction steps using List.reverseRecOn with
  | nil => exact ⟨_, Tracks.initial start, fun _ => rfl⟩
  | append_singleton rest s ih =>
    obtain ⟨phase, h, hrests⟩ := ih
    rw [runGovernor_concat]
    exact h.step hrests s

end WorkspaceRequestGovernor

end ClockifyAssistant
