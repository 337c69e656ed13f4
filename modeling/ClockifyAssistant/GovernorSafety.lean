import ClockifyAssistant.GovernorLifecycle

/-!
The safety law of the governor over its runs, read off the phases: the slots and
the one mutation among them, the order of the queue, and what became of each
call's promise and charge.
-/
namespace ClockifyAssistant

open Lib

namespace RequestEvent

def isSettled : RequestEvent → Bool
  | settled _ => true
  | _ => false

end RequestEvent

namespace RequestPhase

theorem settled_once (p : RequestPhase) : p.trace.countP RequestEvent.isSettled ≤ 1 := by
  cases p <;> simp [trace, RequestEvent.isSettled, List.countP_cons]

/-- An invoked operation whose promise is unsettled is on the stack or awaited. -/
theorem settled_of_invoked {p : RequestPhase} (hinvoked : .invoked ∈ p.trace)
    (hrests : p.rests = true) :
    (∃ outcome, .settled outcome ∈ p.trace) ∨ p = inOperation ∨ p = awaitingOperation := by
  cases p <;> simp [trace, rests] at hinvoked hrests ⊢

theorem holdsSlot_of_running {p : RequestPhase} (hinvoked : .invoked ∈ p.trace)
    (hsettled : ∀ outcome, .settled outcome ∉ p.trace) : p.holdsSlot = true := by
  cases p with
  | cleanup outcome => exact absurd (by simp [trace]) (hsettled outcome)
  | done outcome => exact absurd (by simp [trace]) (hsettled outcome)
  | _ => simp [trace, holdsSlot, dequeued, activeReleased] at hinvoked ⊢

theorem refunded_count (p : RequestPhase) :
    p.trace.count .refunded =
      if p.trace.any RequestEvent.isSettled ∧ .invoked ∉ p.trace then 1 else 0 := by
  cases p <;> simp [trace, RequestEvent.isSettled]

theorem unsettled_before_invoked (p : RequestPhase) :
    p.trace.Pairwise fun a b => b = .invoked → ∀ outcome, a ≠ .settled outcome := by
  cases p <;> simp [trace]

end RequestPhase

/-- When an operation is invoked its promise has not been settled. -/
def InvokedUnsettled (before : List GovernorEntry) (entry : GovernorEntry) : Prop :=
  ∀ r t, entry = .request r .invoked t → ∀ outcome t', .request r (.settled outcome) t' ∉ before

namespace WorkspaceRequestGovernor

/-- The requests past the queue: dequeued, with a slot that is not given back yet. -/
def pastQueue (g : WorkspaceRequestGovernor) : Finset Nat :=
  (Finset.range g.nextRequest).filter fun r =>
    .dequeued ∈ traceOf r g.log ∧ (g.requests r).activeReleased = false

structure SafetyLaw (options : WorkspaceRequestGovernorOptions) (g : WorkspaceRequestGovernor) :
    Prop where
  active : g.active = g.pastQueue.card
  active_le : g.active ≤ options.concurrency
  running_past : ∀ r, .invoked ∈ traceOf r g.log →
    (∀ outcome, .settled outcome ∉ traceOf r g.log) → r ∈ g.pastQueue
  one_mutation : ∀ r ∈ g.pastQueue, ∀ r' ∈ g.pastQueue,
    (g.requests r).kind = .mutation → (g.requests r').kind = .mutation → r = r'
  fifo : Always InOrder g.log
  settled_once : ∀ r, (traceOf r g.log).countP RequestEvent.isSettled ≤ 1
  settled_with_operation : ∀ r, .invoked ∈ traceOf r g.log →
    (∃ outcome, .settled outcome ∈ traceOf r g.log) ∨ .operation r ∈ g.stack ∨
      (g.requests r).callback = .operation
  invoked_unsettled : Always InvokedUnsettled g.log
  refunded : ∀ r, (traceOf r g.log).count .refunded =
    if (traceOf r g.log).any RequestEvent.isSettled ∧ .invoked ∉ traceOf r g.log then 1 else 0

namespace Tracks

variable {options : WorkspaceRequestGovernorOptions} {g : WorkspaceRequestGovernor}
  {phase : Nat → RequestPhase}

theorem pastQueue_eq (h : Tracks options g phase) : g.pastQueue = slots g.nextRequest phase := by
  ext r
  rw [Slotted.mem_slots]
  unfold pastQueue
  rw [Finset.mem_filter, Finset.mem_range, h.follows.trace r, ← RequestPhase.dequeued_iff,
    (h.follows.describes r).activeReleased]
  simp [RequestPhase.holdsSlot]

theorem invokedUnsettled (h : Tracks options g phase) : Always InvokedUnsettled g.log := by
  intro before entry after hsplit r t hentry outcome t' hmem
  have htrace : (phase r).trace = traceOf r before ++ .invoked :: traceOf r after := by
    rw [← h.follows.trace r, hsplit, hentry, traceOf_append]
    simp [traceOf]
  have hpairs := RequestPhase.unsettled_before_invoked (phase r)
  rw [htrace] at hpairs
  have hsettled : .settled outcome ∈ traceOf r before := mem_traceOf.mpr ⟨t', hmem⟩
  exact (List.pairwise_append.mp hpairs).2.2 _ hsettled .invoked (by simp) rfl outcome rfl

/-- An invoked operation either runs still or its call's promise is settled. -/
theorem settled_with_operation (h : Tracks options g phase) (hrests : Rests phase) {r : Nat}
    (hinvoked : .invoked ∈ traceOf r g.log) :
    (∃ outcome, .settled outcome ∈ traceOf r g.log) ∨ .operation r ∈ g.stack ∨
      (g.requests r).callback = .operation := by
  rw [h.follows.trace r] at hinvoked ⊢
  rcases RequestPhase.settled_of_invoked hinvoked (hrests r) with hsettled | hin | hawaiting
  · exact .inl hsettled
  · refine .inr (.inl (List.count_pos_iff.mp ?_))
    rw [h.follows.operations r, hin]
    exact Nat.one_pos
  · refine .inr (.inr ?_)
    rw [(h.follows.describes r).callback, hawaiting]
    rfl

theorem safetyLaw (h : Tracks options g phase) (hrests : Rests phase) : SafetyLaw options g := by
  refine ⟨?_, h.slotted.active_le, ?_, ?_, h.follows.fifo, ?_, ?_, h.invokedUnsettled, ?_⟩
  · rw [h.pastQueue_eq]
    exact h.slotted.active
  · intro r hinvoked hsettled
    rw [h.follows.trace r] at hinvoked hsettled
    have hholds := RequestPhase.holdsSlot_of_running hinvoked hsettled
    have hpresent : phase r ≠ .absent := by
      intro heq
      simp [heq, RequestPhase.holdsSlot, RequestPhase.dequeued] at hholds
    rw [h.pastQueue_eq]
    exact Slotted.mem_slots.mpr ⟨h.lt_next hpresent, hholds⟩
  · rw [h.pastQueue_eq]
    exact h.slotted.single
  · intro r
    rw [h.follows.trace r]
    exact RequestPhase.settled_once _
  · intro r hinvoked
    exact h.settled_with_operation hrests hinvoked
  · intro r
    rw [h.follows.trace r]
    exact RequestPhase.refunded_count _

end Tracks

theorem runGovernor_safetyLaw (options : WorkspaceRequestGovernorOptions) (start : Nat)
    (steps : List GovernorStep) : SafetyLaw options (runGovernor options start steps) := by
  obtain ⟨phase, h, hrests⟩ := tracks_runGovernor options start steps
  exact h.safetyLaw hrests

end WorkspaceRequestGovernor

end ClockifyAssistant
