import Mathlib.Data.Finset.Card
import ClockifyAssistant.Lib.History
import ClockifyAssistant.Clockify.WorkspaceRequestGovernor

/-!
The life of one request of the governor as a sequence of phases. A phase fixes
the flags of the request, what the log says about it, the frames it has on the
stack, and whether it holds one of the concurrent slots.
-/
namespace ClockifyAssistant

open Lib

/-- `starting` and `returned` are passed through inside one step. -/
inductive RequestPhase
  | absent
  | queued
  | dropped
  | starting
  | inHook
  | awaitingHook
  | cancelled
  | cancelledInHook
  | cancelledAwaitingHook
  | failed
  | inOperation
  | returned
  | awaitingOperation
  | cleanup (outcome : RequestOutcome)
  | done (outcome : RequestOutcome)
  deriving DecidableEq

namespace RequestPhase

def state : RequestPhase → RequestState
  | absent | queued => .queued
  | starting | inHook | awaitingHook => .preDispatch
  | dropped | cancelled | cancelledInHook | cancelledAwaitingHook => .cancelled
  | inOperation | returned | awaitingOperation => .dispatched
  | failed | cleanup _ | done _ => .settled

def activeReleased : RequestPhase → Bool
  | cancelled | cancelledInHook | cancelledAwaitingHook | failed | done _ => true
  | _ => false

def budgetRefunded : RequestPhase → Bool
  | dropped | cancelled | cancelledInHook | cancelledAwaitingHook | failed => true
  | _ => false

def promiseSettled : RequestPhase → Bool
  | dropped | cancelled | cancelledInHook | cancelledAwaitingHook | failed => true
  | cleanup _ | done _ => true
  | _ => false

def callback : RequestPhase → RequestCallback
  | awaitingHook | cancelledAwaitingHook => .hook
  | awaitingOperation => .operation
  | cleanup _ => .cleanup
  | _ => .nothing

/-- What the log says about the request, in order. -/
def trace : RequestPhase → List RequestEvent
  | absent | queued => []
  | dropped => [.refunded, .settled .cancelled]
  | starting | inHook | awaitingHook => [.dequeued]
  | cancelled | cancelledInHook | cancelledAwaitingHook =>
      [.dequeued, .refunded, .settled .cancelled]
  | failed => [.dequeued, .refunded, .settled .rejected]
  | inOperation | returned | awaitingOperation => [.dequeued, .invoked]
  | cleanup outcome | done outcome => [.dequeued, .invoked, .settled outcome]

def hookFrames : RequestPhase → Nat
  | inHook | cancelledInHook => 1
  | _ => 0

def operationFrames : RequestPhase → Nat
  | inOperation => 1
  | _ => 0

/-- The request has left the queue to be dispatched. -/
def dequeued : RequestPhase → Bool
  | absent | queued | dropped => false
  | _ => true

def holdsSlot (p : RequestPhase) : Bool := p.dequeued && !p.activeReleased

structure Describes (p : RequestPhase) (q : GovernedRequest) : Prop where
  state : q.state = p.state
  activeReleased : q.activeReleased = p.activeReleased
  budgetRefunded : q.budgetRefunded = p.budgetRefunded
  promiseSettled : q.promiseSettled = p.promiseSettled
  callback : q.callback = p.callback

/-- The phases in which a step may leave the request. -/
def rests : RequestPhase → Bool
  | starting | returned => false
  | _ => true

/-- Where an abort takes the request. -/
def cancel : RequestPhase → RequestPhase
  | queued => dropped
  | starting => cancelled
  | inHook => cancelledInHook
  | awaitingHook => cancelledAwaitingHook
  | p => p

variable {p : RequestPhase}

/-- What an abort before the dispatch changes, and what it keeps. -/
theorem cancel_preDispatch (h : p.state = .preDispatch) :
    p.holdsSlot = true ∧ p.cancel.dequeued = true ∧ p.cancel.activeReleased = true ∧
      p.cancel.state = .cancelled ∧ p.cancel.budgetRefunded = true ∧
      p.cancel.promiseSettled = true ∧ p.cancel.callback = p.callback ∧
      p.cancel.trace = p.trace ++ [.refunded, .settled .cancelled] ∧
      p.cancel.hookFrames = p.hookFrames ∧ p.cancel.operationFrames = p.operationFrames := by
  cases p <;> cases h <;> decide

theorem rests_cancel (h : p.rests = true) : p.cancel.rests = true := by
  cases p <;> simp [rests, cancel] at h ⊢

theorem cancel_other (hqueued : p ≠ queued) (hpre : p.state ≠ .preDispatch) : p.cancel = p := by
  cases p <;> simp [cancel, state] at hqueued hpre ⊢

/-- A request whose hook is on the stack, once the hook has returned. -/
def hookReturned : RequestPhase → RequestPhase
  | inHook | awaitingHook => starting
  | _ => cancelled

theorem hookReturned_cases (p : RequestPhase) :
    p.hookReturned = starting ∨ p.hookReturned = cancelled := by
  cases p <;> simp [hookReturned]

theorem dequeued_iff (p : RequestPhase) : p.dequeued = true ↔ .dequeued ∈ p.trace := by
  cases p <;> simp [dequeued, trace]

theorem dequeued_of_ne (habsent : p ≠ absent) (hqueued : p ≠ queued)
    (hdropped : p ≠ dropped) : p.dequeued = true := by
  cases p <;> simp [dequeued] at habsent hqueued hdropped ⊢

end RequestPhase

/-- Every request is in a phase in which it may be left. -/
def Rests (phase : Nat → RequestPhase) : Prop := ∀ r, (phase r).rests = true

theorem Rests.update {phase : Nat → RequestPhase} (h : Rests phase) (r : Nat) {p : RequestPhase}
    (hp : p.rests = true) : Rests (Function.update phase r p) := by
  intro x
  by_cases hx : x = r
  · rw [hx, Function.update_self]
    exact hp
  · rw [Function.update_of_ne hx]
    exact h x

/-- The events of one request in the log. -/
def traceOf (r : Nat) (log : List GovernorEntry) : List RequestEvent :=
  log.filterMap fun
    | .request r' event _ => if r' = r then some event else none
    | .rateLimited _ _ => none

theorem traceOf_append (r : Nat) (log log' : List GovernorEntry) :
    traceOf r (log ++ log') = traceOf r log ++ traceOf r log' := by
  simp [traceOf]

theorem mem_traceOf {r : Nat} {log : List GovernorEntry} {event : RequestEvent} :
    event ∈ traceOf r log ↔ ∃ t, .request r event t ∈ log := by
  unfold traceOf
  rw [List.mem_filterMap]
  constructor
  · intro h
    obtain ⟨entry, hentry, hevent⟩ := h
    cases entry with
    | request r' event' t =>
      by_cases hr : r' = r
      · obtain rfl : event' = event := by simpa [hr] using hevent
        exact ⟨t, hr ▸ hentry⟩
      · simp [hr] at hevent
    | rateLimited delay until_ => simp at hevent
  · intro h
    obtain ⟨t, ht⟩ := h
    exact ⟨_, ht, by simp⟩

/-- The entries of one request, all made at one time. -/
def entriesOf (r : Nat) (events : List RequestEvent) (at_ : Nat) : List GovernorEntry :=
  events.map fun event => .request r event at_

theorem traceOf_entriesOf (r : Nat) (events : List RequestEvent) (t : Nat) :
    traceOf r (entriesOf r events t) = events := by
  induction events with
  | nil => rfl
  | cons event rest ih =>
    simp only [entriesOf, traceOf, List.map_cons] at ih ⊢
    simp [ih]

theorem traceOf_entriesOf_ne {r r' : Nat} (hne : r ≠ r') (events : List RequestEvent) (t : Nat) :
    traceOf r' (entriesOf r events t) = [] := by
  induction events with
  | nil => rfl
  | cons event rest ih =>
    simp only [entriesOf, traceOf, List.map_cons] at ih ⊢
    simp [ih, hne]

/-- A request leaves the queue after those queued earlier, the dropped ones apart. -/
def InOrder (before : List GovernorEntry) (entry : GovernorEntry) : Prop :=
  ∀ r t, entry = .request r .dequeued t → (∀ r' t', .request r' .dequeued t' ∈ before → r' < r) ∧
    ∀ r', r' < r → (∃ t', .request r' .dequeued t' ∈ before) ∨
      ∃ t', .request r' (.settled .cancelled) t' ∈ before

theorem always_inOrder_append {log : List GovernorEntry} (h : Always InOrder log) {r : Nat}
    {events : List RequestEvent} (hquiet : .dequeued ∉ events) (t : Nat) :
    Always InOrder (log ++ entriesOf r events t) := by
  refine h.append ?_
  intro done entry rest hsplit r' t' hentry
  have hmem : entry ∈ entriesOf r events t := by
    rw [hsplit]
    simp
  obtain ⟨event, hevent, heq⟩ := List.mem_map.mp hmem
  rw [hentry] at heq
  injection heq with _ hdequeued _
  rw [hdequeued] at hevent
  exact absurd hevent hquiet

namespace WorkspaceRequestGovernor

/-- The requests stand in the given phases. -/
structure Follows (g : WorkspaceRequestGovernor) (phase : Nat → RequestPhase) : Prop where
  describes : ∀ r, (phase r).Describes (g.requests r)
  absent_iff : ∀ r, phase r = .absent ↔ g.nextRequest ≤ r
  queue_iff : ∀ r, r ∈ g.queue ↔ phase r = .queued
  queue_sorted : g.queue.Pairwise (· < ·)
  before_queue : ∀ r, (phase r).dequeued = true → ∀ r' ∈ g.queue, r < r'
  trace : ∀ r, traceOf r g.log = (phase r).trace
  hooks : ∀ r, g.stack.count (.hook r) = (phase r).hookFrames
  operations : ∀ r, g.stack.count (.operation r) = (phase r).operationFrames
  listeners : ∀ r, .listener r ∈ g.stack → phase r ≠ .absent
  fifo : Always InOrder g.log

namespace Follows

variable {g g' : WorkspaceRequestGovernor} {phase : Nat → RequestPhase}

theorem initial (start : Nat) :
    (createWorkspaceRequestGovernor start).Follows fun _ => .absent := by
  refine ⟨?_, ?_, ?_, ?_, ?_, ?_, ?_, ?_, ?_, Always.nil⟩
  · intro r
    exact ⟨rfl, rfl, rfl, rfl, rfl⟩
  all_goals simp [createWorkspaceRequestGovernor, traceOf, RequestPhase.trace,
    RequestPhase.hookFrames, RequestPhase.operationFrames, RequestPhase.dequeued]

theorem queue_filter (h : g.Follows phase) {r : Nat} (hr : phase r ≠ .queued) :
    g.queue.filter (· ≠ r) = g.queue := by
  refine List.filter_eq_self.mpr ?_
  intro x hx
  have hne : x ≠ r := by
    intro heq
    exact hr ((h.queue_iff r).mp (heq ▸ hx))
  simpa using hne

theorem hooks_kept (h : g.Follows phase) {stack : List GovernorFrame} {r : Nat} {p : RequestPhase}
    (hsame : ∀ x, stack.count (.hook x) = g.stack.count (.hook x))
    (hp : p.hookFrames = (phase r).hookFrames) (x : Nat) :
    stack.count (.hook x) = if x = r then p.hookFrames else g.stack.count (.hook x) := by
  by_cases hx : x = r
  · rw [if_pos hx, hx, hsame, h.hooks r, hp]
  · rw [if_neg hx, hsame]

theorem operations_kept (h : g.Follows phase) {stack : List GovernorFrame} {r : Nat}
    {p : RequestPhase} (hsame : ∀ x, stack.count (.operation x) = g.stack.count (.operation x))
    (hp : p.operationFrames = (phase r).operationFrames) (x : Nat) :
    stack.count (.operation x) = if x = r then p.operationFrames
      else g.stack.count (.operation x) := by
  by_cases hx : x = r
  · rw [if_pos hx, hx, hsame, h.operations r, hp]
  · rw [if_neg hx, hsame]

/-- One request moves to another phase, the rest staying where they are. -/
theorem move (h : g.Follows phase) {r : Nat} {p : RequestPhase} {q : GovernedRequest}
    {events : List RequestEvent} (hpresent : phase r ≠ .absent)
    (hp : p ≠ .absent) (hunqueued : p ≠ .queued) (hdescribes : p.Describes q)
    (hrequests : g'.requests = Function.update g.requests r q)
    (hnext : g'.nextRequest = g.nextRequest)
    (hqueue : g'.queue = g.queue.filter (· ≠ r))
    (hfirst : p.dequeued = true → (phase r).dequeued = true ∨ ∀ x ∈ g'.queue, r < x)
    (hlog : g'.log = g.log ++ entriesOf r events g.now)
    (htrace : p.trace = (phase r).trace ++ events)
    (hhooks : ∀ x, g'.stack.count (.hook x) =
      if x = r then p.hookFrames else g.stack.count (.hook x))
    (hoperations : ∀ x, g'.stack.count (.operation x) =
      if x = r then p.operationFrames else g.stack.count (.operation x))
    (hlisteners : ∀ x, .listener x ∈ g'.stack → .listener x ∈ g.stack)
    (hfifo : Always InOrder g'.log) : g'.Follows (Function.update phase r p) := by
  have hother : ∀ x, x ≠ r → Function.update phase r p x = phase x := by
    intro x hx
    exact Function.update_of_ne hx _ _
  have hself : Function.update phase r p r = p := Function.update_self _ _ _
  refine ⟨?_, ?_, ?_, ?_, ?_, ?_, ?_, ?_, ?_, hfifo⟩
  · intro x
    rw [hrequests]
    by_cases hx : x = r
    · rw [hx, hself, Function.update_self]
      exact hdescribes
    · rw [hother x hx, Function.update_of_ne hx]
      exact h.describes x
  · intro x
    rw [hnext]
    by_cases hx : x = r
    · rw [hx, hself]
      have := h.absent_iff r
      exact ⟨fun heq => absurd heq hp, fun hle => absurd (this.mpr hle) hpresent⟩
    · rw [hother x hx]
      exact h.absent_iff x
  · intro x
    rw [hqueue, List.mem_filter]
    by_cases hx : x = r
    · rw [hx, hself]
      simp [hunqueued]
    · rw [hother x hx, ← h.queue_iff x]
      simp [hx]
  · rw [hqueue]
    exact h.queue_sorted.filter _
  · intro x hx y hy
    have hold : y ∈ g.queue := by
      rw [hqueue] at hy
      exact List.mem_of_mem_filter hy
    by_cases hxr : x = r
    · rw [hxr, hself] at hx
      rw [hxr]
      rcases hfirst hx with hbefore | hall
      · exact h.before_queue r hbefore y hold
      · exact hall y hy
    · rw [hother x hxr] at hx
      exact h.before_queue x hx y hold
  · intro x
    rw [hlog, traceOf_append, h.trace x]
    by_cases hx : x = r
    · rw [hx, hself, traceOf_entriesOf, htrace]
    · rw [hother x hx, traceOf_entriesOf_ne (Ne.symm hx), List.append_nil]
  · intro x
    rw [hhooks x]
    by_cases hx : x = r
    · rw [if_pos hx, hx, hself]
    · rw [if_neg hx, hother x hx]
      exact h.hooks x
  · intro x
    rw [hoperations x]
    by_cases hx : x = r
    · rw [if_pos hx, hx, hself]
    · rw [if_neg hx, hother x hx]
      exact h.operations x
  · intro x hx
    by_cases hxr : x = r
    · rw [hxr, hself]
      exact hp
    · rw [hother x hxr]
      exact h.listeners x (hlisteners x hx)

/-- The stack changes without a hook or an operation coming or going. -/
theorem restack (h : g.Follows phase) (hrequests : g'.requests = g.requests)
    (hnext : g'.nextRequest = g.nextRequest) (hqueue : g'.queue = g.queue)
    (htrace : ∀ r, traceOf r g'.log = traceOf r g.log) (hfifo : Always InOrder g'.log)
    (hhooks : ∀ r, g'.stack.count (.hook r) = g.stack.count (.hook r))
    (hoperations : ∀ r, g'.stack.count (.operation r) = g.stack.count (.operation r))
    (hlisteners : ∀ r, .listener r ∈ g'.stack → phase r ≠ .absent) : g'.Follows phase := by
  refine ⟨?_, ?_, ?_, ?_, ?_, ?_, ?_, ?_, hlisteners, hfifo⟩
  · rw [hrequests]
    exact h.describes
  · rw [hnext]
    exact h.absent_iff
  · rw [hqueue]
    exact h.queue_iff
  · rw [hqueue]
    exact h.queue_sorted
  · rw [hqueue]
    exact h.before_queue
  · intro r
    rw [htrace]
    exact h.trace r
  · intro r
    rw [hhooks]
    exact h.hooks r
  · intro r
    rw [hoperations]
    exact h.operations r

end Follows

/-- The requests that hold a slot. -/
def slots (n : Nat) (phase : Nat → RequestPhase) : Finset Nat :=
  (Finset.range n).filter fun r => (phase r).holdsSlot = true

/-- The slots are counted, limited, and shared by at most one mutation. -/
structure Slotted (options : WorkspaceRequestGovernorOptions) (g : WorkspaceRequestGovernor)
    (phase : Nat → RequestPhase) : Prop where
  active : g.active = (slots g.nextRequest phase).card
  active_le : g.active ≤ options.concurrency
  mutation : g.mutationActive = true ↔
    ∃ r ∈ slots g.nextRequest phase, (g.requests r).kind = .mutation
  single : ∀ r ∈ slots g.nextRequest phase, ∀ r' ∈ slots g.nextRequest phase,
    (g.requests r).kind = .mutation → (g.requests r').kind = .mutation → r = r'

namespace Slotted

variable {options : WorkspaceRequestGovernorOptions} {g g' : WorkspaceRequestGovernor}
  {phase phase' : Nat → RequestPhase}

theorem mem_slots {n r : Nat} : r ∈ slots n phase ↔ r < n ∧ (phase r).holdsSlot = true := by
  simp [slots]

theorem initial (start : Nat) :
    Slotted options (createWorkspaceRequestGovernor start) fun _ => .absent := by
  refine ⟨?_, ?_, ?_, ?_⟩ <;> simp [createWorkspaceRequestGovernor, slots]

theorem keep (h : Slotted options g phase)
    (hslots : slots g'.nextRequest phase' = slots g.nextRequest phase)
    (hkind : ∀ r ∈ slots g.nextRequest phase, (g'.requests r).kind = (g.requests r).kind)
    (hactive : g'.active = g.active) (hmutation : g'.mutationActive = g.mutationActive) :
    Slotted options g' phase' := by
  refine ⟨?_, ?_, ?_, ?_⟩
  · rw [hactive, hslots]
    exact h.active
  · rw [hactive]
    exact h.active_le
  · rw [hmutation, hslots, h.mutation]
    constructor
    · intro hex
      obtain ⟨r, hr, hk⟩ := hex
      exact ⟨r, hr, by rw [hkind r hr, hk]⟩
    · intro hex
      obtain ⟨r, hr, hk⟩ := hex
      exact ⟨r, hr, by rw [← hkind r hr, hk]⟩
  · rw [hslots]
    intro r hr r' hr' hk hk'
    rw [hkind r hr] at hk
    rw [hkind r' hr'] at hk'
    exact h.single r hr r' hr' hk hk'

/-- A request takes a slot, when one is free and no other mutation holds one. -/
theorem gain (h : Slotted options g phase) {r : Nat}
    (hslots : slots g'.nextRequest phase' = insert r (slots g.nextRequest phase))
    (hout : r ∉ slots g.nextRequest phase) (hkind : ∀ x, (g'.requests x).kind = (g.requests x).kind)
    (hfree : g.active < options.concurrency)
    (hsingle : ¬((g.requests r).kind = .mutation ∧ g.mutationActive = true))
    (hactive : g'.active = g.active + 1)
    (hmutation : g'.mutationActive = (g.mutationActive || (g.requests r).kind == .mutation)) :
    Slotted options g' phase' := by
  refine ⟨?_, ?_, ?_, ?_⟩
  · rw [hactive, hslots, Finset.card_insert_of_notMem hout, h.active]
  · rw [hactive]
    exact hfree
  · rw [hmutation, hslots, Bool.or_eq_true, h.mutation]
    simp only [hkind, Finset.mem_insert, beq_iff_eq]
    constructor
    · intro hex
      rcases hex with ⟨x, hx, hk⟩ | hk
      · exact ⟨x, .inr hx, hk⟩
      · exact ⟨r, .inl rfl, hk⟩
    · intro hex
      obtain ⟨x, rfl | hx, hk⟩ := hex
      · exact .inr hk
      · exact .inl ⟨x, hx, hk⟩
  · rw [hslots]
    intro x hx y hy hkx hky
    rw [hkind] at hkx hky
    have hnone : (g.requests r).kind = .mutation →
        ∀ z ∈ slots g.nextRequest phase, (g.requests z).kind ≠ .mutation := by
      intro hk z hz hkz
      exact hsingle ⟨hk, h.mutation.mpr ⟨z, hz, hkz⟩⟩
    rcases Finset.mem_insert.mp hx with hxr | hxs
    · rw [hxr] at hkx ⊢
      rcases Finset.mem_insert.mp hy with hyr | hys
      · exact hyr.symm
      · exact absurd hky (hnone hkx y hys)
    · rcases Finset.mem_insert.mp hy with hyr | hys
      · rw [hyr] at hky
        exact absurd hkx (hnone hky x hxs)
      · exact h.single x hxs y hys hkx hky

theorem lose (h : Slotted options g phase) {r : Nat} (hr : r ∈ slots g.nextRequest phase)
    (hslots : slots g'.nextRequest phase' = (slots g.nextRequest phase).erase r)
    (hkind : ∀ x, (g'.requests x).kind = (g.requests x).kind)
    (hactive : g'.active = g.active - 1)
    (hmutation : g'.mutationActive =
      if (g.requests r).kind = .mutation then false else g.mutationActive) :
    Slotted options g' phase' := by
  refine ⟨?_, ?_, ?_, ?_⟩
  · rw [hactive, hslots, Finset.card_erase_of_mem hr, h.active]
  · have := h.active_le
    omega
  · rw [hmutation, hslots]
    simp only [hkind, Finset.mem_erase]
    by_cases hk : (g.requests r).kind = .mutation
    · rw [if_pos hk]
      simp only [Bool.false_eq_true, false_iff]
      intro hex
      obtain ⟨x, ⟨hne, hx⟩, hkx⟩ := hex
      exact hne (h.single x hx r hr hkx hk)
    · rw [if_neg hk, h.mutation]
      constructor
      · intro hex
        obtain ⟨x, hx, hkx⟩ := hex
        refine ⟨x, ⟨?_, hx⟩, hkx⟩
        intro heq
        exact hk (heq ▸ hkx)
      · intro hex
        obtain ⟨x, ⟨-, hx⟩, hkx⟩ := hex
        exact ⟨x, hx, hkx⟩
  · rw [hslots]
    intro x hx y hy hkx hky
    rw [hkind] at hkx hky
    exact h.single x (Finset.mem_of_mem_erase hx) y (Finset.mem_of_mem_erase hy) hkx hky

theorem slots_update_same {n r : Nat} {p : RequestPhase} (hp : p.holdsSlot = (phase r).holdsSlot) :
    slots n (Function.update phase r p) = slots n phase := by
  ext x
  rw [mem_slots, mem_slots]
  by_cases hx : x = r
  · rw [hx, Function.update_self, hp]
  · rw [Function.update_of_ne hx]

theorem slots_update_gain {n r : Nat} {p : RequestPhase} (hr : r < n) (hp : p.holdsSlot = true) :
    slots n (Function.update phase r p) = insert r (slots n phase) := by
  ext x
  rw [mem_slots, Finset.mem_insert, mem_slots]
  by_cases hx : x = r
  · rw [hx, Function.update_self]
    simp [hr, hp]
  · rw [Function.update_of_ne hx]
    simp [hx]

theorem slots_update_lose {n r : Nat} {p : RequestPhase} (hp : p.holdsSlot = false) :
    slots n (Function.update phase r p) = (slots n phase).erase r := by
  ext x
  rw [mem_slots, Finset.mem_erase, mem_slots]
  by_cases hx : x = r
  · rw [hx, Function.update_self]
    simp [hp]
  · rw [Function.update_of_ne hx]
    simp [hx]

end Slotted

end WorkspaceRequestGovernor

end ClockifyAssistant
