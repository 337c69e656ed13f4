import Mathlib.Data.List.Induction
import ClockifyAssistant.Lib.PromiseChain

/-!
The keyed FIFO that serializes the mutation flows of one session. A call registers
its gate as the tail of its key, waits for the tail before it, runs its task, opens
the gate and deletes the entry if it is still its own. The tail's promise resolves
in a later step than the gate is opened.
-/
namespace ClockifyAssistant.FifoLock

open Lib PromiseChain

variable {K E T : Type}

/-- `outcome` is how the task of a call settled, `received` how the call itself did. -/
structure KeyedFifo (K E T : Type) where
  chain : PromiseChain K
  outcome : Nat → Option (Except E T)
  received : Nat → Option (Except E T)

/-- A call, and the continuations of its promises: its task begins, the task settles,
the `finally` block runs, the tail resolves. -/
inductive FifoStep (K E T : Type)
  | run (key : K)
  | begin (k : Nat)
  | settle (k : Nat) (r : Except E T)
  | finish (k : Nat)
  | resolve (k : Nat)

/-- `this.tails.delete(key)`, if the entry is still the one of call `k`. -/
def unfile [DecidableEq K] (c : PromiseChain K) (key : K) (k : Nat) : K → Option Nat :=
  if c.tails key = some k then Function.update c.tails key none else c.tails

namespace KeyedFifo

def empty : KeyedFifo K E T where
  chain := .empty
  outcome := fun _ => none
  received := fun _ => none

variable [DecidableEq K] (f : KeyedFifo K E T)

/-- The `finally` block and the settlement of the call are one synchronous stretch. -/
def finish (k : Nat) : Option (KeyedFifo K E T) :=
  match f.chain.links k, f.outcome k with
  | some link, some r =>
      if f.chain.phase k = .settled then
        some { f with
          chain := { f.chain.release k with tails := unfile f.chain link.key k }
          received := Function.update f.received k (some r) }
      else none
  | _, _ => none

/-- `none` where the step is not due. -/
def step : FifoStep K E T → Option (KeyedFifo K E T)
  | .run key => some { f with chain := f.chain.register key }
  | .begin k => if f.chain.startable k then some { f with chain := f.chain.start k } else none
  | .settle k r =>
      if f.chain.phase k = .running then
        some { f with
          chain := f.chain.settle k
          outcome := Function.update f.outcome k (some r) }
      else none
  | .finish k => f.finish k
  | .resolve k =>
      if f.chain.phase k = .released ∧ f.chain.ready k ∧ f.chain.resolved k = false then
        some { f with chain := f.chain.resolve k }
      else none

/-- The calls and continuations `events`, one after the other. -/
def runAll (events : List (FifoStep K E T)) : Option (KeyedFifo K E T) :=
  events.foldlM step empty

end KeyedFifo

section Shadow

/-- The chain read with every released call as resolved. A deletion does not wait for
the tail's promise, so it is this chain that keeps the order. -/
def shadow (c : PromiseChain K) : PromiseChain K :=
  { c with resolved := fun k => c.phase k = .released }

variable {c : PromiseChain K}

theorem ready_shadow (h : ∀ k, c.resolved k = true → c.phase k = .released) {k : Nat}
    (hready : c.ready k = true) : (shadow c).ready k = true := by
  obtain ⟨link, hlink, hprevious⟩ := (Option.any_eq_true _ _).mp hready
  refine (Option.any_eq_true _ _).mpr ⟨link, hlink, ?_⟩
  cases hp : link.previous with
  | none => rfl
  | some p =>
    rw [hp] at hprevious
    exact decide_eq_true (h p hprevious)

theorem ready_mono {c' : PromiseChain K} {k : Nat} (hlinks : c'.links k = c.links k)
    (hreleased : ∀ j, c.phase j = .released → c'.phase j = .released)
    (hready : (shadow c).ready k = true) : (shadow c').ready k = true := by
  obtain ⟨link, hlink, hprevious⟩ := (Option.any_eq_true _ _).mp hready
  refine (Option.any_eq_true _ _).mpr ⟨link, hlinks.trans hlink, ?_⟩
  cases hp : link.previous with
  | none => rfl
  | some p =>
    rw [hp] at hprevious
    exact decide_eq_true (hreleased p (of_decide_eq_true hprevious))

theorem shadow_move {k : Nat} {phase : LinkPhase} (hk : c.phase k ≠ .released)
    (hphase : phase ≠ .released) : shadow { c with phase := Function.update c.phase k phase } =
      { shadow c with phase := Function.update c.phase k phase } := by
  unfold shadow
  congr 1
  funext j
  by_cases hj : j = k
  · simp [hj, hk, hphase]
  · simp [hj]

theorem shadow_start {k : Nat} (h : c.startable k = true) (h' : (shadow c).startable k = true) :
    shadow (c.start k) = (shadow c).start k := by
  have hwaiting : c.phase k = .waiting := by
    simp only [startable, Bool.and_eq_true, decide_eq_true_eq] at h
    exact h.1
  unfold PromiseChain.start
  rw [if_pos h, if_pos h']
  exact shadow_move (by simp [hwaiting]) (by simp)

theorem shadow_settle {k : Nat} (h : c.phase k = .running) :
    shadow (c.settle k) = (shadow c).settle k := by
  unfold PromiseChain.settle
  rw [if_pos h, if_pos (show (shadow c).phase k = .running from h)]
  exact shadow_move (by simp [h]) nofun

theorem shadow_resolve (k : Nat) : shadow (c.resolve k) = shadow c := by
  unfold PromiseChain.resolve
  split <;> rfl

/-- In the shadow the end of a call opens its gate, resolves its tail and deletes its entry. -/
theorem shadow_finish [DecidableEq K] {k : Nat} {link : ChainLink K} (hlink : c.links k = some link)
    (h : c.phase k = .settled) (hready : (shadow c).ready k = true) :
    shadow { c.release k with tails := unfile c link.key k } =
      (((shadow c).release k).resolve k).forget k := by
  have hrelease : (shadow c).release k =
      { shadow c with phase := Function.update c.phase k .released } :=
    if_pos h
  have hresolve : ((shadow c).release k).resolve k = { shadow c with
      phase := Function.update c.phase k .released
      resolved := Function.update (shadow c).resolved k true } := by
    rw [hrelease]
    exact if_pos ⟨Function.update_self .., hready⟩
  have hresolved : (fun j => decide (Function.update c.phase k .released j = .released)) =
      Function.update (shadow c).resolved k true := by
    funext j
    by_cases hj : j = k
    · simp [hj]
    · simp [hj, shadow]
  rw [hresolve]
  unfold forget PromiseChain.release unfile shadow
  simp only [hlink, if_pos h, Function.update_self, true_and]
  split
  · simp [hresolved, shadow]
  · simp [hresolved, shadow]

end Shadow

section Chain

structure Linked (c : PromiseChain K) : Prop where
  ordered : (shadow c).Ordered
  begun : ∀ k, c.phase k ≠ .waiting → (shadow c).ready k = true
  previous_lt : ∀ k link p, c.links k = some link → link.previous = some p → p < k
  resolved : ∀ k, c.resolved k = true → c.phase k = .released
  kept : ∀ key k, c.tails key = some k → c.phase k ≠ .released

namespace Linked

variable {c : PromiseChain K} {k : Nat}

theorem empty : Linked (.empty : PromiseChain K) where
  ordered := Ordered.empty
  begun _ h := absurd rfl h
  previous_lt _ _ _ h := nomatch h
  resolved _ h := nomatch h
  kept _ _ h := nomatch h

theorem links_next (h : Linked c) : c.links c.next = none := by
  cases hlink : c.links c.next with
  | none => rfl
  | some link => exact absurd (h.ordered.fresh c.next link.key ⟨link, hlink, rfl⟩) (Nat.lt_irrefl _)

theorem register [DecidableEq K] (h : Linked c) (key : K) : Linked (c.register key) := by
  have hnew : c.phase c.next = .waiting := (h.ordered.unfiled c.next h.links_next).1
  refine ⟨h.ordered.register key, fun k hk => ?_, fun k link p hlink hp => ?_, h.resolved,
    fun key' k htail => ?_⟩
  · have hne : k ≠ c.next := by
      rintro rfl
      exact hk hnew
    exact ready_mono (Function.update_of_ne hne _ _) (fun _ hj => hj) (h.begun k hk)
  · by_cases hk : k = c.next
    · subst hk
      obtain rfl : (⟨key, c.tails key⟩ : ChainLink K) = link := by
        simpa [PromiseChain.register] using hlink
      exact h.ordered.fresh p key (h.ordered.tail_filed key p hp)
    · refine h.previous_lt k link p ?_ hp
      simpa [PromiseChain.register, hk] using hlink
  · by_cases hkey : key' = key
    · obtain rfl : c.next = k := by simpa [PromiseChain.register, hkey] using htail
      show c.phase c.next ≠ .released
      simp [hnew]
    · refine h.kept key' k ?_
      simpa [PromiseChain.register, hkey] using htail

/-- A call that is not released moves to a phase that is not either. -/
theorem move (h : Linked c) {phase : LinkPhase} (hk : c.phase k ≠ .released)
    (hphase : phase ≠ .released) (hready : (shadow c).ready k = true)
    (hordered : (shadow { c with phase := Function.update c.phase k phase }).Ordered) :
    Linked { c with phase := Function.update c.phase k phase } := by
  have hreleased (j : Nat) (hj : c.phase j = .released) :
      Function.update c.phase k phase j = .released := by
    have hne : j ≠ k := by
      rintro rfl
      exact hk hj
    rwa [Function.update_of_ne hne]
  refine ⟨hordered, fun j hj => ?_, h.previous_lt, fun j hj => hreleased j (h.resolved j hj),
    fun key j hj => ?_⟩
  · refine ready_mono (c := c) rfl hreleased ?_
    by_cases hjk : j = k
    · rwa [hjk]
    · refine h.begun j ?_
      rwa [← Function.update_of_ne hjk phase c.phase]
  · show Function.update c.phase k phase j ≠ .released
    by_cases hjk : j = k
    · rwa [hjk, Function.update_self]
    · rw [Function.update_of_ne hjk]
      exact h.kept key j hj

theorem start (h : Linked c) (hdue : c.startable k = true) : Linked (c.start k) := by
  obtain ⟨hwaiting, hready⟩ : c.phase k = .waiting ∧ c.ready k = true := by
    simpa [startable] using hdue
  have hready' := ready_shadow h.resolved hready
  have hordered : (shadow (c.start k)).Ordered := by
    have hdue' : (shadow c).startable k = true := by
      rw [startable, hready', Bool.and_true]
      exact decide_eq_true hwaiting
    rw [shadow_start hdue hdue']
    exact h.ordered.start k
  unfold PromiseChain.start at hordered ⊢
  rw [if_pos hdue] at hordered ⊢
  exact h.move (by simp [hwaiting]) (by simp) hready' hordered

theorem settle (h : Linked c) (hdue : c.phase k = .running) : Linked (c.settle k) := by
  have hordered : (shadow (c.settle k)).Ordered := by
    rw [shadow_settle hdue]
    exact h.ordered.settle k
  unfold PromiseChain.settle at hordered ⊢
  rw [if_pos hdue] at hordered ⊢
  exact h.move (by simp [hdue]) nofun (h.begun k (by simp [hdue])) hordered

theorem finish [DecidableEq K] (h : Linked c) {link : ChainLink K} (hlink : c.links k = some link)
    (hdue : c.phase k = .settled) : Linked { c.release k with tails := unfile c link.key k } := by
  have hready := h.begun k (by simp [hdue])
  have hordered : (shadow { c.release k with tails := unfile c link.key k }).Ordered := by
    rw [shadow_finish hlink hdue hready]
    exact ((h.ordered.release k).resolve k).forget k
  unfold PromiseChain.release at hordered ⊢
  rw [if_pos hdue] at hordered ⊢
  have hreleased (j : Nat) (hj : c.phase j = .released) :
      Function.update c.phase k .released j = .released := by
    by_cases hjk : j = k
    · rw [hjk, Function.update_self]
    · rwa [Function.update_of_ne hjk]
  refine ⟨hordered, fun j hj => ready_mono (c := c) rfl hreleased (h.begun j fun hwaiting => ?_),
    h.previous_lt, fun j hj => hreleased j (h.resolved j hj), fun key j htail => ?_⟩
  · have hne : j ≠ k := by
      rintro rfl
      rw [hdue] at hwaiting
      cases hwaiting
    exact hj ((Function.update_of_ne hne _ _).trans hwaiting)
  · have hold : c.tails key = some j ∧ j ≠ k := by
      change unfile c link.key k key = some j at htail
      unfold unfile at htail
      split at htail
      · rename_i hown
        have hkey : key ≠ link.key := by
          rintro rfl
          simp at htail
        rw [Function.update_of_ne hkey] at htail
        refine ⟨htail, ?_⟩
        rintro rfl
        exact hkey ((h.ordered.tail_filed key j htail).key_unique
          (h.ordered.tail_filed link.key j hown))
      · rename_i hother
        refine ⟨htail, ?_⟩
        rintro rfl
        refine hother ?_
        rwa [← (h.ordered.tail_filed key j htail).key_unique ⟨link, hlink, rfl⟩]
    show Function.update c.phase k .released j ≠ .released
    rw [Function.update_of_ne hold.2]
    exact h.kept key j hold.1

theorem resolve (h : Linked c) (hdue : c.phase k = .released) : Linked (c.resolve k) := by
  have hphase : (c.resolve k).phase = c.phase := resolve_phase c k
  refine ⟨?_, ?_, ?_, fun j hj => ?_, ?_⟩
  · rw [shadow_resolve]
    exact h.ordered
  · rw [shadow_resolve, hphase]
    exact h.begun
  · rw [resolve_links]
    exact h.previous_lt
  · rw [hphase]
    unfold PromiseChain.resolve at hj
    split at hj
    · by_cases hjk : j = k
      · rwa [hjk]
      · refine h.resolved j ?_
        simpa [hjk] using hj
    · exact h.resolved j hj
  · have htails : (c.resolve k).tails = c.tails := by
      unfold PromiseChain.resolve
      split <;> rfl
    rw [hphase, htails]
    exact h.kept

end Linked

end Chain

variable {f f' : KeyedFifo K E T} {events : List (FifoStep K E T)}

structure Told (events : List (FifoStep K E T)) (f : KeyedFifo K E T) : Prop where
  outcome_iff : ∀ k r, f.outcome k = some r ↔ .settle k r ∈ events
  settled : ∀ k, (f.outcome k).isSome ↔ f.chain.phase k = .settled ∨ f.chain.phase k = .released
  received : ∀ k, f.received k = if f.chain.phase k = .released then f.outcome k else none

namespace Told

theorem empty : Told [] (.empty : KeyedFifo K E T) where
  outcome_iff _ _ := by simp [KeyedFifo.empty]
  settled _ := by simp [KeyedFifo.empty, PromiseChain.empty]
  received _ := (ite_self none).symm

theorem still (h : Told events f) {c : PromiseChain K} {e : FifoStep K E T}
    (he : ∀ k r, e ≠ .settle k r)
    (hsettled : ∀ k, c.phase k = .settled ↔ f.chain.phase k = .settled)
    (hreleased : ∀ k, c.phase k = .released ↔ f.chain.phase k = .released) :
    Told (events ++ [e]) { f with chain := c } where
  outcome_iff k r := by simp [h.outcome_iff, (he k r).symm]
  settled k := by simp only [h.settled, hsettled, hreleased]
  received k := by simp only [h.received, hreleased]

theorem settle (h : Told events f) {k : Nat} {r : Except E T} (hdue : f.chain.phase k = .running) :
    Told (events ++ [.settle k r])
      { f with chain := f.chain.settle k, outcome := Function.update f.outcome k (some r) } := by
  have hnone : f.outcome k = none := by
    have hsome := h.settled k
    simpa [hdue] using hsome
  have hphase : (f.chain.settle k).phase = Function.update f.chain.phase k .settled := by
    unfold PromiseChain.settle
    rw [if_pos hdue]
  refine ⟨fun j r' => ?_, fun j => ?_, fun j => ?_⟩
  · by_cases hj : j = k
    · subst hj
      have hnew : FifoStep.settle j r' ∉ events := by
        rw [← h.outcome_iff, hnone]
        nofun
      simp [hnew, eq_comm]
    · simp [hj, h.outcome_iff]
  · show _ ↔ (f.chain.settle k).phase j = _ ∨ (f.chain.settle k).phase j = _
    rw [hphase]
    by_cases hj : j = k
    · simp [hj]
    · simpa [hj] using h.settled j
  · show _ = if (f.chain.settle k).phase j = _ then _ else _
    rw [hphase]
    by_cases hj : j = k
    · simp [hj, h.received, hdue]
    · simpa [hj] using h.received j

theorem finish (h : Told events f) {k : Nat} {r : Except E T} {tails : K → Option Nat}
    (hdue : f.chain.phase k = .settled) (houtcome : f.outcome k = some r) :
    Told (events ++ [.finish k]) { f with
      chain := { f.chain.release k with tails := tails }
      received := Function.update f.received k (some r) } := by
  have hphase : (f.chain.release k).phase = Function.update f.chain.phase k .released := by
    unfold PromiseChain.release
    rw [if_pos hdue]
  refine ⟨fun j r' => by simp [h.outcome_iff], fun j => ?_, fun j => ?_⟩
  · show _ ↔ (f.chain.release k).phase j = _ ∨ (f.chain.release k).phase j = _
    rw [hphase]
    by_cases hj : j = k
    · simp [hj, houtcome]
    · simpa [hj] using h.settled j
  · show _ = if (f.chain.release k).phase j = _ then _ else _
    rw [hphase]
    by_cases hj : j = k
    · simp [hj, houtcome]
    · simpa [hj] using h.received j

end Told

variable [DecidableEq K]

theorem finish_cases {k : Nat} (h : f.finish k = some f') :
    ∃ link r, f.chain.links k = some link ∧ f.outcome k = some r ∧ f.chain.phase k = .settled ∧
      f' = { f with
        chain := { f.chain.release k with tails := unfile f.chain link.key k }
        received := Function.update f.received k (some r) } := by
  unfold KeyedFifo.finish at h
  split at h
  · rename_i link r hlink houtcome
    split at h
    · exact ⟨link, r, hlink, houtcome, ‹_›, (Option.some.inj h).symm⟩
    · cases h
  · cases h

theorem held_step (h : Linked f.chain ∧ Told events f) {e : FifoStep K E T}
    (hstep : f.step e = some f') : Linked f'.chain ∧ Told (events ++ [e]) f' := by
  obtain ⟨hlinked, htold⟩ := h
  cases e with
  | run key =>
    cases hstep
    exact ⟨hlinked.register key, htold.still (by simp) (fun _ => Iff.rfl) fun _ => Iff.rfl⟩
  | begin k =>
    obtain ⟨hdue, hf'⟩ := Option.ite_none_right_eq_some.mp hstep
    cases hf'
    have hwaiting : f.chain.phase k = .waiting := by
      simp only [startable, Bool.and_eq_true, decide_eq_true_eq] at hdue
      exact hdue.1
    have hphase (j : Nat) := start_phase f.chain k hdue j
    refine ⟨hlinked.start hdue, htold.still (by simp) (fun j => ?_) fun j => ?_⟩
    all_goals
      rw [hphase]
      by_cases hj : j = k
      · simp [hj, hwaiting]
      · simp [hj]
  | settle k r =>
    obtain ⟨hdue, hf'⟩ := Option.ite_none_right_eq_some.mp hstep
    cases hf'
    exact ⟨hlinked.settle hdue, htold.settle hdue⟩
  | finish k =>
    obtain ⟨link, r, hlink, houtcome, hdue, rfl⟩ := finish_cases hstep
    exact ⟨hlinked.finish hlink hdue, htold.finish hdue houtcome⟩
  | resolve k =>
    obtain ⟨hdue, hf'⟩ := Option.ite_none_right_eq_some.mp hstep
    cases hf'
    have hphase := resolve_phase f.chain k
    exact ⟨hlinked.resolve hdue.1, htold.still (by simp) (fun _ => by rw [hphase])
      fun _ => by rw [hphase]⟩

theorem held_runAll (events : List (FifoStep K E T)) :
    ∀ f, KeyedFifo.runAll events = some f → Linked f.chain ∧ Told events f := by
  induction events using List.reverseRecOn with
  | nil =>
    intro f h
    cases h
    exact ⟨Linked.empty, Told.empty⟩
  | append_singleton events e ih =>
    intro f' h
    rw [KeyedFifo.runAll, List.foldlM_append] at h
    obtain ⟨f, hf, hstep⟩ := Option.bind_eq_some_iff.mp h
    rw [List.foldlM_cons] at hstep
    obtain ⟨f₁, hf₁, hnil⟩ := Option.bind_eq_some_iff.mp hstep
    cases hnil
    exact held_step (ih f hf) hf₁

/-- No continuation of a promise is due: the calls wait for their tasks only. -/
def KeyedFifo.Idle (f : KeyedFifo K E T) : Prop :=
  ∀ k, f.step (.begin k) = none ∧ f.step (.finish k) = none ∧ f.step (.resolve k) = none

/-- A tail that never resolves stands behind a task that has not settled. -/
theorem running_before (h : Linked f.chain ∧ Told events f) (hidle : f.Idle) {key : K} (k : Nat)
    (hfiled : f.chain.filed k key) (hopen : f.chain.resolved k = false) :
    ∃ j ≤ k, f.chain.filed j key ∧ f.chain.phase j = .running := by
  induction k using Nat.strongRecOn with
  | ind k ih =>
    obtain ⟨hlinked, htold⟩ := h
    obtain ⟨link, hlink, rfl⟩ := hfiled
    have hbefore (hready : f.chain.ready k = false) :
        ∃ j ≤ k, f.chain.filed j link.key ∧ f.chain.phase j = .running := by
      have hprevious : link.previous.all f.chain.resolved = false := by
        simpa [ready, hlink] using hready
      cases hp : link.previous with
      | none => simp [hp] at hprevious
      | some p =>
        have hlt := hlinked.previous_lt k link p hlink hp
        obtain ⟨j, hj, hrun⟩ := ih p hlt (hlinked.ordered.previous_filed k link p hlink hp).1
          (by simpa [hp] using hprevious)
        exact ⟨j, by omega, hrun⟩
    obtain ⟨hbegin, hfinish, hresolve⟩ := hidle k
    cases hphase : f.chain.phase k with
    | waiting =>
      refine hbefore ?_
      simpa [KeyedFifo.step, startable, hphase] using hbegin
    | running => exact ⟨k, Nat.le_refl k, ⟨link, hlink, rfl⟩, hphase⟩
    | settled =>
      obtain ⟨r, hr⟩ := Option.isSome_iff_exists.mp ((htold.settled k).mpr (.inl hphase))
      simp [KeyedFifo.step, KeyedFifo.finish, hlink, hr, hphase] at hfinish
    | released =>
      refine hbefore ?_
      simpa [KeyedFifo.step, hphase, hopen] using hresolve

/-- A task of call `k` runs, or its `finally` block is still to come. -/
def KeyedFifo.holds (f : KeyedFifo K E T) (k : Nat) : Prop :=
  f.chain.phase k = .running ∨ f.chain.phase k = .settled

/-- The calls are numbered in the order they are made; `events` is what has happened. -/
structure FifoLaw (events : List (FifoStep K E T)) (f : KeyedFifo K E T) : Prop where
  exclusive : ∀ key j k, f.chain.filed j key → f.chain.filed k key → f.holds j → f.holds k → j = k
  inOrder : ∀ key j k, f.chain.filed j key → f.chain.filed k key → j < k →
    f.chain.phase k ≠ .waiting → (f.received j).isSome
  advances : f.Idle → ∀ key k, f.chain.filed k key → f.received k = none →
    ∃ j ≤ k, f.chain.filed j key ∧ f.chain.phase j = .running
  own : ∀ k r, f.received k = some r → ∀ r', .settle k r' ∈ events ↔ r' = r
  cleaned : ∀ key, f.chain.tails key = none ↔ ∀ k, f.chain.filed k key → (f.received k).isSome

theorem keyedFifo_law (h : KeyedFifo.runAll events = some f) : FifoLaw events f := by
  obtain ⟨hlinked, htold⟩ := held_runAll events f h
  have hdone (k : Nat) : (f.received k).isSome ↔ f.chain.phase k = .released := by
    rw [htold.received]
    by_cases hk : f.chain.phase k = .released
    · simp [hk, (htold.settled k).mpr (.inr hk)]
    · simp [hk]
  have horder (key : K) (j k : Nat) (hj : f.chain.filed j key) (hk : f.chain.filed k key)
      (hjk : j < k) (hphase : f.chain.phase k ≠ .waiting) : f.chain.phase j = .released :=
    hlinked.ordered.released_of_started hj hk hphase hjk
  refine ⟨fun key j k hj hk hholdj hholdk => ?_, fun key j k hj hk hjk hphase => ?_,
    fun hidle key k hk hwaits => ?_, fun k r hr r' => ?_, fun key => ⟨fun htail k hk => ?_,
      fun hall => ?_⟩⟩
  · have hnot {j k : Nat} (hj : f.chain.filed j key) (hk : f.chain.filed k key)
        (hholdj : f.holds j) (hholdk : f.holds k) : ¬ j < k := by
      intro hjk
      have hreleased := horder key j k hj hk hjk (by rcases hholdk with h | h <;> simp [h])
      rcases hholdj with h | h <;> simp [h] at hreleased
    have hle := hnot hj hk hholdj hholdk
    have hge := hnot hk hj hholdk hholdj
    omega
  · exact (hdone j).mpr (horder key j k hj hk hjk hphase)
  · refine running_before ⟨hlinked, htold⟩ hidle k hk ?_
    by_contra hresolved
    have hreleased := hlinked.resolved k (by simpa using hresolved)
    have hsome := (hdone k).mpr hreleased
    rw [hwaits] at hsome
    cases hsome
  · have hreleased := (hdone k).mp (by rw [hr]; rfl)
    rw [htold.received, if_pos hreleased] at hr
    rw [← htold.outcome_iff, hr, Option.some.injEq, eq_comm]
  · refine (hdone k).mpr ?_
    exact of_decide_eq_true (hlinked.ordered.no_tail key htail k hk)
  · cases htail : f.chain.tails key with
    | none => rfl
    | some k =>
      have hreleased := (hdone k).mp (hall k (hlinked.ordered.tail_filed key k htail))
      exact absurd hreleased (hlinked.kept key k htail)

/-- Two calls of one key: the first task rejects, the second runs behind it. -/
def rejectedFirst : List (FifoStep Nat String Nat) :=
  [.run 7, .run 7, .begin 0, .settle 0 (.error "rejected"), .finish 0, .resolve 0, .begin 1,
    .settle 1 (.ok 3), .finish 1]

theorem keyedFifo_law_rejectedFirst :
    ∃ f, KeyedFifo.runAll rejectedFirst = some f ∧ FifoLaw rejectedFirst f ∧
      f.received 1 = some (.ok 3) :=
  ⟨_, rfl, keyedFifo_law rfl, rfl⟩

end ClockifyAssistant.FifoLock
