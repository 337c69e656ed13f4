import Mathlib.Data.Prod.Lex
import ClockifyAssistant.GovernorProgress
import ClockifyAssistant.GovernorWork

/-!
However the callbacks of active operations come in and the timer fires, the
governor's queue is used up. The work left is summed over the requests; the
pauses for the cooldown and for the window are counted beside it.
-/
namespace ClockifyAssistant

open Lib

namespace WorkspaceRequestGovernor

/-- The steps that bring what is under way to an end. -/
def Completes (g : WorkspaceRequestGovernor) : GovernorStep → Prop
  | .advance => (∃ rest, g.stack = .drain :: rest) ∨ ∃ r rest, g.stack = .listener r :: rest
  | .chargeReturns _ =>
      ∃ kind signal onDispatch rest, g.stack = .charge kind signal onDispatch :: rest
  | .hookReturns _ => ∃ r rest, g.stack = .hook r :: rest
  | .operationReturns _ => ∃ r rest, g.stack = .operation r :: rest
  | .hookSettles r _ => g.stack = [] ∧ (g.requests r).callback = .hook ∧
      (g.requests r).state = .preDispatch
  | .operationSettles r _ => g.stack = [] ∧ (g.requests r).callback = .operation
  | .cleanup r => g.stack = [] ∧ (g.requests r).callback = .cleanup
  | _ => False

/-- Something under way completes, or the clock reaches the timer and it fires. -/
inductive Progress (options : WorkspaceRequestGovernorOptions) (g : WorkspaceRequestGovernor) :
    WorkspaceRequestGovernor → Prop
  | complete {s : GovernorStep} : g.Completes s → Progress options g (g.step options s)
  | timer {T : Nat} : g.stack = [] → g.timer = some T →
      Progress options g ((g.step options (.wait (T - g.now))).step options .fireTimer)

/-- The queue becomes empty, whichever way things go on. -/
inductive Drains (options : WorkspaceRequestGovernorOptions) : WorkspaceRequestGovernor → Prop
  | empty {g : WorkspaceRequestGovernor} : g.queue = [] → Drains options g
  | next {g : WorkspaceRequestGovernor} : (∃ g', Progress options g g') →
      (∀ g', Progress options g g' → Drains options g') → Drains options g

variable (options : WorkspaceRequestGovernorOptions) (g : WorkspaceRequestGovernor)

def cooling : Nat := if g.now < g.cooldownUntil then 1 else 0

def full : Nat := if options.rateCap ≤ (liveStarts g.now g.starts).length then 1 else 0

/-- The moment at which `drain`, called now, would arm the timer. -/
def wakeUp : Nat :=
  if g.now < g.cooldownUntil then g.cooldownUntil else (liveStarts g.now g.starts).headD 0 + 1000

def timerLoad : Nat :=
  match g.timer with
  | none => 1
  | some T => if T = g.wakeUp ∧ 0 < g.cooling + g.full options then 0 else 2

def pauses : Nat := 8 * (g.cooling + g.full options) + 3 * g.timerLoad options + g.stack.length

/-- A step leaves less work, or the same work behind fewer pauses. -/
def Shrinks (g g' : WorkspaceRequestGovernor) : Prop :=
  g'.work < g.work ∨ (g'.work = g.work ∧ g'.pauses options < g.pauses options)

section Pauses

variable {options} {g g' : WorkspaceRequestGovernor} {r : Nat} {phase : Nat → RequestPhase}

variable {rest : List GovernorFrame}

theorem shrinks_of_pop {frame : GovernorFrame}
    (hstack : g.stack = frame :: rest) : Shrinks options g { g with stack := rest } := by
  have hwork := work_pop hstack
  by_cases hcharge : frame.isCharge = true
  · rw [if_pos hcharge] at hwork
    exact .inl (by omega)
  · rw [if_neg hcharge] at hwork
    refine .inr ⟨by omega, ?_⟩
    have hlength : g.stack.length = rest.length + 1 := by
      rw [hstack, List.length_cons]
    show 8 * (g.cooling + g.full options) + 3 * g.timerLoad options + rest.length < _
    unfold pauses
    omega

theorem Shrinks.of_work {frame : GovernorFrame} (hstack : g.stack = frame :: rest)
    (hwork : g'.work < ({ g with stack := rest } : WorkspaceRequestGovernor).work) :
    Shrinks options g g' := by
  have := work_pop hstack
  exact .inl (by omega)

theorem chargeReturns_shrinks (htracks : Tracks options g phase) {kind : HostRequestKind}
    {signal : Option Nat} {onDispatch : Bool}
    (hstack : g.stack = .charge kind signal onDispatch :: rest) (charged : Bool) :
    Shrinks options g (g.chargeReturns charged) := by
  have hpop := htracks.pop hstack (by simp) (by simp)
  have hwork := work_pop hstack
  rw [if_pos (show GovernorFrame.isCharge _ = true from rfl)] at hwork
  unfold WorkspaceRequestGovernor.chargeReturns
  rw [hstack]
  cases charged with
  | false => exact .inl (by simp only [Bool.false_eq_true, if_false]; omega)
  | true =>
    refine .inl ?_
    simp only [if_true]
    generalize hp : ({ g with stack := rest } : WorkspaceRequestGovernor) = popped
      at hpop hwork ⊢
    have hjoined := join_work popped kind signal onDispatch
    unfold WorkspaceRequestGovernor.enqueue
    simp only
    split
    · have hd := (hpop.join kind signal onDispatch).follows.describes popped.nextRequest
      rw [Function.update_self] at hd
      have := cancel_queued_work hd (by show _ < popped.nextRequest + 1; omega)
      omega
    · omega

theorem hook_phase (htracks : Tracks options g phase)
    (hstack : g.stack = .hook r :: rest) : r < g.nextRequest ∧
      (RequestPhase.starting.Describes (g.requests r) ∨
        RequestPhase.cancelled.Describes (g.requests r)) := by
  have hpop := htracks.popHook hstack
  have hd := hpop.follows.describes r
  rw [Function.update_self] at hd
  have hlt := hpop.lt_next (r := r) (by
    rw [Function.update_self]
    rcases RequestPhase.hookReturned_cases (phase r) with hr | hr <;> rw [hr] <;> simp)
  refine ⟨hlt, ?_⟩
  rcases RequestPhase.hookReturned_cases (phase r) with hr | hr
  · rw [hr] at hd
    exact .inl hd
  · rw [hr] at hd
    exact .inr hd

theorem hookReturns_shrinks (htracks : Tracks options g phase)
    (hstack : g.stack = .hook r :: rest) (returned : HookReturn) :
    Shrinks options g (g.hookReturns returned) := by
  obtain ⟨hlt, hd⟩ := hook_phase htracks hstack
  unfold WorkspaceRequestGovernor.hookReturns
  rw [hstack]
  simp only
  rcases hd with hd | hd
  · refine Shrinks.of_work hstack ?_
    cases returned with
    | value =>
      have hstart := start_work (g := { g with stack := rest }) hd hlt
      exact Nat.lt_of_succ_lt hstart
    | thrown =>
      have hfail := fail_work (g := { g with stack := rest }) hd hlt
      exact Nat.lt_of_succ_lt hfail
    | promise =>
      refine work_lt (g := { g with stack := rest }) hlt rfl rfl ?_ rfl
      have hstate : (g.requests r).state = .preDispatch := hd.state
      have hcallback : (g.requests r).callback = .nothing := hd.callback
      simp [GovernedRequest.load, hstate, hcallback]
  · have hpop : Shrinks options g { g with stack := rest } := shrinks_of_pop hstack
    cases returned with
    | value =>
      rw [startExternalOperation_cancelled (g := { g with stack := rest }) hd]
      exact hpop
    | thrown =>
      rw [failBeforeDispatch_cancelled (g := { g with stack := rest }) hd]
      exact hpop
    | promise =>
      have hstate : (g.requests r).state = .cancelled := hd.state
      have hsame : (({ g with stack := rest }).modify r ({ · with callback := .hook })).work =
          ({ g with stack := rest } : WorkspaceRequestGovernor).work := by
        have hupdate := work_modify (g := { g with stack := rest }) hlt
          ({ · with callback := .hook })
        simp only [GovernedRequest.load, hstate] at hupdate
        exact hupdate
      rcases hpop with hlt' | ⟨heq, hlt'⟩
      · exact .inl (by rw [hsame]; exact hlt')
      · exact .inr ⟨by rw [hsame]; exact heq, hlt'⟩

theorem operationReturns_shrinks (htracks : Tracks options g phase)
    (hstack : g.stack = .operation r :: rest) (promised : Bool) :
    Shrinks options g (g.operationReturns promised) := by
  obtain ⟨hr, -⟩ := htracks.operation_phase hstack
  have hlt := htracks.lt_next (r := r) (by simp [hr])
  have hd := htracks.follows.describes r
  rw [hr] at hd
  have hstate : (g.requests r).state = .dispatched := hd.state
  have hcallback : (g.requests r).callback = .nothing := hd.callback
  unfold WorkspaceRequestGovernor.operationReturns
  rw [hstack]
  simp only
  refine Shrinks.of_work hstack ?_
  cases promised with
  | true =>
    simp only [if_true]
    refine work_lt (g := { g with stack := rest }) hlt rfl rfl ?_ rfl
    simp [GovernedRequest.load, hstate]
    rw [hcallback]
    decide
  | false =>
    have hsettled : (g.requests r).promiseSettled = false := hd.promiseSettled
    have hheld : (g.requests r).activeReleased = false := hd.activeReleased
    simp only [Bool.false_eq_true, if_false]
    rw [Tracks.thrown_eq hheld hsettled]
    refine retire_work (g := { g with stack := rest }) (k := 1) hlt ?_
    simp [GovernedRequest.load, hstate, hcallback]

theorem hookSettles_shrinks (htracks : Tracks options g phase) (hstack : g.stack = [])
    (hcallback : (g.requests r).callback = .hook) (hstate : (g.requests r).state = .preDispatch)
    (fulfilled : Bool) : Shrinks options g (g.hookSettles r fulfilled) := by
  have hclear := htracks.clearHook hcallback
  have hd := hclear.follows.describes r
  rw [Function.update_self] at hd
  have hstarting : (phase r).hookReturned = .starting := by
    have hstate' := hd.state
    rw [show (g.modify r ({ · with callback := .nothing })).requests r = _ from
      Function.update_self _ _ _] at hstate'
    simp only [hstate] at hstate'
    rcases RequestPhase.hookReturned_cases (phase r) with hr | hr
    · exact hr
    · rw [hr] at hstate'
      simp [RequestPhase.state] at hstate'
  rw [hstarting] at hd
  have hlt : r < g.nextRequest := by
    refine htracks.lt_next ?_
    intro habsent
    have hphase := (htracks.follows.describes r).callback
    rw [hcallback, habsent] at hphase
    simp [RequestPhase.callback] at hphase
  have hupdate := work_modify hlt ({ · with callback := .nothing })
  simp only [GovernedRequest.load, hstate, hcallback] at hupdate
  unfold WorkspaceRequestGovernor.hookSettles
  rw [if_pos ⟨hstack, hcallback⟩]
  cases fulfilled with
  | true =>
    have hstart := start_work hd hlt
    exact .inl (by simp only [if_true]; omega)
  | false =>
    have hfail := fail_work hd hlt
    exact .inl (by simp only [Bool.false_eq_true, if_false]; omega)

theorem operationSettles_shrinks (htracks : Tracks options g phase) (hstack : g.stack = [])
    (hcallback : (g.requests r).callback = .operation) (fulfilled : Bool) :
    Shrinks options g (g.operationSettles r fulfilled) := by
  have hd := htracks.follows.describes r
  have hr := htracks.phase_of_operation hcallback
  rw [hr] at hd
  have hstate : (g.requests r).state = .dispatched := hd.state
  have hunsettled : (g.requests r).promiseSettled = false := hd.promiseSettled
  unfold WorkspaceRequestGovernor.operationSettles
  rw [if_pos ⟨hstack, hcallback⟩]
  generalize (if fulfilled = true then RequestOutcome.resolved else .rejected) = outcome
  rw [Tracks.settled_eq hunsettled]
  refine .inl (work_lt (g := g) (htracks.lt_next (by simp [hr])) rfl rfl ?_ rfl)
  simp [GovernedRequest.load, hstate, hcallback]

theorem cleanup_shrinks (htracks : Tracks options g phase) (hstack : g.stack = [])
    (hcallback : (g.requests r).callback = .cleanup) : Shrinks options g (g.cleanup r) := by
  have hd := htracks.follows.describes r
  obtain ⟨outcome, hr⟩ := htracks.phase_of_cleanup hcallback
  rw [hr] at hd
  have hstate : (g.requests r).state = .settled := hd.state
  have hheld : (g.requests r).activeReleased = false := hd.activeReleased
  unfold WorkspaceRequestGovernor.cleanup
  rw [if_pos ⟨hstack, hcallback⟩, Tracks.released_eq hheld]
  refine .inl (retire_work (k := 1) (htracks.lt_next (by simp [hr])) ?_)
  simp [GovernedRequest.load, hstate, hcallback]

/-- An abort listener cancels its request, or finds it past cancelling. -/
theorem listener_shrinks (htracks : Tracks options g phase)
    (hstack : g.stack = .listener r :: rest) :
    Shrinks options g (({ g with stack := rest }).cancelBeforeDispatch r) := by
  have hpresent : phase r ≠ .absent := htracks.follows.listeners r (by rw [hstack]; simp)
  have hlt := htracks.lt_next hpresent
  have hd := htracks.follows.describes r
  by_cases hqueued : phase r = .queued
  · rw [hqueued] at hd
    exact Shrinks.of_work hstack (cancel_queued_work (g := { g with stack := rest }) hd hlt)
  by_cases hpre : (phase r).state = .preDispatch
  · have hcancel := cancel_preDispatch_work (g := { g with stack := rest }) hd hpre hlt
    exact Shrinks.of_work hstack (Nat.lt_of_succ_lt hcancel)
  · have hstate : (phase r).state ≠ .queued := by
      cases hphase : phase r <;> simp [hphase, RequestPhase.state] at hpresent hqueued ⊢
    rw [cancelBeforeDispatch_other (g := { g with stack := rest }) hd hstate hpre]
    exact shrinks_of_pop hstack

theorem Shrinks.of_le {g'' : WorkspaceRequestGovernor} (h : Shrinks options g g')
    (hwork : g''.work = g'.work) (hpauses : g''.pauses options ≤ g'.pauses options) :
    Shrinks options g g'' := by
  rcases h with hlt | ⟨heq, hlt⟩
  · exact .inl (by omega)
  · exact .inr ⟨by omega, by omega⟩

/-- A timer armed for the moment at which the head is let go needs no second firing. -/
theorem pauses_schedule_le {delay : Nat} (hdelay : g.now + max 1 delay = g.wakeUp)
    (hkept : 0 < g.cooling + g.full options) :
    (g.schedule delay).pauses options ≤ g.pauses options := by
  unfold WorkspaceRequestGovernor.schedule
  cases htimer : g.timer with
  | some T =>
    rw [if_pos (by simp)]
  | none =>
    rw [if_neg (by simp)]
    have hset : ({ g with timer := some (g.now + max 1 delay) }).timerLoad options = 0 :=
      if_pos ⟨hdelay, hkept⟩
    show 8 * (g.cooling + g.full options) + 3 * timerLoad options _ + g.stack.length ≤ _
    rw [hset]
    unfold pauses
    omega

theorem pruneStarts_pauses (options : WorkspaceRequestGovernorOptions)
    (g : WorkspaceRequestGovernor) :
    g.pruneStarts.full options = g.full options ∧ g.pruneStarts.wakeUp = g.wakeUp ∧
      g.pruneStarts.pauses options = g.pauses options := by
  have hlive : liveStarts g.now (liveStarts g.now g.starts) = liveStarts g.now g.starts :=
    liveStarts_liveStarts (Nat.le_refl _) _
  have hfull : g.pruneStarts.full options = g.full options := by
    show (if _ ≤ (liveStarts g.now (liveStarts g.now g.starts)).length then _ else _) = _
    rw [hlive]
    rfl
  have hwake : g.pruneStarts.wakeUp = g.wakeUp := by
    show (if _ then _ else (liveStarts g.now (liveStarts g.now g.starts)).headD 0 + 1000) = _
    rw [hlive]
    rfl
  have hload : g.pruneStarts.timerLoad options = g.timerLoad options := by
    unfold timerLoad
    rw [hfull, hwake]
    rfl
  refine ⟨hfull, hwake, ?_⟩
  unfold pauses
  rw [hfull, hload]
  rfl

/-- What `drain` leaves when it returns without taking a request. -/
theorem drain_shrinks (htracks : Tracks options g phase) (hstack : g.stack = .drain :: rest) :
    Shrinks options g (({ g with stack := rest }).drain options) := by
  have hpop : Shrinks options g { g with stack := rest } := shrinks_of_pop hstack
  have htracks' : Tracks options { g with stack := rest } phase :=
    htracks.pop hstack (by simp) (by simp)
  generalize hp : ({ g with stack := rest } : WorkspaceRequestGovernor) = popped at hpop htracks' ⊢
  have hwork : popped.work ≤ g.work := by
    rcases hpop with hlt | ⟨heq, -⟩
    · exact Nat.le_of_lt hlt
    · exact Nat.le_of_eq heq
  unfold WorkspaceRequestGovernor.drain
  split
  · exact hpop
  · rename_i next others hqueue
    split
    · exact hpop
    · split
      · rename_i hcooling
        refine hpop.of_le ?_ (pauses_schedule_le ?_ ?_)
        · unfold WorkspaceRequestGovernor.schedule
          split <;> rfl
        · unfold wakeUp
          rw [if_pos hcooling]
          omega
        · unfold cooling
          rw [if_pos hcooling]
          omega
      · rename_i hwarm
        obtain ⟨hfullp, hwakep, hpausesp⟩ := pruneStarts_pauses options popped
        simp only
        split
        · rename_i hfull
          have hfull' : options.rateCap ≤ (liveStarts popped.now popped.starts).length := hfull
          refine hpop.of_le ?_ (Nat.le_trans (pauses_schedule_le ?_ ?_) (Nat.le_of_eq hpausesp))
          · unfold WorkspaceRequestGovernor.schedule
            split <;> rfl
          · have hpos := options.rateCap_pos
            have hhead := head_live popped.now popped.starts (by
              intro hnone
              rw [hnone] at hfull'
              simp at hfull'
              omega)
            rw [hwakep]
            unfold wakeUp
            rw [if_neg hwarm]
            show popped.now + max 1 ((liveStarts popped.now popped.starts).headD 0 + 1000 -
              popped.now) = _
            omega
          · rw [hfullp]
            unfold full
            rw [if_pos hfull']
            omega
        · split
          · exact hpop.of_le rfl (Nat.le_of_eq hpausesp)
          · have hqueued : phase next = .queued := by
              refine (htracks'.follows.queue_iff next).mp ?_
              rw [hqueue]
              exact List.mem_cons_self ..
            have hd := htracks'.follows.describes next
            rw [hqueued] at hd
            have hlt := htracks'.lt_next (r := next) (by simp [hqueued])
            have htaken := dequeue_work (g := popped.pruneStarts) hd hlt others
            exact .inl (Nat.lt_of_lt_of_le htaken hwork)

theorem cooling_le {t : Nat} (ht : g.now ≤ t) : ({ g with now := t }).cooling ≤ g.cooling := by
  show (if t < g.cooldownUntil then 1 else 0) ≤ _
  unfold cooling
  split
  · rw [if_pos (by omega)]
  · exact Nat.zero_le _

theorem full_le (options : WorkspaceRequestGovernorOptions) {t : Nat} (ht : g.now ≤ t) :
    ({ g with now := t }).full options ≤ g.full options := by
  have hlength := length_liveStarts_le t (liveStarts g.now g.starts)
  rw [liveStarts_liveStarts ht] at hlength
  show (if options.rateCap ≤ (liveStarts t g.starts).length then 1 else 0) ≤ _
  unfold full
  split
  · rw [if_pos (by omega)]
  · exact Nat.zero_le _

/-- Where the timer is armed for the moment at which the head is let go, it is let go then. -/
theorem kept_lt (htimed : Timed options g) (hkept : 0 < g.cooling + g.full options) {t : Nat}
    (ht : g.now ≤ t) (hwake : g.wakeUp ≤ t) :
    ({ g with now := t }).cooling + ({ g with now := t }).full options <
      g.cooling + g.full options := by
  have hcool := cooling_le (g := g) ht
  have hfull := full_le options (g := g) ht
  by_cases hcooling : g.now < g.cooldownUntil
  · have hend : ({ g with now := t }).cooling = 0 := by
      unfold wakeUp at hwake
      rw [if_pos hcooling] at hwake
      exact if_neg (show ¬t < g.cooldownUntil by omega)
    have hone : g.cooling = 1 := if_pos hcooling
    omega
  · have hnone : g.cooling = 0 := if_neg hcooling
    have hfullnow : options.rateCap ≤ (liveStarts g.now g.starts).length := by
      by_contra hopen
      have hzero : g.full options = 0 := if_neg hopen
      omega
    have hone : g.full options = 1 := if_pos hfullnow
    have hend : ({ g with now := t }).full options = 0 := by
      refine if_neg (Nat.not_le_of_lt ?_)
      unfold wakeUp at hwake
      rw [if_neg hcooling] at hwake
      have hpos := options.rateCap_pos
      have hless := length_liveStarts_lt ht (by
        intro hnil
        rw [hnil] at hfullnow
        simp at hfullnow
        omega) hwake
      have hkeep := length_liveStarts_le g.now g.starts
      have hmax := htimed.starts_le
      show (liveStarts t g.starts).length < options.rateCap
      omega
    omega

theorem fireTimer_shrinks (htimed : Timed options g) (hstack : g.stack = []) {T : Nat}
    (htimer : g.timer = some T) :
    Shrinks options g ((g.step options (.wait (T - g.now))).step options .fireTimer) := by
  have hfired : (g.step options (.wait (T - g.now))).step options .fireTimer =
      ({ g with now := g.now + (T - g.now), timer := none }).push .drain := by
    show fireTimer { g with now := g.now + (T - g.now) } = _
    unfold WorkspaceRequestGovernor.fireTimer
    refine if_pos ⟨hstack, ?_⟩
    show g.timer.any _ = true
    rw [htimer]
    simp only [Option.any_some, decide_eq_true_eq]
    omega
  rw [hfired]
  refine .inr ⟨?_, ?_⟩
  · show _ + 7 * List.countP _ (.drain :: g.stack) = _
    rw [countP_isCharge_cons rfl]
    rfl
  · have ht : g.now ≤ g.now + (T - g.now) := Nat.le_add_right _ _
    have hcool := cooling_le (g := g) ht
    have hfull := full_le options (g := g) ht
    show 8 * (({ g with now := g.now + (T - g.now) }).cooling +
      ({ g with now := g.now + (T - g.now) }).full options) + 3 * 1 + (g.stack.length + 1) < _
    have hlength : g.stack.length = 0 := by
      rw [hstack]
      rfl
    by_cases hexact : T = g.wakeUp ∧ 0 < g.cooling + g.full options
    · have hless := kept_lt htimed hexact.2 ht (by omega)
      unfold pauses
      omega
    · have hload : g.timerLoad options = 2 := by
        unfold timerLoad
        rw [htimer]
        exact if_neg hexact
      unfold pauses
      rw [hload]
      omega

theorem Progress.shrinks (h : Sound options g) (hprogress : Progress options g g') :
    Shrinks options g g' := by
  obtain ⟨phase, htracks, -⟩ := h.tracked
  cases hprogress with
  | timer hstack htimer => exact fireTimer_shrinks h.timed hstack htimer
  | complete hcompletes =>
    rename_i s
    cases s with
    | advance =>
      show Shrinks options g (g.advance options)
      rcases hcompletes with ⟨rest, hstack⟩ | ⟨r, rest, hstack⟩
      · have hadvance : g.advance options = ({ g with stack := rest }).drain options := by
          unfold WorkspaceRequestGovernor.advance
          rw [hstack]
        rw [hadvance]
        exact drain_shrinks htracks hstack
      · have hadvance : g.advance options = ({ g with stack := rest }).cancelBeforeDispatch r := by
          unfold WorkspaceRequestGovernor.advance
          rw [hstack]
        rw [hadvance]
        exact listener_shrinks htracks hstack
    | chargeReturns charged =>
      obtain ⟨kind, signal, onDispatch, rest, hstack⟩ := hcompletes
      exact chargeReturns_shrinks htracks hstack charged
    | hookReturns returned =>
      obtain ⟨r, rest, hstack⟩ := hcompletes
      exact hookReturns_shrinks htracks hstack returned
    | operationReturns promised =>
      obtain ⟨r, rest, hstack⟩ := hcompletes
      exact operationReturns_shrinks htracks hstack promised
    | hookSettles r fulfilled =>
      exact hookSettles_shrinks htracks hcompletes.1 hcompletes.2.1 hcompletes.2.2 fulfilled
    | operationSettles r fulfilled =>
      exact operationSettles_shrinks htracks hcompletes.1 hcompletes.2 fulfilled
    | cleanup r => exact cleanup_shrinks htracks hcompletes.1 hcompletes.2
    | _ => exact absurd hcompletes id

end Pauses

theorem Progress.sound {options : WorkspaceRequestGovernorOptions} {g g' : WorkspaceRequestGovernor}
    (h : Sound options g) (hprogress : Progress options g g') : Sound options g' := by
  cases hprogress with
  | complete _ => exact h.step _
  | timer _ _ => exact (h.step _).step _

/-- The request that holds a slot while nothing runs awaits a callback. -/
theorem awaits_of_holdsSlot {p : RequestPhase} (hholds : p.holdsSlot = true)
    (hrests : p.rests = true) (hhooks : p.hookFrames = 0) (hoperations : p.operationFrames = 0) :
    p = .awaitingHook ∨ p = .awaitingOperation ∨ ∃ outcome, p = .cleanup outcome := by
  cases p <;> simp [RequestPhase.holdsSlot, RequestPhase.dequeued, RequestPhase.activeReleased,
    RequestPhase.rests, RequestPhase.hookFrames, RequestPhase.operationFrames]
    at hholds hrests hhooks hoperations ⊢

theorem completes_of_active {options : WorkspaceRequestGovernorOptions}
    {g : WorkspaceRequestGovernor} (h : Sound options g) (hstack : g.stack = [])
    (hactive : 0 < g.active) : ∃ s, g.Completes s := by
  obtain ⟨phase, htracks, hrests⟩ := h.tracked
  rw [htracks.slotted.active] at hactive
  obtain ⟨r, hr⟩ := Finset.card_pos.mp hactive
  have hholds := (Slotted.mem_slots.mp hr).2
  have hd := htracks.follows.describes r
  have hhooks : (phase r).hookFrames = 0 := by
    rw [← htracks.follows.hooks r, hstack]
    rfl
  have hoperations : (phase r).operationFrames = 0 := by
    rw [← htracks.follows.operations r, hstack]
    rfl
  rcases awaits_of_holdsSlot hholds (hrests r) hhooks hoperations with hp | hp | ⟨outcome, hp⟩
  · rw [hp] at hd
    exact ⟨.hookSettles r true, hstack, hd.callback, hd.state⟩
  · rw [hp] at hd
    exact ⟨.operationSettles r true, hstack, hd.callback⟩
  · rw [hp] at hd
    exact ⟨.cleanup r, hstack, hd.callback⟩

theorem completes_of_stack {g : WorkspaceRequestGovernor} {frame : GovernorFrame}
    {rest : List GovernorFrame} (hstack : g.stack = frame :: rest) : ∃ s, g.Completes s := by
  cases frame with
  | drain => exact ⟨.advance, .inl ⟨rest, hstack⟩⟩
  | charge kind signal onDispatch =>
    exact ⟨.chargeReturns true, kind, signal, onDispatch, rest, hstack⟩
  | listener r => exact ⟨.advance, .inr ⟨r, rest, hstack⟩⟩
  | hook r => exact ⟨.hookReturns .value, r, rest, hstack⟩
  | operation r => exact ⟨.operationReturns true, r, rest, hstack⟩

/-- While requests wait, something is under way or the timer is armed. -/
theorem exists_progress {options : WorkspaceRequestGovernorOptions} {g : WorkspaceRequestGovernor}
    (h : Sound options g) (hqueue : g.queue ≠ []) : ∃ g', Progress options g g' := by
  cases hstack : g.stack with
  | cons frame rest =>
    obtain ⟨s, hcompletes⟩ := completes_of_stack hstack
    exact ⟨_, .complete hcompletes⟩
  | nil =>
    rcases h.timed.roused (by rw [hstack]; simp) with hempty | hactive | harmed
    · exact absurd hempty hqueue
    · obtain ⟨s, hcompletes⟩ := completes_of_active h hstack hactive
      exact ⟨_, .complete hcompletes⟩
    · obtain ⟨T, htimer, -⟩ := harmed
      exact ⟨_, .timer hstack htimer⟩

theorem drains_of_sound {options : WorkspaceRequestGovernorOptions} {g : WorkspaceRequestGovernor}
    (h : Sound options g) : Drains options g := by
  -- on the work that is left and, where that stays, on the pauses before it
  generalize hmeasure : toLex (g.work, g.pauses options) = measure
  induction measure using WellFoundedLT.induction generalizing g with
  | ind measure ih =>
    by_cases hqueue : g.queue = []
    · exact .empty hqueue
    · refine .next (exists_progress h hqueue) ?_
      intro g' hprogress
      refine ih _ ?_ (hprogress.sound h) rfl
      rw [← hmeasure]
      refine Prod.Lex.toLex_lt_toLex.mpr ?_
      rcases hprogress.shrinks h with hless | ⟨hsame, hless⟩
      · exact .inl hless
      · exact .inr ⟨hsame, hless⟩

/-- A waiting request is never forgotten: a call of `drain` is under way, a slot is taken, or
the timer is armed no later than the head may start; and from any moment on the queue is
used up. -/
structure LivenessLaw (options : WorkspaceRequestGovernorOptions) (g : WorkspaceRequestGovernor) :
    Prop where
  roused : g.queue ≠ [] → .drain ∈ g.stack ∨ 0 < g.active ∨ g.Armed options
  drains : Drains options g

theorem runGovernor_livenessLaw (options : WorkspaceRequestGovernorOptions) (start : Nat)
    (steps : List GovernorStep) : LivenessLaw options (runGovernor options start steps) := by
  have h := sound_runGovernor options start steps
  refine ⟨?_, drains_of_sound h⟩
  intro hqueue
  by_cases hdrain : .drain ∈ (runGovernor options start steps).stack
  · exact .inl hdrain
  · rcases h.timed.roused hdrain with hempty | hkept
    · exact absurd hempty hqueue
    · exact .inr hkept

end WorkspaceRequestGovernor

end ClockifyAssistant
