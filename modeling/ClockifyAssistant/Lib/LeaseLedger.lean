import Mathlib.Data.List.Basic
import Mathlib.Data.List.Induction

/-!
What happens under a lease: it is acquired, work is dispatched under it, the
outcome of that work is stored or given up, and the lease is released. The phase
of a lease follows its events; a lease whose phase ends in `released` was
released once, and not before the outcome of its work was settled.
-/
namespace ClockifyAssistant.Lib

inductive LeaseEvent
  | acquired | dispatched | stored | givenUp | released
  deriving DecidableEq

inductive LeasePhase
  | absent | held | dispatched | recorded | released
  /-- An event that has no place in the order. -/
  | broken
  deriving DecidableEq

def LeasePhase.next : LeasePhase → LeaseEvent → LeasePhase
  | absent, .acquired => held
  | held, .dispatched => dispatched
  | held, .stored => recorded
  | held, .givenUp => recorded
  | held, .released => released
  | dispatched, .dispatched => dispatched
  | dispatched, .stored => recorded
  | dispatched, .givenUp => recorded
  | recorded, .released => released
  | _, _ => broken

/-- The events of all leases, oldest first. -/
abbrev LeaseLog := List (Nat × LeaseEvent)

namespace LeaseLog

def phase (log : LeaseLog) (lease : Nat) : LeasePhase :=
  log.foldl (fun phase entry => if entry.1 = lease then phase.next entry.2 else phase) .absent

/-- The lease was released once, and work dispatched under it was recorded before that. -/
structure Settled (log : LeaseLog) (lease : Nat) : Prop where
  released_once : log.count (lease, .released) = 1
  recorded_first : (lease, .dispatched) ∈ log → ∃ before after,
    log = before ++ (lease, .released) :: after ∧
      ((lease, .stored) ∈ before ∨ (lease, .givenUp) ∈ before) ∧
      (lease, .dispatched) ∉ after

variable {log : LeaseLog} {lease other : Nat} {event : LeaseEvent}

@[simp] theorem phase_nil : phase [] lease = .absent := rfl

@[simp] theorem phase_concat : phase (log ++ [(lease, event)]) lease =
    (phase log lease).next event := by
  simp [phase]

theorem phase_concat_other (h : other ≠ lease) :
    phase (log ++ [(other, event)]) lease = phase log lease := by
  simp [phase, h]

theorem Settled.concat (h : Settled log lease) (hother : other ≠ lease) :
    Settled (log ++ [(other, event)]) lease := by
  refine ⟨?_, fun hdispatched => ?_⟩
  · rw [List.count_append, h.released_once]
    simp [hother]
  · have hlog : (lease, LeaseEvent.dispatched) ∈ log := by
      simpa [hother.symm] using hdispatched
    obtain ⟨before, after, hsplit, hrecorded, hafter⟩ := h.recorded_first hlog
    refine ⟨before, after ++ [(other, event)], ?_, hrecorded, ?_⟩
    · rw [hsplit, List.append_assoc, List.cons_append]
    · simp [hafter, hother.symm]

/-- A release that is the first one and finds the work recorded settles the lease. -/
theorem Settled.of_release (hfirst : (lease, .released) ∉ log)
    (hrecorded : (lease, .dispatched) ∈ log → (lease, .stored) ∈ log ∨ (lease, .givenUp) ∈ log) :
    Settled (log ++ [(lease, .released)]) lease := by
  refine ⟨?_, fun hdispatched => ⟨log, [], rfl, hrecorded ?_, List.not_mem_nil⟩⟩
  · rw [List.count_append, List.count_eq_zero_of_not_mem hfirst]
    simp
  · simpa using hdispatched

/-- Whoever sees a settled lease released sees its work recorded. -/
theorem Settled.recorded_where_seen (h : Settled log lease) {seen : LeaseLog} (hseen : seen <+: log)
    (hreleased : (lease, .released) ∈ seen) (hdispatched : (lease, .dispatched) ∈ seen) :
    (lease, .stored) ∈ seen ∨ (lease, .givenUp) ∈ seen := by
  obtain ⟨rest, rfl⟩ := hseen
  obtain ⟨before, after, hsplit, hrecorded, -⟩ :=
    h.recorded_first (List.mem_append_left _ hdispatched)
  rcases List.append_eq_append_iff.mp hsplit with ⟨between, -, hrest⟩ | ⟨between, hbefore, -⟩
  · have honce := h.released_once
    rw [hrest, List.count_append, List.count_append, List.count_cons_self] at honce
    have hpositive := List.count_pos_iff.mpr hreleased
    omega
  · rw [hbefore]
    rcases hrecorded with hmem | hmem
    · exact .inl (List.mem_append_left _ hmem)
    · exact .inr (List.mem_append_left _ hmem)

/-- What the phase of a lease says about the events before it. -/
def Shows (log : LeaseLog) (lease : Nat) : LeasePhase → Prop
  | .absent => ∀ event, (lease, event) ∉ log
  | .held => (lease, .acquired) ∈ log ∧ (lease, .dispatched) ∉ log ∧
      (lease, .stored) ∉ log ∧ (lease, .givenUp) ∉ log ∧ (lease, .released) ∉ log
  | .dispatched => (lease, .acquired) ∈ log ∧ (lease, .dispatched) ∈ log ∧
      (lease, .stored) ∉ log ∧ (lease, .givenUp) ∉ log ∧ (lease, .released) ∉ log
  | .recorded => (lease, .acquired) ∈ log ∧
      ((lease, .stored) ∈ log ∨ (lease, .givenUp) ∈ log) ∧ (lease, .released) ∉ log
  | .released => log.Settled lease
  | .broken => True

theorem Shows.concat {phase : LeasePhase} (h : Shows log lease phase) (hother : other ≠ lease) :
    Shows (log ++ [(other, event)]) lease phase := by
  cases phase with
  | released => exact Settled.concat h hother
  | broken => trivial
  | absent => simpa [Shows, hother.symm] using h
  | held => simpa [Shows, hother.symm] using h
  | dispatched => simpa [Shows, hother.symm] using h
  | recorded => simpa [Shows, hother.symm] using h

theorem phase_shows (log : LeaseLog) (lease : Nat) : log.Shows lease (log.phase lease) := by
  induction log using List.reverseRecOn with
  | nil => exact fun event => List.not_mem_nil
  | append_singleton log entry ih =>
    obtain ⟨other, event⟩ := entry
    by_cases hother : other = lease
    · subst hother
      rw [phase_concat]
      cases hphase : phase log other with
      | absent =>
        rw [hphase] at ih
        cases event <;> simp_all [LeasePhase.next, Shows]
      | held =>
        rw [hphase] at ih
        cases event with
        | released =>
          obtain ⟨-, hnone, -, -, hfirst⟩ := ih
          exact Settled.of_release hfirst fun hdispatched => absurd hdispatched hnone
        | _ => simp_all [LeasePhase.next, Shows]
      | dispatched =>
        rw [hphase] at ih
        cases event <;> simp_all [LeasePhase.next, Shows]
      | recorded =>
        rw [hphase] at ih
        cases event with
        | released => exact Settled.of_release ih.2.2 fun _ => ih.2.1
        | _ => trivial
      | released => cases event <;> trivial
      | broken => cases event <;> trivial
    · rw [phase_concat_other hother]
      exact ih.concat hother

/-- The phases in which a lease is out. -/
def outPhases : List LeasePhase := [.held, .dispatched, .recorded]

theorem out_of_phase (h : log.phase lease ∈ outPhases) :
    (lease, .acquired) ∈ log ∧ (lease, .released) ∉ log := by
  have hshows := phase_shows log lease
  simp only [outPhases, List.mem_cons, List.not_mem_nil, or_false] at h
  rcases h with h | h | h <;> rw [h] at hshows
  · exact ⟨hshows.1, hshows.2.2.2.2⟩
  · exact ⟨hshows.1, hshows.2.2.2.2⟩
  · exact ⟨hshows.1, hshows.2.2⟩

theorem phase_of_unseen (h : ∀ event, (lease, event) ∉ log) : log.phase lease = .absent := by
  induction log using List.reverseRecOn with
  | nil => rfl
  | append_singleton log entry ih =>
    obtain ⟨other, event⟩ := entry
    have hother : other ≠ lease := by
      intro heq
      exact h event (by simp [heq])
    rw [phase_concat_other hother]
    exact ih fun e he => h e (List.mem_append_left _ he)

theorem settled_of_phase (h : log.phase lease = .released) : log.Settled lease := by
  have hshows := phase_shows log lease
  rwa [h] at hshows

/-- A lease that was never released is not settled. -/
theorem not_settled_of_unreleased (h : (lease, .released) ∉ log) : ¬ log.Settled lease := by
  intro hsettled
  have hcount := hsettled.released_once
  rw [List.count_eq_zero_of_not_mem h] at hcount
  cases hcount

/-- Nor is one whose work was neither stored nor given up. -/
theorem not_settled_of_unrecorded (hdispatched : (lease, .dispatched) ∈ log)
    (hstored : (lease, .stored) ∉ log) (hgiven : (lease, .givenUp) ∉ log) :
    ¬ log.Settled lease := by
  intro hsettled
  obtain ⟨before, after, hsplit, hrecorded, -⟩ := hsettled.recorded_first hdispatched
  rcases hrecorded with hmem | hmem
  · exact hstored (by rw [hsplit]; exact List.mem_append_left _ hmem)
  · exact hgiven (by rw [hsplit]; exact List.mem_append_left _ hmem)

end LeaseLog

end ClockifyAssistant.Lib
