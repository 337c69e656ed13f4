import Mathlib.Data.List.TakeWhile
import ClockifyAssistant.GovernorProgress

/-!
The rate that the governor keeps towards the host. The window and the cooldown are
looked at when a request leaves the queue; they bound the operations invoked only
where each is invoked at that same reading of the clock.
-/
namespace ClockifyAssistant

open Lib

def InSecond (t0 t : Nat) : Prop := t0 ≤ t ∧ t < t0 + 1000

instance (t0 t : Nat) : Decidable (InSecond t0 t) := instDecidableAnd

/-- The requests that the log has with the event in the second from `t0` on. -/
def loggedIn (event : RequestEvent) (t0 : Nat) (log : List GovernorEntry) : List Nat :=
  log.filterMap fun
    | .request r event' t => if event' = event ∧ InSecond t0 t then some r else none
    | .rateLimited _ _ => none

/-- An operation is invoked no earlier than the cooldowns noted before it end. -/
def AfterCooldown (before : List GovernorEntry) (entry : GovernorEntry) : Prop :=
  ∀ r t, entry = .request r .invoked t →
    ∀ delay until_, .rateLimited delay until_ ∈ before → until_ ≤ t

/-- The times at which the log has the event. -/
def timesOf (event : RequestEvent) (log : List GovernorEntry) : List Nat :=
  log.filterMap fun
    | .request _ event' t => if event' = event then some t else none
    | .rateLimited _ _ => none

theorem timesOf_append (event : RequestEvent) (log log' : List GovernorEntry) :
    timesOf event (log ++ log') = timesOf event log ++ timesOf event log' :=
  List.filterMap_append

theorem mem_loggedIn {event : RequestEvent} {t0 r : Nat} {log : List GovernorEntry} :
    r ∈ loggedIn event t0 log ↔ ∃ t, .request r event t ∈ log ∧ InSecond t0 t := by
  unfold loggedIn
  rw [List.mem_filterMap]
  constructor
  · intro h
    obtain ⟨entry, hentry, hsome⟩ := h
    cases entry with
    | request r' event' t =>
      by_cases hin : event' = event ∧ InSecond t0 t
      · obtain ⟨rfl, ht⟩ := hin
        obtain rfl : r' = r := by simpa [ht] using hsome
        exact ⟨t, hentry, ht⟩
      · simp [hin] at hsome
    | rateLimited delay until_ => simp at hsome
  · intro h
    obtain ⟨t, hentry, ht⟩ := h
    exact ⟨_, hentry, by simp [ht]⟩

theorem length_loggedIn (event : RequestEvent) (t0 : Nat) (log : List GovernorEntry) :
    (loggedIn event t0 log).length = (timesOf event log).countP fun t => InSecond t0 t := by
  induction log with
  | nil => rfl
  | cons entry rest ih =>
    unfold loggedIn timesOf at ih ⊢
    cases entry with
    | rateLimited delay until_ => simpa using ih
    | request r event' t =>
      by_cases hevent : event' = event
      · by_cases ht : InSecond t0 t
        · simpa [hevent, ht] using ih
        · simpa [hevent, ht] using ih
      · simpa [hevent] using ih

theorem count_loggedIn_le (event : RequestEvent) (t0 r : Nat) (log : List GovernorEntry) :
    (loggedIn event t0 log).count r ≤ (traceOf r log).count event := by
  induction log with
  | nil => simp [loggedIn]
  | cons entry rest ih =>
    unfold loggedIn traceOf at ih ⊢
    cases entry with
    | rateLimited delay until_ => simpa using ih
    | request r' event' t =>
      by_cases hr : r' = r
      · by_cases hevent : event' = event
        · by_cases ht : InSecond t0 t
          · simpa [hr, hevent, ht] using ih
          · simp only [List.filterMap_cons, hr, hevent, ht, and_false, if_false, if_true,
              List.count_cons_self]
            omega
        · simpa [hr, hevent, List.count_cons] using ih
      · by_cases hin : event' = event ∧ InSecond t0 t
        · simpa [hr, hin, List.count_cons] using ih
        · simpa [hr, hin] using ih

theorem exists_pruned (t : Nat) (starts : List Nat) :
    ∃ pruned, starts = pruned ++ liveStarts t starts ∧ ∀ start ∈ pruned, start + 1000 ≤ t := by
  refine ⟨starts.takeWhile fun start => start + 1000 ≤ t, List.takeWhile_append_dropWhile.symm, ?_⟩
  intro start hstart
  simpa using List.mem_takeWhile_imp hstart

namespace WorkspaceRequestGovernor

/-- What the rate limit and the cooldown are for. -/
structure RateLaw (options : WorkspaceRequestGovernorOptions) (g : WorkspaceRequestGovernor) :
    Prop where
  window : ∀ t0, (loggedIn .invoked t0 g.log).length ≤ options.rateCap
  cooldown : Always AfterCooldown g.log

/-- The request left the queue at this reading of the clock, and no cooldown holds. -/
def JustDequeued (g : WorkspaceRequestGovernor) (r : Nat) : Prop :=
  .request r .dequeued g.now ∈ g.log ∧ g.cooldownUntil ≤ g.now

instance (g : WorkspaceRequestGovernor) (r : Nat) : Decidable (g.JustDequeued r) :=
  instDecidableAnd

/-- A hook that lets its request go on does so without delay. -/
def Prompt (g : WorkspaceRequestGovernor) : GovernorStep → Prop
  | .hookReturns .value => ∀ r rest, g.stack = .hook r :: rest →
      (g.requests r).state ≠ .cancelled → g.signalAborted r = false → g.JustDequeued r
  | .hookSettles r true => g.stack = [] → (g.requests r).callback = .hook →
      (g.requests r).state ≠ .cancelled → g.signalAborted r = false → g.JustDequeued r
  | _ => True

/-- Every step of the run is prompt in the state in which it is taken. -/
def PromptRun (options : WorkspaceRequestGovernorOptions) (start : Nat)
    (steps : List GovernorStep) : Prop :=
  Always (fun before step => (runGovernor options start before).Prompt step) steps

/-- What holds of the log of a prompt run. The starts that are no longer kept have
stopped counting. -/
structure Paced (options : WorkspaceRequestGovernorOptions) (g : WorkspaceRequestGovernor) :
    Prop where
  kept : ∃ gone, timesOf .dequeued g.log = gone ++ g.starts ∧ ∀ t ∈ gone, t + 1000 ≤ g.now
  windows : ∀ t0, (loggedIn .dequeued t0 g.log).length ≤ options.rateCap
  prompt : ∀ r t, .request r .invoked t ∈ g.log → .request r .dequeued t ∈ g.log
  limits : ∀ delay until_, .rateLimited delay until_ ∈ g.log → until_ ≤ g.cooldownUntil
  cooled : Always AfterCooldown g.log

end WorkspaceRequestGovernor

def GovernorEntry.isEnding : GovernorEntry → Bool
  | request _ .refunded _ => true
  | request _ (.settled _) _ => true
  | _ => false

theorem timesOf_ending {event : RequestEvent} {more : List GovernorEntry}
    (hmore : ∀ entry ∈ more, entry.isEnding = true)
    (hevent : event = .dequeued ∨ event = .invoked) : timesOf event more = [] := by
  refine List.filterMap_eq_nil_iff.mpr ?_
  intro entry hentry
  have hending := hmore entry hentry
  cases entry with
  | rateLimited delay until_ => rfl
  | request r event' t =>
    have hne : event' ≠ event := by
      intro heq
      rcases hevent with hevent | hevent <;> rw [heq, hevent] at hending <;>
        simp [GovernorEntry.isEnding] at hending
    simp [hne]

namespace WorkspaceRequestGovernor

/-- The log grows by refunds and settlements only. -/
def Hushed (g g' : WorkspaceRequestGovernor) : Prop :=
  ∃ more, g'.log = g.log ++ more ∧ ∀ entry ∈ more, entry.isEnding = true

namespace Hushed

variable {g g' : WorkspaceRequestGovernor}

theorem record (r : Nat) (event : RequestEvent) (t : Nat)
    (h : g'.log = g.log ++ [.request r event t])
    (hending : (GovernorEntry.request r event t).isEnding = true) : Hushed g g' := by
  refine ⟨_, h, ?_⟩
  intro entry hentry
  rw [List.mem_singleton.mp hentry]
  exact hending

end Hushed

namespace Paced

variable {options : WorkspaceRequestGovernorOptions} {g g' : WorkspaceRequestGovernor} {r : Nat}

theorem initial (start : Nat) : Paced options (createWorkspaceRequestGovernor start) := by
  refine ⟨⟨[], rfl, ?_⟩, ?_, ?_, ?_, Always.nil⟩ <;>
    simp [createWorkspaceRequestGovernor, loggedIn]

theorem windows_of_times (h : Paced options g)
    (htimes : timesOf .dequeued g'.log = timesOf .dequeued g.log) (t0 : Nat) :
    (loggedIn .dequeued t0 g'.log).length ≤ options.rateCap := by
  rw [length_loggedIn, htimes, ← length_loggedIn]
  exact h.windows t0

/-- The clock goes on, and starts that have stopped counting are let go. -/
theorem forget (h : Paced options g) (hlog : g'.log = g.log)
    (hcooldown : g'.cooldownUntil = g.cooldownUntil) (hnow : g.now ≤ g'.now)
    (hstarts : ∃ gone, g.starts = gone ++ g'.starts ∧ ∀ t ∈ gone, t + 1000 ≤ g'.now) :
    Paced options g' := by
  obtain ⟨gone, htimes, hgone⟩ := h.kept
  obtain ⟨pruned, hpruned, hold⟩ := hstarts
  refine ⟨⟨gone ++ pruned, ?_, ?_⟩, h.windows_of_times (by rw [hlog]), ?_, ?_, ?_⟩
  · rw [hlog, htimes, hpruned, List.append_assoc]
  · intro t ht
    rcases List.mem_append.mp ht with hin | hin
    · have := hgone t hin
      omega
    · exact hold t hin
  · rw [hlog]
    exact h.prompt
  · rw [hlog, hcooldown]
    exact h.limits
  · rw [hlog]
    exact h.cooled

theorem hushed (h : Paced options g) (hstarts : g'.starts = g.starts)
    (hcooldown : g'.cooldownUntil = g.cooldownUntil) (hnow : g'.now = g.now)
    (hhushed : Hushed g g') : Paced options g' := by
  obtain ⟨more, hlog, hmore⟩ := hhushed
  have htimes : timesOf .dequeued g'.log = timesOf .dequeued g.log := by
    rw [hlog, timesOf_append, timesOf_ending hmore (.inl rfl), List.append_nil]
  refine ⟨?_, h.windows_of_times htimes, ?_, ?_, ?_⟩
  · rw [htimes, hstarts, hnow]
    exact h.kept
  · intro x t hx
    rw [hlog] at hx ⊢
    rcases List.mem_append.mp hx with hin | hin
    · exact List.mem_append_left _ (h.prompt x t hin)
    · exact absurd (hmore _ hin) (by simp [GovernorEntry.isEnding])
  · intro delay until_ hx
    rw [hlog] at hx
    rw [hcooldown]
    rcases List.mem_append.mp hx with hin | hin
    · exact h.limits delay until_ hin
    · exact absurd (hmore _ hin) (by simp [GovernorEntry.isEnding])
  · rw [hlog]
    refine h.cooled.append ?_
    intro done entry rest hsplit x t hentry
    have hending := hmore entry (by rw [hsplit]; simp)
    rw [hentry] at hending
    simp [GovernorEntry.isEnding] at hending

theorem same (h : Paced options g) (hlog : g'.log = g.log) (hstarts : g'.starts = g.starts)
    (hcooldown : g'.cooldownUntil = g.cooldownUntil) (hnow : g.now ≤ g'.now) :
    Paced options g' := by
  refine h.forget hlog hcooldown hnow ⟨[], by rw [hstarts]; rfl, ?_⟩
  intro t ht
  simp at ht

theorem frame : EndingFrame fun g g' => Paced options g → Paced options g' where
  refl _ h := h
  trans hfirst hrest h := hrest (hfirst h)
  modify _ _ _ h := h.same rfl rfl rfl (Nat.le_refl _)
  requeued _ _ _ _ _ hrest h :=
    (hrest (h.same rfl rfl rfl (Nat.le_refl _))).same rfl rfl rfl (Nat.le_refl _)
  push _ _ h := h.same rfl rfl rfl (Nat.le_refl _)
  pop _ _ h := h.same rfl rfl rfl (Nat.le_refl _)
  refundBeforeDispatch g r h := by
    unfold WorkspaceRequestGovernor.refundBeforeDispatch
    split
    · exact h
    · exact h.hushed rfl rfl rfl (Hushed.record r .refunded g.now rfl rfl)
  settleOnce g r outcome h := by
    unfold WorkspaceRequestGovernor.settleOnce
    split
    · exact h
    · exact h.hushed rfl rfl rfl (Hushed.record r (.settled outcome) g.now rfl rfl)
  releaseActive g r h := by
    unfold WorkspaceRequestGovernor.releaseActive
    split
    · exact h
    · exact h.same rfl rfl rfl (Nat.le_refl _)
  abort g signal h := by
    unfold WorkspaceRequestGovernor.abort
    split
    · exact h
    · exact h.same rfl rfl rfl (Nat.le_refl _)

/-- An operation is invoked at the reading at which its request left the queue. -/
theorem invoked (h : Paced options g) (hjust : g.JustDequeued r) (hstarts : g'.starts = g.starts)
    (hcooldown : g'.cooldownUntil = g.cooldownUntil) (hnow : g'.now = g.now)
    (hlog : g'.log = g.log ++ [.request r .invoked g.now]) : Paced options g' := by
  have htimes : timesOf .dequeued g'.log = timesOf .dequeued g.log := by
    rw [hlog, timesOf_append]
    exact List.append_nil _
  refine ⟨?_, h.windows_of_times htimes, ?_, ?_, ?_⟩
  · rw [htimes, hstarts, hnow]
    exact h.kept
  · intro x t hx
    rw [hlog] at hx ⊢
    refine List.mem_append_left _ ?_
    rcases List.mem_append.mp hx with hin | hin
    · exact h.prompt x t hin
    · obtain ⟨rfl, rfl⟩ : x = r ∧ t = g.now := by simpa using hin
      exact hjust.1
  · intro delay until_ hx
    rw [hlog] at hx
    rw [hcooldown]
    exact h.limits delay until_ (by simpa using hx)
  · rw [hlog]
    refine h.cooled.concat ?_
    intro x t hentry delay until_ hbefore
    obtain ⟨rfl, rfl⟩ : r = x ∧ g.now = t := by simpa using hentry
    exact Nat.le_trans (h.limits delay until_ hbefore) hjust.2

theorem startExternalOperation (h : Paced options g)
    (hjust : (g.requests r).state ≠ .cancelled → g.signalAborted r = false → g.JustDequeued r) :
    Paced options (g.startExternalOperation r) := by
  unfold WorkspaceRequestGovernor.startExternalOperation
  split
  · exact frame.releaseActive g r h
  · rename_i hstate
    split
    · exact frame.releaseActive _ r (frame.cancelBeforeDispatch g r h)
    · rename_i hlive
      exact h.invoked (hjust hstate (by simpa using hlive)) rfl rfl rfl rfl

/-- A start that counts beside fewer than the cap keeps every window within it. -/
theorem leave (h : Paced options g) (r : Nat) (rest : List Nat)
    (hopen : (liveStarts g.now g.starts).length < options.rateCap) :
    Paced options (g.pruneStarts.leave r rest) := by
  have hlog : (g.pruneStarts.leave r rest).log = g.log ++ [.request r .dequeued g.now] := rfl
  have htimes : timesOf .dequeued (g.pruneStarts.leave r rest).log =
      timesOf .dequeued g.log ++ [g.now] := by
    rw [hlog, timesOf_append]
    rfl
  obtain ⟨gone, hkept, hgone⟩ := h.kept
  obtain ⟨pruned, hpruned, hold⟩ := exists_pruned g.now g.starts
  refine ⟨⟨gone ++ pruned, ?_, ?_⟩, ?_, ?_, ?_, ?_⟩
  · show _ = _ ++ (liveStarts g.now g.starts ++ [g.now])
    rw [htimes, hkept]
    nth_rewrite 1 [hpruned]
    simp [List.append_assoc]
  · intro t ht
    show t + 1000 ≤ g.now
    rcases List.mem_append.mp ht with hin | hin
    · exact hgone t hin
    · exact hold t hin
  · intro t0
    rw [length_loggedIn, htimes, List.countP_append]
    by_cases hin : InSecond t0 g.now
    · -- what is in the second counts still
      have hgone0 : (gone ++ pruned).countP (fun t => InSecond t0 t) = 0 := by
        refine List.countP_eq_zero.mpr ?_
        intro t ht hsecond
        have hpassed : t + 1000 ≤ g.now := by
          rcases List.mem_append.mp ht with ht | ht
          · exact hgone t ht
          · exact hold t ht
        have hlate := (decide_eq_true_eq.mp hsecond).1
        have := hin.2
        omega
      have hsplit : timesOf .dequeued g.log = (gone ++ pruned) ++ liveStarts g.now g.starts := by
        rw [hkept]
        nth_rewrite 1 [hpruned]
        rw [List.append_assoc]
      rw [hsplit, List.countP_append, hgone0]
      have hlive := List.countP_le_length (p := fun t => decide (InSecond t0 t))
        (l := liveStarts g.now g.starts)
      simp only [List.countP_singleton]
      split <;> omega
    · have hout : [g.now].countP (fun t => InSecond t0 t) = 0 := by
        simp [hin]
      rw [hout, ← length_loggedIn]
      exact h.windows t0
  · intro x t hx
    rw [hlog] at hx ⊢
    exact List.mem_append_left _ (h.prompt x t (by simpa using hx))
  · intro delay until_ hx
    rw [hlog] at hx
    exact h.limits delay until_ (by simpa using hx)
  · rw [hlog]
    refine h.cooled.concat ?_
    intro x t hentry
    simp at hentry

theorem pruneStarts (h : Paced options g) : Paced options g.pruneStarts :=
  h.forget rfl rfl (Nat.le_refl _) (exists_pruned g.now g.starts)

theorem schedule (h : Paced options g) (delay : Nat) : Paced options (g.schedule delay) := by
  obtain ⟨hstarts, hcooldown, hnow, -⟩ := Timed.schedule_rest g delay
  have hlog : (g.schedule delay).log = g.log := by
    unfold WorkspaceRequestGovernor.schedule
    split <;> rfl
  refine h.forget hlog hcooldown (Nat.le_of_eq hnow.symm) ⟨[], by rw [hstarts]; rfl, ?_⟩
  intro t ht
  simp at ht

theorem drain (h : Paced options g) : Paced options (g.drain options) := by
  unfold WorkspaceRequestGovernor.drain
  split
  · exact h
  · rename_i next rest hqueue
    split
    · exact h
    · split
      · exact h.schedule _
      · rename_i hwarm
        simp only
        split
        · exact h.pruneStarts.schedule _
        · rename_i hopen
          split
          · exact h.pruneStarts
          · have hopen' : ¬options.rateCap ≤ (liveStarts g.now g.starts).length := hopen
            have hleft := h.leave next rest (by omega)
            rw [dequeue_eq]
            split
            · exact hleft.same rfl rfl rfl (Nat.le_refl _)
            · refine hleft.startExternalOperation ?_
              intro _ _
              refine ⟨?_, ?_⟩
              · show _ ∈ g.log ++ [.request next .dequeued g.now]
                simp [WorkspaceRequestGovernor.leave, WorkspaceRequestGovernor.pruneStarts]
              · show g.cooldownUntil ≤ g.now
                omega

theorem advance (h : Paced options g) : Paced options (g.advance options) := by
  unfold WorkspaceRequestGovernor.advance
  split
  · rename_i rest hstack
    have hpop : Paced options { g with stack := rest } := h.same rfl rfl rfl (Nat.le_refl _)
    exact hpop.drain
  · rename_i r rest hstack
    have hpop : Paced options { g with stack := rest } := h.same rfl rfl rfl (Nat.le_refl _)
    exact frame.cancelBeforeDispatch _ r hpop
  · exact h

theorem hookReturns (h : Paced options g) {returned : HookReturn}
    (hprompt : g.Prompt (.hookReturns returned)) : Paced options (g.hookReturns returned) := by
  unfold WorkspaceRequestGovernor.hookReturns
  split
  · rename_i r rest hstack
    have hpop : Paced options { g with stack := rest } := h.same rfl rfl rfl (Nat.le_refl _)
    cases returned with
    | value =>
      refine hpop.startExternalOperation ?_
      intro hstate hlive
      exact hprompt r rest hstack hstate hlive
    | thrown => exact frame.failBeforeDispatch _ r hpop
    | promise => exact hpop.same rfl rfl rfl (Nat.le_refl _)
  · exact h

theorem hookSettles (h : Paced options g) {fulfilled : Bool}
    (hprompt : g.Prompt (.hookSettles r fulfilled)) :
    Paced options (g.hookSettles r fulfilled) := by
  unfold WorkspaceRequestGovernor.hookSettles
  split
  · rename_i hdue
    have hcleared : Paced options (g.modify r ({ · with callback := .nothing })) :=
      h.same rfl rfl rfl (Nat.le_refl _)
    cases fulfilled with
    | true =>
      refine hcleared.startExternalOperation ?_
      intro hstate hlive
      have hself : (g.modify r ({ · with callback := .nothing })).requests r =
          { g.requests r with callback := .nothing } := Function.update_self _ _ _
      unfold signalAborted at hlive
      rw [hself] at hstate hlive
      exact hprompt hdue.1 hdue.2 hstate hlive
    | false => exact frame.failBeforeDispatch _ r hcleared
  · exact h

theorem noteRateLimited (h : Paced options g) (delayMs : Int) :
    Paced options (g.noteRateLimited delayMs) := by
  unfold WorkspaceRequestGovernor.noteRateLimited
  simp only
  generalize (max 0 delayMs).toNat = delay
  generalize hnoted : ({ g with
    cooldownUntil := max g.cooldownUntil (g.now + delay)
    log := g.log ++ [.rateLimited delay (max g.cooldownUntil (g.now + delay))] } :
    WorkspaceRequestGovernor) = noted
  have hpaced : Paced options noted := by
    subst hnoted
    have htimes : timesOf .dequeued
        (g.log ++ [.rateLimited delay (max g.cooldownUntil (g.now + delay))]) =
        timesOf .dequeued g.log := by
      rw [timesOf_append]
      exact List.append_nil _
    refine ⟨?_, h.windows_of_times htimes, ?_, ?_, ?_⟩
    · show ∃ gone, timesOf .dequeued (g.log ++ _) = _ ∧ _
      rw [htimes]
      exact h.kept
    · intro x t hx
      exact List.mem_append_left _ (h.prompt x t (by simpa using hx))
    · intro delay' until_ hx
      rcases List.mem_append.mp hx with hin | hin
      · exact Nat.le_trans (h.limits delay' until_ hin) (Nat.le_max_left _ _)
      · obtain ⟨-, rfl⟩ : delay' = delay ∧ until_ = max g.cooldownUntil (g.now + delay) := by
          simpa using hin
        exact Nat.le_refl _
    · refine h.cooled.concat ?_
      intro x t hentry
      simp at hentry
  split
  · exact hpaced
  · exact hpaced.schedule _

theorem step (h : Paced options g) (s : GovernorStep) (hprompt : g.Prompt s) :
    Paced options (g.step options s) := by
  cases s with
  | run kind signal onDispatch =>
    show Paced options (if g.callable then g.run kind signal onDispatch else g)
    split
    · exact frame.run g kind signal onDispatch h
    · exact h
  | abort signal =>
    show Paced options (if g.callable then g.abort signal else g)
    split
    · exact frame.abort g signal h
    · exact h
  | noteRateLimited delayMs =>
    show Paced options (if g.callable then g.noteRateLimited delayMs else g)
    split
    · exact h.noteRateLimited delayMs
    · exact h
  | wait elapsed => exact h.same rfl rfl rfl (Nat.le_add_right _ _)
  | fireTimer =>
    show Paced options g.fireTimer
    unfold WorkspaceRequestGovernor.fireTimer
    split
    · exact h.same rfl rfl rfl (Nat.le_refl _)
    · exact h
  | advance => exact h.advance
  | chargeReturns charged => exact frame.chargeReturns g charged h
  | hookReturns returned => exact h.hookReturns hprompt
  | operationReturns promised => exact frame.operationReturns g promised h
  | hookSettles r fulfilled => exact h.hookSettles hprompt
  | operationSettles r fulfilled => exact frame.operationSettles g r fulfilled h
  | cleanup r => exact frame.cleanup g r h

end Paced

theorem paced_runGovernor {options : WorkspaceRequestGovernorOptions} {start : Nat}
    {steps : List GovernorStep} (h : PromptRun options start steps) :
    Paced options (runGovernor options start steps) := by
  induction steps using List.reverseRecOn with
  | nil => exact Paced.initial start
  | append_singleton rest s ih =>
    obtain ⟨hrest, hprompt⟩ := Always.concat_iff.mp h
    rw [runGovernor_concat]
    exact (ih hrest).step s hprompt

theorem invoked_once (p : RequestPhase) : p.trace.count .invoked ≤ 1 := by
  cases p <;> simp [RequestPhase.trace]

/-- Each invocation of the second is of a request dequeued in it, and no two are of one. -/
theorem invoked_le_dequeued {options : WorkspaceRequestGovernorOptions}
    {g : WorkspaceRequestGovernor} {phase : Nat → RequestPhase} (h : Paced options g)
    (htracks : Tracks options g phase) (t0 : Nat) :
    (loggedIn .invoked t0 g.log).length ≤ (loggedIn .dequeued t0 g.log).length := by
  have hnodup : (loggedIn .invoked t0 g.log).Nodup := by
    refine List.nodup_iff_count_le_one.mpr ?_
    intro r
    have honce := invoked_once (phase r)
    rw [← htracks.follows.trace r] at honce
    exact Nat.le_trans (count_loggedIn_le .invoked t0 r g.log) honce
  have hsubset : loggedIn .invoked t0 g.log ⊆ loggedIn .dequeued t0 g.log := by
    intro r hr
    obtain ⟨t, hinvoked, ht⟩ := mem_loggedIn.mp hr
    exact mem_loggedIn.mpr ⟨t, h.prompt r t hinvoked, ht⟩
  exact (List.subperm_of_subset hnodup hsubset).length_le

theorem runGovernor_rateLaw (options : WorkspaceRequestGovernorOptions) (start : Nat)
    (steps : List GovernorStep) (h : PromptRun options start steps) :
    RateLaw options (runGovernor options start steps) := by
  have hpaced := paced_runGovernor h
  obtain ⟨phase, htracks, -⟩ := tracks_runGovernor options start steps
  refine ⟨?_, hpaced.cooled⟩
  intro t0
  exact Nat.le_trans (invoked_le_dequeued hpaced htracks t0) (hpaced.windows t0)

def defaultOptions : WorkspaceRequestGovernorOptions :=
  ⟨10, 10, 4, by decide, by decide, by decide⟩

/-- A mutation whose hook resolves at the reading at which it left the queue. -/
def promptHook : List GovernorStep :=
  [.run .mutation none true, .chargeReturns true, .advance, .hookReturns .promise, .advance,
    .hookSettles 0 true]

theorem rateLaw_of_promptHook : RateLaw defaultOptions
    (runGovernor defaultOptions 0 promptHook) := by
  refine runGovernor_rateLaw defaultOptions 0 promptHook ?_
  have hstart : PromptRun defaultOptions 0 [.run .mutation none true, .chargeReturns true, .advance,
      .hookReturns .promise, .advance] :=
    ((((Always.nil.concat trivial).concat trivial).concat trivial).concat trivial).concat trivial
  refine hstart.concat ?_
  intro _ _ _ _
  show JustDequeued _ _
  decide +kernel

/-- A read without a hook, from its call to its end. -/
def wholeRead (r : Nat) : List GovernorStep :=
  [.run .read none false, .chargeReturns true, .advance, .operationReturns true, .advance,
    .operationSettles r true, .cleanup r, .advance]

/-- A mutation leaves the queue at 0 and is authorized at 999; nine reads follow at 999
and one at 1000. -/
def lateAuthorization : List GovernorStep :=
  [.run .mutation none true, .chargeReturns true, .advance, .hookReturns .promise, .advance,
    .wait 999, .hookSettles 0 true, .operationReturns true, .operationSettles 0 true, .cleanup 0,
    .advance] ++
  (List.range' 1 9).flatMap wholeRead ++ [.wait 1] ++ wholeRead 10

/-- The host answers 429 while a mutation awaits its authorization. -/
def throttledAuthorization : List GovernorStep :=
  [.run .mutation none true, .chargeReturns true, .advance, .hookReturns .promise, .advance,
    .noteRateLimited 5000, .hookSettles 0 true]

theorem not_always_rateLaw :
    ¬(∀ t0, (loggedIn .invoked t0 (runGovernor defaultOptions 0 lateAuthorization).log).length ≤
      defaultOptions.rateCap) ∧
    ¬Always AfterCooldown (runGovernor defaultOptions 0 throttledAuthorization).log := by
  constructor
  · intro h
    have hsecond := h 999
    revert hsecond
    decide +kernel
  · intro h
    have hlog : (runGovernor defaultOptions 0 throttledAuthorization).log =
        [.request 0 .dequeued 0, .rateLimited 5000 5000] ++ .request 0 .invoked 0 :: [] := by
      decide +kernel
    have hearly := h _ _ _ hlog 0 0 rfl 5000 5000 (by simp)
    omega

end WorkspaceRequestGovernor

end ClockifyAssistant
