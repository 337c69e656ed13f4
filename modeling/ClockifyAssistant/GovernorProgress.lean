import ClockifyAssistant.GovernorLifecycle

/-!
While requests wait in the governor's queue, a call of `drain` is still to come, a
slot is taken, or the timer is armed no later than the head may start. Each way
in which `drain` returns early leaves one of these.
-/
namespace ClockifyAssistant

open Lib

/-- The starts that still count at `t`. -/
def liveStarts (t : Nat) (starts : List Nat) : List Nat :=
  starts.dropWhile fun start => start + 1000 ≤ t

theorem liveStarts_cons (t start : Nat) (starts : List Nat) :
    liveStarts t (start :: starts) =
      if start + 1000 ≤ t then liveStarts t starts else start :: starts := by
  by_cases h : start + 1000 ≤ t
  · rw [if_pos h]
    exact List.dropWhile_cons_of_pos (by simpa using h)
  · rw [if_neg h]
    exact List.dropWhile_cons_of_neg (by simpa using h)

theorem liveStarts_liveStarts {now t : Nat} (h : now ≤ t) (starts : List Nat) :
    liveStarts t (liveStarts now starts) = liveStarts t starts := by
  induction starts with
  | nil => rfl
  | cons start rest ih =>
    rw [liveStarts_cons now]
    by_cases hnow : start + 1000 ≤ now
    · have ht : start + 1000 ≤ t := Nat.le_trans hnow h
      rw [if_pos hnow, ih, liveStarts_cons t, if_pos ht]
    · rw [if_neg hnow]

theorem length_liveStarts_le (t : Nat) (starts : List Nat) :
    (liveStarts t starts).length ≤ starts.length :=
  (List.dropWhile_sublist _).length_le

theorem length_liveStarts_append (t : Nat) (starts more : List Nat) :
    (liveStarts t starts).length ≤ (liveStarts t (starts ++ more)).length := by
  induction starts with
  | nil => simp [liveStarts]
  | cons start rest ih =>
    rw [List.cons_append, liveStarts_cons, liveStarts_cons]
    by_cases ht : start + 1000 ≤ t
    · rw [if_pos ht, if_pos ht]
      exact ih
    · rw [if_neg ht, if_neg ht]
      simp

theorem head_of_liveStarts_shorter {now t : Nat} {starts : List Nat} {cap : Nat} (h : now ≤ t)
    (hfull : cap ≤ (liveStarts now starts).length) (hopen : (liveStarts t starts).length < cap) :
    (liveStarts now starts).headD 0 + 1000 ≤ t := by
  rw [← liveStarts_liveStarts h] at hopen
  cases hlive : liveStarts now starts with
  | nil =>
    rw [hlive] at hfull hopen
    simp [liveStarts] at hfull hopen
    omega
  | cons first rest =>
    rw [hlive] at hfull hopen
    by_contra hlater
    have hkept : ¬first + 1000 ≤ t := by simpa using hlater
    rw [liveStarts_cons, if_neg hkept] at hopen
    omega

theorem head_live (t : Nat) (starts : List Nat) (hne : liveStarts t starts ≠ []) :
    t < (liveStarts t starts).headD 0 + 1000 := by
  induction starts with
  | nil => exact absurd rfl hne
  | cons start rest ih =>
    rw [liveStarts_cons] at hne ⊢
    by_cases ht : start + 1000 ≤ t
    · rw [if_pos ht] at hne ⊢
      exact ih hne
    · rw [if_neg ht]
      show t < start + 1000
      omega

/-- Once the first of the starts that count has passed, fewer count. -/
theorem length_liveStarts_lt {now t : Nat} {starts : List Nat} (h : now ≤ t)
    (hne : liveStarts now starts ≠ []) (hpassed : (liveStarts now starts).headD 0 + 1000 ≤ t) :
    (liveStarts t starts).length < (liveStarts now starts).length := by
  rw [← liveStarts_liveStarts h]
  cases hlive : liveStarts now starts with
  | nil => exact absurd hlive hne
  | cons first rest =>
    rw [hlive] at hpassed
    have hgone : first + 1000 ≤ t := hpassed
    rw [liveStarts_cons, if_pos hgone, List.length_cons]
    exact Nat.lt_succ_of_le (length_liveStarts_le t rest)

theorem WorkspaceRequestGovernorOptions.rateCap_pos (options : WorkspaceRequestGovernorOptions) :
    0 < options.rateCap :=
  Nat.lt_min.mpr ⟨options.requestsPerSecond_pos, options.burst_pos⟩

namespace WorkspaceRequestGovernor

variable (options : WorkspaceRequestGovernorOptions) (g : WorkspaceRequestGovernor)

/-- Neither the cooldown nor the window keeps the head of the queue back at `t`. -/
def clear (t : Nat) : Prop :=
  g.cooldownUntil ≤ t ∧ (liveStarts t g.starts).length < options.rateCap

/-- The timer is armed, and no later than the head may start. -/
def Armed : Prop :=
  ∃ T, g.timer = some T ∧ ∀ t, g.now ≤ t → g.clear options t → T ≤ t

structure Timed : Prop where
  starts_le : g.starts.length ≤ options.rateCap
  timely : ∀ T, g.timer = some T → ∀ t, g.now < t → g.clear options t → T ≤ t
  roused : .drain ∉ g.stack → g.queue = [] ∨ 0 < g.active ∨ g.Armed options

/-- What a relation has to meet for every path of a request to its end to be in it. -/
structure EndingFrame (R : WorkspaceRequestGovernor → WorkspaceRequestGovernor → Prop) : Prop where
  refl : ∀ g, R g g
  trans : ∀ {g g' g''}, R g g' → R g' g'' → R g g''
  modify : ∀ g r f, R g (g.modify r f)
  requeued : ∀ (g : WorkspaceRequestGovernor) requests nextRequest queue g',
    R { g with requests := requests, nextRequest := nextRequest, queue := queue } g' →
      R g (g'.push .drain)
  push : ∀ g frame, R g (g.push frame)
  pop : ∀ {g : WorkspaceRequestGovernor} {frame rest}, g.stack = frame :: rest → frame ≠ .drain →
    R g { g with stack := rest }
  refundBeforeDispatch : ∀ g r, R g (g.refundBeforeDispatch r)
  settleOnce : ∀ g r outcome, R g (g.settleOnce r outcome)
  releaseActive : ∀ g r, R g (g.releaseActive r)
  abort : ∀ g signal, R g (g.abort signal)

namespace EndingFrame

variable {R : WorkspaceRequestGovernor → WorkspaceRequestGovernor → Prop} (hR : EndingFrame R)
  (g : WorkspaceRequestGovernor)
include hR

theorem ended (r : Nat) (f : GovernedRequest → GovernedRequest) (outcome : RequestOutcome) :
    R g ((((g.modify r f).refundBeforeDispatch r).settleOnce r outcome).releaseActive r) :=
  hR.trans (hR.trans (hR.trans (hR.modify g r f) (hR.refundBeforeDispatch _ r))
    (hR.settleOnce _ r outcome)) (hR.releaseActive _ r)

theorem cancelBeforeDispatch (r : Nat) : R g (g.cancelBeforeDispatch r) := by
  unfold WorkspaceRequestGovernor.cancelBeforeDispatch
  split
  · exact hR.requeued g _ _ _ _ (hR.trans (hR.refundBeforeDispatch _ r) (hR.settleOnce _ r _))
  · exact hR.ended g r _ _
  · exact hR.refl g
  · exact hR.refl g
  · exact hR.refl g

theorem failBeforeDispatch (r : Nat) : R g (g.failBeforeDispatch r) := by
  unfold WorkspaceRequestGovernor.failBeforeDispatch
  split
  · exact hR.releaseActive g r
  · exact hR.ended g r _ _

theorem enqueue (kind : HostRequestKind) (signal : Option Nat) (onDispatch : Bool) :
    R g (g.enqueue kind signal onDispatch) := by
  have hadded : R g (({ g with
      requests := Function.update g.requests g.nextRequest (.fresh kind signal onDispatch)
      nextRequest := g.nextRequest + 1
      queue := g.queue ++ [g.nextRequest] }).push .drain) :=
    hR.requeued g _ _ _ _ (hR.refl _)
  unfold WorkspaceRequestGovernor.enqueue
  simp only
  split
  · exact hR.trans hadded (hR.cancelBeforeDispatch _ _)
  · exact hadded

theorem chargeReturns (charged : Bool) : R g (g.chargeReturns charged) := by
  unfold WorkspaceRequestGovernor.chargeReturns
  split
  · rename_i kind signal onDispatch rest hstack
    have hpop := hR.pop hstack (by simp)
    cases charged with
    | true => exact hR.trans hpop (hR.enqueue _ _ _ _)
    | false => exact hpop
  · exact hR.refl g

theorem operationReturns (promised : Bool) : R g (g.operationReturns promised) := by
  unfold WorkspaceRequestGovernor.operationReturns
  split
  · rename_i r rest hstack
    have hpop := hR.pop hstack (by simp)
    cases promised with
    | true =>
      simp only [if_true]
      exact hR.trans hpop (hR.modify _ r _)
    | false =>
      simp only [Bool.false_eq_true, if_false]
      exact hR.trans hpop (hR.trans (hR.trans (hR.modify _ r _) (hR.settleOnce _ r _))
        (hR.releaseActive _ r))
  · exact hR.refl g

theorem operationSettles (r : Nat) (fulfilled : Bool) : R g (g.operationSettles r fulfilled) := by
  unfold WorkspaceRequestGovernor.operationSettles
  split
  · exact hR.trans (hR.modify g r _) (hR.settleOnce _ r _)
  · exact hR.refl g

theorem cleanup (r : Nat) : R g (g.cleanup r) := by
  unfold WorkspaceRequestGovernor.cleanup
  split
  · exact hR.trans (hR.modify g r _) (hR.releaseActive _ r)
  · exact hR.refl g

theorem run (kind : HostRequestKind) (signal : Option Nat) (onDispatch : Bool) :
    R g (g.run kind signal onDispatch) := by
  unfold WorkspaceRequestGovernor.run
  split
  · exact hR.refl g
  · exact hR.push g _

end EndingFrame

/-- What a step does that neither looks at the clock nor forgets to call `drain`. -/
structure Quiet (g g' : WorkspaceRequestGovernor) : Prop where
  starts : g'.starts = g.starts
  timer : g'.timer = g.timer
  cooldownUntil : g'.cooldownUntil = g.cooldownUntil
  now : g'.now = g.now
  drain : .drain ∈ g.stack → .drain ∈ g'.stack
  calls : .drain ∈ g'.stack ∨ (g'.queue = g.queue ∧ g'.active = g.active)

namespace Quiet

variable {g g' g'' : WorkspaceRequestGovernor}

theorem refl (g : WorkspaceRequestGovernor) : Quiet g g :=
  ⟨rfl, rfl, rfl, rfl, id, .inr ⟨rfl, rfl⟩⟩

theorem trans (h : Quiet g g') (h' : Quiet g' g'') : Quiet g g'' := by
  refine ⟨h'.starts.trans h.starts, h'.timer.trans h.timer,
    h'.cooldownUntil.trans h.cooldownUntil, h'.now.trans h.now, fun hd => h'.drain (h.drain hd), ?_⟩
  rcases h'.calls with hd | ⟨hqueue, hactive⟩
  · exact .inl hd
  · rcases h.calls with hd | ⟨hqueue', hactive'⟩
    · exact .inl (h'.drain hd)
    · exact .inr ⟨hqueue.trans hqueue', hactive.trans hactive'⟩

theorem pop {frame : GovernorFrame} {rest : List GovernorFrame} (hstack : g.stack = frame :: rest)
    (hframe : frame ≠ .drain) : Quiet g { g with stack := rest } := by
  refine ⟨rfl, rfl, rfl, rfl, ?_, .inr ⟨rfl, rfl⟩⟩
  intro hd
  rw [hstack] at hd
  rcases List.mem_cons.mp hd with heq | hin
  · exact absurd heq.symm hframe
  · exact hin

theorem frame : EndingFrame Quiet where
  refl := refl
  trans := trans
  modify g r f := ⟨rfl, rfl, rfl, rfl, id, .inr ⟨rfl, rfl⟩⟩
  requeued g requests nextRequest queue g' h :=
    ⟨h.starts, h.timer, h.cooldownUntil, h.now, fun hd => List.mem_cons_of_mem _ (h.drain hd),
      .inl (List.mem_cons_self ..)⟩
  push g frame := ⟨rfl, rfl, rfl, rfl, List.mem_cons_of_mem _, .inr ⟨rfl, rfl⟩⟩
  pop := pop
  refundBeforeDispatch g r := by
    unfold WorkspaceRequestGovernor.refundBeforeDispatch
    split
    · exact refl g
    · exact ⟨rfl, rfl, rfl, rfl, id, .inr ⟨rfl, rfl⟩⟩
  settleOnce g r outcome := by
    unfold WorkspaceRequestGovernor.settleOnce
    split
    · exact refl g
    · exact ⟨rfl, rfl, rfl, rfl, id, .inr ⟨rfl, rfl⟩⟩
  releaseActive g r := by
    unfold WorkspaceRequestGovernor.releaseActive
    split
    · exact refl g
    · exact ⟨rfl, rfl, rfl, rfl, List.mem_cons_of_mem _, .inl (List.mem_cons_self ..)⟩
  abort g signal := by
    unfold WorkspaceRequestGovernor.abort
    split
    · exact refl g
    · exact ⟨rfl, rfl, rfl, rfl, List.mem_append_right _, .inr ⟨rfl, rfl⟩⟩

theorem startExternalOperation (g : WorkspaceRequestGovernor) (r : Nat) :
    Quiet g (g.startExternalOperation r) := by
  unfold WorkspaceRequestGovernor.startExternalOperation
  split
  · exact frame.releaseActive g r
  · split
    · exact (frame.cancelBeforeDispatch g r).trans (frame.releaseActive _ r)
    · exact ⟨rfl, rfl, rfl, rfl, List.mem_cons_of_mem _, .inr ⟨rfl, rfl⟩⟩

theorem hookReturns (g : WorkspaceRequestGovernor) (returned : HookReturn) :
    Quiet g (g.hookReturns returned) := by
  unfold WorkspaceRequestGovernor.hookReturns
  split
  · rename_i r rest hstack
    have hpop := pop hstack (by simp)
    cases returned with
    | value => exact hpop.trans (startExternalOperation _ r)
    | thrown => exact hpop.trans (frame.failBeforeDispatch _ r)
    | promise => exact hpop.trans (frame.modify _ r _)
  · exact refl g

theorem hookSettles (g : WorkspaceRequestGovernor) (r : Nat) (fulfilled : Bool) :
    Quiet g (g.hookSettles r fulfilled) := by
  unfold WorkspaceRequestGovernor.hookSettles
  split
  · cases fulfilled with
    | true => exact (frame.modify g r _).trans (startExternalOperation _ r)
    | false => exact (frame.modify g r _).trans (frame.failBeforeDispatch _ r)
  · exact refl g

end Quiet

namespace Timed

variable {options} {g g' : WorkspaceRequestGovernor} {phase : Nat → RequestPhase}

theorem initial (start : Nat) : Timed options (createWorkspaceRequestGovernor start) := by
  refine ⟨by simp [createWorkspaceRequestGovernor], ?_, fun _ => .inl rfl⟩
  intro T hT
  simp [createWorkspaceRequestGovernor] at hT

theorem clear_congr (hstarts : g'.starts = g.starts)
    (hcooldown : g'.cooldownUntil = g.cooldownUntil) {t : Nat} :
    g'.clear options t ↔ g.clear options t := by
  unfold clear
  rw [hstarts, hcooldown]

theorem quiet (h : Timed options g) (hquiet : Quiet g g') : Timed options g' := by
  refine ⟨by rw [hquiet.starts]; exact h.starts_le, ?_, ?_⟩
  · intro T hT t ht hclear
    rw [hquiet.timer] at hT
    rw [hquiet.now] at ht
    rw [clear_congr hquiet.starts hquiet.cooldownUntil] at hclear
    exact h.timely T hT t ht hclear
  · intro hnone
    rcases hquiet.calls with hd | ⟨hqueue, hactive⟩
    · exact absurd hd hnone
    · rw [hqueue, hactive]
      rcases h.roused (fun hd => hnone (hquiet.drain hd)) with hempty | hpos | harmed
      · exact .inl hempty
      · exact .inr (.inl hpos)
      · obtain ⟨T, hT, hle⟩ := harmed
        refine .inr (.inr ⟨T, by rw [hquiet.timer, hT], ?_⟩)
        intro t ht hclear
        rw [hquiet.now] at ht
        rw [clear_congr hquiet.starts hquiet.cooldownUntil] at hclear
        exact hle t ht hclear

/-- A timer armed because the head is kept back at this moment is in time. -/
theorem armed_of_kept (h : ∀ T, g.timer = some T → ∀ t, g.now < t → g.clear options t → T ≤ t)
    (hkept : ¬g.clear options g.now) (hset : g.timer ≠ none) : g.Armed options := by
  obtain ⟨T, hT⟩ := Option.ne_none_iff_exists'.mp hset
  refine ⟨T, hT, ?_⟩
  intro t ht hclear
  have hne : g.now ≠ t := by
    intro heq
    exact hkept (heq ▸ hclear)
  exact h T hT t (by omega) hclear

theorem schedule_timer (g : WorkspaceRequestGovernor) (delay : Nat) :
    (g.schedule delay).timer = some ((g.timer).getD (g.now + max 1 delay)) := by
  unfold WorkspaceRequestGovernor.schedule
  cases htimer : g.timer with
  | none => rfl
  | some T => simp [htimer]

theorem schedule_rest (g : WorkspaceRequestGovernor) (delay : Nat) :
    (g.schedule delay).starts = g.starts ∧ (g.schedule delay).cooldownUntil = g.cooldownUntil ∧
      (g.schedule delay).now = g.now ∧ (g.schedule delay).stack = g.stack ∧
      (g.schedule delay).queue = g.queue ∧ (g.schedule delay).active = g.active := by
  unfold WorkspaceRequestGovernor.schedule
  split <;> exact ⟨rfl, rfl, rfl, rfl, rfl, rfl⟩

theorem schedule_timely (h : ∀ T, g.timer = some T → ∀ t, g.now < t → g.clear options t → T ≤ t)
    (delay : Nat) (hdelay : ∀ t, g.now < t → g.clear options t → g.now + max 1 delay ≤ t) :
    ∀ T, (g.schedule delay).timer = some T → ∀ t, (g.schedule delay).now < t →
      (g.schedule delay).clear options t → T ≤ t := by
  obtain ⟨hstarts, hcooldown, hnow, -⟩ := schedule_rest g delay
  intro T hT t ht hclear
  rw [hnow] at ht
  rw [clear_congr hstarts hcooldown] at hclear
  rw [schedule_timer] at hT
  cases htimer : g.timer with
  | none =>
    rw [htimer, Option.getD_none] at hT
    rw [← Option.some.inj hT]
    exact hdelay t ht hclear
  | some T' =>
    rw [htimer, Option.getD_some] at hT
    rw [← Option.some.inj hT]
    exact h T' htimer t ht hclear

/-- The three things `drain` needs besides the call itself. -/
structure Ready (options : WorkspaceRequestGovernorOptions) (g : WorkspaceRequestGovernor) :
    Prop where
  starts_le : g.starts.length ≤ options.rateCap
  timely : ∀ T, g.timer = some T → ∀ t, g.now < t → g.clear options t → T ≤ t
  mutation : g.mutationActive = true → 0 < g.active

theorem ready_of_tracks (h : Timed options g) (htracks : Tracks options g phase) :
    Ready options g := by
  refine ⟨h.starts_le, h.timely, ?_⟩
  intro hmutation
  obtain ⟨r, hr, -⟩ := htracks.slotted.mutation.mp hmutation
  rw [htracks.slotted.active]
  exact Finset.card_pos.mpr ⟨r, hr⟩

theorem pruneStarts_clear (g : WorkspaceRequestGovernor) {t : Nat} (ht : g.now ≤ t) :
    g.pruneStarts.clear options t ↔ g.clear options t := by
  show _ ∧ (liveStarts t (liveStarts g.now g.starts)).length < _ ↔ _
  rw [liveStarts_liveStarts ht]
  exact Iff.rfl

theorem leave_timed (h : Ready options g) (r : Nat) (rest : List Nat)
    (hopen : (liveStarts g.now g.starts).length < options.rateCap) :
    Timed options (g.pruneStarts.leave r rest) := by
  refine ⟨?_, ?_, ?_⟩
  · show (liveStarts g.now g.starts ++ [g.now]).length ≤ _
    rw [List.length_append, List.length_singleton]
    omega
  · intro T hT t ht hclear
    have ht' : g.now < t := ht
    refine h.timely T hT t ht' ⟨hclear.1, ?_⟩
    have hnarrow : (liveStarts t (liveStarts g.now g.starts ++ [g.now])).length <
        options.rateCap := hclear.2
    have hle := length_liveStarts_append t (liveStarts g.now g.starts) [g.now]
    rw [liveStarts_liveStarts (Nat.le_of_lt ht')] at hle
    omega
  · intro hnone
    exact absurd (List.mem_cons_self ..) hnone

theorem dequeue_timed (h : Ready options g) (r : Nat) (rest : List Nat)
    (hopen : (liveStarts g.now g.starts).length < options.rateCap) :
    Timed options (g.pruneStarts.dequeue r rest) := by
  have hleft := leave_timed h r rest hopen
  rw [dequeue_eq]
  split
  · exact hleft.quiet (Quiet.frame.push _ _)
  · exact hleft.quiet (Quiet.startExternalOperation _ _)

theorem drain (h : Ready options g) : Timed options (g.drain options) := by
  unfold WorkspaceRequestGovernor.drain
  split
  · rename_i hempty
    exact ⟨h.starts_le, h.timely, fun _ => .inl hempty⟩
  · rename_i next rest hqueue
    split
    · rename_i hfull
      have hpos := options.concurrency_pos
      exact ⟨h.starts_le, h.timely, fun _ => .inr (.inl (by omega))⟩
    · split
      · -- the cooldown keeps the head back until its end
        rename_i hcooling
        obtain ⟨hstarts, hcooldown, hnow, -⟩ := schedule_rest g (g.cooldownUntil - g.now)
        have htimely := schedule_timely h.timely (g.cooldownUntil - g.now) (by
          intro t ht hclear
          have := hclear.1
          omega)
        refine ⟨by rw [hstarts]; exact h.starts_le, htimely, fun _ => .inr (.inr ?_)⟩
        refine armed_of_kept htimely ?_ (by rw [schedule_timer]; simp)
        rw [clear_congr hstarts hcooldown, hnow]
        intro hclear
        have := hclear.1
        omega
      · simp only
        split
        · -- the window keeps the head back until its first start stops counting
          rename_i hfull
          have hfull' : options.rateCap ≤ (liveStarts g.now g.starts).length := hfull
          have hpruned : ∀ T, g.pruneStarts.timer = some T → ∀ t, g.pruneStarts.now < t →
              g.pruneStarts.clear options t → T ≤ t := by
            intro T hT t ht hclear
            exact h.timely T hT t ht ((pruneStarts_clear g (Nat.le_of_lt ht)).mp hclear)
          obtain ⟨hstarts, hcooldown, hnow, -⟩ :=
            schedule_rest g.pruneStarts (g.pruneStarts.starts.headD 0 + 1000 - g.now)
          have htimely := schedule_timely hpruned
            (g.pruneStarts.starts.headD 0 + 1000 - g.now) (by
              intro t ht hclear
              have ht' : g.now < t := ht
              have hopen : (liveStarts t g.starts).length < options.rateCap :=
                ((pruneStarts_clear g (Nat.le_of_lt ht)).mp hclear).2
              have hhead := head_of_liveStarts_shorter (Nat.le_of_lt ht') hfull' hopen
              have hhead' : g.pruneStarts.starts.headD 0 + 1000 ≤ t := hhead
              show g.now + max 1 _ ≤ t
              omega)
          refine ⟨?_, htimely, fun _ => .inr (.inr ?_)⟩
          · rw [hstarts]
            exact Nat.le_trans (length_liveStarts_le _ _) h.starts_le
          · refine armed_of_kept htimely ?_ (by rw [schedule_timer]; simp)
            rw [clear_congr hstarts hcooldown, hnow]
            intro hclear
            have hopen : (liveStarts g.now g.starts).length < options.rateCap :=
              ((pruneStarts_clear g (Nat.le_refl _)).mp hclear).2
            omega
        · rename_i hopen
          split
          · rename_i hmutation
            refine ⟨Nat.le_trans (length_liveStarts_le _ _) h.starts_le, ?_,
              fun _ => .inr (.inl (h.mutation hmutation.2))⟩
            intro T hT t ht hclear
            exact h.timely T hT t ht ((pruneStarts_clear g (Nat.le_of_lt ht)).mp hclear)
          · have hopen' : ¬options.rateCap ≤ (liveStarts g.now g.starts).length := hopen
            exact dequeue_timed h next rest (by omega)

theorem advance (h : Timed options g) (htracks : Tracks options g phase) :
    Timed options (g.advance options) := by
  unfold WorkspaceRequestGovernor.advance
  split
  · have hready := h.ready_of_tracks htracks
    exact drain ⟨hready.starts_le, hready.timely, hready.mutation⟩
  · rename_i r rest hstack
    exact h.quiet ((Quiet.pop hstack (by simp)).trans (Quiet.frame.cancelBeforeDispatch _ r))
  · exact h

theorem noteRateLimited (h : Timed options g) (delayMs : Int) :
    Timed options (g.noteRateLimited delayMs) := by
  unfold WorkspaceRequestGovernor.noteRateLimited
  simp only
  generalize hnoted : ({ g with
    cooldownUntil := max g.cooldownUntil (g.now + (max 0 delayMs).toNat)
    log := g.log ++ [.rateLimited (max 0 delayMs).toNat
      (max g.cooldownUntil (g.now + (max 0 delayMs).toNat))] } : WorkspaceRequestGovernor) = noted
  have hraised : ∀ t, noted.clear options t → g.clear options t := by
    intro t hclear
    subst hnoted
    exact ⟨Nat.le_trans (Nat.le_max_left _ _) hclear.1, hclear.2⟩
  have hsame : noted.starts = g.starts ∧ noted.timer = g.timer ∧ noted.now = g.now ∧
      noted.stack = g.stack ∧ noted.queue = g.queue ∧ noted.active = g.active ∧
      noted.cooldownUntil = max g.cooldownUntil (g.now + (max 0 delayMs).toNat) := by
    subst hnoted
    exact ⟨rfl, rfl, rfl, rfl, rfl, rfl, rfl⟩
  obtain ⟨hstarts, htimer, hnow, hstack, hqueue, hactive, hcooldown⟩ := hsame
  have htimed : Timed options noted := by
    refine ⟨by rw [hstarts]; exact h.starts_le, ?_, ?_⟩
    · intro T hT t ht hclear
      exact h.timely T (by rw [← htimer, hT]) t (by omega) (hraised t hclear)
    · intro hnone
      rw [hqueue, hactive]
      rcases h.roused (by rw [← hstack]; exact hnone) with hempty | hpos | harmed
      · exact .inl hempty
      · exact .inr (.inl hpos)
      · obtain ⟨T, hT, hle⟩ := harmed
        refine .inr (.inr ⟨T, by rw [htimer, hT], ?_⟩)
        intro t ht hclear
        exact hle t (by omega) (hraised t hclear)
  split
  · exact htimed
  · obtain ⟨hstarts', hcooldown', hnow', hstack', hqueue', hactive'⟩ := schedule_rest noted
      (max g.cooldownUntil (g.now + (max 0 delayMs).toNat) - g.now)
    have htimely := schedule_timely htimed.timely
      (max g.cooldownUntil (g.now + (max 0 delayMs).toNat) - g.now) (by
        intro t ht hclear
        have hend := hclear.1
        rw [hcooldown] at hend
        omega)
    refine ⟨by rw [hstarts']; exact htimed.starts_le, htimely, ?_⟩
    intro hnone
    rw [hqueue', hactive']
    rcases htimed.roused (by rw [← hstack']; exact hnone) with hempty | hpos | harmed
    · exact .inl hempty
    · exact .inr (.inl hpos)
    · obtain ⟨T, hT, hle⟩ := harmed
      refine .inr (.inr ⟨T, by rw [schedule_timer, hT]; rfl, ?_⟩)
      intro t ht hclear
      rw [hnow'] at ht
      rw [clear_congr hstarts' hcooldown'] at hclear
      exact hle t ht hclear

theorem wait (h : Timed options g) (elapsed : Nat) :
    Timed options { g with now := g.now + elapsed } := by
  refine ⟨h.starts_le, ?_, ?_⟩
  · intro T hT t ht hclear
    have ht' : g.now + elapsed < t := ht
    exact h.timely T hT t (by omega) hclear
  · intro hnone
    rcases h.roused hnone with hempty | hpos | harmed
    · exact .inl hempty
    · exact .inr (.inl hpos)
    · obtain ⟨T, hT, hle⟩ := harmed
      refine .inr (.inr ⟨T, hT, ?_⟩)
      intro t ht hclear
      have ht' : g.now + elapsed ≤ t := ht
      exact hle t (by omega) hclear

theorem fireTimer (h : Timed options g) : Timed options g.fireTimer := by
  unfold WorkspaceRequestGovernor.fireTimer
  split
  · refine ⟨h.starts_le, ?_, fun hnone => absurd (List.mem_cons_self ..) hnone⟩
    intro T hT
    simp [WorkspaceRequestGovernor.push] at hT
  · exact h

theorem step (h : Timed options g) (htracks : Tracks options g phase) (s : GovernorStep) :
    Timed options (g.step options s) := by
  cases s with
  | run kind signal onDispatch =>
    show Timed options (if g.callable then g.run kind signal onDispatch else g)
    split
    · exact h.quiet (Quiet.frame.run g kind signal onDispatch)
    · exact h
  | abort signal =>
    show Timed options (if g.callable then g.abort signal else g)
    split
    · exact h.quiet (Quiet.frame.abort g signal)
    · exact h
  | noteRateLimited delayMs =>
    show Timed options (if g.callable then g.noteRateLimited delayMs else g)
    split
    · exact h.noteRateLimited delayMs
    · exact h
  | wait elapsed => exact h.wait elapsed
  | fireTimer => exact h.fireTimer
  | advance => exact h.advance htracks
  | chargeReturns charged => exact h.quiet (Quiet.frame.chargeReturns g charged)
  | hookReturns returned => exact h.quiet (Quiet.hookReturns g returned)
  | operationReturns promised => exact h.quiet (Quiet.frame.operationReturns g promised)
  | hookSettles r fulfilled => exact h.quiet (Quiet.hookSettles g r fulfilled)
  | operationSettles r fulfilled => exact h.quiet (Quiet.frame.operationSettles g r fulfilled)
  | cleanup r => exact h.quiet (Quiet.frame.cleanup g r)

end Timed

/-- What every step keeps of a governor. -/
structure Sound (g : WorkspaceRequestGovernor) : Prop where
  tracked : ∃ phase, Tracks options g phase ∧ Rests phase
  timed : Timed options g

theorem Sound.step {options : WorkspaceRequestGovernorOptions} {g : WorkspaceRequestGovernor}
    (h : Sound options g) (s : GovernorStep) : Sound options (g.step options s) := by
  obtain ⟨phase, htracks, hrests⟩ := h.tracked
  exact ⟨htracks.step hrests s, h.timed.step htracks s⟩

theorem sound_runGovernor (start : Nat) (steps : List GovernorStep) :
    Sound options (runGovernor options start steps) := by
  induction steps using List.reverseRecOn with
  | nil => exact ⟨⟨_, Tracks.initial start, fun _ => rfl⟩, Timed.initial start⟩
  | append_singleton rest s ih =>
    rw [runGovernor_concat]
    exact ih.step s

end WorkspaceRequestGovernor

end ClockifyAssistant
