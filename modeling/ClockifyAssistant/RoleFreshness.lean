import Mathlib.Data.List.Induction
import ClockifyAssistant.RecheckInvariant

/-!
Freshness of role verdicts over every run of the rechecker: where each verdict
`admin` comes from, and that none outlives a demotion that the host has reported.
-/
namespace ClockifyAssistant

open Lib

section Verdicts

/-- A check returns `admin` when it is served from the cache or by a read that completes so. -/
def RoleSource.ReturnsAdmin (log : List RoleEvent) : RoleSource → Prop
  | .cached => True
  | .read id => ∃ t, .completed id .admin t ∈ log

/-- What stands behind the verdict `admin` of a check that was made after `before`. -/
structure FreshAdmin (ttlMs : Int) (before log : List RoleEvent) (subject : RoleSubject)
    (force : Bool) (source : RoleSource) (now : Time) : Prop where
  /-- A forced check has it from the read that it issued itself. -/
  forced : force = true → ∃ earlier read t, before = earlier ++ [.issued read subject true] ∧
    source = .read read ∧ CompletedLatest log read subject t
  /-- Any other has it from a read that has completed in time or is still to complete. -/
  shared : force = false →
    (∃ read t, .completed read .admin t ∈ before ∧ CompletedLatest log read subject t ∧
        t ≤ now ∧ now ≤ t + positiveTtl ttlMs) ∨
      ∃ read t, source = .read read ∧ (∀ verdict t', .completed read verdict t' ∉ before) ∧
        CompletedLatest log read subject t
  /-- The latest read of the key has not completed with anything else. -/
  undemoted : ∀ read verdict t, LatestRead subject.key before read →
    .completed read verdict t ∈ before → verdict = .admin

end Verdicts

section Runs

variable {ttlMs : Int} {s : RecheckState} {subject : RoleSubject} {force : Bool}

/-- What was known of the source of a verdict when it was returned. -/
structure ReturnedFrom (ttlMs : Int) (before : List RoleEvent) (subject : RoleSubject)
    (force : Bool) (source : RoleSource) (now : Time) : Prop where
  forced : force = true → ∃ earlier read, before = earlier ++ [.issued read subject true] ∧
    source = .read read
  cached : source = .cached → ∃ read t, LatestRead subject.key before read ∧
    CompletedLatest before read subject t ∧ t ≤ now ∧ now ≤ t + positiveTtl ttlMs
  issued : ∀ read, source = .read read → ∃ force', .issued read subject force' ∈ before
  timely : ∀ read t, source = .read read → .completed read .admin t ∈ before →
    t ≤ now ∧ now ≤ t + positiveTtl ttlMs
  /-- A read that has completed is shared only until a newer one completes. -/
  undemoted : ∀ read t, source = .read read → .completed read .admin t ∈ before →
    ∀ newer verdict t', LatestRead subject.key before newer →
      .completed newer verdict t' ∈ before → newer = read

/-- No two subjects that are checked share a key. -/
def Separated (subject : RoleSubject) (log : List RoleEvent) : Prop :=
  ∀ read subject' force, .issued read subject' force ∈ log → subject'.key = subject.key →
    subject' = subject

/-- A check joins a read that has completed as admin only while the verdict may live. -/
def JoinsInTime (ttlMs : Int) (s : RecheckState) (subject : RoleSubject) (force : Bool) : Prop :=
  ∀ read t, s.joins subject force = some read → .completed read .admin t ∈ s.log →
    s.now ≤ t + positiveTtl ttlMs

/-- Every verdict returned so far came from where it should. -/
def SoundLog (ttlMs : Int) (log : List RoleEvent) : Prop :=
  Always (fun before e => ∀ subject force source t, e = .returned subject force source t →
    ReturnedFrom ttlMs before subject force source t) log

theorem SoundLog.other {log : List RoleEvent} (h : SoundLog ttlMs log) {e : RoleEvent}
    (he : ∀ subject force source t, e ≠ .returned subject force source t) :
    SoundLog ttlMs (log ++ [e]) :=
  h.concat fun subject force source t heq => absurd heq (he subject force source t)

theorem SoundLog.returns (h : SoundLog ttlMs s.log) {source : RoleSource}
    (hsource : ReturnedFrom ttlMs s.log subject force source s.now) :
    SoundLog ttlMs (s.returns subject force source).log := by
  refine h.concat fun subject' force' source' t heq => ?_
  injection heq with hsubject hforce hsource' ht
  rw [← hsubject, ← hforce, ← hsource', ← ht]
  exact hsource

/-- The cached verdict is the verdict of the latest read of the key. -/
theorem returnedFrom_cached (h : RecheckInv ttlMs s) (hserves : s.servesCached subject force = true)
    (hseparated : Separated subject s.log) :
    ReturnedFrom ttlMs s.log subject force .cached s.now := by
  unfold RecheckState.servesCached at hserves
  rw [Bool.and_eq_true, Bool.not_eq_true', Option.any_eq_true] at hserves
  obtain ⟨hforce, expiry, hexpiry, hnow⟩ := hserves
  have hlt : s.now < expiry := by simpa using hnow
  obtain ⟨read, subject', t, hkey, hlatest, hdone, heq⟩ := h.cache subject.key expiry hexpiry
  obtain ⟨force', hissued⟩ := hdone.issued
  obtain rfl := hseparated read subject' force' hissued hkey
  refine ⟨fun hyes => ?_, fun _ => ⟨read, t, hlatest, hdone, ?_, ?_⟩, by simp, by simp, by simp⟩
  · rw [hforce] at hyes
    exact absurd hyes (by simp)
  · exact h.completions.past read .admin t hdone.mem
  · rw [heq] at hlt
    exact hlt.le

/-- A shared read that has completed is the latest of its key as long as no newer one has. -/
theorem returnedFrom_joined (h : RecheckInv ttlMs s) {read : Nat}
    (hflight : s.nonForcedInFlight subject.key = some read) (hforce : force = false)
    (hintime : ∀ t, .completed read .admin t ∈ s.log → s.now ≤ t + positiveTtl ttlMs)
    (hseparated : Separated subject s.log) :
    ReturnedFrom ttlMs s.log subject force (.read read) s.now := by
  obtain ⟨r, hr, hkey, _⟩ := h.shares.inFlight subject.key read hflight
  have hissued := h.issues.issued read r hr
  have hsubject : r.subject = subject := hseparated read _ _ hissued hkey
  refine ⟨fun hyes => ?_, by simp, ?_, ?_, ?_⟩
  · rw [hforce] at hyes
    exact absurd hyes (by simp)
  · rintro _ ⟨⟩
    rw [hsubject] at hissued
    exact ⟨r.force, hissued⟩
  · rintro _ t ⟨⟩ hdone
    exact ⟨h.completions.past read .admin t hdone, hintime t hdone⟩
  · rintro _ t ⟨⟩ hdone newer verdict t' hlatest hcomplete
    obtain ⟨⟨r', hr', hkey'⟩, hle⟩ := h.issues.latestRead_iff.mp hlatest
    have hnewer := hle read r hr hkey
    by_contra hne
    have hlt : read < newer := by omega
    exact h.shares.waiting subject.key read newer verdict t' ⟨hflight, t, hdone⟩
      ⟨hlt, r', hr', hkey'⟩ hcomplete

/-- A read that a check issues has not completed when the check returns it. -/
theorem returnedFrom_issued (h : RecheckInv ttlMs (s.issue subject force))
    (hawaiting : s.phase s.nextRead = .awaiting) :
    ReturnedFrom ttlMs (s.issue subject force).log subject force (.read s.nextRead) s.now := by
  have hincomplete : ∀ verdict t, .completed s.nextRead verdict t ∉ (s.issue subject force).log := by
    intro verdict t hmem
    have hdone := h.completions.done _ verdict t hmem
    have hphase : (s.issue subject force).phase s.nextRead = .awaiting := hawaiting
    rw [hphase] at hdone
    exact absurd hdone (by simp)
  refine ⟨fun hforce => ?_, by simp, ?_, ?_, ?_⟩
  · rw [hforce]
    exact ⟨s.log, s.nextRead, rfl, rfl⟩
  · rintro _ ⟨⟩
    exact ⟨force, mem_issue_log.mpr (.inr rfl)⟩
  · rintro _ t ⟨⟩ hdone
    exact absurd hdone (hincomplete _ t)
  · rintro _ t ⟨⟩ hdone
    exact absurd hdone (hincomplete _ t)

theorem RecheckInv.check (h : RecheckInv ttlMs s) (hlog : SoundLog ttlMs s.log)
    (hseparated : Separated subject s.log) (hintime : JoinsInTime ttlMs s subject force) :
    RecheckInv ttlMs (s.check subject force) ∧ SoundLog ttlMs (s.check subject force).log := by
  unfold RecheckState.check
  by_cases hserves : s.servesCached subject force = true
  · rw [if_pos hserves]
    exact ⟨h.returns subject force .cached, hlog.returns (returnedFrom_cached h hserves hseparated)⟩
  rw [if_neg hserves]
  have hdropped := h.dropCache subject.key
  cases hflight : (if force then none else s.nonForcedInFlight subject.key) with
  | some existing =>
    have hforce : force = false := by
      cases force with
      | false => rfl
      | true => simp at hflight
    subst hforce
    have hexisting : s.nonForcedInFlight subject.key = some existing := by
      simpa using hflight
    have hjoins : s.joins subject false = some existing := by
      unfold RecheckState.joins
      rw [if_neg (by simpa using hserves), hexisting]
    refine ⟨hdropped.returns subject false (.read existing), SoundLog.returns hlog ?_⟩
    exact returnedFrom_joined hdropped hexisting rfl
      (fun t hdone => hintime existing t hjoins hdone) hseparated
  | none =>
    have hissue := hdropped.issue subject force (by simp) fun hforce => by
      simpa [hforce] using hflight
    have hawaiting : s.phase s.nextRead = .awaiting := by
      by_contra hne
      have hsome := h.completions.started _ hne
      rw [h.issues.unread] at hsome
      exact absurd hsome (by simp)
    refine ⟨hissue.returns subject force (.read s.nextRead), SoundLog.returns ?_ ?_⟩
    · exact hlog.other (by simp)
    · exact returnedFrom_issued hissue hawaiting

theorem runJob_log (ttlMs : Int) (s : RecheckState) : (s.runJob ttlMs).log = s.log ∨
    ∃ read verdict t, (s.runJob ttlMs).log = s.log ++ [.completed read verdict t] := by
  unfold RecheckState.runJob
  split
  · exact .inl rfl
  · unfold RecheckState.resume
    split
    · split
      · exact .inr ⟨_, _, _, rfl⟩
      · exact .inl rfl
    · exact .inl rfl
  · unfold RecheckState.cleanup
    split
    · split
      · exact .inl rfl
      · exact .inl rfl
    · exact .inl rfl

theorem answer_log (s : RecheckState) (read : Nat) (outcome : Option HostRole) :
    (s.answer read outcome).log = s.log := by
  unfold RecheckState.answer
  split
  · rfl
  · rfl

/-- What a step needs: a check joins no verdict that has outlived the time allowed, and is for the
same subject as every earlier check of its key. -/
def RecheckStep.Sound (ttlMs : Int) (s : RecheckState) : RecheckStep → Prop
  | .check subject force => Separated subject s.log ∧ JoinsInTime ttlMs s subject force
  | .answer _ _ => True
  | .job => True

theorem RecheckInv.step (h : RecheckInv ttlMs s) (hlog : SoundLog ttlMs s.log) {step : RecheckStep}
    (hsound : step.Sound ttlMs s) :
    RecheckInv ttlMs (s.step ttlMs step) ∧ SoundLog ttlMs (s.step ttlMs step).log := by
  cases step with
  | check subject force => exact h.check hlog hsound.1 hsound.2
  | answer read outcome =>
    refine ⟨h.answer read outcome, ?_⟩
    rw [RecheckState.step, answer_log]
    exact hlog
  | job =>
    refine ⟨h.runJob, ?_⟩
    rcases runJob_log ttlMs s with hsame | ⟨read, verdict, t, hcompleted⟩
    · rw [RecheckState.step, hsame]
      exact hlog
    · rw [RecheckState.step, hcompleted]
      exact hlog.other (by simp)

theorem runRecheck_inv (ttlMs : Int) (steps : List (Nat × RecheckStep))
    (h : Always (fun before step =>
      step.2.Sound ttlMs ((runRecheck ttlMs before).wait step.1)) steps) :
    RecheckInv ttlMs (runRecheck ttlMs steps) ∧ SoundLog ttlMs (runRecheck ttlMs steps).log := by
  induction steps using List.reverseRecOn with
  | nil => exact ⟨recheckInv_initial, .nil⟩
  | append_singleton steps step ih =>
    obtain ⟨hbefore, hstep⟩ := Always.concat_iff.mp h
    obtain ⟨hinv, hlog⟩ := ih hbefore
    rw [runRecheck_concat]
    exact (hinv.wait step.1).step hlog hstep

theorem prefix_of_splits {α : Type} {before after b a : List α} {x y : α}
    (h : before ++ x :: after = b ++ y :: a) (hy : y ∉ before) (hne : y ≠ x) : before <+: b := by
  rcases List.append_eq_append_iff.mp h with ⟨rest, hb, _⟩ | ⟨rest, hbefore, hrest⟩
  · exact ⟨rest, hb.symm⟩
  · cases rest with
    | nil =>
      rw [List.nil_append] at hrest
      injection hrest with heq _
      exact absurd heq hne
    | cons z rest =>
      rw [List.cons_append] at hrest
      injection hrest with heq _
      refine absurd ?_ hy
      rw [hbefore, heq]
      exact List.mem_append_right _ List.mem_cons_self

/-- Every `admin` is fresh in a run whose keys stand for one subject each and whose checks join no
verdict that has outlived its time. -/
theorem runRecheck_freshAdmin (ttlMs : Int) (steps : List (Nat × RecheckStep))
    (h : Always (fun before step =>
      step.2.Sound ttlMs ((runRecheck ttlMs before).wait step.1)) steps)
    (before after : List RoleEvent) (subject : RoleSubject) (force : Bool) (source : RoleSource)
    (now : Time)
    (hlog : (runRecheck ttlMs steps).log = before ++ .returned subject force source now :: after)
    (hadmin : source.ReturnsAdmin (runRecheck ttlMs steps).log) :
    FreshAdmin ttlMs before (runRecheck ttlMs steps).log subject force source now := by
  obtain ⟨hinv, hsound⟩ := runRecheck_inv ttlMs steps h
  have hreturned := hsound before _ after hlog subject force source now rfl
  have hmem : ∀ e ∈ before, e ∈ (runRecheck ttlMs steps).log := by
    intro e he
    rw [hlog]
    exact List.mem_append_left _ he
  have hcompleted : ∀ read t, source = .read read →
      .completed read .admin t ∈ (runRecheck ttlMs steps).log →
      CompletedLatest (runRecheck ttlMs steps).log read subject t := by
    intro read t hsource hdone
    obtain ⟨subject', hlatest⟩ := hinv.completions.admin read t hdone
    obtain ⟨force', hissued⟩ := hreturned.issued read hsource
    obtain ⟨force'', hissued'⟩ := hlatest.issued
    obtain rfl := hinv.issues.subject_unique hissued' (hmem _ hissued)
    exact hlatest
  have honce : ∀ read verdict t t', .completed read verdict t ∈ (runRecheck ttlMs steps).log →
      .completed read .admin t' ∈ (runRecheck ttlMs steps).log → verdict = .admin :=
    fun read verdict t t' hdone hdone' => hinv.completions.once read _ t _ t' hdone hdone'
  refine ⟨fun hforce => ?_, fun _ => ?_, ?_⟩
  · obtain ⟨earlier, read, hbefore, rfl⟩ := hreturned.forced hforce
    obtain ⟨t, hdone⟩ := hadmin
    exact ⟨earlier, read, t, hbefore, rfl, hcompleted read t rfl hdone⟩
  · cases source with
    | cached =>
      obtain ⟨read, t, _, hdone, hpast, htimely⟩ := hreturned.cached rfl
      refine .inl ⟨read, t, hdone.mem, ?_, hpast, htimely⟩
      rw [hlog]
      exact hdone.mono _
    | read read =>
      obtain ⟨t, hdone⟩ := hadmin
      by_cases hearly : ∃ t', .completed read .admin t' ∈ before
      · obtain ⟨t', hdone'⟩ := hearly
        obtain ⟨hpast, htimely⟩ := hreturned.timely read t' rfl hdone'
        exact .inl ⟨read, t', hdone', hcompleted read t' rfl (hmem _ hdone'), hpast, htimely⟩
      · refine .inr ⟨read, t, rfl, fun verdict t' hdone' => hearly ⟨t', ?_⟩,
          hcompleted read t rfl hdone⟩
        have hverdict := honce read verdict t' t (hmem _ hdone') hdone
        rwa [hverdict] at hdone'
  · intro newest verdict t hlatest hdone
    cases source with
    | cached =>
      obtain ⟨read, t', hread, hdone', _⟩ := hreturned.cached rfl
      have heq : newest = read := latestRead_unique hlatest hread
      rw [heq] at hdone
      exact honce read verdict t t' (hmem _ hdone) (hmem _ hdone'.mem)
    | read read =>
      obtain ⟨t', hdone'⟩ := hadmin
      obtain ⟨force', hissued⟩ := hreturned.issued read rfl
      have heq : newest = read := by
        by_cases hearly : .completed read .admin t' ∈ before
        · exact hreturned.undemoted read t' rfl hearly newest verdict t hlatest hdone
        · -- it completes later, still as the latest of its key
          obtain ⟨b, a, hsplit, _, hread⟩ := hcompleted read t' rfl hdone'
          obtain ⟨rest, rfl⟩ := prefix_of_splits (hlog.symm.trans hsplit) hearly (by simp)
          obtain ⟨subject', force'', hkey, hnewest⟩ := hlatest.1
          have hle := hread.2 newest subject' force'' (List.mem_append_left _ hnewest) hkey
          exact Nat.le_antisymm hle (hlatest.2 read subject force' hissued rfl)
      rw [heq] at hdone
      exact honce read verdict t t' (hmem _ hdone) hdone'

theorem freshAdmin_after_read : FreshAdmin 60000
    [.issued 0 ⟨"w", "u", some 1⟩ false, .returned ⟨"w", "u", some 1⟩ false (.read 0) 0,
      .completed 0 .admin 5]
    [.issued 0 ⟨"w", "u", some 1⟩ false, .returned ⟨"w", "u", some 1⟩ false (.read 0) 0,
      .completed 0 .admin 5, .returned ⟨"w", "u", some 1⟩ false .cached 9]
    ⟨"w", "u", some 1⟩ false .cached 9 := by
  have hlog : (runRecheck 60000 [(0, .check ⟨"w", "u", some 1⟩ false),
      (5, .answer 0 (some (.text " Owner"))), (0, .job),
      (4, .check ⟨"w", "u", some 1⟩ false)]).log =
      [.issued 0 ⟨"w", "u", some 1⟩ false, .returned ⟨"w", "u", some 1⟩ false (.read 0) 0,
        .completed 0 .admin 5, .returned ⟨"w", "u", some 1⟩ false .cached 9] := by
    decide +kernel
  rw [← hlog]
  refine runRecheck_freshAdmin 60000 _ ?_ _ [] _ _ _ _ hlog trivial
  have hbefore : (runRecheck 60000 [(0, .check ⟨"w", "u", some 1⟩ false),
      (5, .answer 0 (some (.text " Owner"))), (0, .job)]).log =
      [.issued 0 ⟨"w", "u", some 1⟩ false, .returned ⟨"w", "u", some 1⟩ false (.read 0) 0,
        .completed 0 .admin 5] := by
    decide +kernel
  have hcached : (((runRecheck 60000 [(0, .check ⟨"w", "u", some 1⟩ false),
      (5, .answer 0 (some (.text " Owner"))), (0, .job)]).wait 4).joins ⟨"w", "u", some 1⟩
        false) = none := by
    decide +kernel
  rw [Always.cons_iff, Always.cons_iff, Always.cons_iff, Always.cons_iff]
  refine ⟨⟨?_, ?_⟩, trivial, trivial, ⟨?_, ?_⟩, .nil⟩
  · intro read subject force hissued
    simp [runRecheck, RecheckState.initial, RecheckState.wait] at hissued
  · intro read t hjoins
    simp [runRecheck, RecheckState.initial, RecheckState.wait, RecheckState.joins] at hjoins
  · intro read subject force hissued _
    have hmem : .issued read subject force ∈ (runRecheck 60000
      [(0, .check ⟨"w", "u", some 1⟩ false), (5, .answer 0 (some (.text " Owner"))),
        (0, .job)]).log := hissued
    rw [hbefore] at hmem
    simp at hmem
    exact hmem.2.1
  · intro read t hjoins
    rw [hcached] at hjoins
    exact absurd hjoins (by simp)

/-- Two subjects whose identifiers contain the separator share one verdict. -/
theorem not_always_freshAdmin :
    ¬ ∀ (ttlMs : Int) (steps : List (Nat × RecheckStep)) (before after : List RoleEvent)
      (subject : RoleSubject) (force : Bool) (source : RoleSource) (now : Time),
      (runRecheck ttlMs steps).log = before ++ .returned subject force source now :: after →
      source.ReturnsAdmin (runRecheck ttlMs steps).log →
      FreshAdmin ttlMs before (runRecheck ttlMs steps).log subject force source now := by
  intro h
  have hlog : (runRecheck 60000 [(0, .check ⟨"a:b", "c", some 1⟩ false),
      (0, .answer 0 (some (.text "ADMIN"))), (0, .job),
      (0, .check ⟨"a", "b:c", some 1⟩ false)]).log =
      [.issued 0 ⟨"a:b", "c", some 1⟩ false, .returned ⟨"a:b", "c", some 1⟩ false (.read 0) 0,
        .completed 0 .admin 0] ++ .returned ⟨"a", "b:c", some 1⟩ false .cached 0 :: [] := by
    decide +kernel
  have hfresh := h 60000 _ _ [] _ _ _ _ hlog trivial
  rcases hfresh.shared rfl with ⟨read, t, _, hdone, _⟩ | ⟨read, t, hsource, _⟩
  · obtain ⟨force, hissued⟩ := hdone.issued
    rw [hlog] at hissued
    simp at hissued
  · exact absurd hsource (by simp)

end Runs

end ClockifyAssistant
