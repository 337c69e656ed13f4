import ClockifyAssistant.Auth.RoleRecheck

/-!
What the role rechecker keeps to. A cached verdict is the verdict of the latest
read of its key; a shared read that has completed is forgotten before any newer
read of its key can complete, because the job that forgets it was queued first.
-/
namespace ClockifyAssistant

open Lib

section Log

/-- The read was issued for the key, and none was issued for it since; reads are numbered in the
order in which they are issued. -/
def LatestRead (key : String) (log : List RoleEvent) (read : Nat) : Prop :=
  (∃ subject force, subject.key = key ∧ .issued read subject force ∈ log) ∧
    ∀ read' subject force, .issued read' subject force ∈ log → subject.key = key → read' ≤ read

/-- The read completed with an admin role while it was the latest issued for its key. -/
def CompletedLatest (log : List RoleEvent) (read : Nat) (subject : RoleSubject) (t : Time) : Prop :=
  ∃ before after, log = before ++ .completed read .admin t :: after ∧
    (∃ force, .issued read subject force ∈ before) ∧ LatestRead subject.key before read

variable {log : List RoleEvent} {read : Nat} {subject : RoleSubject} {t : Time}

theorem CompletedLatest.mono (h : CompletedLatest log read subject t) (events : List RoleEvent) :
    CompletedLatest (log ++ events) read subject t := by
  obtain ⟨before, after, hlog, hissued, hlatest⟩ := h
  refine ⟨before, after ++ events, ?_, hissued, hlatest⟩
  rw [hlog, List.append_assoc, List.cons_append]

theorem CompletedLatest.mem (h : CompletedLatest log read subject t) :
    .completed read .admin t ∈ log := by
  obtain ⟨before, after, hlog, _⟩ := h
  rw [hlog]
  exact List.mem_append_right _ List.mem_cons_self

theorem CompletedLatest.issued (h : CompletedLatest log read subject t) :
    ∃ force, .issued read subject force ∈ log := by
  obtain ⟨before, after, hlog, ⟨force, hissued⟩, _⟩ := h
  refine ⟨force, ?_⟩
  rw [hlog]
  exact List.mem_append_left _ hissued

theorem latestRead_unique {key : String} {read' : Nat} (h : LatestRead key log read)
    (h' : LatestRead key log read') : read = read' := by
  obtain ⟨⟨subject, force, hkey, hmem⟩, hle⟩ := h
  obtain ⟨⟨subject', force', hkey', hmem'⟩, hle'⟩ := h'
  exact Nat.le_antisymm (hle' read subject force hmem hkey) (hle read' subject' force' hmem' hkey')

/-- Events that issue nothing leave the latest read of a key as it is. -/
theorem latestRead_congr {log' : List RoleEvent} {key : String}
    (h : ∀ id subject force, RoleEvent.issued id subject force ∈ log' ↔
      .issued id subject force ∈ log) : LatestRead key log' read ↔ LatestRead key log read := by
  simp only [LatestRead, h]

end Log

section Invariants

/-- Reads, epochs and the log of issues agree. -/
structure IssueInv (s : RecheckState) : Prop where
  fresh : ∀ read r, s.reads read = some r → read < s.nextRead
  issued : ∀ read r, s.reads read = some r → .issued read r.subject r.force ∈ s.log
  known : ∀ read subject force, .issued read subject force ∈ s.log →
    ∃ r, s.reads read = some r ∧ r.subject = subject
  bound : ∀ read r, s.reads read = some r →
    ∃ epoch, s.latestIssued r.subject.key = some epoch ∧ r.epoch ≤ epoch
  latest : ∀ read r, s.reads read = some r →
    (s.latestIssued r.subject.key = some r.epoch ↔ LatestRead r.subject.key s.log read)
  completedLe : ∀ key epoch, s.latestCompleted key = some epoch →
    ∃ epoch', s.latestIssued key = some epoch' ∧ epoch ≤ epoch'

/-- Each read completes once, and as admin only while it is the latest of its key. -/
structure CompletionInv (s : RecheckState) : Prop where
  started : ∀ read, s.phase read ≠ .awaiting → (s.reads read).isSome
  queued : ∀ read outcome, .resume read outcome ∈ s.jobs → s.phase read ≠ .awaiting
  done : ∀ read verdict t, .completed read verdict t ∈ s.log → s.phase read = .done
  once : ∀ read verdict t verdict' t', .completed read verdict t ∈ s.log →
    .completed read verdict' t' ∈ s.log → verdict = verdict'
  past : ∀ read verdict t, .completed read verdict t ∈ s.log → t ≤ s.now
  admin : ∀ read t, .completed read .admin t ∈ s.log →
    ∃ subject, CompletedLatest s.log read subject t

/-- A read that has completed as admin is still offered for sharing. -/
def Lingers (s : RecheckState) (key : String) (read : Nat) : Prop :=
  s.nonForcedInFlight key = some read ∧ ∃ t, .completed read .admin t ∈ s.log

/-- A read of the key issued after this one. -/
def NewerRead (s : RecheckState) (key : String) (read newer : Nat) : Prop :=
  read < newer ∧ ∃ r, s.reads newer = some r ∧ r.subject.key = key

structure ShareInv (s : RecheckState) : Prop where
  inFlight : ∀ key read, s.nonForcedInFlight key = some read →
    ∃ r, s.reads read = some r ∧ r.subject.key = key ∧ r.force = false
  forgets : ∀ key read, Lingers s key read → .cleanup read ∈ s.jobs
  /-- A job that resumes a newer read stands behind the one that forgets this read. -/
  ordered : ∀ key read, Lingers s key read → Always (fun earlier job =>
    ∀ newer outcome, job = .resume newer outcome → NewerRead s key read newer →
      .cleanup read ∈ earlier) s.jobs
  waiting : ∀ key read newer verdict t, Lingers s key read → NewerRead s key read newer →
    .completed newer verdict t ∉ s.log

def CacheInv (ttlMs : Int) (s : RecheckState) : Prop :=
  ∀ key expiry, s.cache key = some expiry → ∃ read subject t,
    subject.key = key ∧ LatestRead key s.log read ∧ CompletedLatest s.log read subject t ∧
      expiry = t + positiveTtl ttlMs

structure RecheckInv (ttlMs : Int) (s : RecheckState) : Prop where
  issues : IssueInv s
  completions : CompletionInv s
  shares : ShareInv s
  cache : CacheInv ttlMs s

variable {ttlMs : Int} {s : RecheckState}

theorem recheckInv_initial : RecheckInv ttlMs .initial := by
  refine ⟨?_, ?_, ?_, ?_⟩
  · constructor <;> simp [RecheckState.initial]
  · constructor <;> simp [RecheckState.initial]
  · constructor <;> simp [RecheckState.initial, Lingers]
  · intro key expiry h
    simp [RecheckState.initial] at h

theorem IssueInv.latestRead_iff (h : IssueInv s) {key : String} {read : Nat} :
    LatestRead key s.log read ↔ (∃ r, s.reads read = some r ∧ r.subject.key = key) ∧
      ∀ read' r', s.reads read' = some r' → r'.subject.key = key → read' ≤ read := by
  constructor
  · rintro ⟨⟨subject, force, hkey, hmem⟩, hle⟩
    refine ⟨?_, fun read' r' hr' hkey' => hle read' _ _ (h.issued read' r' hr') hkey'⟩
    obtain ⟨r, hr, hsubject⟩ := h.known read subject force hmem
    exact ⟨r, hr, by rw [hsubject, hkey]⟩
  · rintro ⟨⟨r, hr, hkey⟩, hle⟩
    refine ⟨⟨r.subject, r.force, hkey, h.issued read r hr⟩, ?_⟩
    intro read' subject force hmem hkey'
    obtain ⟨r', hr', hsubject⟩ := h.known read' subject force hmem
    exact hle read' r' hr' (by rw [hsubject, hkey'])

/-- A read is superseded exactly when it is not the latest one of its key. -/
theorem IssueInv.superseded_iff (h : IssueInv s) {read : Nat} {r : RoleRead}
    (hr : s.reads read = some r) :
    s.superseded r = false ↔ LatestRead r.subject.key s.log read := by
  rw [← h.latest read r hr]
  unfold RecheckState.superseded
  constructor
  · intro hfalse
    rw [Bool.or_eq_false_iff, bne_eq_false_iff_eq] at hfalse
    exact hfalse.1
  · intro hlatest
    rw [Bool.or_eq_false_iff, bne_eq_false_iff_eq, decide_eq_false_iff_not]
    refine ⟨hlatest, ?_⟩
    cases hcompleted : s.latestCompleted r.subject.key with
    | none => simp
    | some epoch =>
      obtain ⟨epoch', hepoch', hle⟩ := h.completedLe _ epoch hcompleted
      rw [hlatest, Option.some.injEq] at hepoch'
      rw [Option.getD_some]
      omega

theorem IssueInv.subject_unique (h : IssueInv s) {read : Nat} {subject subject' : RoleSubject}
    {force force' : Bool} (hissued : .issued read subject force ∈ s.log)
    (hissued' : .issued read subject' force' ∈ s.log) : subject = subject' := by
  obtain ⟨r, hr, rfl⟩ := h.known read subject force hissued
  obtain ⟨r', hr', rfl⟩ := h.known read subject' force' hissued'
  rw [Option.some.inj (hr.symm.trans hr')]

end Invariants

section QuietSteps

variable {ttlMs : Int} {s : RecheckState}

theorem RecheckInv.returns (h : RecheckInv ttlMs s) (subject : RoleSubject) (force : Bool)
    (source : RoleSource) : RecheckInv ttlMs (s.returns subject force source) := by
  have hissued : ∀ id subject' force', RoleEvent.issued id subject' force' ∈
      (s.returns subject force source).log ↔ .issued id subject' force' ∈ s.log := by
    simp [RecheckState.returns]
  have hcompleted : ∀ id verdict t, RoleEvent.completed id verdict t ∈
      (s.returns subject force source).log ↔ .completed id verdict t ∈ s.log := by
    simp [RecheckState.returns]
  have hlatest : ∀ key read, LatestRead key (s.returns subject force source).log read ↔
      LatestRead key s.log read := fun key read => latestRead_congr hissued
  have hlingers : ∀ key read, Lingers (s.returns subject force source) key read →
      Lingers s key read := by
    rintro key read ⟨hread, t, hmem⟩
    exact ⟨hread, t, (hcompleted ..).mp hmem⟩
  refine ⟨⟨h.issues.fresh, ?_, ?_, h.issues.bound, ?_, h.issues.completedLe⟩,
    ⟨h.completions.started, h.completions.queued, ?_, ?_, ?_, ?_⟩,
    ⟨h.shares.inFlight, ?_, ?_, ?_⟩, ?_⟩
  · intro read r hr
    exact (hissued ..).mpr (h.issues.issued read r hr)
  · intro read subject' force' hmem
    exact h.issues.known read subject' force' ((hissued ..).mp hmem)
  · intro read r hr
    exact (h.issues.latest read r hr).trans (hlatest ..).symm
  · intro read verdict t' hmem
    exact h.completions.done read verdict t' ((hcompleted ..).mp hmem)
  · intro read verdict t' verdict' t'' hmem hmem'
    exact h.completions.once read _ _ _ _ ((hcompleted ..).mp hmem) ((hcompleted ..).mp hmem')
  · intro read verdict t' hmem
    exact h.completions.past read verdict t' ((hcompleted ..).mp hmem)
  · intro read t' hmem
    obtain ⟨subject', hsubject⟩ := h.completions.admin read t' ((hcompleted ..).mp hmem)
    exact ⟨subject', hsubject.mono _⟩
  · intro key read hread
    exact h.shares.forgets key read (hlingers key read hread)
  · intro key read hread
    exact h.shares.ordered key read (hlingers key read hread)
  · intro key read newer verdict t' hread hnewer hmem
    exact h.shares.waiting key read newer verdict t' (hlingers key read hread) hnewer
      ((hcompleted ..).mp hmem)
  · intro key expiry hexpiry
    obtain ⟨read, subject', t', hkey, hread, hdone, heq⟩ := h.cache key expiry hexpiry
    exact ⟨read, subject', t', hkey, (hlatest key read).mpr hread, hdone.mono _, heq⟩

theorem RecheckInv.wait (h : RecheckInv ttlMs s) (elapsed : Nat) :
    RecheckInv ttlMs (s.wait elapsed) where
  issues := ⟨h.issues.fresh, h.issues.issued, h.issues.known, h.issues.bound, h.issues.latest,
    h.issues.completedLe⟩
  completions := by
    refine ⟨h.completions.started, h.completions.queued, h.completions.done, h.completions.once, ?_,
      h.completions.admin⟩
    intro read verdict t hmem
    have hpast := h.completions.past read verdict t hmem
    exact hpast.trans (Nat.le_add_right _ _)
  shares := ⟨h.shares.inFlight, h.shares.forgets, h.shares.ordered, h.shares.waiting⟩
  cache := h.cache

theorem RecheckInv.dropCache (h : RecheckInv ttlMs s) (key : String) :
    RecheckInv ttlMs { s with cache := Function.update s.cache key none } where
  issues := ⟨h.issues.fresh, h.issues.issued, h.issues.known, h.issues.bound, h.issues.latest,
    h.issues.completedLe⟩
  completions := ⟨h.completions.started, h.completions.queued, h.completions.done,
    h.completions.once, h.completions.past, h.completions.admin⟩
  shares := ⟨h.shares.inFlight, h.shares.forgets, h.shares.ordered, h.shares.waiting⟩
  cache := by
    intro key' expiry hexpiry
    by_cases hkey : key' = key
    · rw [hkey] at hexpiry
      simp at hexpiry
    · have hother : Function.update s.cache key none key' = s.cache key' :=
        Function.update_of_ne hkey ..
      exact h.cache key' expiry (hother ▸ hexpiry)

theorem RecheckInv.answer (h : RecheckInv ttlMs s) (read : Nat) (outcome : Option HostRole) :
    RecheckInv ttlMs (s.answer read outcome) := by
  unfold RecheckState.answer
  by_cases hask : (s.reads read).isSome ∧ s.phase read = .awaiting
  · rw [if_pos hask]
    refine ⟨⟨h.issues.fresh, h.issues.issued, h.issues.known, h.issues.bound, h.issues.latest,
      h.issues.completedLe⟩, ⟨?_, ?_, ?_, h.completions.once, h.completions.past,
      h.completions.admin⟩, ⟨h.shares.inFlight, ?_, ?_, h.shares.waiting⟩, h.cache⟩
    · intro id hphase
      by_cases hid : id = read
      · rw [hid]
        exact hask.1
      · have hother : Function.update s.phase read .queued id = s.phase id :=
          Function.update_of_ne hid ..
        exact h.completions.started id (hother ▸ hphase)
    · intro id outcome' hmem
      by_cases hid : id = read
      · rw [hid]
        simp
      · have hother : Function.update s.phase read .queued id = s.phase id :=
          Function.update_of_ne hid ..
        rw [List.mem_append] at hmem
        rcases hmem with hqueued | hnew
        · exact fun heq => h.completions.queued id outcome' hqueued (hother.symm.trans heq)
        · have heq : id = read ∧ outcome' = outcome := by simpa using hnew
          exact absurd heq.1 hid
    · intro id verdict t hmem
      have hdone := h.completions.done id verdict t hmem
      have hne : id ≠ read := by
        intro heq
        rw [heq, hask.2] at hdone
        exact absurd hdone (by simp)
      have hother : Function.update s.phase read .queued id = s.phase id :=
        Function.update_of_ne hne ..
      exact hother.trans hdone
    · intro key id hlingers
      exact List.mem_append_left _ (h.shares.forgets key id hlingers)
    · intro key id hlingers
      refine (h.shares.ordered key id hlingers).concat ?_
      intro newer outcome' _ _
      exact h.shares.forgets key id hlingers
  · rw [if_neg hask]
    exact h

end QuietSteps

section Issue

variable {ttlMs : Int} {s : RecheckState} {subject : RoleSubject} {force : Bool}

theorem mem_issue_log {e : RoleEvent} : e ∈ (s.issue subject force).log ↔
    e ∈ s.log ∨ e = .issued s.nextRead subject force := by
  simp [RecheckState.issue]

theorem IssueInv.unread (h : IssueInv s) : s.reads s.nextRead = none := by
  cases hread : s.reads s.nextRead with
  | none => rfl
  | some r => exact absurd (h.fresh _ r hread) (lt_irrefl _)

theorem issue_reads_of_ne {id : Nat} (hid : id ≠ s.nextRead) :
    (s.issue subject force).reads id = s.reads id :=
  Function.update_of_ne hid ..

theorem issue_reads_self : (s.issue subject force).reads s.nextRead =
    some ⟨subject, (s.latestIssued subject.key).getD 0 + 1, force⟩ :=
  Function.update_self ..

theorem issue_latestIssued_of_ne {key : String} (hkey : key ≠ subject.key) :
    (s.issue subject force).latestIssued key = s.latestIssued key :=
  Function.update_of_ne hkey ..

theorem issue_latestIssued_self : (s.issue subject force).latestIssued subject.key =
    some ((s.latestIssued subject.key).getD 0 + 1) :=
  Function.update_self ..

theorem latestRead_issue_of_ne {key : String} {read : Nat} (hkey : key ≠ subject.key) :
    LatestRead key (s.issue subject force).log read ↔ LatestRead key s.log read := by
  constructor
  · rintro ⟨⟨subject', force', hsubject, hmem⟩, hle⟩
    refine ⟨⟨subject', force', hsubject, ?_⟩, ?_⟩
    · rcases mem_issue_log.mp hmem with hold | hnew
      · exact hold
      · injection hnew with _ heq _
        exact absurd (hsubject.symm.trans (heq ▸ rfl)) hkey
    · intro read' subject'' force'' hmem' hkey'
      exact hle read' _ _ (mem_issue_log.mpr (.inl hmem')) hkey'
  · rintro ⟨⟨subject', force', hsubject, hmem⟩, hle⟩
    refine ⟨⟨subject', force', hsubject, mem_issue_log.mpr (.inl hmem)⟩, ?_⟩
    intro read' subject'' force'' hmem' hkey'
    rcases mem_issue_log.mp hmem' with hold | hnew
    · exact hle read' _ _ hold hkey'
    · injection hnew with _ heq _
      exact absurd (hkey'.symm.trans (heq ▸ rfl)) hkey

theorem IssueInv.issue (h : IssueInv s) (subject : RoleSubject) (force : Bool) :
    IssueInv (s.issue subject force) := by
  have hlt : ∀ id r, (s.issue subject force).reads id = some r →
      id = s.nextRead ∧ r = ⟨subject, (s.latestIssued subject.key).getD 0 + 1, force⟩ ∨
        s.reads id = some r ∧ id < s.nextRead := by
    intro id r hr
    by_cases hid : id = s.nextRead
    · rw [hid, issue_reads_self] at hr
      exact .inl ⟨hid, (Option.some.inj hr).symm⟩
    · rw [issue_reads_of_ne hid] at hr
      exact .inr ⟨hr, h.fresh id r hr⟩
  refine ⟨?_, ?_, ?_, ?_, ?_, ?_⟩
  · intro id r hr
    have hnext : (s.issue subject force).nextRead = s.nextRead + 1 := rfl
    rcases hlt id r hr with ⟨hid, _⟩ | ⟨_, hid⟩
    · omega
    · omega
  · intro id r hr
    rcases hlt id r hr with ⟨rfl, rfl⟩ | ⟨hold, _⟩
    · exact mem_issue_log.mpr (.inr rfl)
    · exact mem_issue_log.mpr (.inl (h.issued id r hold))
  · intro id subject' force' hmem
    rcases mem_issue_log.mp hmem with hold | hnew
    · obtain ⟨r, hr, hsubject⟩ := h.known id subject' force' hold
      have hid : id ≠ s.nextRead := (h.fresh id r hr).ne
      exact ⟨r, by rw [issue_reads_of_ne hid, hr], hsubject⟩
    · injection hnew with hid hsubject _
      rw [hid, hsubject]
      exact ⟨_, issue_reads_self, rfl⟩
  · intro id r hr
    rcases hlt id r hr with ⟨rfl, rfl⟩ | ⟨hold, _⟩
    · exact ⟨_, issue_latestIssued_self, le_rfl⟩
    · obtain ⟨epoch, hepoch, hle⟩ := h.bound id r hold
      by_cases hkey : r.subject.key = subject.key
      · refine ⟨_, by rw [hkey, issue_latestIssued_self], ?_⟩
        rw [hkey] at hepoch
        rw [hepoch, Option.getD_some]
        omega
      · exact ⟨epoch, by rw [issue_latestIssued_of_ne hkey, hepoch], hle⟩
  · intro id r hr
    rcases hlt id r hr with ⟨rfl, rfl⟩ | ⟨hold, hid⟩
    · refine iff_of_true issue_latestIssued_self ⟨⟨subject, force, rfl, ?_⟩, ?_⟩
      · exact mem_issue_log.mpr (.inr rfl)
      · intro read' subject' force' hmem _
        rcases mem_issue_log.mp hmem with hold | hnew
        · obtain ⟨r', hr', _⟩ := h.known read' subject' force' hold
          exact (h.fresh read' r' hr').le
        · injection hnew with heq _ _
          exact heq.le
    · by_cases hkey : r.subject.key = subject.key
      · refine iff_of_false ?_ ?_
        · obtain ⟨epoch, hepoch, hle⟩ := h.bound id r hold
          rw [hkey] at hepoch
          rw [hkey, issue_latestIssued_self, hepoch, Option.getD_some, Option.some.injEq]
          omega
        · rintro ⟨_, hle⟩
          have hnew := hle s.nextRead subject force (mem_issue_log.mpr (.inr rfl)) hkey.symm
          omega
      · rw [issue_latestIssued_of_ne hkey, latestRead_issue_of_ne hkey]
        exact h.latest id r hold
  · intro key epoch hepoch
    obtain ⟨epoch', hissued, hle⟩ := h.completedLe key epoch hepoch
    by_cases hkey : key = subject.key
    · subst hkey
      refine ⟨_, issue_latestIssued_self, ?_⟩
      rw [hissued, Option.getD_some]
      omega
    · exact ⟨epoch', by rw [issue_latestIssued_of_ne hkey, hissued], hle⟩

/-- A new read is issued once its key is neither cached nor, for a check that may share, in
flight. -/
theorem RecheckInv.issue (h : RecheckInv ttlMs s) (subject : RoleSubject) (force : Bool)
    (hcache : s.cache subject.key = none)
    (hshare : force = false → s.nonForcedInFlight subject.key = none) :
    RecheckInv ttlMs (s.issue subject force) := by
  have hunread := h.issues.unread
  have hawaiting : s.phase s.nextRead = .awaiting := by
    by_contra hne
    have hsome := h.completions.started _ hne
    rw [hunread] at hsome
    exact absurd hsome (by simp)
  have hcompleted : ∀ id verdict t, RoleEvent.completed id verdict t ∈
      (s.issue subject force).log ↔ .completed id verdict t ∈ s.log := by
    intro id verdict t
    rw [mem_issue_log]
    simp
  have hincomplete : ∀ verdict t, RoleEvent.completed s.nextRead verdict t ∉ s.log := by
    intro verdict t hmem
    have hdone := h.completions.done _ verdict t hmem
    rw [hawaiting] at hdone
    exact absurd hdone (by simp)
  have hlog : (s.issue subject force).log = s.log ++ [.issued s.nextRead subject force] := rfl
  have hflight : ∀ key read, (s.issue subject force).nonForcedInFlight key = some read →
      force = false ∧ key = subject.key ∧ read = s.nextRead ∨
        s.nonForcedInFlight key = some read := by
    intro key read hread
    cases force with
    | true => exact .inr hread
    | false =>
      by_cases hkey : key = subject.key
      · have hself : (s.issue subject false).nonForcedInFlight key = some s.nextRead := by
          rw [hkey]
          exact Function.update_self ..
        rw [hself, Option.some.injEq] at hread
        exact .inl ⟨rfl, hkey, hread.symm⟩
      · have hother : (s.issue subject false).nonForcedInFlight key =
            s.nonForcedInFlight key := Function.update_of_ne hkey ..
        exact .inr (hother ▸ hread)
  have hlingers : ∀ key read, Lingers (s.issue subject force) key read → Lingers s key read := by
    rintro key read ⟨hread, t, hmem⟩
    rw [hcompleted] at hmem
    rcases hflight key read hread with ⟨_, _, rfl⟩ | hold
    · exact absurd hmem (hincomplete _ t)
    · exact ⟨hold, t, hmem⟩
  have hnewer : ∀ key read newer, NewerRead (s.issue subject force) key read newer →
      newer = s.nextRead ∨ NewerRead s key read newer := by
    rintro key read newer ⟨hlt, r, hr, hkey⟩
    by_cases hid : newer = s.nextRead
    · exact .inl hid
    · rw [issue_reads_of_ne hid] at hr
      exact .inr ⟨hlt, r, hr, hkey⟩
  refine ⟨h.issues.issue subject force, ⟨?_, h.completions.queued, ?_, ?_, ?_, ?_⟩,
    ⟨?_, ?_, ?_, ?_⟩, ?_⟩
  · intro id hphase
    by_cases hid : id = s.nextRead
    · rw [hid, issue_reads_self]
      rfl
    · rw [issue_reads_of_ne hid]
      exact h.completions.started id hphase
  · intro id verdict t hmem
    exact h.completions.done id verdict t ((hcompleted ..).mp hmem)
  · intro id verdict t verdict' t' hmem hmem'
    exact h.completions.once id _ _ _ _ ((hcompleted ..).mp hmem) ((hcompleted ..).mp hmem')
  · intro id verdict t hmem
    exact h.completions.past id verdict t ((hcompleted ..).mp hmem)
  · intro id t hmem
    obtain ⟨subject', hsubject⟩ := h.completions.admin id t ((hcompleted ..).mp hmem)
    rw [hlog]
    exact ⟨subject', hsubject.mono _⟩
  · intro key read hread
    rcases hflight key read hread with ⟨hforce, rfl, rfl⟩ | hold
    · exact ⟨_, issue_reads_self, rfl, hforce⟩
    · obtain ⟨r, hr, hkey, hforce⟩ := h.shares.inFlight key read hold
      have hid : read ≠ s.nextRead := (h.issues.fresh read r hr).ne
      exact ⟨r, by rw [issue_reads_of_ne hid, hr], hkey, hforce⟩
  · intro key read hread
    exact h.shares.forgets key read (hlingers key read hread)
  · intro key read hread earlier job after hsplit newer outcome hjob hnew
    have hold := hlingers key read hread
    rcases hnewer key read newer hnew with rfl | hnewer
    · refine absurd hawaiting (h.completions.queued _ outcome ?_)
      have hjobs : s.jobs = earlier ++ job :: after := hsplit
      rw [hjobs, ← hjob]
      exact List.mem_append_right _ List.mem_cons_self
    · exact h.shares.ordered key read hold earlier job after hsplit newer outcome hjob hnewer
  · intro key read newer verdict t hread hnew hmem
    rw [hcompleted] at hmem
    rcases hnewer key read newer hnew with rfl | hnewer
    · exact hincomplete verdict t hmem
    · exact h.shares.waiting key read newer verdict t (hlingers key read hread) hnewer hmem
  · intro key expiry hexpiry
    have hne : key ≠ subject.key := by
      intro heq
      have hnone : s.cache key = none := heq ▸ hcache
      have hsome : s.cache key = some expiry := hexpiry
      rw [hnone] at hsome
      exact absurd hsome (by simp)
    obtain ⟨read, subject', t, hkey, hread, hdone, heq⟩ := h.cache key expiry hexpiry
    rw [hlog]
    exact ⟨read, subject', t, hkey, (latestRead_issue_of_ne hne).mpr hread, hdone.mono _, heq⟩

end Issue

section Jobs

variable {ttlMs : Int} {s : RecheckState} {rest : List RoleJob}

/-- A job may leave the queue unless a lingering read waits for it. -/
theorem RecheckInv.pop (h : RecheckInv ttlMs s) {job : RoleJob} (hjobs : s.jobs = job :: rest)
    (hjob : ∀ key read, Lingers s key read → job ≠ .cleanup read) :
    RecheckInv ttlMs { s with jobs := rest } where
  issues := ⟨h.issues.fresh, h.issues.issued, h.issues.known, h.issues.bound, h.issues.latest,
    h.issues.completedLe⟩
  completions := by
    refine ⟨h.completions.started, fun read outcome hmem => ?_, h.completions.done,
      h.completions.once, h.completions.past, h.completions.admin⟩
    refine h.completions.queued read outcome ?_
    rw [hjobs]
    exact List.mem_cons_of_mem _ hmem
  shares := by
    refine ⟨h.shares.inFlight, fun key read hlingers => ?_, fun key read hlingers => ?_,
      h.shares.waiting⟩
    · have hmem := h.shares.forgets key read hlingers
      rw [hjobs] at hmem
      rcases List.mem_cons.mp hmem with heq | hrest
      · exact absurd heq.symm (hjob key read hlingers)
      · exact hrest
    · have hordered := h.shares.ordered key read hlingers
      rw [hjobs] at hordered
      refine hordered.tail.mono fun earlier job' hbefore newer outcome hresume hnewer => ?_
      rcases List.mem_cons.mp (hbefore newer outcome hresume hnewer) with heq | hearlier
      · exact absurd heq.symm (hjob key read hlingers)
      · exact hearlier
  cache := h.cache

theorem RecheckInv.unshare (h : RecheckInv ttlMs s) (key : String) : RecheckInv ttlMs
      { s with nonForcedInFlight := Function.update s.nonForcedInFlight key none } := by
  have hflight : ∀ key' read, Function.update s.nonForcedInFlight key none key' = some read →
      s.nonForcedInFlight key' = some read := by
    intro key' read hread
    by_cases hkey : key' = key
    · rw [hkey, Function.update_self] at hread
      exact absurd hread (by simp)
    · rwa [Function.update_of_ne hkey] at hread
  refine ⟨⟨h.issues.fresh, h.issues.issued, h.issues.known, h.issues.bound, h.issues.latest,
      h.issues.completedLe⟩, ⟨h.completions.started, h.completions.queued, h.completions.done,
      h.completions.once, h.completions.past, h.completions.admin⟩,
    ⟨?_, ?_, ?_, ?_⟩, h.cache⟩
  · intro key' read hread
    exact h.shares.inFlight key' read (hflight key' read hread)
  · rintro key' read ⟨hread, hdone⟩
    exact h.shares.forgets key' read ⟨hflight key' read hread, hdone⟩
  · rintro key' read ⟨hread, hdone⟩
    exact h.shares.ordered key' read ⟨hflight key' read hread, hdone⟩
  · rintro key' read newer verdict t ⟨hread, hdone⟩
    exact h.shares.waiting key' read newer verdict t ⟨hflight key' read hread, hdone⟩

/-- Once its job has run, a read is no longer offered for sharing. -/
theorem RecheckInv.cleanup (h : RecheckInv ttlMs s) {read : Nat}
    (hjobs : s.jobs = .cleanup read :: rest) :
    RecheckInv ttlMs ({ s with jobs := rest }.cleanup read) := by
  unfold RecheckState.cleanup
  dsimp only
  cases hread : s.reads read with
  | none =>
    refine h.pop hjobs ?_
    rintro key read' ⟨hflight, _⟩ heq
    injection heq with heq
    obtain ⟨r, hr, _⟩ := h.shares.inFlight key read' hflight
    rw [← heq, hread] at hr
    exact absurd hr (by simp)
  | some r =>
    dsimp only
    by_cases hflight : s.nonForcedInFlight r.subject.key = some read
    · rw [if_pos hflight]
      refine (h.unshare r.subject.key).pop hjobs ?_
      rintro key read' ⟨hflight', _⟩ heq
      injection heq with heq
      by_cases hkey : key = r.subject.key
      · rw [hkey] at hflight'
        simp at hflight'
      · have hother : Function.update s.nonForcedInFlight r.subject.key none key =
            s.nonForcedInFlight key := Function.update_of_ne hkey ..
        obtain ⟨r', hr', hkey', _⟩ := h.shares.inFlight key read' (hother ▸ hflight')
        rw [← heq, hread, Option.some.injEq] at hr'
        exact hkey (by rw [← hkey', ← hr'])
    · rw [if_neg hflight]
      refine h.pop hjobs ?_
      rintro key read' ⟨hflight', _⟩ heq
      injection heq with heq
      obtain ⟨r', hr', hkey', _⟩ := h.shares.inFlight key read' hflight'
      rw [← heq, hread, Option.some.injEq] at hr'
      rw [← hkey', ← hr', ← heq] at hflight'
      exact hflight hflight'

theorem verdict_admin {r : RoleRead} {outcome : Option HostRole}
    (h : s.verdict r outcome = .admin) : s.superseded r = false := by
  unfold RecheckState.verdict at h
  by_contra hne
  rw [if_pos (Bool.eq_true_of_not_eq_false hne)] at h
  exact absurd h (by simp)

theorem RecheckInv.complete (h : RecheckInv ttlMs s) {read : Nat} {r : RoleRead}
    {outcome : Option HostRole} (hread : s.reads read = some r) (hphase : s.phase read = .queued)
    (hhead : ∀ key id, Lingers s key id → ¬ NewerRead s key id read) :
    RecheckInv ttlMs (s.resume ttlMs read outcome) := by
  have hresume : s.resume ttlMs read outcome = { s with
      cache := s.cacheAfter ttlMs r outcome
      latestCompleted :=
        if s.superseded r then s.latestCompleted
        else Function.update s.latestCompleted r.subject.key (some r.epoch)
      phase := Function.update s.phase read .done
      jobs := if r.force then s.jobs else s.jobs ++ [.cleanup read]
      log := s.log ++ [.completed read (s.verdict r outcome) s.now] } := by
    unfold RecheckState.resume
    rw [hread]
    exact if_pos hphase
  rw [hresume]
  have hissued : ∀ id subject force, RoleEvent.issued id subject force ∈
      s.log ++ [.completed read (s.verdict r outcome) s.now] ↔ .issued id subject force ∈ s.log := by
    simp
  have hcompleted : ∀ id verdict t, RoleEvent.completed id verdict t ∈
      s.log ++ [.completed read (s.verdict r outcome) s.now] ↔
        .completed id verdict t ∈ s.log ∨
          id = read ∧ verdict = s.verdict r outcome ∧ t = s.now := by
    simp
  have hlatest : ∀ key id, LatestRead key
      (s.log ++ [.completed read (s.verdict r outcome) s.now]) id ↔ LatestRead key s.log id :=
    fun key id => latestRead_congr hissued
  have hincomplete : ∀ verdict t, RoleEvent.completed read verdict t ∉ s.log := by
    intro verdict t hmem
    have hdone := h.completions.done read verdict t hmem
    rw [hphase] at hdone
    exact absurd hdone (by simp)
  have hadmin : s.verdict r outcome = .admin → LatestRead r.subject.key s.log read := fun hverdict =>
    (h.issues.superseded_iff hread).mp (verdict_admin hverdict)
  have hdone : s.verdict r outcome = .admin → CompletedLatest
      (s.log ++ [.completed read (s.verdict r outcome) s.now]) read r.subject s.now := by
    intro hverdict
    refine ⟨s.log, [], ?_, ⟨r.force, h.issues.issued read r hread⟩, hadmin hverdict⟩
    rw [hverdict]
  have hother : ∀ id, id ≠ read → Function.update s.phase read .done id = s.phase id :=
    fun id hid => Function.update_of_ne hid ..
  -- what lingers now lingered before, or is this read, the latest of its key
  have hlingers : ∀ key id, s.nonForcedInFlight key = some id →
      (∃ t, RoleEvent.completed id .admin t ∈
        s.log ++ [.completed read (s.verdict r outcome) s.now]) →
      Lingers s key id ∨ id = read ∧ key = r.subject.key ∧ r.force = false ∧
        LatestRead key s.log read := by
    rintro key id hflight ⟨t, hmem⟩
    rcases (hcompleted ..).mp hmem with hold | ⟨rfl, hverdict, _⟩
    · exact .inl ⟨hflight, t, hold⟩
    · obtain ⟨r', hr', hkey, hforce⟩ := h.shares.inFlight key id hflight
      obtain rfl : r = r' := Option.some.inj (hread.symm.trans hr')
      exact .inr ⟨rfl, hkey.symm, hforce, hkey ▸ hadmin hverdict.symm⟩
  have hnewest : ∀ key newer, LatestRead key s.log read → ¬ NewerRead s key read newer := by
    rintro key newer ⟨_, hle⟩ ⟨hlt, r', hr', hkey⟩
    have hnewer := hle newer _ _ (h.issues.issued newer r' hr') hkey
    omega
  refine ⟨⟨h.issues.fresh, ?_, ?_, h.issues.bound, ?_, ?_⟩, ⟨?_, ?_, ?_, ?_, ?_, ?_⟩,
    ⟨h.shares.inFlight, ?_, ?_, ?_⟩, ?_⟩
  · intro id r' hr'
    exact (hissued ..).mpr (h.issues.issued id r' hr')
  · intro id subject force hmem
    exact h.issues.known id subject force ((hissued ..).mp hmem)
  · intro id r' hr'
    exact (h.issues.latest id r' hr').trans (hlatest ..).symm
  · intro key epoch hepoch
    dsimp only at hepoch
    split at hepoch
    · exact h.issues.completedLe key epoch hepoch
    · rename_i hcurrent
      by_cases hkey : key = r.subject.key
      · rw [hkey, Function.update_self, Option.some.injEq] at hepoch
        have hread' := (h.issues.superseded_iff hread).mp (Bool.eq_false_iff.mpr hcurrent)
        refine ⟨r.epoch, ?_, hepoch.ge⟩
        rw [hkey]
        exact (h.issues.latest read r hread).mpr hread'
      · rw [Function.update_of_ne hkey] at hepoch
        exact h.issues.completedLe key epoch hepoch
  · intro id hid
    by_cases heq : id = read
    · rw [heq, hread]
      rfl
    · exact h.completions.started id fun hawait => hid ((hother id heq).trans hawait)
  · intro id outcome' hmem
    have hold : .resume id outcome' ∈ s.jobs := by
      dsimp only at hmem
      split at hmem
      · exact hmem
      · simpa using hmem
    by_cases heq : id = read
    · rw [heq]
      simp
    · exact fun hawait => h.completions.queued id outcome' hold ((hother id heq).symm.trans hawait)
  · intro id verdict t hmem
    by_cases heq : id = read
    · rw [heq]
      simp
    · rcases (hcompleted ..).mp hmem with hold | ⟨hid, _⟩
      · exact (hother id heq).trans (h.completions.done id verdict t hold)
      · exact absurd hid heq
  · intro id verdict t verdict' t' hmem hmem'
    rcases (hcompleted ..).mp hmem with hold | ⟨rfl, hverdict, _⟩
    · rcases (hcompleted ..).mp hmem' with hold' | ⟨rfl, _⟩
      · exact h.completions.once id _ _ _ _ hold hold'
      · exact absurd hold (hincomplete _ _)
    · rcases (hcompleted ..).mp hmem' with hold' | ⟨_, hverdict', _⟩
      · exact absurd hold' (hincomplete _ _)
      · rw [hverdict, hverdict']
  · intro id verdict t hmem
    rcases (hcompleted ..).mp hmem with hold | ⟨_, _, ht⟩
    · exact h.completions.past id verdict t hold
    · exact ht.le
  · intro id t hmem
    rcases (hcompleted ..).mp hmem with hold | ⟨rfl, hverdict, rfl⟩
    · obtain ⟨subject, hsubject⟩ := h.completions.admin id t hold
      exact ⟨subject, hsubject.mono _⟩
    · exact ⟨r.subject, hdone hverdict.symm⟩
  · rintro key id ⟨hflight, hmem⟩
    rcases hlingers key id hflight hmem with hold | ⟨rfl, _, hforce, _⟩
    · have hqueued := h.shares.forgets key id hold
      dsimp only
      split
      · exact hqueued
      · exact List.mem_append_left _ hqueued
    · simp [hforce]
  · rintro key id ⟨hflight, hmem⟩
    rcases hlingers key id hflight hmem with hold | ⟨rfl, _, _, hlatest'⟩
    · have hordered := h.shares.ordered key id hold
      have hcleanup : ∀ newer outcome', RoleJob.cleanup read = .resume newer outcome' →
          NewerRead s key id newer → .cleanup id ∈ s.jobs := by
        intro newer outcome' hjob
        exact absurd hjob (by simp)
      have hforgetful := hordered.concat hcleanup
      intro earlier job after hsplit newer outcome' hjob hnewer
      by_cases hforce : r.force = true
      · have hkept : s.jobs = earlier ++ job :: after := (if_pos hforce).symm.trans hsplit
        exact hordered earlier job after hkept newer outcome' hjob hnewer
      · have hextended : s.jobs ++ [.cleanup read] = earlier ++ job :: after :=
          (if_neg hforce).symm.trans hsplit
        exact hforgetful earlier job after hextended newer outcome' hjob hnewer
    · intro earlier job after _ newer outcome' _ hnewer
      exact absurd hnewer (hnewest key newer hlatest')
  · rintro key id newer verdict t ⟨hflight, hmem⟩ hnewer hcomplete
    rcases hlingers key id hflight hmem with hold | ⟨rfl, _, _, hlatest'⟩
    · rcases (hcompleted ..).mp hcomplete with hold' | ⟨rfl, _⟩
      · exact h.shares.waiting key id newer verdict t hold hnewer hold'
      · exact hhead key id hold hnewer
    · exact hnewest key newer hlatest' hnewer
  · intro key expiry hexpiry
    have hold : s.cache key = some expiry → ∃ id subject t, subject.key = key ∧
        LatestRead key (s.log ++ [.completed read (s.verdict r outcome) s.now]) id ∧
        CompletedLatest (s.log ++ [.completed read (s.verdict r outcome) s.now]) id subject t ∧
          expiry = t + positiveTtl ttlMs := by
      intro hsome
      obtain ⟨id, subject, t, hkey, hid, hcomplete, heq⟩ := h.cache key expiry hsome
      exact ⟨id, subject, t, hkey, (hlatest key id).mpr hid, hcomplete.mono _, heq⟩
    have hcache : s.cacheAfter ttlMs r outcome key = some expiry := hexpiry
    unfold RecheckState.cacheAfter at hcache
    split at hcache
    · exact hold hcache
    · rename_i hcurrent
      cases outcome with
      | none => exact hold hcache
      | some role =>
        dsimp only at hcache
        by_cases hkey : key = r.subject.key
        · rw [hkey, Function.update_self] at hcache
          by_cases hrole : isAdminRole role = true
          · rw [if_pos hrole, Option.some.injEq] at hcache
            have hverdict : s.verdict r (some role) = .admin := by
              unfold RecheckState.verdict
              rw [if_neg hcurrent]
              exact if_pos hrole
            refine ⟨read, r.subject, s.now, hkey.symm, ?_, hdone hverdict, hcache.symm⟩
            rw [hkey]
            exact (hlatest ..).mpr (hadmin hverdict)
          · rw [if_neg hrole] at hcache
            exact absurd hcache (by simp)
        · rw [Function.update_of_ne hkey] at hcache
          exact hold hcache

theorem RecheckInv.runJob (h : RecheckInv ttlMs s) : RecheckInv ttlMs (s.runJob ttlMs) := by
  unfold RecheckState.runJob
  cases hjobs : s.jobs with
  | nil => exact h
  | cons job rest =>
    cases job with
    | cleanup read => exact h.cleanup hjobs
    | resume read outcome =>
      have hpop := h.pop hjobs (by simp)
      dsimp only
      cases hread : s.reads read with
      | none =>
        have hsame : ({ s with jobs := rest }.resume ttlMs read outcome) =
            { s with jobs := rest } := by
          simp [RecheckState.resume, hread]
        rw [hsame]
        exact hpop
      | some r =>
        by_cases hphase : s.phase read = .queued
        · refine hpop.complete hread hphase fun key id hlingers hnewer => ?_
          have hordered := h.shares.ordered key id hlingers
          rw [hjobs] at hordered
          exact absurd (hordered.head read outcome rfl hnewer) (by simp)
        · have hsame : ({ s with jobs := rest }.resume ttlMs read outcome) =
              { s with jobs := rest } := by
            simp [RecheckState.resume, hread, hphase]
          rw [hsame]
          exact hpop

end Jobs

end ClockifyAssistant
