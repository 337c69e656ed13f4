import ClockifyAssistant.LifecycleOrder
import ClockifyAssistant.InstallationAuthority

/-!
Runs of lifecycle callbacks through the route, with maintenance, erasures and
restarts in between. Every step keeps the lineage of every workspace; the order
of the callbacks follows from it.
-/
namespace ClockifyAssistant

open Lib Txn

section Route

structure OrderedLifecycleClaims where
  iat : EpochSeconds
  exp : EpochSeconds

def verifyOrderedLifecycleToken (now : Time) (claims : OrderedLifecycleClaims) : Bool :=
  claims.iat ≤ claims.exp && claims.iat ≤ seconds now + lifecycleClockSkewSeconds &&
    seconds now ≤ claims.iat + (maxLifecycleAgeSeconds + lifecycleClockSkewSeconds)

inductive LifecycleEvent
  | installed (workspaceId : WorkspaceId) (addonToken : AddonToken) (addonToken_ne : addonToken ≠ "")
      (freshInstallAttestation : Option Json)
  | statusChanged (workspaceId : WorkspaceId) (status : String)
  | deleted (workspaceId : WorkspaceId)

def callbackStatus (status : String) : InstallationStatus :=
  if status.toUpper = "ACTIVE" then .active else .inactive

def LifecycleEvent.call (issuedAt : EpochSeconds) : LifecycleEvent → InstallationCall
  | installed workspaceId addonToken addonToken_ne freshInstallAttestation =>
      .saveInstallation {
        workspaceId, addonToken, addonToken_ne, lifecycleIssuedAt := some issuedAt
        freshInstallAttestation }
  | statusChanged workspaceId status =>
      .setInstallationStatus workspaceId (callbackStatus status) (some issuedAt)
  | deleted workspaceId => .tombstoneInstallationForLifecycle workspaceId issuedAt

def LifecycleEvent.workspaceId : LifecycleEvent → WorkspaceId
  | installed workspaceId _ _ _ => workspaceId
  | statusChanged workspaceId _ => workspaceId
  | deleted workspaceId => workspaceId

/-- The state an event asks for. -/
def LifecycleEvent.state : LifecycleEvent → InstallationStatus
  | installed _ _ _ _ => .active
  | statusChanged _ status => callbackStatus status
  | deleted _ => .deleted

/-- The event is an INACTIVE or a DELETED of the workspace. -/
def LifecycleEvent.Revokes (workspaceId : WorkspaceId) : LifecycleEvent → Prop
  | installed _ _ _ _ => False
  | statusChanged other status => other = workspaceId ∧ callbackStatus status ≠ .active
  | deleted other => other = workspaceId

/-- A callback, or what else works on the installations of the store. -/
inductive LifecycleStep
  | callback (claims : OrderedLifecycleClaims) (event : LifecycleEvent)
  | tombstoneInstallation (workspaceId : WorkspaceId)
  | retireInstallationForMaintenance (input : MaintenanceRetirement)
  | eraseWorkspace (workspaceId : WorkspaceId)
  | eraseWorkspaceForDeletion (workspaceId : WorkspaceId) (generation : Nat)
  | openStore

/-- The route drops a callback outside the acceptance window. -/
def LifecycleStep.call? (now : Time) : LifecycleStep → Option InstallationCall
  | callback claims event =>
      if verifyOrderedLifecycleToken now claims then some (event.call claims.iat) else none
  | tombstoneInstallation workspaceId => some (.tombstoneInstallation workspaceId)
  | retireInstallationForMaintenance input => some (.retireInstallationForMaintenance input)
  | eraseWorkspace workspaceId => some (.eraseWorkspace workspaceId)
  | eraseWorkspaceForDeletion workspaceId generation =>
      some (.eraseWorkspaceForDeletion workspaceId generation)
  | openStore => some .openStore

def LifecycleStep.apply (cipher : TokenCipher) (now : Time) (s : InstallationStore)
    (step : LifecycleStep) : InstallationStore :=
  (step.call? now).elim s (InstallationCall.apply cipher now s)

/-- Each step comes some time after the last; the clock does not go back. -/
def runLifecycle (cipher : TokenCipher) (steps : List (Nat × LifecycleStep)) :
    Time × InstallationStore :=
  steps.foldl (fun run step =>
    (run.1 + step.1, step.2.apply cipher (run.1 + step.1) run.2)) (0, .empty)

/-- The step delivers an INACTIVE or DELETED of the workspace. -/
def LifecycleStep.Delivers (now : Time) (workspaceId : WorkspaceId) (issuedAt : EpochSeconds)
    (step : LifecycleStep) : Prop :=
  ∃ claims event, step = .callback claims event ∧
    verifyOrderedLifecycleToken now claims = true ∧ event.Revokes workspaceId ∧
      claims.iat = issuedAt

/-- The issue times of the INACTIVE and DELETED callbacks of the workspace that were delivered. -/
def Revoked (cipher : TokenCipher) (steps : List (Nat × LifecycleStep))
    (workspaceId : WorkspaceId) : Set EpochSeconds :=
  {i | ∃ before step after, steps = before ++ step :: after ∧
    step.2.Delivers ((runLifecycle cipher before).1 + step.1) workspaceId i}

end Route

section Lineages

variable {cipher : TokenCipher} {now now' : Time} {revoked revoked' : WorkspaceId → Set EpochSeconds}
  {db db' : InstallationDb} {s : InstallationStore} {workspaceId : WorkspaceId}
  {issuedAt : EpochSeconds}

variable (cipher now) in
def Lineages (revoked : WorkspaceId → Set EpochSeconds) (db : InstallationDb) : Prop :=
  ∀ workspaceId, Lineage cipher now (revoked workspaceId)
    (db.installations.get? workspaceId) (db.mark workspaceId)

theorem Lineages.later (h : Lineages cipher now revoked db) (hnow : now ≤ now') :
    Lineages cipher now' revoked db :=
  fun w => (h w).later hnow

theorem Lineages.mono (h : Lineages cipher now revoked db) (hsub : ∀ w, revoked' w ⊆ revoked w) :
    Lineages cipher now revoked' db :=
  fun w => (h w).mono (hsub w)

variable {token : AddonToken} {row : Option InstallationRow}

/-- A transaction on one workspace prunes the watermarks of the others at most. -/
theorem Lineages.of_sets (h : Lineages cipher now revoked db)
    (hsets : SetsRow db db' workspaceId row token) (hmarks : ∀ w, w ≠ workspaceId →
      db'.mark w = db.mark w ∨ db'.mark w = unexpired now (db.mark w))
    (hrevoked : ∀ w, w ≠ workspaceId → revoked' w ⊆ revoked w)
    (hself : Lineage cipher now (revoked' workspaceId) row (db'.mark workspaceId)) :
    Lineages cipher now revoked' db' := by
  intro w
  by_cases hw : w = workspaceId
  · subst hw
    rw [hsets.lookup, if_pos rfl]
    exact hself
  · rw [hsets.lookup, if_neg hw]
    refine Lineage.mono ?_ (hrevoked w hw)
    rcases hmarks w hw with hsame | hpruned
    · rw [hsame]
      exact h w
    · rw [hpruned]
      exact (h w).unexpired

section Marked

variable {e : LifecycleAuthorityWatermark}

theorem mark_of_marked (hmarks : db'.watermarks = marked db.watermarks now (some e))
    (he : e.workspaceFingerprint = hashLifecycleWorkspace workspaceId) :
    db'.mark workspaceId = some (recorded (unexpired now (db.mark workspaceId)) e) := by
  unfold InstallationDb.mark
  rw [hmarks, ← he, get?_marked_self]

theorem mark_of_marked_none (hmarks : db'.watermarks = marked db.watermarks now none)
    (w : WorkspaceId) : db'.mark w = unexpired now (db.mark w) := by
  unfold InstallationDb.mark
  rw [hmarks, get?_marked_of_ne db.watermarks (by simp)]

theorem mark_of_marked_of_ne (hmarks : db'.watermarks = marked db.watermarks now (some e))
    (he : e.workspaceFingerprint = hashLifecycleWorkspace workspaceId) (w : WorkspaceId)
    (hw : w ≠ workspaceId) : db'.mark w = unexpired now (db.mark w) := by
  unfold InstallationDb.mark
  rw [hmarks, get?_marked_of_ne db.watermarks]
  rintro _ ⟨⟩
  rw [he, Ne, hashLifecycleWorkspace_inj]
  exact hw

theorem mark_of_watermarks (hmarks : db'.watermarks = db.watermarks) (w : WorkspaceId) :
    db'.mark w = db.mark w := by
  unfold InstallationDb.mark
  rw [hmarks]

end Marked

theorem Lineages.of_keep (h : Lineages cipher now revoked db)
    (hsets : SetsRow db db' workspaceId (db.installations.get? workspaceId) token)
    (hmarks : db'.watermarks = db.watermarks ∨
      db'.watermarks = marked db.watermarks now none) : Lineages cipher now revoked db' := by
  have hmark : ∀ w, db'.mark w = db.mark w ∨ db'.mark w = unexpired now (db.mark w) := by
    intro w
    rcases hmarks with hsame | hpruned
    · exact .inl (mark_of_watermarks hsame w)
    · exact .inr (mark_of_marked_none hpruned w)
  refine h.of_sets hsets (fun w _ => hmark w) (fun w _ => subset_rfl) ?_
  rcases hmark workspaceId with hsame | hpruned
  · rw [hsame]
    exact h workspaceId
  · rw [hpruned]
    exact (h workspaceId).unexpired

/-- A transaction that sets the row and leaves the watermarks alone. -/
theorem Lineages.of_unmarked (h : Lineages cipher now revoked db)
    (hsets : SetsRow db db' workspaceId row token) (hmarks : db'.watermarks = db.watermarks)
    (hself : Lineage cipher now (revoked workspaceId) row (db.mark workspaceId)) :
    Lineages cipher now revoked db' := by
  refine h.of_sets hsets (fun w _ => .inl (mark_of_watermarks hmarks w)) (fun w _ => subset_rfl) ?_
  rw [mark_of_watermarks hmarks]
  exact hself

/-- A transaction that sets the row and records `e` for the workspace. -/
theorem Lineages.of_recorded (h : Lineages cipher now revoked db) {e : LifecycleAuthorityWatermark}
    (hsets : SetsRow db db' workspaceId row token)
    (hmarks : db'.watermarks = marked db.watermarks now (some e))
    (he : e.workspaceFingerprint = hashLifecycleWorkspace workspaceId)
    (hrevoked : ∀ w, w ≠ workspaceId → revoked' w ⊆ revoked w)
    (hself : Lineage cipher now (revoked' workspaceId) row
      (some (recorded (unexpired now (db.mark workspaceId)) e))) :
    Lineages cipher now revoked' db' := by
  refine h.of_sets hsets (fun w hw => .inr (mark_of_marked_of_ne hmarks he w hw)) hrevoked ?_
  rw [mark_of_marked hmarks he]
  exact hself

theorem Lineages.readable (h : Lineages cipher now revoked db) (workspaceId : WorkspaceId) :
    ¬ db.Unreadable cipher workspaceId := by
  rintro ⟨hsome, hnone⟩
  obtain ⟨row, hrow⟩ := Option.isSome_iff_exists.mp hsome
  have hopen := (h workspaceId).readable row hrow
  rw [InstallationDb.heldToken, hrow, Option.bind_some] at hnone
  rw [hnone] at hopen
  exact absurd hopen (by simp)

theorem Lineages.mark_le (h : Lineages cipher now revoked db) {q : ℕ ×ₗ ℕ}
    (hle : ∀ a, db.recordedAuthority workspaceId now = some a → a.precedence ≤ q) :
    ∀ w, unexpired now (db.mark workspaceId) = some w → w.precedence ≤ q := by
  rw [recordedAuthority_eq, effectiveAuthority_le_iff (h workspaceId).issued_isSome] at hle
  exact hle.2

theorem Lineages.row_le (h : Lineages cipher now revoked db) {q : ℕ ×ₗ ℕ}
    (hle : ∀ a, db.recordedAuthority workspaceId now = some a → a.precedence ≤ q) :
    ∀ r j, db.installations.get? workspaceId = some r → r.lifecycleIssuedAt = some j →
      precedence j r.status ≤ q := by
  rw [recordedAuthority_eq, effectiveAuthority_le_iff (h workspaceId).issued_isSome] at hle
  exact hle.1

theorem Lineages.generation_le_next (h : Lineages cipher now revoked db)
    (workspaceId : WorkspaceId) (last : Nat) : ∀ w, unexpired now (db.mark workspaceId) = some w →
      w.installationGeneration ≤ db.nextGeneration now workspaceId last := by
  intro w hw
  unfold InstallationDb.nextGeneration
  cases hrow : db.installations.get? workspaceId with
  | none =>
    have hauthority : authorityGeneration (db.recordedAuthority workspaceId now) =
        w.installationGeneration := by
      rw [recordedAuthority_eq, hrow, hw]
      rfl
    omega
  | some r =>
    have hheld : (db.heldGeneration workspaceId).getD 0 = r.generation := by
      simp [InstallationDb.heldGeneration, hrow]
    have hle := (h workspaceId).unexpired.generation r w hrow hw
    omega

theorem Lineages.generation_le_row (h : Lineages cipher now revoked db) {r : InstallationRow}
    {generation : Nat} (hr : db.installations.get? workspaceId = some r)
    (hle : r.generation ≤ generation) :
    ∀ w, unexpired now (db.mark workspaceId) = some w → w.installationGeneration ≤ generation :=
  fun w hw => ((h workspaceId).unexpired.generation r w hr hw).trans hle

end Lineages

section Calls

variable {cipher : TokenCipher} {now : Time} {revoked revoked' : WorkspaceId → Set EpochSeconds}
  {s : InstallationStore} {workspaceId : WorkspaceId} {issuedAt : EpochSeconds}

theorem Lineages.saveInstallation (h : Lineages cipher now revoked s.db)
    (input : InstallationInput) (hactive : input.status = .active)
    (hissued : input.lifecycleIssuedAt = some issuedAt)
    (hskew : issuedAt ≤ seconds now + lifecycleClockSkewSeconds)
    (htimely : ¬ Elapsed now issuedAt) :
    Lineages cipher now revoked (s.saveInstallation cipher now input).2.db := by
  rcases s.run_cases input.workspaceId (fun last => saveInstallationTxn cipher last now input)
      InstallationSaveResult.generation (wp_saveInstallationTxn input) with
    ⟨_, _, hunreadable, _⟩ | ⟨r, _, hr, _⟩
  · exact absurd hunreadable (h.readable input.workspaceId)
  by_cases hreplaces : s.db.replaces cipher now input
  · rw [if_pos hreplaces] at hr
    obtain ⟨_, ⟨row, hsaved, hsets⟩, hmarks⟩ := hr
    rw [hissued] at hmarks
    simp only [InstallationDb.replaces, Bool.and_eq_true, Bool.not_eq_true'] at hreplaces
    have hfresh := staleInstall_eq_false_iff.mp (hissued ▸ hreplaces.1.2)
    have hmark : ∀ w, unexpired now (s.db.mark input.workspaceId) = some w →
        w.precedence ≤ precedence issuedAt .active := h.mark_le fun a ha => (hfresh a ha).le
    refine h.of_recorded hsets hmarks rfl (fun w _ => subset_rfl) ?_
    refine (h input.workspaceId).unexpired.activate ?_ (hsaved.status.trans hactive)
      (hsaved.issuedAt.trans hissued) hskew htimely ?_ (outlives_lifecycleWatermark hskew) hmark
      hsaved.generation.ge ?_
    · rw [hsaved.token, cipher.open_seal]
      rfl
    · rw [← hactive]
      rfl
    · rw [hsaved.generation]
      exact h.generation_le_next input.workspaceId _
  · rw [if_neg hreplaces] at hr
    exact h.of_keep hr.2.2.1 hr.2.2.2

/-- What the workspaces are known to have revoked once this one has revoked `issuedAt`. -/
def revoke (revoked : WorkspaceId → Set EpochSeconds) (workspaceId : WorkspaceId)
    (issuedAt : EpochSeconds) : WorkspaceId → Set EpochSeconds :=
  Function.update revoked workspaceId (insert issuedAt (revoked workspaceId))

theorem revoke_self : revoke revoked workspaceId issuedAt workspaceId =
    insert issuedAt (revoked workspaceId) := Function.update_self ..

theorem revoke_subset {w : WorkspaceId} (hw : w ≠ workspaceId) :
    revoke revoked workspaceId issuedAt w ⊆ revoked w := by
  rw [revoke, Function.update_of_ne hw]

theorem subset_revoke (w : WorkspaceId) : revoked w ⊆ revoke revoked workspaceId issuedAt w := by
  by_cases hw : w = workspaceId
  · subst hw
    rw [revoke_self]
    exact Set.subset_insert _ _
  · rw [revoke, Function.update_of_ne hw]

/-- A stale revocation, turned away after the watermarks have been pruned. -/
theorem Lineages.of_ignored {db db' : InstallationDb} {state : InstallationStatus}
    (h : Lineages cipher now revoked db) (htimely : ¬ Elapsed now issuedAt)
    (hstate : state ≠ .active) (hstale : ¬ ∀ a, db.recordedAuthority workspaceId now = some a →
      a.precedence ≤ precedence issuedAt state)
    (hsets : SetsRow db db' workspaceId (db.installations.get? workspaceId) "")
    (hmarks : db'.watermarks = marked db.watermarks now none) :
    Lineages cipher now (revoke revoked workspaceId issuedAt) db' := by
  refine h.of_sets hsets (fun w _ => .inr (mark_of_marked_none hmarks w))
    (fun w hw => revoke_subset hw) ?_
  rw [revoke_self, mark_of_marked_none hmarks]
  rw [recordedAuthority_eq] at hstale
  exact (h workspaceId).unexpired.ignore htimely hstate hstale

theorem Lineages.setInstallationStatus (h : Lineages cipher now revoked s.db)
    (workspaceId : WorkspaceId) {status : InstallationStatus} (hstatus : status ≠ .deleted)
    (hskew : issuedAt ≤ seconds now + lifecycleClockSkewSeconds) (htimely : ¬ Elapsed now issuedAt)
    (hrevoked : revoked' = if status = .active then revoked else
      revoke revoked workspaceId issuedAt) : Lineages cipher now revoked'
      (s.setInstallationStatus now workspaceId status (some issuedAt)).2.db := by
  rcases s.run_cases workspaceId
      (fun last => setInstallationStatusTxn last now workspaceId status (some issuedAt))
      InstallationStatusResult.generation (wp_setInstallationStatusTxn status (some issuedAt)) with
    ⟨_, _, hfalse, _⟩ | ⟨r, _, hr, _⟩
  · exact absurd hfalse id
  by_cases hstale : staleStatus (s.db.recordedAuthority workspaceId now) status (some issuedAt)
  · have htarget : s.db.statusTarget now workspaceId status (some issuedAt) = none := if_pos hstale
    rw [htarget, if_pos hstale] at hr
    by_cases hactive : status = .active
    · rw [hrevoked, if_pos hactive]
      exact h.of_keep hr.2.1 (.inr hr.2.2)
    · rw [hrevoked, if_neg hactive]
      refine h.of_ignored htimely hactive (fun hle => ?_) hr.2.1 hr.2.2
      rw [staleStatus_eq_false_iff.mpr hle] at hstale
      exact absurd hstale (by simp)
  have hfresh := staleStatus_eq_false_iff.mp (Bool.eq_false_iff.mpr hstale)
  have htarget : s.db.statusTarget now workspaceId status (some issuedAt) =
      (s.db.installations.get? workspaceId).filter fun row => row.status != .deleted :=
    if_neg hstale
  cases hrow : s.db.statusTarget now workspaceId status (some issuedAt) with
  | none =>
    rw [hrow, if_neg hstale] at hr
    by_cases hactive : status = .active
    · rw [hrevoked, if_pos hactive]
      refine h.of_keep hr.2.1 (.inr (hr.2.2.trans ?_))
      rw [InstallationDb.absentWatermark, if_neg (by rw [hactive]; simp)]
    have hinactive : status = .inactive := by
      cases status with
      | active => exact absurd rfl hactive
      | inactive => rfl
      | deleted => exact absurd rfl hstatus
    rw [hrevoked, if_neg hactive]
    rw [InstallationDb.absentWatermark, if_pos hinactive] at hr
    refine h.of_recorded hr.2.1 hr.2.2 rfl (fun w hw => revoke_subset hw) ?_
    rw [revoke_self]
    refine (h workspaceId).unexpired.record ?_ (outlives_lifecycleWatermark hskew) ?_
    · refine precedence_inactive_le ?_
      unfold lifecycleWatermark
      split <;> simp
    · intro old hold
      have hdeleted : old.status = .deleted := by
        rw [htarget, hold] at hrow
        simpa using hrow
      obtain ⟨j, hj, hjskew, hsettled⟩ := (h workspaceId).unexpired.issued old hold
      refine ⟨by rw [hdeleted]; simp, (h workspaceId).readable old hold,
        ⟨j, hj, hjskew, hsettled.recorded⟩, ?_, h.generation_le_row hold le_rfl⟩
      simp [lifecycleWatermark, InstallationDb.heldGeneration, hold]
  | some old =>
    rw [hrow] at hr
    obtain ⟨_, ⟨row, hupdated, hsets⟩, hmarks⟩ := hr
    have hold : s.db.installations.get? workspaceId = some old := by
      rw [htarget] at hrow
      exact (Option.filter_eq_some_iff.mp hrow).1
    have hreadable : (cipher.openToken row.addonTokenCiphertext).isSome := by
      rw [hupdated.token]
      exact (h workspaceId).readable old hold
    have hissued : row.lifecycleIssuedAt = some issuedAt := by
      rw [hupdated.issuedAt]
      rfl
    have hgeneration : old.generation ≤ row.generation := by
      rw [hupdated.generation]
      unfold InstallationDb.statusGeneration
      split
      · have hid : old.workspaceId = workspaceId := Table.key_of_get? hold
        have hheld : (s.db.heldGeneration old.workspaceId).getD 0 = old.generation := by
          rw [InstallationDb.heldGeneration, hid, hold]
          rfl
        unfold InstallationDb.nextGeneration
        omega
      · exact le_rfl
    by_cases hactive : status = .active
    · rw [hrevoked, if_pos hactive]
      refine h.of_recorded hsets hmarks rfl (fun w _ => subset_rfl) ?_
      refine (h workspaceId).unexpired.activate hreadable (hupdated.status.trans hactive) hissued
        hskew htimely ?_ (outlives_lifecycleWatermark hskew) ?_ hupdated.generation.ge
        (h.generation_le_row hold hgeneration)
      · rw [← hactive]
        rfl
      · rw [← hactive]
        exact h.mark_le hfresh
    · rw [hrevoked, if_neg hactive]
      refine h.of_recorded hsets hmarks rfl (fun w hw => revoke_subset hw) ?_
      rw [revoke_self]
      refine (h workspaceId).unexpired.record (precedence_inactive_le hactive)
        (outlives_lifecycleWatermark hskew) ?_
      rintro _ ⟨⟩
      refine ⟨by rw [hupdated.status]; exact hactive, hreadable, ⟨issuedAt, hissued, hskew,
        settled_recorded ?_⟩, hupdated.generation.ge, h.generation_le_row hold hgeneration⟩
      refine precedence_le_iff.mpr (.inr ⟨rfl, ?_⟩)
      unfold InstallationRow.recordState
      rw [hupdated.status, if_neg hstatus]
      exact Nat.zero_le _

/-- An uninstall; only the callback, which records an absent workspace, counts as delivered. -/
theorem Lineages.tombstoneLifecycle (h : Lineages cipher now revoked s.db)
    (workspaceId : WorkspaceId) (recordAbsent : Bool)
    (hskew : issuedAt ≤ seconds now + lifecycleClockSkewSeconds)
    (htimely : recordAbsent = true → ¬ Elapsed now issuedAt)
    (hrevoked : revoked' = if recordAbsent then revoke revoked workspaceId issuedAt else revoked) :
    Lineages cipher now revoked'
      (s.tombstoneLifecycle cipher now workspaceId issuedAt recordAbsent).2.db := by
  have hsub : ∀ w, revoked' w ⊆ revoke revoked workspaceId issuedAt w := by
    intro w
    rw [hrevoked]
    split
    · exact subset_rfl
    · exact subset_revoke w
  rcases s.run_cases workspaceId
      (fun last => tombstoneLifecycleTxn cipher last now workspaceId issuedAt recordAbsent)
      LifecycleDeletionResult.generation (wp_tombstoneLifecycleTxn issuedAt recordAbsent) with
    ⟨_, _, hunreadable, _⟩ | ⟨r, _, hr, _⟩
  · exact absurd hunreadable (h.readable workspaceId)
  by_cases hstale : staleDeletion (s.db.recordedAuthority workspaceId now) issuedAt
  · rw [if_pos hstale] at hr
    cases recordAbsent with
    | false =>
      rw [hrevoked]
      exact h.of_keep hr.2.1 (.inr hr.2.2)
    | true =>
      rw [hrevoked]
      have hdeleted : InstallationStatus.deleted ≠ .active := by simp
      refine h.of_ignored (htimely rfl) hdeleted (fun hle => ?_) hr.2.1 hr.2.2
      rw [staleDeletion_eq_false_iff.mpr hle] at hstale
      exact absurd hstale (by simp)
  rw [if_neg hstale] at hr
  have hfresh := staleDeletion_eq_false_iff.mp (Bool.eq_false_iff.mpr hstale)
  cases hrow : s.db.installations.get? workspaceId with
  | none =>
    rw [hrow] at hr
    cases recordAbsent with
    | false =>
      rw [hrevoked]
      exact h.of_keep (hrow ▸ hr.2.1) (.inr hr.2.2)
    | true =>
      rw [hrevoked]
      refine h.of_recorded hr.2.1 hr.2.2 rfl (fun w hw => revoke_subset hw) ?_
      rw [if_pos rfl, revoke_self]
      refine (h workspaceId).unexpired.record ?_ (outlives_lifecycleWatermark hskew) (by simp)
      exact precedence_le_deleted_iff.mpr le_rfl
  | some old =>
    rw [hrow] at hr
    obtain ⟨_, hreadable, ⟨row, htombstone, hsets⟩, hmarks⟩ := hr
    refine Lineages.mono ?_ hsub
    refine h.of_recorded hsets hmarks rfl (fun w hw => revoke_subset hw) ?_
    rw [revoke_self]
    have hle : ∀ j, old.lifecycleIssuedAt = some j → j ≤ issuedAt := fun j hj =>
      le_of_precedence_le (h.row_le hfresh old j hrow hj)
    have hissued : row.lifecycleIssuedAt = some issuedAt := by
      obtain ⟨j, hj, _⟩ := (h workspaceId).issued old hrow
      rw [htombstone.issuedAt, hj, Option.getD_some, max_eq_right (hle j hj), ite_self]
    have hgeneration : old.generation ≤ row.generation := by
      rw [htombstone.generation]
      unfold InstallationDb.tombstoneGeneration
      split
      · exact le_rfl
      · have hid : old.workspaceId = workspaceId := Table.key_of_get? hrow
        have hheld : (s.db.heldGeneration old.workspaceId).getD 0 = old.generation := by
          rw [InstallationDb.heldGeneration, hid, hrow]
          rfl
        unfold InstallationDb.nextGeneration
        omega
    refine (h workspaceId).unexpired.record (precedence_inactive_le (by simp [lifecycleWatermark]))
      (outlives_lifecycleWatermark hskew) ?_
    rintro _ ⟨⟩
    refine ⟨by rw [htombstone.status]; simp, ?_, ⟨issuedAt, hissued, hskew, settled_recorded ?_⟩,
      htombstone.generation.ge, h.generation_le_row hrow hgeneration⟩
    · rw [htombstone.token]
      split
      · exact (h workspaceId).readable old hrow
      · rw [cipher.open_seal]
        rfl
    · unfold InstallationRow.recordState
      rw [if_pos htombstone.status]
      exact le_rfl

theorem Lineages.retireInstallationForMaintenance (h : Lineages cipher now revoked s.db)
    (input : MaintenanceRetirement) :
    Lineages cipher now revoked (s.retireInstallationForMaintenance cipher now input).2.db := by
  rcases s.run_cases input.workspaceId (fun last => retireInstallationTxn cipher last now input)
      MaintenanceRetirementResult.generation (wp_retireInstallationTxn input) with
    ⟨_, _, hfalse, _⟩ | ⟨r, _, hr, _⟩
  · exact absurd hfalse id
  cases htarget : s.db.maintenanceTarget cipher input with
  | none =>
    rw [htarget] at hr
    exact h.of_keep hr.2.2 (.inl hr.1)
  | some target =>
    obtain ⟨old, token⟩ := target
    rw [htarget] at hr
    obtain ⟨hmarks, _, row, htoken, hstatus, hgeneration, hissued, hsets⟩ := hr
    unfold InstallationDb.maintenanceTarget at htarget
    obtain ⟨old', hold, htoken'⟩ := Option.bind_eq_some_iff.mp htarget
    obtain ⟨_, _, hpair⟩ := Option.map_eq_some_iff.mp htoken'
    obtain ⟨rfl, rfl⟩ := Prod.mk.inj hpair
    obtain ⟨hget, hmatch⟩ := Option.filter_eq_some_iff.mp hold
    have hexpected : old'.status = input.expectedStatus := by
      simp only [Bool.and_eq_true, beq_iff_eq] at hmatch
      exact hmatch.2
    refine h.of_unmarked hsets hmarks ?_
    refine (h input.workspaceId).retire hget ?_ (by rw [hstatus]; simp) ?_ hissued ?_
    · rw [htoken, cipher.open_seal]
      rfl
    · unfold InstallationRow.recordState
      rw [hstatus, hexpected, if_neg (by simp), if_neg input.expectedStatus_ne]
    · rw [hgeneration]
      omega

theorem Lineages.eraseWorkspaceRows (h : Lineages cipher now revoked s.db)
    (workspaceId : WorkspaceId) (expected : Option Nat) :
    Lineages cipher now revoked (s.eraseWorkspaceRows workspaceId expected).2.db := by
  rcases s.run_cases workspaceId (fun _ => eraseWorkspaceTxn workspaceId expected) Option.join
      (wp_eraseWorkspaceTxn expected) with ⟨_, _, hfalse, _⟩ | ⟨r, _, hr, _⟩
  · exact absurd hfalse id
  obtain ⟨hmarks, ⟨_, _, hsets⟩ | ⟨_, hsets⟩⟩ := hr
  · exact h.of_keep hsets (.inl hmarks)
  · exact h.of_unmarked hsets hmarks (h workspaceId).drop

theorem Lineages.issued_le (h : Lineages cipher now revoked s.db) {row : InstallationRow}
    (hrow : s.db.installations.get? workspaceId = some row) :
    ∃ j, row.lifecycleIssuedAt = some j ∧ j ≤ seconds now + lifecycleClockSkewSeconds := by
  obtain ⟨j, hj, hskew, _⟩ := (h workspaceId).issued row hrow
  exact ⟨j, hj, hskew⟩

theorem Lineages.tombstoneInstallation (h : Lineages cipher now revoked s.db)
    (workspaceId : WorkspaceId) :
    Lineages cipher now revoked (s.tombstoneInstallation cipher now workspaceId).2.db := by
  unfold InstallationStore.tombstoneInstallation
  cases hrow : s.db.installations.get? workspaceId with
  | none => exact h
  | some row =>
    obtain ⟨j, hj, hskew⟩ := h.issued_le hrow
    dsimp only
    rw [hj, Option.getD_some]
    exact h.tombstoneLifecycle workspaceId false hskew (by simp) rfl

theorem Lineages.eraseWorkspace (h : Lineages cipher now revoked s.db) (workspaceId : WorkspaceId) :
    Lineages cipher now revoked (s.eraseWorkspace cipher now workspaceId).2.db := by
  unfold InstallationStore.eraseWorkspace
  cases hfound : (s.db.installations.get? workspaceId).filter fun row =>
      row.status != .deleted with
  | none => exact h.eraseWorkspaceRows workspaceId none
  | some row =>
    obtain ⟨j, hj, hskew⟩ := h.issued_le (Option.filter_eq_some_iff.mp hfound).1
    have hmax : max j (seconds now) ≤ seconds now + lifecycleClockSkewSeconds :=
      max_le hskew (Nat.le_add_right _ _)
    have htombstone := h.tombstoneLifecycle workspaceId false hmax (by simp) rfl
    dsimp only
    rw [hj, Option.getD_some]
    split
    · exact htombstone
    · exact htombstone.eraseWorkspaceRows workspaceId none

theorem Lineages.seedLifecycleAuthority {db : InstallationDb} (h : Lineages cipher now revoked db)
    {row : InstallationRow} (hrow : db.installations.get? row.workspaceId = some row) :
    wp (InstallationStore.seedLifecycleAuthority now row) (fun _ db' => db'.installations = db.installations ∧
      Lineages cipher now revoked db') (fun _ => True) db := by
  obtain ⟨j, hj, hskew, _⟩ := (h row.workspaceId).issued row hrow
  obtain ⟨i, hi, hiskew, hactive⟩ : ∃ i, (if row.status = .deleted then
        some (max (row.lifecycleIssuedAt.getD 0) (seconds now)) else row.lifecycleIssuedAt) = some i ∧
      i ≤ seconds now + lifecycleClockSkewSeconds ∧
      (row.status = .active → row.lifecycleIssuedAt = some i) := by
    by_cases hdeleted : row.status = .deleted
    · refine ⟨max j (seconds now), ?_, max_le hskew (Nat.le_add_right _ _), fun hactive => ?_⟩
      · rw [if_pos hdeleted, hj, Option.getD_some]
      · rw [hdeleted] at hactive
        exact absurd hactive (by simp)
    · refine ⟨j, ?_, hskew, fun _ => hj⟩
      rw [if_neg hdeleted, hj]
  unfold InstallationStore.seedLifecycleAuthority
  dsimp only
  rw [hi]
  refine wp_recordIssuedAuthority ⟨rfl, fun w => ?_⟩
  unfold InstallationDb.mark
  simp only [issuedWatermark, Option.map_some, Option.elim_some, get?_recordWatermark,
    lifecycleWatermark, hashLifecycleWorkspace_inj]
  by_cases hw : w = row.workspaceId
  · rw [if_pos hw, hw]
    exact (h row.workspaceId).seed hrow hactive rfl (outlives_lifecycleWatermark hiskew) rfl
  · rw [if_neg hw]
    exact h w

theorem Lineages.openStore (h : Lineages cipher now revoked s.db) :
    Lineages cipher now revoked (s.openStore now).db := by
  have hkeep : SetsRow s.db { s.db with watermarks := pruneWatermarks s.db.watermarks now } 0
      (s.db.installations.get? 0) "" := .keep rfl rfl
  have hpruned := h.of_keep hkeep (.inr rfl)
  refine (commit_inv (P := fun db : InstallationDb => db.installations = s.db.installations ∧
    Lineages cipher now revoked db) ⟨rfl, h⟩ ?_).2
  rw [wp_bind]
  refine wp_forM_inv _ _ (fun row hmem db hdb => ?_) ⟨rfl, hpruned⟩
  have hrow : db.installations.get? row.workspaceId = some row := by
    rw [hdb.1]
    exact Table.get?_of_mem hmem
  refine wp_mono (hdb.2.seedLifecycleAuthority hrow) (fun _ db' hdb' => ?_) fun _ _ => trivial
  exact ⟨hdb'.1.trans hdb.1, hdb'.2⟩

end Calls

section Steps

variable {cipher : TokenCipher} {now : Time} {revoked : WorkspaceId → Set EpochSeconds}
  {s : InstallationStore}

theorem verified_window {claims : OrderedLifecycleClaims}
    (h : verifyOrderedLifecycleToken now claims = true) :
    claims.iat ≤ seconds now + lifecycleClockSkewSeconds ∧ ¬ Elapsed now claims.iat := by
  simp only [verifyOrderedLifecycleToken, Bool.and_eq_true, decide_eq_true_eq] at h
  exact ⟨h.1.2, not_lt.mpr h.2⟩

theorem callbackStatus_ne_deleted (status : String) : callbackStatus status ≠ .deleted := by
  unfold callbackStatus
  split <;> simp

/-- A callback is the only delivery; anything else leaves what has been revoked as it is. -/
theorem LifecycleStep.not_delivers {step : LifecycleStep} {w : WorkspaceId} {i : EpochSeconds}
    (h : ∀ claims event, step ≠ .callback claims event) : ¬ step.Delivers now w i := by
  rintro ⟨claims, event, hstep, _⟩
  exact h claims event hstep

theorem Lineages.callback (h : Lineages cipher now revoked s.db) (claims : OrderedLifecycleClaims)
    (event : LifecycleEvent) (hverified : verifyOrderedLifecycleToken now claims = true) :
    Lineages cipher now
      (fun w => revoked w ∪ {i | (LifecycleStep.callback claims event).Delivers now w i})
      ((event.call claims.iat).apply cipher now s).db := by
  obtain ⟨hskew, htimely⟩ := verified_window hverified
  have hdelivers : ∀ w i, (LifecycleStep.callback claims event).Delivers now w i →
      event.Revokes w ∧ claims.iat = i := by
    rintro w i ⟨_, _, ⟨⟩, _, hrevokes, hi⟩
    exact ⟨hrevokes, hi⟩
  have hsub : ∀ workspaceId, (∀ w, event.Revokes w → w = workspaceId) → ∀ w,
      revoked w ∪ {i | (LifecycleStep.callback claims event).Delivers now w i} ⊆
        revoke revoked workspaceId claims.iat w := by
    rintro workspaceId honly w i (hi | hi)
    · exact subset_revoke w hi
    · obtain ⟨hrevokes, rfl⟩ := hdelivers w i hi
      obtain rfl := honly w hrevokes
      rw [revoke_self]
      exact Set.mem_insert _ _
  have hnone : (∀ w, ¬ event.Revokes w) → ∀ w,
      revoked w ∪ {i | (LifecycleStep.callback claims event).Delivers now w i} ⊆ revoked w := by
    rintro hno w i (hi | hi)
    · exact hi
    · exact absurd (hdelivers w i hi).1 (hno w)
  cases event with
  | installed workspaceId addonToken addonToken_ne attestation =>
    exact (h.saveInstallation _ rfl rfl hskew htimely).mono (hnone fun _ hrevokes => hrevokes)
  | statusChanged workspaceId status =>
    have hstep := h.setInstallationStatus workspaceId (callbackStatus_ne_deleted status) hskew
      htimely rfl
    by_cases hactive : callbackStatus status = .active
    · rw [if_pos hactive] at hstep
      exact hstep.mono (hnone fun _ hrevokes => hrevokes.2 hactive)
    · rw [if_neg hactive] at hstep
      exact hstep.mono (hsub workspaceId fun _ hrevokes => hrevokes.1.symm)
  | deleted workspaceId =>
    have hstep := h.tombstoneLifecycle workspaceId true hskew (fun _ => htimely) rfl
    exact hstep.mono (hsub workspaceId fun _ hrevokes => hrevokes.symm)

theorem Lineages.step (h : Lineages cipher now revoked s.db) (step : LifecycleStep) :
    Lineages cipher now (fun w => revoked w ∪ {i | step.Delivers now w i})
      (step.apply cipher now s).db := by
  have hother : (∀ claims event, step ≠ .callback claims event) → ∀ w,
      revoked w ∪ {i | step.Delivers now w i} ⊆ revoked w := by
    rintro hstep w i (hi | hi)
    · exact hi
    · exact absurd hi (LifecycleStep.not_delivers hstep)
  cases step with
  | callback claims event =>
    by_cases hverified : verifyOrderedLifecycleToken now claims = true
    · have happly : (LifecycleStep.callback claims event).apply cipher now s =
          (event.call claims.iat).apply cipher now s := by
        simp [LifecycleStep.apply, LifecycleStep.call?, hverified]
      rw [happly]
      exact h.callback claims event hverified
    · have happly : (LifecycleStep.callback claims event).apply cipher now s = s := by
        simp [LifecycleStep.apply, LifecycleStep.call?, hverified]
      rw [happly]
      refine h.mono ?_
      rintro w i (hi | ⟨_, _, ⟨⟩, hyes, _⟩)
      · exact hi
      · exact absurd hyes hverified
  | tombstoneInstallation workspaceId =>
    exact (h.tombstoneInstallation workspaceId).mono (hother (by simp))
  | retireInstallationForMaintenance input =>
    exact (h.retireInstallationForMaintenance input).mono (hother (by simp))
  | eraseWorkspace workspaceId => exact (h.eraseWorkspace workspaceId).mono (hother (by simp))
  | eraseWorkspaceForDeletion workspaceId generation =>
    exact (h.eraseWorkspaceRows workspaceId (some generation)).mono (hother (by simp))
  | openStore => exact h.openStore.mono (hother (by simp))

end Steps

section Runs

variable {cipher : TokenCipher}

theorem runLifecycle_concat (steps : List (Nat × LifecycleStep)) (step : Nat × LifecycleStep) :
    runLifecycle cipher (steps ++ [step]) = ((runLifecycle cipher steps).1 + step.1,
        step.2.apply cipher ((runLifecycle cipher steps).1 + step.1)
          (runLifecycle cipher steps).2) := by
  simp [runLifecycle]

theorem revoked_concat (steps : List (Nat × LifecycleStep)) (step : Nat × LifecycleStep)
    (w : WorkspaceId) : Revoked cipher (steps ++ [step]) w ⊆ Revoked cipher steps w ∪
      {i | step.2.Delivers ((runLifecycle cipher steps).1 + step.1) w i} := by
  rintro i ⟨before, step', after, hsplit, hdelivers⟩
  rcases List.eq_nil_or_concat after with rfl | ⟨rest, last, rfl⟩
  · obtain ⟨rfl, hstep⟩ := List.append_inj' hsplit rfl
    obtain rfl : step = step' := by simpa using hstep
    exact .inr hdelivers
  · have hinit : steps ++ [step] = (before ++ step' :: rest) ++ [last] := by
      simpa [List.append_assoc] using hsplit
    exact .inl ⟨before, step', rest, (List.append_inj' hinit rfl).1, hdelivers⟩

theorem runLifecycle_lineages (cipher : TokenCipher) (steps : List (Nat × LifecycleStep)) :
    Lineages cipher (runLifecycle cipher steps).1 (Revoked cipher steps)
      (runLifecycle cipher steps).2.db := by
  induction steps using List.reverseRecOn with
  | nil =>
    refine fun w => Lineage.none.mono ?_
    rintro i ⟨before, step, after, hsplit, _⟩
    simp at hsplit
  | append_singleton steps step ih =>
    rw [runLifecycle_concat]
    have hstep := (ih.later (Nat.le_add_right _ step.1)).step step.2
    exact hstep.mono (revoked_concat steps step)

end Runs

end ClockifyAssistant
