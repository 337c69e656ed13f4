import ClockifyAssistant.LifecycleRuns

/-!
What each step of a lifecycle run does to the row of a workspace: the steps that
renew the authority raise its generation, the others keep it, and a stale
callback or one that carries a retired token leaves the row as it was.
-/
namespace ClockifyAssistant

open Lib Txn

variable {cipher : TokenCipher} {now : Time} {db : InstallationDb} {s : InstallationStore}
  {workspaceId : WorkspaceId} {revoked : WorkspaceId → Set EpochSeconds}

section Renewals

/-- The calls that open a new generation: a replacing install, a reactivation, the uninstall of
what is not yet deleted and a maintenance retirement. -/
def InstallationCall.Renews (cipher : TokenCipher) (now : Time) (db : InstallationDb) :
    InstallationCall → Prop
  | saveInstallation input => db.replaces cipher now input = true
  | setInstallationStatus workspaceId status issuedAt =>
      status = .active ∧ ∃ row, db.statusTarget now workspaceId status issuedAt = some row ∧
        row.status ≠ .active
  | tombstoneInstallationForLifecycle workspaceId issuedAt =>
      (db.tombstoneTarget cipher now workspaceId issuedAt).isSome
  | tombstoneInstallation workspaceId =>
      ∃ row, db.installations.get? workspaceId = some row ∧
        (db.tombstoneTarget cipher now workspaceId
          (row.lifecycleIssuedAt.getD (seconds now))).isSome
  | retireInstallationForMaintenance input => (db.maintenanceTarget cipher input).isSome
  | eraseWorkspace _ => False
  | eraseWorkspaceForDeletion _ _ => False
  | openStore => False

/-- The row a workspace is left with has a new generation if it is renewed and its old one if not. -/
structure Graded (db : InstallationDb) (now : Time) (lastGeneration : Nat)
    (workspaceId : WorkspaceId) (renews : Prop) (row : Option InstallationRow) : Prop where
  raised : renews → ∃ r, row = some r ∧
    db.nextGeneration now workspaceId lastGeneration ≤ r.generation
  kept : ¬ renews → ∀ r, row = some r → db.heldGeneration workspaceId = some r.generation

variable {last : Nat} {renews : Prop} {row : Option InstallationRow}

theorem Graded.keep (hrenews : ¬ renews) :
    Graded db now last workspaceId renews (db.installations.get? workspaceId) := by
  refine ⟨fun h => absurd h hrenews, fun _ r hr => ?_⟩
  rw [InstallationDb.heldGeneration, hr]
  rfl

theorem Graded.none (hrenews : ¬ renews) : Graded db now last workspaceId renews none :=
  ⟨fun h => absurd h hrenews, fun _ r hr => by simp at hr⟩

theorem Graded.raise {r : InstallationRow} (hrenews : renews)
    (h : db.nextGeneration now workspaceId last ≤ r.generation) :
    Graded db now last workspaceId renews (some r) :=
  ⟨fun _ => ⟨r, rfl, h⟩, fun hnot => absurd hrenews hnot⟩

theorem Graded.same {r old : InstallationRow} (hrenews : ¬ renews)
    (hold : db.installations.get? workspaceId = some old) (h : r.generation = old.generation) :
    Graded db now last workspaceId renews (some r) := by
  refine ⟨fun hyes => absurd hyes hrenews, ?_⟩
  rintro _ _ ⟨⟩
  rw [InstallationDb.heldGeneration, hold, h]
  rfl

/-- The recorded authority of a workspace with a row has no generation above the row's. -/
theorem Lineages.authorityGeneration_le (h : Lineages cipher now revoked db)
    {r : InstallationRow} (hr : db.installations.get? workspaceId = some r) :
    authorityGeneration (db.recordedAuthority workspaceId now) ≤ r.generation := by
  obtain ⟨j, hj, _⟩ := (h workspaceId).issued r hr
  rw [recordedAuthority_eq, hr]
  cases hmark : unexpired now (db.mark workspaceId) with
  | none => simp [effectiveAuthority, hj, authorityGeneration]
  | some w =>
    have hle := (h workspaceId).unexpired.generation r w hr hmark
    simp only [effectiveAuthority, hj, Option.map_some, authorityGeneration, Option.getD_some,
      EffectiveLifecycleAuthority.merge, LifecycleAuthorityWatermark.authority]
    split
    · exact le_rfl
    · split
      · exact hle
      · exact max_le hle le_rfl

end Renewals

section Outcomes

variable {issuedAt : EpochSeconds}

theorem saveInstallation_graded (h : Lineages cipher now revoked s.db)
    (input : InstallationInput) : ∃ row token,
    SetsRow s.db (s.saveInstallation cipher now input).2.db input.workspaceId row token ∧
      Graded s.db now (s.lastGenerations input.workspaceId) input.workspaceId
        (s.db.replaces cipher now input = true) row := by
  rcases s.run_cases input.workspaceId (fun last => saveInstallationTxn cipher last now input)
      InstallationSaveResult.generation (wp_saveInstallationTxn input) with
    ⟨_, _, hunreadable, _⟩ | ⟨r, _, hr, _⟩
  · exact absurd hunreadable (h.readable input.workspaceId)
  by_cases hreplaces : s.db.replaces cipher now input
  · rw [if_pos hreplaces] at hr
    obtain ⟨_, ⟨row, hsaved, hsets⟩, _⟩ := hr
    exact ⟨some row, _, hsets, .raise hreplaces hsaved.generation.ge⟩
  · rw [if_neg hreplaces] at hr
    exact ⟨_, _, hr.2.2.1, .keep hreplaces⟩

theorem setInstallationStatus_graded (workspaceId : WorkspaceId) (status : InstallationStatus)
    (issuedAt : Option EpochSeconds) : ∃ row token,
    SetsRow s.db (s.setInstallationStatus now workspaceId status issuedAt).2.db workspaceId row
        token ∧ Graded s.db now (s.lastGenerations workspaceId) workspaceId
        ((InstallationCall.setInstallationStatus workspaceId status issuedAt).Renews cipher now s.db)
        row := by
  rcases s.run_cases workspaceId
      (fun last => setInstallationStatusTxn last now workspaceId status issuedAt)
      InstallationStatusResult.generation (wp_setInstallationStatusTxn status issuedAt) with
    ⟨_, _, hfalse, _⟩ | ⟨r, _, hr, _⟩
  · exact absurd hfalse id
  cases htarget : s.db.statusTarget now workspaceId status issuedAt with
  | none =>
    rw [htarget] at hr
    refine ⟨_, _, hr.2.1, .keep ?_⟩
    rintro ⟨_, old, hold, _⟩
    rw [htarget] at hold
    exact absurd hold (by simp)
  | some old =>
    rw [htarget] at hr
    obtain ⟨_, ⟨row, hupdated, hsets⟩, _⟩ := hr
    have hold : s.db.installations.get? workspaceId = some old := by
      unfold InstallationDb.statusTarget at htarget
      split at htarget
      · simp at htarget
      · exact (Option.filter_eq_some_iff.mp htarget).1
    have hid : old.workspaceId = workspaceId := Table.key_of_get? hold
    have hgeneration := hupdated.generation
    unfold InstallationDb.statusGeneration at hgeneration
    refine ⟨some row, _, hsets, ?_⟩
    by_cases hactive : status = .active ∧ old.status ≠ .active
    · rw [if_pos hactive, hid] at hgeneration
      exact .raise ⟨hactive.1, old, htarget, hactive.2⟩ hgeneration.ge
    · rw [if_neg hactive] at hgeneration
      refine .same ?_ hold hgeneration
      rintro ⟨hstatus, old', hold', hne⟩
      obtain rfl : old = old' := Option.some.inj (htarget.symm.trans hold')
      exact hactive ⟨hstatus, hne⟩

theorem tombstoneLifecycle_graded (h : Lineages cipher now revoked s.db)
    (workspaceId : WorkspaceId) (issuedAt : EpochSeconds) (recordAbsent : Bool) : ∃ row token,
    SetsRow s.db (s.tombstoneLifecycle cipher now workspaceId issuedAt recordAbsent).2.db
        workspaceId row token ∧ Graded s.db now (s.lastGenerations workspaceId) workspaceId
        ((s.db.tombstoneTarget cipher now workspaceId issuedAt).isSome = true) row := by
  rcases s.run_cases workspaceId
      (fun last => tombstoneLifecycleTxn cipher last now workspaceId issuedAt recordAbsent)
      LifecycleDeletionResult.generation (wp_tombstoneLifecycleTxn issuedAt recordAbsent) with
    ⟨_, _, hunreadable, _⟩ | ⟨r, _, hr, _⟩
  · exact absurd hunreadable (h.readable workspaceId)
  by_cases hstale : staleDeletion (s.db.recordedAuthority workspaceId now) issuedAt
  · rw [if_pos hstale] at hr
    refine ⟨_, _, hr.2.1, .keep ?_⟩
    simp [InstallationDb.tombstoneTarget, hstale]
  rw [if_neg hstale] at hr
  cases hrow : s.db.installations.get? workspaceId with
  | none =>
    rw [hrow] at hr
    refine ⟨_, _, hr.2.1, .none ?_⟩
    simp [InstallationDb.tombstoneTarget, hrow]
  | some old =>
    rw [hrow] at hr
    obtain ⟨_, hreadable, ⟨row, htombstone, hsets⟩, _⟩ := hr
    refine ⟨some row, _, hsets, ?_⟩
    have hid : old.workspaceId = workspaceId := Table.key_of_get? hrow
    have hgeneration := htombstone.generation
    unfold InstallationDb.tombstoneGeneration at hgeneration
    by_cases hdeleted : old.status = .deleted
    · rw [if_pos hdeleted] at hgeneration
      refine .same ?_ hrow hgeneration
      simp [InstallationDb.tombstoneTarget, hrow, hdeleted]
    · rw [if_neg hdeleted, hid] at hgeneration
      refine .raise ?_ hgeneration.ge
      obtain ⟨token, htoken⟩ := Option.isSome_iff_exists.mp (hreadable.resolve_left hdeleted)
      simp [InstallationDb.tombstoneTarget, hstale, hrow, Option.filter_some, hdeleted, htoken]

theorem retireInstallationForMaintenance_graded (h : Lineages cipher now revoked s.db)
    (input : MaintenanceRetirement) : ∃ row token,
    SetsRow s.db (s.retireInstallationForMaintenance cipher now input).2.db input.workspaceId row
        token ∧ Graded s.db now (s.lastGenerations input.workspaceId) input.workspaceId
        ((s.db.maintenanceTarget cipher input).isSome = true) row := by
  rcases s.run_cases input.workspaceId (fun last => retireInstallationTxn cipher last now input)
      MaintenanceRetirementResult.generation (wp_retireInstallationTxn input) with
    ⟨_, _, hfalse, _⟩ | ⟨r, _, hr, _⟩
  · exact absurd hfalse id
  cases htarget : s.db.maintenanceTarget cipher input with
  | none =>
    rw [htarget] at hr
    exact ⟨_, _, hr.2.2, .keep (by simp)⟩
  | some target =>
    obtain ⟨old, token⟩ := target
    rw [htarget] at hr
    obtain ⟨_, _, row, _, _, hgeneration, _, hsets⟩ := hr
    have hold : s.db.installations.get? input.workspaceId = some old := by
      unfold InstallationDb.maintenanceTarget at htarget
      obtain ⟨old', hfound, htoken⟩ := Option.bind_eq_some_iff.mp htarget
      obtain ⟨_, _, hpair⟩ := Option.map_eq_some_iff.mp htoken
      obtain rfl := (Prod.mk.inj hpair).1
      exact (Option.filter_eq_some_iff.mp hfound).1
    have hheld : (s.db.heldGeneration input.workspaceId).getD 0 = old.generation := by
      rw [InstallationDb.heldGeneration, hold]
      rfl
    have hauthority := h.authorityGeneration_le hold
    refine ⟨some row, _, hsets, .raise rfl ?_⟩
    rw [hgeneration]
    unfold InstallationDb.nextGeneration
    omega

theorem eraseWorkspace_graded (h : Lineages cipher now revoked s.db) (workspaceId : WorkspaceId) :
    ∃ token, SetsRow s.db (s.eraseWorkspace cipher now workspaceId).2.db workspaceId none token := by
  have herase : ∀ s' : InstallationStore,
      SetsRow s'.db (s'.eraseWorkspaceRows workspaceId none).2.db workspaceId none "" := by
    intro s'
    obtain ⟨row, ⟨_, hsome⟩ | rfl, hsets⟩ := eraseWorkspaceRows_sets s' workspaceId none
    · exact absurd rfl hsome
    · exact hsets
  unfold InstallationStore.eraseWorkspace
  cases hfound : (s.db.installations.get? workspaceId).filter fun row =>
      row.status != .deleted with
  | none => exact ⟨_, herase s⟩
  | some old =>
    obtain ⟨row, token, hsets, _⟩ := tombstoneLifecycle_graded h workspaceId
      (max (old.lifecycleIssuedAt.getD 0) (seconds now)) false
    dsimp only
    split
    · rename_i e herror
      rcases s.run_cases workspaceId
          (fun last => tombstoneLifecycleTxn cipher last now workspaceId
            (max (old.lifecycleIssuedAt.getD 0) (seconds now)) false)
          LifecycleDeletionResult.generation (wp_tombstoneLifecycleTxn _ false) with
        ⟨_, _, hunreadable, _⟩ | ⟨r, hok, _, _⟩
      · exact absurd hunreadable (h.readable workspaceId)
      · exact absurd (hok.symm.trans herror) (by simp)
    · exact ⟨token, hsets.trans (herase _)⟩

/-- Every call sets at most the row of its workspace, raises the generation if it renews the
authority and keeps it otherwise. -/
theorem InstallationCall.apply_graded (h : Lineages cipher now revoked s.db)
    (call : InstallationCall) : ∃ row token,
    SetsRow s.db (call.apply cipher now s).db call.workspaceId row token ∧
      Graded s.db now (s.lastGenerations call.workspaceId) call.workspaceId
        (call.Renews cipher now s.db) row := by
  cases call with
  | saveInstallation input => exact saveInstallation_graded h input
  | setInstallationStatus workspaceId status issuedAt =>
    exact setInstallationStatus_graded workspaceId status issuedAt
  | tombstoneInstallationForLifecycle workspaceId issuedAt =>
    exact tombstoneLifecycle_graded h workspaceId issuedAt true
  | tombstoneInstallation workspaceId =>
    simp only [apply, InstallationCall.workspaceId, InstallationStore.tombstoneInstallation, Renews]
    cases hrow : s.db.installations.get? workspaceId with
    | none =>
      refine ⟨_, "", .keep rfl rfl, ?_⟩
      rw [hrow]
      exact .none (by simp)
    | some old =>
      obtain ⟨row, token, hsets, hgraded⟩ := tombstoneLifecycle_graded h workspaceId
        (old.lifecycleIssuedAt.getD (seconds now)) false
      refine ⟨row, token, hsets, ?_⟩
      simpa using hgraded
  | retireInstallationForMaintenance input =>
    exact retireInstallationForMaintenance_graded h input
  | eraseWorkspace workspaceId =>
    obtain ⟨token, hsets⟩ := eraseWorkspace_graded h workspaceId
    exact ⟨none, token, hsets, .none id⟩
  | eraseWorkspaceForDeletion workspaceId generation =>
    obtain ⟨row, ⟨rfl, _⟩ | rfl, hsets⟩ := eraseWorkspaceRows_sets s workspaceId (some generation)
    · exact ⟨_, _, hsets, .keep id⟩
    · exact ⟨_, _, hsets, .none id⟩
  | openStore =>
    refine ⟨s.db.installations.get? 0, "", ?_, .keep id⟩
    exact .keep (openStore_rows now s).1 (openStore_rows now s).2

end Outcomes

section Callbacks

variable {issuedAt : EpochSeconds}

/-- An INSTALLED callback that does not replace leaves every row as it was. -/
theorem saveInstallation_row (input : InstallationInput)
    (hreplaces : s.db.replaces cipher now input = false) (w : WorkspaceId) :
    (s.saveInstallation cipher now input).2.db.installations.get? w =
      s.db.installations.get? w := by
  rcases s.run_cases input.workspaceId (fun last => saveInstallationTxn cipher last now input)
      InstallationSaveResult.generation (wp_saveInstallationTxn input) with
    ⟨_, _, _, hs⟩ | ⟨r, _, hr, _⟩
  · unfold InstallationStore.saveInstallation
    rw [hs]
  · rw [if_neg (by rw [hreplaces]; simp)] at hr
    exact hr.2.2.1.keep_lookup w

theorem setInstallationStatus_row_of_stale {status : InstallationStatus}
    (hstale : staleStatus (s.db.recordedAuthority workspaceId now) status (some issuedAt) = true)
    (w : WorkspaceId) :
    (s.setInstallationStatus now workspaceId status (some issuedAt)).2.db.installations.get? w =
      s.db.installations.get? w := by
  rcases s.run_cases workspaceId
      (fun last => setInstallationStatusTxn last now workspaceId status (some issuedAt))
      InstallationStatusResult.generation (wp_setInstallationStatusTxn status (some issuedAt)) with
    ⟨_, _, hfalse, _⟩ | ⟨r, _, hr, _⟩
  · exact absurd hfalse id
  · have htarget : s.db.statusTarget now workspaceId status (some issuedAt) = none :=
      if_pos hstale
    rw [htarget] at hr
    exact hr.2.1.keep_lookup w

theorem tombstoneLifecycle_row_of_stale {recordAbsent : Bool}
    (hstale : staleDeletion (s.db.recordedAuthority workspaceId now) issuedAt = true)
    (w : WorkspaceId) :
    (s.tombstoneLifecycle cipher now workspaceId issuedAt recordAbsent).2.db.installations.get? w =
      s.db.installations.get? w := by
  rcases s.run_cases workspaceId
      (fun last => tombstoneLifecycleTxn cipher last now workspaceId issuedAt recordAbsent)
      LifecycleDeletionResult.generation (wp_tombstoneLifecycleTxn issuedAt recordAbsent) with
    ⟨_, _, _, hs⟩ | ⟨r, _, hr, _⟩
  · unfold InstallationStore.tombstoneLifecycle
    rw [hs]
  · rw [if_pos hstale] at hr
    exact hr.2.1.keep_lookup w

/-- A callback older than the recorded authority, the rank deciding at equal issue times,
leaves every row as it was. -/
theorem LifecycleEvent.row_of_stale (event : LifecycleEvent) {a : EffectiveLifecycleAuthority}
    (ha : s.db.recordedAuthority event.workspaceId now = some a)
    (hstale : precedence issuedAt event.state < a.precedence) (w : WorkspaceId) :
    ((event.call issuedAt).apply cipher now s).db.installations.get? w =
      s.db.installations.get? w := by
  cases event with
  | installed workspaceId addonToken addonToken_ne attestation =>
    refine saveInstallation_row _ ?_ w
    have hinstall : staleInstall (s.db.recordedAuthority workspaceId now) (some issuedAt) =
        true := by
      by_contra hfresh
      have hlt := staleInstall_eq_false_iff.mp (Bool.eq_false_iff.mpr hfresh) a ha
      exact absurd hstale (not_lt.mpr hlt.le)
    simp [InstallationDb.replaces, hinstall]
  | statusChanged workspaceId status =>
    refine setInstallationStatus_row_of_stale ?_ w
    by_contra hfresh
    have hle := staleStatus_eq_false_iff.mp (Bool.eq_false_iff.mpr hfresh) a ha
    exact absurd hstale (not_lt.mpr hle)
  | deleted workspaceId =>
    refine tombstoneLifecycle_row_of_stale ?_ w
    by_contra hfresh
    have hle := staleDeletion_eq_false_iff.mp (Bool.eq_false_iff.mpr hfresh) a ha
    exact absurd hstale (not_lt.mpr hle)

end Callbacks

section Steps

variable (cipher now db)

/-- The step renews the authority of the workspace. -/
def LifecycleStep.Renews (workspaceId : WorkspaceId) (step : LifecycleStep) : Prop :=
  ∃ call, step.call? now = some call ∧ call.workspaceId = workspaceId ∧ call.Renews cipher now db

variable {cipher now db}

theorem LifecycleStep.apply_graded (h : Lineages cipher now revoked s.db) (step : LifecycleStep)
    (w : WorkspaceId) : Graded s.db now (s.lastGenerations w) w (step.Renews cipher now s.db w)
        ((step.apply cipher now s).db.installations.get? w) ∧
      s.db.retiredTokens ⊆ (step.apply cipher now s).db.retiredTokens := by
  unfold LifecycleStep.apply LifecycleStep.Renews
  cases hcall : step.call? now with
  | none => exact ⟨.keep (by simp), List.Subset.refl _⟩
  | some call =>
    obtain ⟨row, token, hsets, hgraded⟩ := call.apply_graded h
    refine ⟨?_, fun digest hdigest => ?_⟩
    · simp only [Option.elim_some, Option.some.injEq, exists_eq_left']
      rw [hsets.lookup]
      by_cases hw : w = call.workspaceId
      · subst hw
        simpa using hgraded
      · rw [if_neg hw]
        exact .keep fun hyes => hw hyes.1.symm
    · rw [Option.elim_some, hsets.retiredTokens]
      exact mem_retire.mpr (.inl hdigest)

theorem LifecycleStep.callback_row {claims : OrderedLifecycleClaims} {event : LifecycleEvent}
    {w : WorkspaceId} (h : ((event.call claims.iat).apply cipher now s).db.installations.get? w =
      s.db.installations.get? w) :
    ((LifecycleStep.callback claims event).apply cipher now s).db.installations.get? w =
      s.db.installations.get? w := by
  by_cases hverified : verifyOrderedLifecycleToken now claims = true
  · simpa [apply, call?, hverified] using h
  · simp [apply, call?, hverified]

end Steps

section Runs

theorem runLifecycle_retiredTokens {before steps : List (Nat × LifecycleStep)}
    (h : before <+: steps) : (runLifecycle cipher before).2.db.retiredTokens ⊆
      (runLifecycle cipher steps).2.db.retiredTokens := by
  obtain ⟨rest, rfl⟩ := h
  induction rest using List.reverseRecOn with
  | nil => simp
  | append_singleton rest step ih =>
    rw [← List.append_assoc, runLifecycle_concat]
    have hlineages := (runLifecycle_lineages cipher (before ++ rest)).later
      (Nat.le_add_right _ step.1)
    exact List.Subset.trans ih (step.2.apply_graded hlineages 0).2

/-- The order of the callbacks of a workspace, for the step that follows a run. -/
structure CallbackOrder (cipher : TokenCipher) (steps : List (Nat × LifecycleStep))
    (step : Nat × LifecycleStep) (workspaceId : WorkspaceId) (now : Time)
    (s s' : InstallationStore) : Prop where
  /-- A renewed authority has a generation above the row's, the process's and the recorded one. -/
  raised : step.2.Renews cipher now s.db workspaceId →
    ∃ r, s'.db.installations.get? workspaceId = some r ∧
      (∀ generation, s.db.heldGeneration workspaceId = some generation →
        generation < r.generation) ∧
      s.lastGenerations workspaceId < r.generation ∧
      ∀ a, s.db.recordedAuthority workspaceId now = some a → a.installationGeneration < r.generation
  kept : ¬ step.2.Renews cipher now s.db workspaceId →
    ∀ r, s'.db.installations.get? workspaceId = some r →
      s.db.heldGeneration workspaceId = some r.generation
  stale : ∀ claims event a, step.2 = .callback claims event →
    s.db.recordedAuthority event.workspaceId now = some a →
    precedence claims.iat event.state < a.precedence →
    s'.db.installations.get? workspaceId = s.db.installations.get? workspaceId
  retired : ∀ claims other token hne attestation before,
    step.2 = .callback claims (.installed other token hne attestation) → before <+: steps →
    hashRetiredInstallationToken token ∈ (runLifecycle cipher before).2.db.retiredTokens →
    s'.db.installations.get? workspaceId = s.db.installations.get? workspaceId
  /-- An active row was issued after every INACTIVE and DELETED delivered, ties included. -/
  superseded : ∀ i ∈ Revoked cipher (steps ++ [step]) workspaceId, ∀ r,
    s'.db.installations.get? workspaceId = some r → r.status = .active →
    ∃ j, r.lifecycleIssuedAt = some j ∧ i < j

theorem runLifecycle_callbackOrder (cipher : TokenCipher) (steps : List (Nat × LifecycleStep))
    (step : Nat × LifecycleStep) (workspaceId : WorkspaceId) :
    CallbackOrder cipher steps step workspaceId ((runLifecycle cipher steps).1 + step.1)
      (runLifecycle cipher steps).2 (runLifecycle cipher (steps ++ [step])).2 := by
  have hlineages := (runLifecycle_lineages cipher steps).later (Nat.le_add_right _ step.1)
  have hgraded := (step.2.apply_graded hlineages workspaceId).1
  have hafter : (runLifecycle cipher (steps ++ [step])).2 =
      step.2.apply cipher ((runLifecycle cipher steps).1 + step.1)
        (runLifecycle cipher steps).2 := by
    rw [runLifecycle_concat]
  refine ⟨fun hrenews => ?_, fun hkeeps r hr => ?_, ?_, ?_, fun i hi r hr hactive => ?_⟩
  · obtain ⟨r, hr, hnext⟩ := hgraded.raised hrenews
    unfold InstallationDb.nextGeneration at hnext
    refine ⟨r, hafter ▸ hr, fun generation hheld => ?_, by omega, fun a ha => ?_⟩
    · rw [hheld, Option.getD_some] at hnext
      omega
    · rw [ha, authorityGeneration, Option.map_some, Option.getD_some] at hnext
      omega
  · rw [hafter] at hr
    exact hgraded.kept hkeeps r hr
  · intro claims event a hstep ha hstale
    rw [hafter, hstep]
    exact LifecycleStep.callback_row (event.row_of_stale ha hstale workspaceId)
  · intro claims other token hne attestation before hstep hbefore hretired
    rw [hafter, hstep]
    refine LifecycleStep.callback_row (saveInstallation_row _ ?_ workspaceId)
    have hmem := runLifecycle_retiredTokens hbefore hretired
    simp only [InstallationDb.replaces, List.contains_iff_mem.mpr hmem, Bool.not_true,
      Bool.and_false]
  · have hlineage := runLifecycle_lineages cipher (steps ++ [step]) workspaceId
    obtain ⟨j, hj, _⟩ := hlineage.issued r hr
    exact ⟨j, hj, hlineage.superseded i hi r j hr hactive hj⟩

/-- An INACTIVE that is accepted changes the row and keeps its generation. -/
theorem not_generation_raised_by_every_change :
    ¬ ∀ (cipher : TokenCipher) (steps : List (Nat × LifecycleStep)) (step : Nat × LifecycleStep)
      (workspaceId : WorkspaceId) (row row' : InstallationRow),
      (runLifecycle cipher steps).2.db.installations.get? workspaceId = some row →
      (runLifecycle cipher (steps ++ [step])).2.db.installations.get? workspaceId = some row' →
      row' ≠ row → row.generation < row'.generation := by
  intro h
  have hlt := h .plain [(10000, .callback ⟨10, 10⟩ (.installed 1 "t" (by decide) none))]
    (10000, .callback ⟨20, 20⟩ (.statusChanged 1 "INACTIVE")) 1
    ⟨1, "t", .active, 1, some 10, none, 10000, 10000⟩
    ⟨1, "t", .inactive, 1, some 20, none, 10000, 20000⟩
    (by decide +kernel) (by decide +kernel) (by decide)
  exact absurd hlt (by decide)

end Runs

end ClockifyAssistant
