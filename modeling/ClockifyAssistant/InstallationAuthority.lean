import Mathlib.Data.List.Induction
import ClockifyAssistant.Lib.History
import ClockifyAssistant.InstallationSteps

/-!
Authority of an installation: an active row holds a token that is neither empty
nor retired. A call sets the row of one workspace and retires at most one token,
so it keeps the authority of every row exactly when it reactivates no row
without a live token and withdraws no token that another active row holds.
-/
namespace ClockifyAssistant

open Lib Txn

variable {cipher : TokenCipher}

section Authorized

variable (cipher)

def InstallationRow.Live (db : InstallationDb) (row : InstallationRow) : Prop :=
  ∃ token, cipher.openToken row.addonTokenCiphertext = some token ∧ token ≠ "" ∧
    hashRetiredInstallationToken token ∉ db.retiredTokens

/-- Every active row holds a nonempty token that has not been retired. -/
def InstallationDb.Authorized (db : InstallationDb) : Prop :=
  ∀ workspaceId row, db.installations.get? workspaceId = some row → row.status = .active →
    row.Live cipher db

/-- No active row of another workspace holds the token, unless the empty one stands for none. -/
def InstallationDb.Exclusive (db : InstallationDb) (workspaceId : WorkspaceId)
    (token : AddonToken) : Prop :=
  token ≠ "" → ∀ other row, other ≠ workspaceId → db.installations.get? other = some row →
    row.status = .active → cipher.openToken row.addonTokenCiphertext ≠ some token

variable {cipher}

theorem SetsRow.live_of_exclusive {db db' : InstallationDb} {workspaceId : WorkspaceId}
    {row : Option InstallationRow} {token : AddonToken} {r : InstallationRow}
    (h : SetsRow db db' workspaceId row token) (hr : r.Live cipher db)
    (hne : token ≠ "" → cipher.openToken r.addonTokenCiphertext ≠ some token) :
    r.Live cipher db' := by
  obtain ⟨held, hheld, hnonempty, hlive⟩ := hr
  refine ⟨held, hheld, hnonempty, ?_⟩
  rw [h.retiredTokens, mem_retire]
  rintro (hmem | ⟨htoken, heq⟩)
  · exact hlive hmem
  · have hsame : held = token := by simpa [hashRetiredInstallationToken] using heq
    exact hne htoken (hsame ▸ hheld)

theorem SetsRow.authorized_iff {db db' : InstallationDb} {workspaceId : WorkspaceId}
    {row : Option InstallationRow} {token : AddonToken}
    (h : SetsRow db db' workspaceId row token) (hdb : db.Authorized cipher) :
    db'.Authorized cipher ↔ (∀ r, row = some r → r.status = .active → r.Live cipher db') ∧
        db.Exclusive cipher workspaceId token := by
  constructor
  · intro hdb'
    refine ⟨fun r hr hactive => hdb' workspaceId r ?_ hactive, ?_⟩
    · rw [h.lookup, if_pos rfl, hr]
    intro hnonempty other r hother hr hactive hopen
    have hr' : db'.installations.get? other = some r := by rw [h.lookup, if_neg hother, hr]
    obtain ⟨held, hheld, _, hlive⟩ := hdb' other r hr' hactive
    obtain rfl : token = held := Option.some.inj (hopen.symm.trans hheld)
    refine hlive ?_
    rw [h.retiredTokens, mem_retire]
    exact .inr ⟨hnonempty, rfl⟩
  · rintro ⟨hrow, hexclusive⟩ w r hr hactive
    rw [h.lookup] at hr
    by_cases hw : w = workspaceId
    · rw [if_pos hw] at hr
      exact hrow r hr hactive
    · rw [if_neg hw] at hr
      exact h.live_of_exclusive (hdb w r hr hactive) fun hne => hexclusive hne w r hw hr hactive

end Authorized

section Effects

variable (cipher) (now : Time) (db : InstallationDb)

/-- The token an uninstall wipes, the empty one when it wipes none. -/
def InstallationDb.tombstoned (workspaceId : WorkspaceId) (issuedAt : EpochSeconds) : AddonToken :=
  ((db.tombstoneTarget cipher now workspaceId issuedAt).map Prod.snd).getD ""

/-- The token a call retires, the empty one when it retires none. -/
def InstallationCall.withdraws : InstallationCall → AddonToken
  | saveInstallation input =>
      if db.replaces cipher now input then (db.heldToken cipher input.workspaceId).getD "" else ""
  | setInstallationStatus _ _ _ => ""
  | tombstoneInstallationForLifecycle workspaceId issuedAt =>
      db.tombstoned cipher now workspaceId issuedAt
  | tombstoneInstallation workspaceId =>
      match db.installations.get? workspaceId with
      | none => ""
      | some row =>
          db.tombstoned cipher now workspaceId (row.lifecycleIssuedAt.getD (seconds now))
  | retireInstallationForMaintenance input =>
      ((db.maintenanceTarget cipher input).map Prod.snd).getD ""
  | eraseWorkspace workspaceId =>
      match (db.installations.get? workspaceId).filter fun row => row.status != .deleted with
      | none => ""
      | some row => db.tombstoned cipher now workspaceId
          (max (row.lifecycleIssuedAt.getD 0) (seconds now))
  | eraseWorkspaceForDeletion _ _ => ""
  | openStore => ""

/-- The installation a call makes active again. -/
def InstallationCall.reactivates : InstallationCall → Option InstallationRow
  | setInstallationStatus workspaceId status issuedAt =>
      (db.statusTarget now workspaceId status issuedAt).filter fun row =>
        status == .active && row.status != .active
  | _ => none

/-- What a call makes active again holds a live token, and what it retires no other active row holds. -/
def InstallationCall.Sound (call : InstallationCall) : Prop :=
  (∀ row, call.reactivates now db = some row → row.Live cipher db) ∧
    db.Exclusive cipher call.workspaceId (call.withdraws cipher now db)

/-- A row that is not active, or else holds a live token other than the withdrawn one. -/
def InstallationDb.Keeps (row : Option InstallationRow) (token : AddonToken) : Prop :=
  ∀ r, row = some r → r.status = .active →
    r.Live cipher db ∧ cipher.openToken r.addonTokenCiphertext ≠ some token

/-- What a call does to the authority of its workspace. -/
structure InstallationCall.Effect (db' : InstallationDb) (call : InstallationCall)
    (row : Option InstallationRow) : Prop where
  sets : SetsRow db db' call.workspaceId row (call.withdraws cipher now db)
  keeps : call.reactivates now db = none → db.Keeps cipher row (call.withdraws cipher now db)
  reactivates : ∀ old, call.reactivates now db = some old →
    call.withdraws cipher now db = "" ∧
      ∃ r, row = some r ∧ r.status = .active ∧ r.addonTokenCiphertext = old.addonTokenCiphertext

variable {cipher now db}

theorem InstallationDb.Authorized.keeps (h : db.Authorized cipher) (workspaceId : WorkspaceId) :
    db.Keeps cipher (db.installations.get? workspaceId) "" := by
  intro r hr hactive
  have hlive := h workspaceId r hr hactive
  refine ⟨hlive, fun hopen => ?_⟩
  obtain ⟨token, htoken, hne, _⟩ := hlive
  rw [hopen] at htoken
  exact hne (Option.some.inj htoken).symm

theorem InstallationDb.Keeps.of_inactive {r : InstallationRow} {token : AddonToken}
    (h : r.status ≠ .active) : db.Keeps cipher (some r) token := by
  intro r' hr' hactive
  obtain rfl : r = r' := Option.some.inj hr'
  exact absurd hactive h

theorem InstallationDb.Keeps.none {token : AddonToken} : db.Keeps cipher none token := by
  intro r hr
  simp at hr

/-- A call that reactivates nothing has its effect by setting a row it may keep. -/
theorem InstallationCall.Effect.of_keeps {db' : InstallationDb} {call : InstallationCall}
    {row : Option InstallationRow}
    (hsets : SetsRow db db' call.workspaceId row (call.withdraws cipher now db))
    (hnone : call.reactivates now db = none)
    (hkeeps : db.Keeps cipher row (call.withdraws cipher now db)) :
    call.Effect cipher now db db' row := by
  refine ⟨hsets, fun _ => hkeeps, fun old hold => ?_⟩
  rw [hnone] at hold
  exact absurd hold (by simp)

theorem InstallationCall.Effect.authorized_iff {db' : InstallationDb} {call : InstallationCall}
    {row : Option InstallationRow} (h : call.Effect cipher now db db' row)
    (hdb : db.Authorized cipher) : db'.Authorized cipher ↔ call.Sound cipher now db := by
  rw [h.sets.authorized_iff hdb]
  refine and_congr ?_ Iff.rfl
  cases hback : call.reactivates now db with
  | none =>
    have hkeeps := h.keeps hback
    constructor
    · intro _ old hold
      simp at hold
    · intro _ r hr hactive
      exact h.sets.live_of_exclusive (hkeeps r hr hactive).1 fun _ => (hkeeps r hr hactive).2
  | some old =>
    obtain ⟨hwithdraws, r, hr, hactive, hsame⟩ := h.reactivates old hback
    have hretired : db'.retiredTokens = db.retiredTokens := by
      rw [h.sets.retiredTokens, hwithdraws, retire_empty]
    have hlive : r.Live cipher db' ↔ old.Live cipher db := by
      unfold InstallationRow.Live
      rw [hretired, hsame]
    constructor
    · intro hrows old' hold'
      obtain rfl : old = old' := Option.some.inj hold'
      exact hlive.mp (hrows r hr hactive)
    · intro hold r' hr' _
      obtain rfl : r = r' := Option.some.inj (hr.symm.trans hr')
      exact hlive.mpr (hold old rfl)

end Effects

section Calls

variable {now : Time} {s : InstallationStore}

theorem saveInstallation_effect (h : s.db.Authorized cipher) (input : InstallationInput) :
    ∃ row, (InstallationCall.saveInstallation input).Effect cipher now s.db
      (s.saveInstallation cipher now input).2.db row := by
  have hwithdraws : (InstallationCall.saveInstallation input).withdraws cipher now s.db =
      if s.db.replaces cipher now input then (s.db.heldToken cipher input.workspaceId).getD ""
      else "" := rfl
  have hkept : s.db.replaces cipher now input = false →
      ∀ db', SetsRow s.db db' input.workspaceId (s.db.installations.get? input.workspaceId) "" →
        (InstallationCall.saveInstallation input).Effect cipher now s.db db'
          (s.db.installations.get? input.workspaceId) := by
    intro hreplaces db' hsets
    rw [hreplaces, if_neg (by simp)] at hwithdraws
    refine .of_keeps (hwithdraws ▸ hsets) rfl ?_
    rw [hwithdraws]
    exact h.keeps input.workspaceId
  rcases s.run_cases input.workspaceId (fun last => saveInstallationTxn cipher last now input)
      InstallationSaveResult.generation (wp_saveInstallationTxn input) with
    ⟨_, _, hunreadable, hs⟩ | ⟨r, _, hr, _⟩
  · refine ⟨_, hkept hunreadable.replaces _ ?_⟩
    unfold InstallationStore.saveInstallation
    rw [hs]
    exact .keep rfl rfl
  by_cases hreplaces : s.db.replaces cipher now input
  · rw [if_pos hreplaces] at hr hwithdraws
    obtain ⟨_, ⟨row, hsaved, hsets⟩, _⟩ := hr
    refine ⟨some row, .of_keeps (hwithdraws ▸ hsets) rfl ?_⟩
    intro r' hr' _
    obtain rfl : row = r' := Option.some.inj hr'
    rw [hwithdraws]
    simp only [InstallationDb.replaces, Bool.and_eq_true, Bool.not_eq_true'] at hreplaces
    obtain ⟨⟨⟨_, hsame⟩, _⟩, hretired⟩ := hreplaces
    have hopen : cipher.openToken row.addonTokenCiphertext = some input.addonToken := by
      rw [hsaved.token, cipher.open_seal]
    refine ⟨⟨input.addonToken, hopen, input.addonToken_ne, ?_⟩, fun hheld => ?_⟩
    · simpa using hretired
    rw [hopen, Option.some.injEq] at hheld
    cases hcurrent : s.db.heldToken cipher input.workspaceId with
    | none =>
      rw [hcurrent] at hheld
      exact input.addonToken_ne hheld
    | some token =>
      rw [hcurrent, Option.getD_some] at hheld
      rw [hcurrent, hheld] at hsame
      simp [sameToken] at hsame
  · rw [if_neg hreplaces] at hr
    exact ⟨_, hkept (by simpa using hreplaces) _ hr.2.2.1⟩

theorem setInstallationStatus_effect (h : s.db.Authorized cipher) (workspaceId : WorkspaceId)
    (status : InstallationStatus) (issuedAt : Option EpochSeconds) :
    ∃ row, (InstallationCall.setInstallationStatus workspaceId status issuedAt).Effect cipher now
      s.db (s.setInstallationStatus now workspaceId status issuedAt).2.db row := by
  rcases s.run_cases workspaceId
      (fun last => setInstallationStatusTxn last now workspaceId status issuedAt)
      InstallationStatusResult.generation (wp_setInstallationStatusTxn status issuedAt) with
    ⟨_, _, hfalse, _⟩ | ⟨r, _, hr, _⟩
  · exact absurd hfalse id
  have hback : (InstallationCall.setInstallationStatus workspaceId status issuedAt).reactivates
      now s.db = (s.db.statusTarget now workspaceId status issuedAt).filter fun row =>
        status == .active && row.status != .active := rfl
  cases htarget : s.db.statusTarget now workspaceId status issuedAt with
  | none =>
    rw [htarget] at hr hback
    exact ⟨_, .of_keeps hr.2.1 hback (h.keeps workspaceId)⟩
  | some old =>
    rw [htarget] at hr hback
    obtain ⟨_, ⟨row, hupdated, hsets⟩, _⟩ := hr
    have hold : s.db.installations.get? workspaceId = some old := by
      unfold InstallationDb.statusTarget at htarget
      split at htarget
      · simp at htarget
      · exact (Option.filter_eq_some_iff.mp htarget).1
    by_cases hactive : status = .active ∧ old.status ≠ .active
    · have hfound : (InstallationCall.setInstallationStatus workspaceId status
          issuedAt).reactivates now s.db = some old := by
        rw [hback]
        simp [hactive.1, hactive.2]
      refine ⟨some row, hsets, fun hnone => ?_, fun old' hold' => ?_⟩
      · rw [hfound] at hnone
        exact absurd hnone (by simp)
      · obtain rfl : old = old' := Option.some.inj (hfound.symm.trans hold')
        exact ⟨rfl, row, rfl, hupdated.status.trans hactive.1, hupdated.token⟩
    · have hnone : (InstallationCall.setInstallationStatus workspaceId status
          issuedAt).reactivates now s.db = none := by
        rw [hback]
        simpa using hactive
      refine ⟨some row, .of_keeps hsets hnone ?_⟩
      intro r' hr' hr'active
      obtain rfl : row = r' := Option.some.inj hr'
      have holdactive : old.status = .active := by
        by_contra hne
        exact hactive ⟨hupdated.status.symm.trans hr'active, hne⟩
      have hkeeps := h.keeps workspaceId old hold holdactive
      unfold InstallationRow.Live at hkeeps ⊢
      rw [hupdated.token]
      exact hkeeps

/-- An uninstall leaves a row that is not active, or keeps the one it found. -/
theorem tombstoneLifecycle_sets (h : s.db.Authorized cipher) (now : Time)
    (workspaceId : WorkspaceId) (issuedAt : EpochSeconds) (recordAbsent : Bool) :
    ∃ row, SetsRow s.db (s.tombstoneLifecycle cipher now workspaceId issuedAt recordAbsent).2.db
        workspaceId row (s.db.tombstoned cipher now workspaceId issuedAt) ∧
      s.db.Keeps cipher row (s.db.tombstoned cipher now workspaceId issuedAt) := by
  have hkept : s.db.tombstoned cipher now workspaceId issuedAt = "" → ∀ db',
      SetsRow s.db db' workspaceId (s.db.installations.get? workspaceId) "" →
      ∃ row, SetsRow s.db db' workspaceId row (s.db.tombstoned cipher now workspaceId issuedAt) ∧
        s.db.Keeps cipher row (s.db.tombstoned cipher now workspaceId issuedAt) := by
    intro hempty db' hsets
    rw [hempty]
    exact ⟨_, hsets, h.keeps workspaceId⟩
  rcases s.run_cases workspaceId
      (fun last => tombstoneLifecycleTxn cipher last now workspaceId issuedAt recordAbsent)
      LifecycleDeletionResult.generation (wp_tombstoneLifecycleTxn issuedAt recordAbsent) with
    ⟨_, _, hunreadable, hs⟩ | ⟨r, _, hr, _⟩
  · refine hkept (by simp [InstallationDb.tombstoned, hunreadable.tombstoneTarget]) _ ?_
    unfold InstallationStore.tombstoneLifecycle
    rw [hs]
    exact .keep rfl rfl
  by_cases hstale : staleDeletion (s.db.recordedAuthority workspaceId now) issuedAt
  · rw [if_pos hstale] at hr
    refine hkept ?_ _ hr.2.1
    simp [InstallationDb.tombstoned, InstallationDb.tombstoneTarget, hstale]
  rw [if_neg hstale] at hr
  cases hget : s.db.installations.get? workspaceId with
  | none =>
    rw [hget] at hr
    refine hkept ?_ _ (hget ▸ hr.2.1)
    simp [InstallationDb.tombstoned, InstallationDb.tombstoneTarget, hget]
  | some old =>
    rw [hget] at hr
    obtain ⟨_, _, ⟨row, htombstone, hsets⟩, _⟩ := hr
    exact ⟨some row, hsets, .of_inactive (by rw [htombstone.status]; simp)⟩

theorem retireInstallationForMaintenance_effect (h : s.db.Authorized cipher)
    (input : MaintenanceRetirement) :
    ∃ row, (InstallationCall.retireInstallationForMaintenance input).Effect cipher now s.db
      (s.retireInstallationForMaintenance cipher now input).2.db row := by
  have hwithdraws : (InstallationCall.retireInstallationForMaintenance input).withdraws cipher now
      s.db = ((s.db.maintenanceTarget cipher input).map Prod.snd).getD "" := rfl
  rcases s.run_cases input.workspaceId (fun last => retireInstallationTxn cipher last now input)
      MaintenanceRetirementResult.generation (wp_retireInstallationTxn input) with
    ⟨_, _, hfalse, _⟩ | ⟨r, _, hr, _⟩
  · exact absurd hfalse id
  cases htarget : s.db.maintenanceTarget cipher input with
  | none =>
    rw [htarget] at hr hwithdraws
    refine ⟨s.db.installations.get? input.workspaceId, .of_keeps ?_ rfl ?_⟩
    · rw [hwithdraws]
      exact hr.2.2
    · rw [hwithdraws]
      exact h.keeps input.workspaceId
  | some target =>
    rw [htarget] at hr hwithdraws
    obtain ⟨_, _, row, _, hinactive, _, _, hsets⟩ := hr
    exact ⟨some row, .of_keeps (hwithdraws ▸ hsets) rfl (.of_inactive (by rw [hinactive]; simp))⟩

theorem eraseWorkspaceRows_sets (s : InstallationStore) (workspaceId : WorkspaceId)
    (expected : Option Nat) :
    ∃ row, (row = s.db.installations.get? workspaceId ∧ expected ≠ none ∨ row = none) ∧
      SetsRow s.db (s.eraseWorkspaceRows workspaceId expected).2.db workspaceId row "" := by
  rcases s.run_cases workspaceId (fun _ => eraseWorkspaceTxn workspaceId expected) Option.join
      (wp_eraseWorkspaceTxn expected) with
    ⟨_, _, hfalse, _⟩ | ⟨r, _, hr, _⟩
  · exact absurd hfalse id
  rcases hr.2 with ⟨_, hexpected, hsets⟩ | ⟨_, hsets⟩
  · exact ⟨_, .inl ⟨rfl, hexpected⟩, hsets⟩
  · exact ⟨_, .inr rfl, hsets⟩

theorem InstallationDb.Keeps.of_erase {db : InstallationDb} {row row' : Option InstallationRow}
    {token : AddonToken} {expected : Option Nat} (h : db.Keeps cipher row token)
    (hrow : row' = row ∧ expected ≠ Option.none ∨ row' = Option.none) :
    db.Keeps cipher row' token := by
  rcases hrow with ⟨rfl, _⟩ | rfl
  · exact h
  · exact .none

theorem eraseWorkspace_effect (h : s.db.Authorized cipher) (workspaceId : WorkspaceId) :
    ∃ row, (InstallationCall.eraseWorkspace workspaceId).Effect cipher now s.db
      (s.eraseWorkspace cipher now workspaceId).2.db row := by
  cases hfound : (s.db.installations.get? workspaceId).filter fun row =>
      row.status != .deleted with
  | none =>
    have hwithdraws : (InstallationCall.eraseWorkspace workspaceId).withdraws cipher now s.db =
        "" := by
      simp only [InstallationCall.withdraws, hfound]
    obtain ⟨row, hrow, hsets⟩ := eraseWorkspaceRows_sets s workspaceId none
    refine ⟨row, .of_keeps ?_ rfl ?_⟩
    · rw [hwithdraws]
      simpa only [InstallationStore.eraseWorkspace, InstallationCall.workspaceId, hfound]
        using hsets
    · rw [hwithdraws]
      exact (h.keeps workspaceId).of_erase hrow
  | some old =>
    have hwithdraws : (InstallationCall.eraseWorkspace workspaceId).withdraws cipher now s.db =
        s.db.tombstoned cipher now workspaceId
          (max (old.lifecycleIssuedAt.getD 0) (seconds now)) := by
      simp only [InstallationCall.withdraws, hfound]
    obtain ⟨row, hsets, hkeeps⟩ := tombstoneLifecycle_sets h now workspaceId
      (max (old.lifecycleIssuedAt.getD 0) (seconds now)) false
    unfold InstallationStore.eraseWorkspace
    rw [hfound]
    dsimp only
    split
    · exact ⟨row, .of_keeps (hwithdraws ▸ hsets) rfl (hwithdraws ▸ hkeeps)⟩
    · obtain ⟨row', hrow', hsets'⟩ := eraseWorkspaceRows_sets
        (s.tombstoneLifecycle cipher now workspaceId
          (max (old.lifecycleIssuedAt.getD 0) (seconds now)) false).2 workspaceId none
      rw [hsets.lookup, if_pos rfl] at hrow'
      refine ⟨row', .of_keeps (hwithdraws ▸ hsets.trans hsets') rfl ?_⟩
      exact hwithdraws ▸ hkeeps.of_erase hrow'

theorem InstallationCall.apply_effect (h : s.db.Authorized cipher) (now : Time)
    (call : InstallationCall) : ∃ row, call.Effect cipher now s.db (call.apply cipher now s).db row := by
  cases call with
  | saveInstallation input => exact saveInstallation_effect h input
  | setInstallationStatus workspaceId status issuedAt =>
    exact setInstallationStatus_effect h workspaceId status issuedAt
  | tombstoneInstallationForLifecycle workspaceId issuedAt =>
    obtain ⟨row, hsets, hkeeps⟩ := tombstoneLifecycle_sets h now workspaceId issuedAt true
    exact ⟨row, .of_keeps hsets rfl hkeeps⟩
  | tombstoneInstallation workspaceId =>
    cases hget : s.db.installations.get? workspaceId with
    | none =>
      have hwithdraws : (InstallationCall.tombstoneInstallation workspaceId).withdraws cipher
          now s.db = "" := by
        simp only [InstallationCall.withdraws, hget]
      refine ⟨s.db.installations.get? workspaceId, .of_keeps ?_ rfl ?_⟩
      · rw [hwithdraws]
        simp only [InstallationCall.apply, InstallationStore.tombstoneInstallation, hget]
        rw [← hget]
        exact .keep rfl rfl
      · rw [hwithdraws]
        exact h.keeps workspaceId
    | some old =>
      have hwithdraws : (InstallationCall.tombstoneInstallation workspaceId).withdraws cipher
          now s.db = s.db.tombstoned cipher now workspaceId
            (old.lifecycleIssuedAt.getD (seconds now)) := by
        simp only [InstallationCall.withdraws, hget]
      obtain ⟨row, hsets, hkeeps⟩ := tombstoneLifecycle_sets h now workspaceId
        (old.lifecycleIssuedAt.getD (seconds now)) false
      refine ⟨row, .of_keeps ?_ rfl (hwithdraws ▸ hkeeps)⟩
      rw [hwithdraws]
      simpa only [InstallationCall.apply, InstallationCall.workspaceId,
        InstallationStore.tombstoneInstallation, hget] using hsets
  | retireInstallationForMaintenance input =>
    exact retireInstallationForMaintenance_effect h input
  | eraseWorkspace workspaceId => exact eraseWorkspace_effect h workspaceId
  | eraseWorkspaceForDeletion workspaceId generation =>
    obtain ⟨row, hrow, hsets⟩ := eraseWorkspaceRows_sets s workspaceId (some generation)
    exact ⟨row, .of_keeps hsets rfl ((h.keeps workspaceId).of_erase hrow)⟩
  | openStore =>
    refine ⟨s.db.installations.get? 0, .of_keeps ?_ rfl (h.keeps 0)⟩
    exact .keep (openStore_rows now s).1 (openStore_rows now s).2

theorem InstallationCall.authorized_apply_iff (h : s.db.Authorized cipher)
    (call : InstallationCall) :
    (call.apply cipher now s).db.Authorized cipher ↔ call.Sound cipher now s.db := by
  obtain ⟨row, heffect⟩ := call.apply_effect h now
  exact heffect.authorized_iff h

end Calls

section Runs

theorem authorized_empty : InstallationStore.empty.db.Authorized cipher := by
  intro workspaceId row hrow
  simp [InstallationStore.empty, InstallationDb.empty] at hrow

/-- Active rows hold live tokens throughout a run exactly when each of its calls is sound
where it is made. -/
theorem installationCalls_authorized_iff (cipher : TokenCipher)
    (calls : List (Time × InstallationCall)) :
    (∀ before, before <+: calls → (runInstallationCalls cipher before).db.Authorized cipher) ↔
      Always (fun before call =>
        call.2.Sound cipher call.1 (runInstallationCalls cipher before).db) calls := by
  induction calls using List.reverseRecOn with
  | nil =>
    constructor
    · intro _
      exact .nil
    · intro _ before hbefore
      rw [List.prefix_nil.mp hbefore]
      exact authorized_empty
  | append_singleton calls call ih =>
    rw [Always.concat_iff, ← ih]
    have hstep : (runInstallationCalls cipher calls).db.Authorized cipher →
        ((runInstallationCalls cipher (calls ++ [call])).db.Authorized cipher ↔
          call.2.Sound cipher call.1 (runInstallationCalls cipher calls).db) := by
      intro h
      rw [runInstallationCalls_concat]
      exact call.2.authorized_apply_iff h
    constructor
    · intro h
      refine ⟨fun before hbefore => h before (hbefore.trans (List.prefix_append calls _)), ?_⟩
      exact (hstep (h calls (List.prefix_append calls _))).mp (h _ (List.prefix_refl _))
    · rintro ⟨hbefore, hsound⟩ before hprefix
      rcases List.prefix_concat_iff.mp hprefix with rfl | hshorter
      · exact (hstep (hbefore calls (List.prefix_refl _))).mpr hsound
      · exact hbefore before hshorter

/-- An install, a maintenance retirement of it, and a later status callback. -/
def retiredThenReactivated : List (Time × InstallationCall) :=
  [(10000, .saveInstallation {
      workspaceId := 1, addonToken := "t", addonToken_ne := by decide, lifecycleIssuedAt := some 10 }),
    (20000, .retireInstallationForMaintenance {
      workspaceId := 1, expectedGeneration := 1, expectedStatus := .active
      expectedStatus_ne := by decide }),
    (30000, .setInstallationStatus 1 .active (some 30))]

theorem retiredThenReactivated_active :
    ((runInstallationCalls .plain retiredThenReactivated).db.installations.get? 1).map
      (fun row => (row.status, row.addonTokenCiphertext)) = some (.active, "") := by
  decide

/-- A status callback makes an installation active whose token maintenance has wiped. -/
theorem not_always_authorized : ¬ ∀ (cipher : TokenCipher) (calls : List (Time × InstallationCall)),
      (runInstallationCalls cipher calls).db.Authorized cipher := by
  intro h
  have hactive := retiredThenReactivated_active
  rw [Option.map_eq_some_iff] at hactive
  obtain ⟨row, hrow, hfields⟩ := hactive
  obtain ⟨hstatus, htoken⟩ := Prod.mk.inj hfields
  obtain ⟨token, hopen, hne, _⟩ := h .plain retiredThenReactivated 1 row hrow hstatus
  rw [htoken] at hopen
  exact hne (Option.some.inj hopen).symm

end Runs

end ClockifyAssistant
