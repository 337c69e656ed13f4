import ClockifyAssistant.Store.Installations

/-!
What each transaction on the installations does: it sets the row of one
workspace, retires at most one token and leaves a watermark. Which of these it
does is decided by what it finds, through the predicates below.
-/
namespace ClockifyAssistant

open Lib Txn

/-- One workspace has its row set and one token is retired, the empty one standing for none. -/
structure SetsRow (db db' : InstallationDb) (workspaceId : WorkspaceId)
    (row : Option InstallationRow) (token : AddonToken) : Prop where
  lookup : ∀ w, db'.installations.get? w =
    if w = workspaceId then row else db.installations.get? w
  retiredTokens : db'.retiredTokens = retire db.retiredTokens token

section SetsRow

variable {db db' db'' : InstallationDb} {workspaceId : WorkspaceId}
  {row row' : Option InstallationRow} {token : AddonToken}

@[simp] theorem retire_empty (retiredTokens : List Digest) :
    retire retiredTokens "" = retiredTokens := rfl

theorem mem_retire {retiredTokens : List Digest} {token : AddonToken} {digest : Digest} :
    digest ∈ retire retiredTokens token ↔
      digest ∈ retiredTokens ∨ token ≠ "" ∧ digest = hashRetiredInstallationToken token := by
  unfold retire
  by_cases h : token = ""
  · simp [h]
  · rw [if_neg h, List.mem_insert_iff]
    constructor
    · rintro (rfl | hmem)
      · exact .inr ⟨h, rfl⟩
      · exact .inl hmem
    · rintro (hmem | ⟨_, rfl⟩)
      · exact .inr hmem
      · exact .inl rfl

theorem SetsRow.keep (hrows : db'.installations = db.installations)
    (hretired : db'.retiredTokens = db.retiredTokens) :
    SetsRow db db' workspaceId (db.installations.get? workspaceId) "" := by
  refine ⟨fun w => ?_, hretired⟩
  rw [hrows]
  by_cases h : w = workspaceId
  · rw [if_pos h, h]
  · rw [if_neg h]

theorem SetsRow.keep_lookup
    (h : SetsRow db db' workspaceId (db.installations.get? workspaceId) token) (w : WorkspaceId) :
    db'.installations.get? w = db.installations.get? w := by
  rw [h.lookup]
  by_cases hw : w = workspaceId
  · rw [if_pos hw, hw]
  · rw [if_neg hw]

theorem SetsRow.put {row : InstallationRow} (hrows : db'.installations = db.installations.put row)
    (hid : row.workspaceId = workspaceId)
    (hretired : db'.retiredTokens = retire db.retiredTokens token) :
    SetsRow db db' workspaceId (some row) token := by
  refine ⟨fun w => ?_, hretired⟩
  rw [hrows, Table.get?_put, ← hid]
  rfl

theorem SetsRow.drop (hrows : db'.installations = db.installations.delete workspaceId)
    (hretired : db'.retiredTokens = db.retiredTokens) : SetsRow db db' workspaceId none "" := by
  refine ⟨fun w => ?_, hretired⟩
  rw [hrows, Table.get?_delete]

theorem SetsRow.trans (h : SetsRow db db' workspaceId row token)
    (h' : SetsRow db' db'' workspaceId row' "") : SetsRow db db'' workspaceId row' token := by
  refine ⟨fun w => ?_, h'.retiredTokens.trans h.retiredTokens⟩
  rw [h'.lookup, h.lookup]
  split <;> rfl

end SetsRow

section Watermarks

/-- The watermarks after a transaction at `now` that leaves `mark`, if any. -/
def marked (watermarks : Table LifecycleAuthorityWatermark) (now : Time)
    (mark : Option LifecycleAuthorityWatermark) : Table LifecycleAuthorityWatermark :=
  mark.elim (pruneWatermarks watermarks now) (recordWatermark (pruneWatermarks watermarks now))

def issuedWatermark (workspaceId : WorkspaceId) (issuedAt : Option EpochSeconds)
    (state : InstallationStatus) (generation : Nat) (now : Time) :
    Option LifecycleAuthorityWatermark :=
  issuedAt.map fun issuedAt => lifecycleWatermark workspaceId issuedAt state generation now

variable {workspaceId : WorkspaceId} {now : Time} {db : InstallationDb} {E : StoreError → Prop}

theorem wp_lifecycleAuthority {Q : Option EffectiveLifecycleAuthority → InstallationDb → Prop} :
    wp (lifecycleAuthority workspaceId now) Q E db ↔ Q (db.recordedAuthority workspaceId now)
        { db with watermarks := pruneWatermarks db.watermarks now } := Iff.rfl

theorem wp_recordIssuedAuthority {issuedAt : Option EpochSeconds} {state : InstallationStatus}
    {generation : Nat} {Q : Unit → InstallationDb → Prop}
    (hQ : Q () { db with
      watermarks := (issuedWatermark workspaceId issuedAt state generation now).elim db.watermarks
        (recordWatermark db.watermarks) }) :
    wp (recordIssuedAuthority workspaceId issuedAt state generation now) Q E db := by
  cases issuedAt <;> exact hQ

theorem wp_insertAttestation {input : InstallationInput} {absent : Bool} {generation : Nat}
    {Q : Unit → InstallationDb → Prop} (hQ : ∀ attestations, Q () { db with attestations }) :
    wp (insertAttestation now input absent generation) Q E db := by
  unfold insertAttestation
  cases input.freshInstallAttestation.filter fun _ => absent with
  | none => exact hQ db.attestations
  | some binding => exact hQ _

end Watermarks

section Decisions

variable (cipher : TokenCipher) (db : InstallationDb) (now : Time) (workspaceId : WorkspaceId)

/-- The token a workspace holds, as far as its ciphertext can be read. -/
def InstallationDb.heldToken : Option AddonToken :=
  (db.installations.get? workspaceId).bind fun row => cipher.openToken row.addonTokenCiphertext

/-- The workspace has a row whose ciphertext cannot be read. -/
def InstallationDb.Unreadable : Prop :=
  (db.installations.get? workspaceId).isSome ∧ db.heldToken cipher workspaceId = none

def InstallationDb.heldGeneration : Option Nat :=
  (db.installations.get? workspaceId).map InstallationRow.generation

/-- The generation a new authority of the workspace is given. -/
def InstallationDb.nextGeneration (lastGeneration : Nat) : Nat :=
  max (max ((db.heldGeneration workspaceId).getD 0) lastGeneration)
    (authorityGeneration (db.recordedAuthority workspaceId now)) + 1

/-- Whether an INSTALLED callback replaces what the workspace holds. -/
def InstallationDb.replaces (input : InstallationInput) : Bool :=
  ((db.installations.get? input.workspaceId).isNone ||
      (db.heldToken cipher input.workspaceId).isSome) &&
    !sameToken (db.heldToken cipher input.workspaceId) input.addonToken &&
    !staleInstall (db.recordedAuthority input.workspaceId now) input.lifecycleIssuedAt &&
    !db.retiredTokens.contains (hashRetiredInstallationToken input.addonToken)

/-- The row a status callback updates. -/
def InstallationDb.statusTarget (status : InstallationStatus) (issuedAt : Option EpochSeconds) :
    Option InstallationRow :=
  if staleStatus (db.recordedAuthority workspaceId now) status issuedAt then none
  else (db.installations.get? workspaceId).filter fun row => row.status != .deleted

/-- The row an uninstall tombstones, with the token it wipes. -/
def InstallationDb.tombstoneTarget (issuedAt : EpochSeconds) :
    Option (InstallationRow × AddonToken) :=
  if staleDeletion (db.recordedAuthority workspaceId now) issuedAt then none
  else ((db.installations.get? workspaceId).filter fun row => row.status != .deleted).bind fun row =>
    (cipher.openToken row.addonTokenCiphertext).map fun token => (row, token)

/-- The row a maintenance retirement takes out of use, with the token it wipes. -/
def InstallationDb.maintenanceTarget (input : MaintenanceRetirement) :
    Option (InstallationRow × AddonToken) :=
  ((db.installations.get? input.workspaceId).filter fun row =>
      row.generation == input.expectedGeneration && row.status == input.expectedStatus).bind
    fun row => (cipher.openToken row.addonTokenCiphertext).map fun token => (row, token)

end Decisions

section Unreadable

variable {cipher : TokenCipher} {db : InstallationDb} {now : Time}

theorem InstallationDb.Unreadable.replaces {input : InstallationInput}
    (h : db.Unreadable cipher input.workspaceId) : db.replaces cipher now input = false := by
  simp [InstallationDb.replaces, h.2, Option.isNone_eq_false_iff.mpr h.1]

theorem InstallationDb.Unreadable.tombstoneTarget {workspaceId : WorkspaceId}
    {issuedAt : EpochSeconds} (h : db.Unreadable cipher workspaceId) :
    db.tombstoneTarget cipher now workspaceId issuedAt = none := by
  obtain ⟨row, hrow⟩ := Option.isSome_iff_exists.mp h.1
  have hopen : cipher.openToken row.addonTokenCiphertext = none := by
    simpa [InstallationDb.heldToken, hrow] using h.2
  unfold InstallationDb.tombstoneTarget
  split
  · rfl
  · by_cases hdeleted : row.status = .deleted
    · simp [hrow, hdeleted]
    · simp [hrow, hdeleted, hopen]

end Unreadable

section Specs

variable {cipher : TokenCipher} {db : InstallationDb} {now : Time} {last : Nat}
  {workspaceId : WorkspaceId}

theorem wp_currentToken {Q : Option AddonToken → InstallationDb → Prop} {E : StoreError → Prop}
    (hQ : (db.installations.get? workspaceId).isNone ∨ (db.heldToken cipher workspaceId).isSome →
      Q (db.heldToken cipher workspaceId) db) (hE : ∀ e, db.Unreadable cipher workspaceId → E e) :
    wp (currentToken cipher (db.installations.get? workspaceId)) Q E db := by
  unfold InstallationDb.Unreadable at hE
  unfold currentToken InstallationDb.heldToken at *
  cases h : db.installations.get? workspaceId with
  | none => simpa [h] using hQ
  | some row =>
    rw [h] at hQ hE
    simp only [openToken, wp_bind, wp_demand, wp_pure]
    refine ⟨fun token htoken => by simpa [htoken] using hQ, fun hnone => ?_⟩
    exact hE _ ⟨rfl, hnone⟩

/-- The row an applied INSTALLED callback leaves. -/
structure InstallationRow.SavedFrom (row : InstallationRow) (cipher : TokenCipher)
    (input : InstallationInput) (generation : Nat) : Prop where
  token : row.addonTokenCiphertext = cipher.sealToken input.addonToken
  status : row.status = input.status
  generation : row.generation = generation
  issuedAt : row.lifecycleIssuedAt = input.lifecycleIssuedAt

theorem wp_saveInstallationTxn (input : InstallationInput) :
    wp (saveInstallationTxn cipher last now input) (fun r db' =>
      if db.replaces cipher now input then
        r = ⟨.applied, some (db.nextGeneration now input.workspaceId last)⟩ ∧
          (∃ row : InstallationRow,
            row.SavedFrom cipher input (db.nextGeneration now input.workspaceId last) ∧
            SetsRow db db' input.workspaceId (some row)
              ((db.heldToken cipher input.workspaceId).getD "")) ∧
          db'.watermarks = marked db.watermarks now (issuedWatermark input.workspaceId
            input.lifecycleIssuedAt input.status (db.nextGeneration now input.workspaceId last) now)
      else r.outcome ≠ .applied ∧ r.generation = db.heldGeneration input.workspaceId ∧
        SetsRow db db' input.workspaceId (db.installations.get? input.workspaceId) "" ∧
        (db'.watermarks = db.watermarks ∨ db'.watermarks = marked db.watermarks now none))
      (fun _ => db.Unreadable cipher input.workspaceId) db := by
  unfold saveInstallationTxn
  rw [wp_bind, wp_get, wp_bind]
  refine wp_currentToken (fun hread => ?_) fun _ hunreadable => hunreadable
  by_cases hsame : sameToken (db.heldToken cipher input.workspaceId) input.addonToken
  · rw [if_pos hsame, wp_pure, if_neg (by simp [InstallationDb.replaces, hsame])]
    exact ⟨by simp, rfl, .keep rfl rfl, .inl rfl⟩
  rw [if_neg hsame, wp_bind, wp_lifecycleAuthority]
  by_cases hstale : staleInstall (db.recordedAuthority input.workspaceId now)
      input.lifecycleIssuedAt
  · rw [if_pos hstale, wp_pure, if_neg (by simp [InstallationDb.replaces, hstale])]
    exact ⟨by simp, rfl, .keep rfl rfl, .inr rfl⟩
  rw [if_neg hstale]
  by_cases hretired : db.retiredTokens.contains (hashRetiredInstallationToken input.addonToken)
  · rw [if_pos hretired, wp_pure, if_neg (by simp only [InstallationDb.replaces, hretired]; simp)]
    exact ⟨by simp, rfl, .keep rfl rfl, .inr rfl⟩
  have hreplaces : db.replaces cipher now input = true := by
    simp only [InstallationDb.replaces, hsame, hstale, hretired]
    simpa using hread
  rw [if_neg hretired]
  simp only [retireToken, putInstallation, deleteAttestation, wp_bind, wp_modify]
  refine wp_insertAttestation fun attestations => wp_recordIssuedAuthority ?_
  rw [wp_pure, if_pos hreplaces]
  exact ⟨rfl, ⟨_, ⟨rfl, rfl, rfl, rfl⟩, .put rfl rfl rfl⟩, rfl⟩

/-- The row an applied status callback leaves in place of `old`. -/
structure InstallationRow.UpdatedFrom (row old : InstallationRow) (status : InstallationStatus)
    (generation : Nat) (issuedAt : Option EpochSeconds) : Prop where
  token : row.addonTokenCiphertext = old.addonTokenCiphertext
  status : row.status = status
  generation : row.generation = generation
  issuedAt : row.lifecycleIssuedAt = (issuedAt <|> old.lifecycleIssuedAt)

/-- Only a reactivation opens a new generation. -/
def InstallationDb.statusGeneration (db : InstallationDb) (now : Time) (last : Nat)
    (status : InstallationStatus) (row : InstallationRow) : Nat :=
  if status = .active ∧ row.status ≠ .active then db.nextGeneration now row.workspaceId last
  else row.generation

/-- What a status callback records for a workspace without an installation. -/
def InstallationDb.absentWatermark (db : InstallationDb) (now : Time) (workspaceId : WorkspaceId)
    (status : InstallationStatus) (issuedAt : Option EpochSeconds) :
    Option LifecycleAuthorityWatermark :=
  if status = .inactive then
    issuedWatermark workspaceId issuedAt
      (if (db.installations.get? workspaceId).isSome then .deleted else .inactive)
      ((db.heldGeneration workspaceId).getD
        (authorityGeneration (db.recordedAuthority workspaceId now))) now
  else none

theorem wp_setInstallationStatusTxn (status : InstallationStatus) (issuedAt : Option EpochSeconds) :
    wp (setInstallationStatusTxn last now workspaceId status issuedAt) (fun r db' =>
      match db.statusTarget now workspaceId status issuedAt with
      | some row =>
          r = ⟨.applied, some (db.statusGeneration now last status row)⟩ ∧
          (∃ row' : InstallationRow,
            row'.UpdatedFrom row status (db.statusGeneration now last status row) issuedAt ∧
            SetsRow db db' workspaceId (some row') "") ∧
          db'.watermarks = marked db.watermarks now (issuedWatermark workspaceId issuedAt status
            (db.statusGeneration now last status row) now)
      | none =>
          r.generation = db.heldGeneration workspaceId ∧
          SetsRow db db' workspaceId (db.installations.get? workspaceId) "" ∧
          db'.watermarks = marked db.watermarks now
            (if staleStatus (db.recordedAuthority workspaceId now) status issuedAt then none
            else db.absentWatermark now workspaceId status issuedAt))
      (fun _ => False) db := by
  unfold setInstallationStatusTxn
  rw [wp_bind, wp_get, wp_bind, wp_lifecycleAuthority]
  by_cases hstale : staleStatus (db.recordedAuthority workspaceId now) status issuedAt
  · have htarget : db.statusTarget now workspaceId status issuedAt = none := if_pos hstale
    rw [if_pos hstale, wp_pure, htarget, if_pos hstale]
    exact ⟨rfl, .keep rfl rfl, rfl⟩
  have htarget : db.statusTarget now workspaceId status issuedAt =
      (db.installations.get? workspaceId).filter fun row => row.status != .deleted :=
    if_neg hstale
  rw [if_neg hstale, htarget, if_neg hstale]
  cases hrow : (db.installations.get? workspaceId).filter fun row => row.status != .deleted with
  | none =>
    simp only [recordAbsentStatus]
    split
    · exact ⟨rfl, .keep rfl rfl, rfl⟩
    · rename_i hne
      refine ⟨rfl, .keep rfl rfl, ?_⟩
      have hmark : db.absentWatermark now workspaceId status issuedAt = none := by
        unfold InstallationDb.absentWatermark
        cases status <;> cases issuedAt <;> simp_all [issuedWatermark]
      rw [hmark]
      rfl
  | some row =>
    have hget := (Option.filter_eq_some_iff.mp hrow).1
    obtain rfl : row.workspaceId = workspaceId := Table.key_of_get? hget
    have hgeneration : db.statusGeneration now last status row =
        if status = .active ∧ row.status ≠ .active then
          max (max row.generation last)
            (authorityGeneration (db.recordedAuthority row.workspaceId now)) + 1
        else row.generation := by
      simp [InstallationDb.statusGeneration, InstallationDb.nextGeneration,
        InstallationDb.heldGeneration, hget]
    simp only [putInstallation, deleteAttestation, wp_bind, wp_modify]
    refine wp_recordIssuedAuthority ?_
    rw [wp_pure, hgeneration]
    refine ⟨rfl, ⟨_, ?_, .put rfl rfl (retire_empty _).symm⟩, rfl⟩
    exact ⟨rfl, rfl, rfl, rfl⟩

/-- The row an uninstall leaves in place of `old`. -/
structure InstallationRow.TombstoneOf (row old : InstallationRow) (cipher : TokenCipher)
    (generation : Nat) (issuedAt : EpochSeconds) : Prop where
  token : row.addonTokenCiphertext =
    if old.status = .deleted then old.addonTokenCiphertext else cipher.sealToken ""
  status : row.status = .deleted
  generation : row.generation = generation
  issuedAt : row.lifecycleIssuedAt =
    some (if old.status = .deleted then max (old.lifecycleIssuedAt.getD 0) issuedAt else issuedAt)

def InstallationDb.tombstoneGeneration (db : InstallationDb) (now : Time) (last : Nat)
    (row : InstallationRow) : Nat :=
  if row.status = .deleted then row.generation else db.nextGeneration now row.workspaceId last

theorem wp_tombstoneLifecycleTxn (issuedAt : EpochSeconds) (recordAbsent : Bool) :
    wp (tombstoneLifecycleTxn cipher last now workspaceId issuedAt recordAbsent) (fun r db' =>
      if staleDeletion (db.recordedAuthority workspaceId now) issuedAt then
        r = ⟨false, db.heldGeneration workspaceId⟩ ∧
        SetsRow db db' workspaceId (db.installations.get? workspaceId) "" ∧
        db'.watermarks = marked db.watermarks now none
      else match db.installations.get? workspaceId with
      | none =>
          r = ⟨recordAbsent, (db.recordedAuthority workspaceId now).map
            EffectiveLifecycleAuthority.installationGeneration⟩ ∧
          SetsRow db db' workspaceId none "" ∧
          db'.watermarks = marked db.watermarks now (if recordAbsent then
            some (lifecycleWatermark workspaceId issuedAt .deleted
              (authorityGeneration (db.recordedAuthority workspaceId now)) now) else none)
      | some row =>
          r = ⟨true, some (db.tombstoneGeneration now last row)⟩ ∧
          (row.status = .deleted ∨ (cipher.openToken row.addonTokenCiphertext).isSome) ∧
          (∃ row' : InstallationRow,
            row'.TombstoneOf row cipher (db.tombstoneGeneration now last row) issuedAt ∧
            SetsRow db db' workspaceId (some row')
              (((db.tombstoneTarget cipher now workspaceId issuedAt).map Prod.snd).getD "")) ∧
          db'.watermarks = marked db.watermarks now (some (lifecycleWatermark workspaceId issuedAt
            .deleted (db.tombstoneGeneration now last row) now)))
      (fun _ => db.Unreadable cipher workspaceId) db := by
  unfold tombstoneLifecycleTxn
  rw [wp_bind, wp_get, wp_bind, wp_lifecycleAuthority]
  by_cases hstale : staleDeletion (db.recordedAuthority workspaceId now) issuedAt
  · rw [if_pos hstale, wp_pure, if_pos hstale]
    exact ⟨rfl, .keep rfl rfl, rfl⟩
  simp only [if_neg hstale]
  cases hget : db.installations.get? workspaceId with
  | none =>
    have hkeep : SetsRow db db workspaceId (db.installations.get? workspaceId) "" := .keep rfl rfl
    rw [hget] at hkeep
    cases recordAbsent with
    | true => exact ⟨rfl, ⟨hkeep.lookup, hkeep.retiredTokens⟩, rfl⟩
    | false => exact ⟨rfl, ⟨hkeep.lookup, hkeep.retiredTokens⟩, rfl⟩
  | some row =>
    obtain rfl : row.workspaceId = workspaceId := Table.key_of_get? hget
    have htarget : db.tombstoneTarget cipher now row.workspaceId issuedAt =
        if row.status = .deleted then none
        else (cipher.openToken row.addonTokenCiphertext).map fun token => (row, token) := by
      simp only [InstallationDb.tombstoneTarget, if_neg hstale, hget, Option.filter_some]
      by_cases hdeleted : row.status = .deleted <;> simp [hdeleted]
    by_cases hdeleted : row.status = .deleted
    · simp only [if_pos hdeleted, putInstallation, recordLifecycleAuthority, wp_bind, wp_modify,
        wp_pure, htarget, InstallationDb.tombstoneGeneration, Option.map_none, Option.getD_none]
      refine ⟨trivial, .inl hdeleted, ⟨_, ?_, .put rfl rfl (retire_empty _).symm⟩, rfl⟩
      exact ⟨(if_pos hdeleted).symm, hdeleted, rfl, by rw [if_pos hdeleted]⟩
    · have hgeneration : db.tombstoneGeneration now last row =
          max (max row.generation last)
            (authorityGeneration (db.recordedAuthority row.workspaceId now)) + 1 := by
        simp [InstallationDb.tombstoneGeneration, InstallationDb.nextGeneration,
          InstallationDb.heldGeneration, hget, hdeleted]
      dsimp only
      rw [htarget, hgeneration]
      simp only [if_neg hdeleted, openToken, retireToken, putInstallation, deleteAttestation,
        recordLifecycleAuthority, wp_bind, wp_demand, wp_modify, wp_pure]
      refine ⟨fun token htoken => ?_, fun hunreadable => ?_⟩
      swap
      · rw [InstallationDb.Unreadable, InstallationDb.heldToken, hget]
        exact ⟨rfl, hunreadable⟩
      rw [htoken]
      refine ⟨trivial, .inr rfl, ⟨_, ?_, .put rfl rfl rfl⟩, rfl⟩
      exact ⟨(if_neg hdeleted).symm, rfl, rfl, by rw [if_neg hdeleted]⟩

theorem wp_retireInstallationTxn (input : MaintenanceRetirement) :
    wp (retireInstallationTxn cipher last now input) (fun r db' =>
      db'.watermarks = db.watermarks ∧
      match db.maintenanceTarget cipher input with
      | some (row, token) =>
          r = .retired (max row.generation last + 1) (token ≠ "") ∧
          ∃ row' : InstallationRow, row'.addonTokenCiphertext = cipher.sealToken "" ∧
            row'.status = .inactive ∧ row'.generation = max row.generation last + 1 ∧
            row'.lifecycleIssuedAt = row.lifecycleIssuedAt ∧
            SetsRow db db' input.workspaceId (some row') token
      | none =>
          (∀ generation tokenRetired, r ≠ .retired generation tokenRetired) ∧
          SetsRow db db' input.workspaceId (db.installations.get? input.workspaceId) "")
      (fun _ => False) db := by
  unfold retireInstallationTxn InstallationDb.maintenanceTarget
  rw [wp_bind, wp_get]
  have hkeep : SetsRow db db input.workspaceId (db.installations.get? input.workspaceId) "" :=
    .keep rfl rfl
  cases hget : db.installations.get? input.workspaceId with
  | none =>
    rw [hget] at hkeep
    exact ⟨rfl, by simp, hkeep⟩
  | some row =>
    rw [hget] at hkeep
    have hid : row.workspaceId = input.workspaceId := Table.key_of_get? hget
    by_cases hmatch : row.generation = input.expectedGeneration ∧ row.status = input.expectedStatus
    · have hfound : (some row).filter (fun row : InstallationRow =>
          row.generation == input.expectedGeneration && row.status == input.expectedStatus) =
            some row := by
        simp [hmatch.1, hmatch.2]
      rw [hfound, Option.bind_some]
      refine wp_ite (fun h => absurd hmatch.1 h) fun _ =>
        wp_ite (fun h => absurd hmatch.2 h) fun _ => ?_
      cases htoken : cipher.openToken row.addonTokenCiphertext with
      | none => exact ⟨rfl, by simp, hkeep⟩
      | some token =>
        refine ⟨rfl, rfl, _, ?_, ?_, ?_, ?_, .put rfl hid rfl⟩
        all_goals rfl
    · have hnone : (some row).filter (fun row : InstallationRow =>
          row.generation == input.expectedGeneration && row.status == input.expectedStatus) =
            none := by
        simpa using hmatch
      rw [hnone, Option.bind_none]
      refine wp_ite (fun _ => ⟨rfl, by simp, hkeep⟩) fun h =>
        wp_ite (fun _ => ⟨rfl, by simp, hkeep⟩) fun h' => ?_
      exact absurd ⟨not_not.mp h, not_not.mp h'⟩ hmatch

theorem wp_eraseWorkspaceTxn (expected : Option Nat) :
    wp (eraseWorkspaceTxn workspaceId expected) (fun r db' => db'.watermarks = db.watermarks ∧
      ((r = none ∧ expected ≠ none ∧
          SetsRow db db' workspaceId (db.installations.get? workspaceId) "") ∨
        (r = some (db.heldGeneration workspaceId) ∧ SetsRow db db' workspaceId none "")))
      (fun _ => False) db := by
  unfold eraseWorkspaceTxn
  rw [wp_bind, wp_get]
  refine wp_ite (fun hexpected => ?_) fun _ => ?_
  · refine ⟨rfl, .inl ⟨rfl, fun hnone => ?_, .keep rfl rfl⟩⟩
    rw [hnone] at hexpected
    exact absurd hexpected (by simp)
  · exact ⟨rfl, .inr ⟨rfl, .drop rfl rfl⟩⟩

theorem openStore_rows (now : Time) (s : InstallationStore) :
    (s.openStore now).db.installations = s.db.installations ∧
      (s.openStore now).db.retiredTokens = s.db.retiredTokens := by
  refine commit_inv (P := fun db' : InstallationDb => db'.installations = s.db.installations ∧
    db'.retiredTokens = s.db.retiredTokens) ⟨rfl, rfl⟩ ?_
  rw [wp_bind]
  refine wp_forM_inv _ _ (fun row _ db hdb => ?_) ⟨rfl, rfl⟩
  exact wp_recordIssuedAuthority hdb

end Specs

section Calls

/-- The calls on the installations of a store, the opening of the store among them. -/
inductive InstallationCall
  | saveInstallation (input : InstallationInput)
  | setInstallationStatus (workspaceId : WorkspaceId) (status : InstallationStatus)
      (lifecycleIssuedAt : Option EpochSeconds)
  | tombstoneInstallationForLifecycle (workspaceId : WorkspaceId) (lifecycleIssuedAt : EpochSeconds)
  | tombstoneInstallation (workspaceId : WorkspaceId)
  | retireInstallationForMaintenance (input : MaintenanceRetirement)
  | eraseWorkspace (workspaceId : WorkspaceId)
  | eraseWorkspaceForDeletion (workspaceId : WorkspaceId) (generation : Nat)
  | openStore

def InstallationCall.apply (cipher : TokenCipher) (now : Time) (s : InstallationStore) :
    InstallationCall → InstallationStore
  | saveInstallation input => (s.saveInstallation cipher now input).2
  | setInstallationStatus workspaceId status issuedAt =>
      (s.setInstallationStatus now workspaceId status issuedAt).2
  | tombstoneInstallationForLifecycle workspaceId issuedAt =>
      (s.tombstoneInstallationForLifecycle cipher now workspaceId issuedAt).2
  | tombstoneInstallation workspaceId => (s.tombstoneInstallation cipher now workspaceId).2
  | retireInstallationForMaintenance input =>
      (s.retireInstallationForMaintenance cipher now input).2
  | eraseWorkspace workspaceId => (s.eraseWorkspace cipher now workspaceId).2
  | eraseWorkspaceForDeletion workspaceId generation =>
      (s.eraseWorkspaceForDeletion workspaceId generation).2
  | openStore => s.openStore now

/-- The workspace whose row a call may set. -/
def InstallationCall.workspaceId : InstallationCall → WorkspaceId
  | saveInstallation input => input.workspaceId
  | setInstallationStatus workspaceId _ _ => workspaceId
  | tombstoneInstallationForLifecycle workspaceId _ => workspaceId
  | tombstoneInstallation workspaceId => workspaceId
  | retireInstallationForMaintenance input => input.workspaceId
  | eraseWorkspace workspaceId => workspaceId
  | eraseWorkspaceForDeletion workspaceId _ => workspaceId
  | openStore => 0

def InstallationStore.empty : InstallationStore := ⟨InstallationDb.empty, fun _ => 0⟩

def runInstallationCalls (cipher : TokenCipher) (calls : List (Time × InstallationCall)) :
    InstallationStore :=
  calls.foldl (fun s call => call.2.apply cipher call.1 s) .empty

theorem runInstallationCalls_concat {cipher : TokenCipher}
    (calls : List (Time × InstallationCall)) (call : Time × InstallationCall) :
    runInstallationCalls cipher (calls ++ [call]) =
      call.2.apply cipher call.1 (runInstallationCalls cipher calls) := by
  simp [runInstallationCalls]

/-- A transaction that throws leaves the store alone; one that commits hands its database on. -/
theorem InstallationStore.run_cases {α : Type} (s : InstallationStore) (workspaceId : WorkspaceId)
    (txn : Nat → InstallationTxn α) (generation : α → Option Nat)
    {P : α → InstallationDb → Prop} {E : StoreError → Prop}
    (h : wp (txn (s.lastGenerations workspaceId)) P E s.db) :
    (∃ e, (s.run workspaceId txn generation).1 = .error e ∧ E e ∧
        (s.run workspaceId txn generation).2 = s) ∨
      ∃ a, (s.run workspaceId txn generation).1 = .ok a ∧
        P a (s.run workspaceId txn generation).2.db ∧
        (s.run workspaceId txn generation).2.lastGenerations =
          match generation a with
          | some n => Function.update s.lastGenerations workspaceId
              (max n (s.lastGenerations workspaceId))
          | none => s.lastGenerations := by
  unfold run
  cases htxn : txn (s.lastGenerations workspaceId) s.db with
  | error e =>
    rw [commit_error htxn]
    exact .inl ⟨e, rfl, wp_error h htxn, rfl⟩
  | ok r =>
    obtain ⟨a, db⟩ := r
    rw [commit_ok htxn]
    have hP : P a db := wp_ok h htxn
    dsimp only
    cases hgeneration : generation a with
    | none => exact .inr ⟨a, rfl, hP, by rw [hgeneration]⟩
    | some n => exact .inr ⟨a, rfl, hP, by rw [hgeneration]; rfl⟩

end Calls

end ClockifyAssistant
