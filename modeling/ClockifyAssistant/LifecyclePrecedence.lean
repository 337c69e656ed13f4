import Mathlib.Data.Prod.Lex
import ClockifyAssistant.InstallationSteps

/-!
Precedence of lifecycle authorities: the issue time comes first, the rank of the
state second. The recorded authority of a workspace is the maximum of what its
row and its watermark establish, and every callback is held against it.
-/
namespace ClockifyAssistant

open Lib Txn

section Precedence

def precedence (issuedAt : EpochSeconds) (state : InstallationStatus) : ℕ ×ₗ ℕ :=
  toLex (issuedAt, lifecycleAuthorityRank state)

variable {i j : EpochSeconds} {state state' : InstallationStatus}

theorem precedence_le_iff : precedence i state ≤ precedence j state' ↔
    i < j ∨ i = j ∧ lifecycleAuthorityRank state ≤ lifecycleAuthorityRank state' :=
  Prod.Lex.toLex_le_toLex

theorem precedence_lt_iff : precedence i state < precedence j state' ↔
    i < j ∨ i = j ∧ lifecycleAuthorityRank state < lifecycleAuthorityRank state' :=
  Prod.Lex.toLex_lt_toLex

theorem le_of_precedence_le (h : precedence i state ≤ precedence j state') : i ≤ j := by
  rcases precedence_le_iff.mp h with hlt | ⟨heq, _⟩
  · exact hlt.le
  · exact heq.le

theorem precedence_inactive_le_active_iff :
    precedence i .inactive ≤ precedence j .active ↔ i < j := by
  rw [precedence_le_iff]
  simp [lifecycleAuthorityRank]

theorem precedence_inactive_le (h : state ≠ .active) :
    precedence i .inactive ≤ precedence i state := by
  rw [precedence_le_iff]
  cases state <;> simp_all [lifecycleAuthorityRank]

theorem precedence_le_deleted_iff : precedence i state ≤ precedence j .deleted ↔ i ≤ j := by
  rw [precedence_le_iff]
  have hrank : lifecycleAuthorityRank state ≤ lifecycleAuthorityRank .deleted := by
    cases state <;> decide
  constructor
  · rintro (hlt | ⟨heq, _⟩)
    · exact hlt.le
    · exact heq.le
  · intro h
    rcases Nat.lt_or_eq_of_le h with hlt | heq
    · exact .inl hlt
    · exact .inr ⟨heq, hrank⟩

theorem precedence_lt_active_iff : precedence i state < precedence j .active ↔ i < j := by
  rw [precedence_lt_iff]
  simp [lifecycleAuthorityRank]

end Precedence

section Authority

def EffectiveLifecycleAuthority.precedence (a : EffectiveLifecycleAuthority) : ℕ ×ₗ ℕ :=
  ClockifyAssistant.precedence a.lifecycleIssuedAt a.authorityState

def LifecycleAuthorityWatermark.precedence (w : LifecycleAuthorityWatermark) : ℕ ×ₗ ℕ :=
  ClockifyAssistant.precedence w.lifecycleIssuedAt w.authorityState

theorem EffectiveLifecycleAuthority.precedence_merge (a b : EffectiveLifecycleAuthority) :
    (a.merge b).precedence = max a.precedence b.precedence := by
  unfold merge
  by_cases hba : b.lifecycleIssuedAt < a.lifecycleIssuedAt
  · rw [if_pos hba, max_eq_left]
    exact precedence_le_iff.mpr (.inl hba)
  rw [if_neg hba]
  by_cases hab : a.lifecycleIssuedAt < b.lifecycleIssuedAt
  · rw [if_pos hab, max_eq_right]
    exact precedence_le_iff.mpr (.inl hab)
  rw [if_neg hab]
  have heq : a.lifecycleIssuedAt = b.lifecycleIssuedAt :=
    Nat.le_antisymm (not_lt.mp hba) (not_lt.mp hab)
  by_cases hrank : lifecycleAuthorityRank b.authorityState < lifecycleAuthorityRank a.authorityState
  · have hle : b.precedence ≤ a.precedence := precedence_le_iff.mpr (.inr ⟨heq.symm, hrank.le⟩)
    rw [if_pos hrank, max_eq_left hle]
    simp [precedence, heq]
  · have hle : a.precedence ≤ b.precedence :=
      precedence_le_iff.mpr (.inr ⟨heq, not_lt.mp hrank⟩)
    rw [if_neg hrank, max_eq_right hle]
    rfl

/-- What a row establishes together with a watermark lies below a bound exactly when both do. -/
theorem effectiveAuthority_le_iff {row : Option InstallationRow}
    {mark : Option LifecycleAuthorityWatermark} {q : ℕ ×ₗ ℕ}
    (hissued : ∀ r, row = some r → r.lifecycleIssuedAt.isSome) :
    (∀ a, effectiveAuthority row (mark.map LifecycleAuthorityWatermark.authority) = some a →
        a.precedence ≤ q) ↔
      (∀ r j, row = some r → r.lifecycleIssuedAt = some j → precedence j r.status ≤ q) ∧
        ∀ w, mark = some w → w.precedence ≤ q := by
  cases row with
  | none =>
    cases mark with
    | none => simp [effectiveAuthority]
    | some w =>
      simp [effectiveAuthority, LifecycleAuthorityWatermark.authority,
        LifecycleAuthorityWatermark.precedence, EffectiveLifecycleAuthority.precedence]
  | some r =>
    obtain ⟨j, hj⟩ := Option.isSome_iff_exists.mp (hissued r rfl)
    have hrow : (∀ r' j', some r = some r' → r'.lifecycleIssuedAt = some j' →
        precedence j' r'.status ≤ q) ↔ precedence j r.status ≤ q := by
      constructor
      · intro h
        exact h r j rfl hj
      · intro h r' j' hr' hj'
        obtain rfl : r = r' := Option.some.inj hr'
        obtain rfl : j = j' := Option.some.inj (hj.symm.trans hj')
        exact h
    rw [hrow]
    cases mark with
    | none => simp [effectiveAuthority, hj, EffectiveLifecycleAuthority.precedence]
    | some w =>
      simp only [effectiveAuthority, hj, Option.map_some, Option.some.injEq, forall_eq',
        EffectiveLifecycleAuthority.precedence_merge, sup_le_iff]
      rfl

variable {authority : Option EffectiveLifecycleAuthority} {i : EpochSeconds}
  {status : InstallationStatus}

theorem staleInstall_eq_false_iff : staleInstall authority (some i) = false ↔
    ∀ a, authority = some a → a.precedence < precedence i .active := by
  cases authority with
  | none => simp [staleInstall]
  | some a =>
    simp [staleInstall, EffectiveLifecycleAuthority.precedence, precedence_lt_active_iff]

theorem staleStatus_eq_false_iff : staleStatus authority status (some i) = false ↔
    ∀ a, authority = some a → a.precedence ≤ precedence i status := by
  cases authority with
  | none => simp [staleStatus]
  | some a =>
    simp only [staleStatus, Option.any_some, Option.some.injEq, forall_eq',
      EffectiveLifecycleAuthority.precedence, ← not_lt, precedence_lt_iff, ← Bool.not_eq_true,
      Bool.or_eq_true, Bool.and_eq_true, decide_eq_true_eq, beq_iff_eq]

theorem staleDeletion_eq_false_iff : staleDeletion authority i = false ↔
    ∀ a, authority = some a → a.precedence ≤ precedence i .deleted := by
  cases authority with
  | none => simp [staleDeletion]
  | some a =>
    simp [staleDeletion, EffectiveLifecycleAuthority.precedence, precedence_le_deleted_iff]

end Authority

section Marks

/-- The watermark of a workspace, expired or not. -/
def InstallationDb.mark (db : InstallationDb) (workspaceId : WorkspaceId) :
    Option LifecycleAuthorityWatermark :=
  db.watermarks.get? (hashLifecycleWorkspace workspaceId)

def unexpired (now : Time) (mark : Option LifecycleAuthorityWatermark) :
    Option LifecycleAuthorityWatermark :=
  mark.filter fun w => now < w.expiresAt

/-- What a new watermark leaves where another may stand. -/
def recorded (existing : Option LifecycleAuthorityWatermark)
    (excluded : LifecycleAuthorityWatermark) : LifecycleAuthorityWatermark :=
  match existing with
  | none => excluded
  | some w =>
      if w.precedence ≤ excluded.precedence then
        { excluded with
          installationGeneration := max w.installationGeneration excluded.installationGeneration }
      else w

variable {db : InstallationDb} {workspaceId : WorkspaceId} {now : Time}
  {mark : Option LifecycleAuthorityWatermark} {w e : LifecycleAuthorityWatermark} {q : ℕ ×ₗ ℕ}

theorem unexpired_eq_some : unexpired now mark = some w ↔ mark = some w ∧ now < w.expiresAt := by
  simp [unexpired, Option.filter_eq_some_iff]

theorem get?_pruneWatermarks (watermarks : Table LifecycleAuthorityWatermark) (digest : Digest) :
    (pruneWatermarks watermarks now).get? digest = unexpired now (watermarks.get? digest) := by
  unfold pruneWatermarks unexpired
  rw [Table.get?_deleteWhere]
  congr 1
  funext w
  rw [← decide_not]
  exact decide_eq_decide.mpr not_le

theorem recordedAuthority_eq : db.recordedAuthority workspaceId now =
    effectiveAuthority (db.installations.get? workspaceId)
      ((unexpired now (db.mark workspaceId)).map LifecycleAuthorityWatermark.authority) := by
  unfold InstallationDb.recordedAuthority InstallationDb.mark
  rw [get?_pruneWatermarks]

theorem precedence_recorded_le_iff : (recorded mark e).precedence ≤ q ↔
    (∀ w, mark = some w → w.precedence ≤ q) ∧ e.precedence ≤ q := by
  cases mark with
  | none => simp [recorded]
  | some w =>
    simp only [recorded, Option.some.injEq, forall_eq']
    split
    · rename_i hle
      constructor
      · intro h
        exact ⟨hle.trans h, h⟩
      · intro h
        exact h.2
    · rename_i hle
      constructor
      · intro h
        exact ⟨h, (not_le.mp hle).le.trans h⟩
      · intro h
        exact h.1

theorem le_precedence_recorded : e.precedence ≤ (recorded mark e).precedence :=
  (precedence_recorded_le_iff.mp le_rfl).2

theorem precedence_le_recorded (h : mark = some w) : w.precedence ≤ (recorded mark e).precedence :=
  (precedence_recorded_le_iff.mp le_rfl).1 w h

/-- A property of watermarks that ignores the generation survives a recording. -/
theorem recorded_cases {P : LifecycleAuthorityWatermark → Prop}
    (he : ∀ generation, P { e with installationGeneration := generation })
    (hmark : ∀ w, mark = some w → P w) : P (recorded mark e) := by
  cases mark with
  | none => exact he e.installationGeneration
  | some w =>
    simp only [recorded]
    split
    · exact he _
    · exact hmark w rfl

theorem generation_recorded_le {generation : Nat} (he : e.installationGeneration ≤ generation)
    (hmark : ∀ w, mark = some w → w.installationGeneration ≤ generation) :
    (recorded mark e).installationGeneration ≤ generation := by
  cases mark with
  | none => exact he
  | some w =>
    simp only [recorded]
    split
    · exact max_le (hmark w rfl) he
    · exact hmark w rfl

theorem get?_recordWatermark (watermarks : Table LifecycleAuthorityWatermark) (digest : Digest) :
    (recordWatermark watermarks e).get? digest =
      if digest = e.workspaceFingerprint then some (recorded (watermarks.get? digest) e)
      else watermarks.get? digest := by
  have hput : ∀ w : LifecycleAuthorityWatermark, w.workspaceFingerprint = e.workspaceFingerprint →
      (watermarks.put w).get? digest =
        if digest = e.workspaceFingerprint then some w else watermarks.get? digest := by
    intro w hw
    rw [Table.get?_put, ← hw]
    rfl
  have hkey : key e = e.workspaceFingerprint := rfl
  unfold recordWatermark
  rw [hkey]
  by_cases hdigest : digest = e.workspaceFingerprint
  · subst hdigest
    rw [if_pos rfl]
    cases hget : watermarks.get? e.workspaceFingerprint with
    | none =>
      dsimp only
      rw [hput e rfl, if_pos rfl]
      rfl
    | some w =>
      have hle : (w.lifecycleIssuedAt < e.lifecycleIssuedAt ∨
          e.lifecycleIssuedAt = w.lifecycleIssuedAt ∧
            lifecycleAuthorityRank w.authorityState ≤ lifecycleAuthorityRank e.authorityState) ↔
          w.precedence ≤ e.precedence := by
        unfold LifecycleAuthorityWatermark.precedence
        rw [precedence_le_iff, eq_comm]
      dsimp only [recorded]
      by_cases h : w.precedence ≤ e.precedence
      · rw [if_pos (hle.mpr h), if_pos h, hput { e with
          installationGeneration := max w.installationGeneration e.installationGeneration } rfl,
          if_pos rfl]
      · rw [if_neg (mt hle.mp h), if_neg h, hget]
  · rw [if_neg hdigest]
    cases hget : watermarks.get? e.workspaceFingerprint with
    | none =>
      dsimp only
      rw [hput e rfl, if_neg hdigest]
    | some w =>
      dsimp only
      split
      · rw [hput { e with
          installationGeneration := max w.installationGeneration e.installationGeneration } rfl,
          if_neg hdigest]
      · rfl

theorem hashLifecycleWorkspace_inj {a b : WorkspaceId} :
    hashLifecycleWorkspace a = hashLifecycleWorkspace b ↔ a = b := by
  simp [hashLifecycleWorkspace]

/-- A transaction records its watermark in place of the workspace's own. -/
theorem get?_marked_self (watermarks : Table LifecycleAuthorityWatermark)
    (e : LifecycleAuthorityWatermark) :
    (marked watermarks now (some e)).get? e.workspaceFingerprint =
      some (recorded (unexpired now (watermarks.get? e.workspaceFingerprint)) e) := by
  simp only [marked, Option.elim_some, get?_recordWatermark, get?_pruneWatermarks, if_pos]

theorem get?_marked_of_ne (watermarks : Table LifecycleAuthorityWatermark)
    {e : Option LifecycleAuthorityWatermark} {digest : Digest}
    (h : ∀ e', e = some e' → digest ≠ e'.workspaceFingerprint) :
    (marked watermarks now e).get? digest = unexpired now (watermarks.get? digest) := by
  cases e with
  | none => exact get?_pruneWatermarks watermarks digest
  | some e' =>
    simp only [marked, Option.elim_some, get?_recordWatermark, get?_pruneWatermarks]
    rw [if_neg (h e' rfl)]

end Marks

end ClockifyAssistant
