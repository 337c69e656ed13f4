import Mathlib.Data.List.Induction
import ClockifyAssistant.LifecyclePrecedence

/-!
Order of the lifecycle callbacks of a workspace. The route turns a callback away
once it is older than the acceptance window, and the store keeps a watermark for
longer than that; so an INACTIVE or DELETED that has been delivered stays settled
against every callback of the same or an earlier issue time.
-/
namespace ClockifyAssistant

open Lib Txn

section Window

/-- The age, in seconds, up to which the route accepts a callback. -/
def acceptanceWindowSeconds : Nat := maxLifecycleAgeSeconds + lifecycleClockSkewSeconds

variable {now now' : Time} {i j : EpochSeconds}

def Elapsed (now : Time) (issuedAt : EpochSeconds) : Prop :=
  issuedAt + acceptanceWindowSeconds < seconds now

theorem Elapsed.later (h : Elapsed now i) (hnow : now ≤ now') : Elapsed now' i :=
  h.trans_le (Nat.div_le_div_right hnow)

theorem Elapsed.of_le (h : Elapsed now j) (hij : i ≤ j) : Elapsed now i :=
  (Nat.add_le_add_right hij _).trans_lt h

/-- A watermark outlives the acceptance window of its issue time. -/
def LifecycleAuthorityWatermark.Outlives (w : LifecycleAuthorityWatermark) : Prop :=
  (w.lifecycleIssuedAt + acceptanceWindowSeconds + 1) * 1000 ≤ w.expiresAt

theorem elapsed_of_expired {w : LifecycleAuthorityWatermark} (h : w.Outlives)
    (hexpired : w.expiresAt ≤ now) : Elapsed now w.lifecycleIssuedAt := by
  have harith : ∀ issuedAt window expiresAt now : Nat,
      (issuedAt + window + 1) * 1000 ≤ expiresAt → expiresAt ≤ now →
        issuedAt + window < now / 1000 := by
    intro issuedAt window expiresAt now hwindow hnow
    omega
  exact harith _ _ _ _ h hexpired

theorem outlives_lifecycleWatermark {workspaceId : WorkspaceId} {state : InstallationStatus}
    {generation : Nat} (h : i ≤ seconds now + lifecycleClockSkewSeconds) :
    (lifecycleWatermark workspaceId i state generation now).Outlives := by
  have harith : ∀ issuedAt now : Nat, issuedAt ≤ now / 1000 + 60 →
      (issuedAt + (24 * 60 * 60 + 60) + 1) * 1000 ≤ now + (24 * 60 * 60 + 2 * 60 + 1) * 1000 := by
    intro issuedAt now hissued
    omega
  exact harith _ _ h

end Window

section Lineage

/-- Nothing of this issue time and state can take effect any more, for age or by the watermark. -/
def Settled (now : Time) (mark : Option LifecycleAuthorityWatermark) (issuedAt : EpochSeconds)
    (state : InstallationStatus) : Prop :=
  Elapsed now issuedAt ∨ ∃ w, mark = some w ∧ precedence issuedAt state ≤ w.precedence

variable {now now' : Time} {mark : Option LifecycleAuthorityWatermark}
  {e : LifecycleAuthorityWatermark} {i j : EpochSeconds} {state : InstallationStatus}

theorem Settled.later (h : Settled now mark i state) (hnow : now ≤ now') :
    Settled now' mark i state :=
  h.imp (fun helapsed => helapsed.later hnow) id

theorem Settled.unexpired (h : Settled now mark i state)
    (hmark : ∀ w, mark = some w → w.Outlives) : Settled now (unexpired now mark) i state := by
  rcases h with helapsed | ⟨w, hw, hle⟩
  · exact .inl helapsed
  by_cases hexpired : now < w.expiresAt
  · exact .inr ⟨w, unexpired_eq_some.mpr ⟨hw, hexpired⟩, hle⟩
  · refine .inl ((elapsed_of_expired (hmark w hw) (not_lt.mp hexpired)).of_le ?_)
    exact le_of_precedence_le hle

theorem Settled.recorded (h : Settled now mark i state) :
    Settled now (some (recorded mark e)) i state := by
  rcases h with helapsed | ⟨w, hw, hle⟩
  · exact .inl helapsed
  · exact .inr ⟨_, rfl, hle.trans (precedence_le_recorded hw)⟩

theorem settled_recorded (h : precedence i state ≤ e.precedence) :
    Settled now (some (recorded mark e)) i state :=
  .inr ⟨_, rfl, h.trans le_precedence_recorded⟩

/-- A row is on record as deleted or by its issue time alone: maintenance changes the status of a
row without a callback. -/
def InstallationRow.recordState (row : InstallationRow) : InstallationStatus :=
  if row.status = .deleted then .deleted else .active

theorem InstallationRow.recordState_of_active {row : InstallationRow} (h : row.status = .active) :
    row.recordState = .active := by
  simp [recordState, h]

/-- A revocation below what a row establishes is below what is on record of it. -/
theorem precedence_recordState {row : InstallationRow} (hstate : state ≠ .active)
    (h : precedence i state < precedence j row.status) :
    precedence i .inactive ≤ precedence j row.recordState := by
  have hle : i ≤ j := le_of_precedence_le h.le
  have hrank : lifecycleAuthorityRank .inactive ≤ lifecycleAuthorityRank state := by
    cases state <;> simp_all [lifecycleAuthorityRank]
  unfold InstallationRow.recordState
  by_cases hdeleted : row.status = .deleted
  · rw [if_pos hdeleted, precedence_le_deleted_iff]
    exact hle
  · rw [if_neg hdeleted, precedence_inactive_le_active_iff]
    rcases precedence_lt_iff.mp h with hlt | ⟨_, hlt⟩
    · exact hlt
    · have hrow : lifecycleAuthorityRank row.status ≤ 1 := by
        cases hstatus : row.status <;> simp_all [lifecycleAuthorityRank]
      have hone : lifecycleAuthorityRank .inactive = 1 := rfl
      omega

/-- What a workspace's row and watermark keep to, `revoked` being the issue times of the
INACTIVE and DELETED callbacks delivered so far. -/
structure Lineage (cipher : TokenCipher) (now : Time) (revoked : Set EpochSeconds)
    (row : Option InstallationRow) (mark : Option LifecycleAuthorityWatermark) : Prop where
  readable : ∀ r, row = some r → (cipher.openToken r.addonTokenCiphertext).isSome
  outlives : ∀ w, mark = some w → w.Outlives
  issued : ∀ r, row = some r → ∃ j, r.lifecycleIssuedAt = some j ∧
    j ≤ seconds now + lifecycleClockSkewSeconds ∧ Settled now mark j r.recordState
  active : ∀ r j w, row = some r → r.status = .active → r.lifecycleIssuedAt = some j →
    mark = some w → w.precedence ≤ precedence j .active
  generation : ∀ r w, row = some r → mark = some w → w.installationGeneration ≤ r.generation
  settled : ∀ i ∈ revoked, Settled now mark i .inactive
  superseded : ∀ i ∈ revoked, ∀ r j, row = some r → r.status = .active →
    r.lifecycleIssuedAt = some j → i < j

variable {cipher : TokenCipher} {revoked revoked' : Set EpochSeconds}
  {row row' : Option InstallationRow}

theorem Lineage.none : Lineage cipher now ∅ none none := by
  constructor <;> simp

theorem Lineage.mono (h : Lineage cipher now revoked row mark) (hsub : revoked' ⊆ revoked) :
    Lineage cipher now revoked' row mark :=
  { h with
    settled := fun i hi => h.settled i (hsub hi)
    superseded := fun i hi => h.superseded i (hsub hi) }

theorem Lineage.later (h : Lineage cipher now revoked row mark) (hnow : now ≤ now') :
    Lineage cipher now' revoked row mark := by
  refine { h with issued := fun r hr => ?_, settled := fun i hi => (h.settled i hi).later hnow }
  obtain ⟨j, hj, hskew, hsettled⟩ := h.issued r hr
  have hseconds : seconds now ≤ seconds now' := Nat.div_le_div_right hnow
  exact ⟨j, hj, hskew.trans (Nat.add_le_add_right hseconds _), hsettled.later hnow⟩

theorem Lineage.unexpired (h : Lineage cipher now revoked row mark) :
    Lineage cipher now revoked row (unexpired now mark) where
  readable := h.readable
  outlives := fun w hw => h.outlives w (unexpired_eq_some.mp hw).1
  issued := fun r hr => by
    obtain ⟨j, hj, hskew, hsettled⟩ := h.issued r hr
    exact ⟨j, hj, hskew, hsettled.unexpired h.outlives⟩
  active := fun r j w hr hactive hj hw => h.active r j w hr hactive hj (unexpired_eq_some.mp hw).1
  generation := fun r w hr hw => h.generation r w hr (unexpired_eq_some.mp hw).1
  settled := fun i hi => (h.settled i hi).unexpired h.outlives
  superseded := h.superseded

theorem Lineage.drop (h : Lineage cipher now revoked row mark) :
    Lineage cipher now revoked Option.none mark where
  readable := by simp
  outlives := h.outlives
  issued := by simp
  active := by simp
  generation := by simp
  settled := h.settled
  superseded := by simp

theorem Lineage.issued_isSome (h : Lineage cipher now revoked row mark) (r : InstallationRow)
    (hr : row = some r) : r.lifecycleIssuedAt.isSome := by
  obtain ⟨j, hj, _⟩ := h.issued r hr
  exact Option.isSome_iff_exists.mpr ⟨j, hj⟩

/-- A callback that makes a row active, newer than all there is, supersedes every revocation. -/
theorem Lineage.activate (h : Lineage cipher now revoked row mark) {r : InstallationRow}
    (hreadable : (cipher.openToken r.addonTokenCiphertext).isSome)
    (hactive : r.status = .active) (hissued : r.lifecycleIssuedAt = some i)
    (hskew : i ≤ seconds now + lifecycleClockSkewSeconds) (htimely : ¬ Elapsed now i)
    (he : e.precedence = precedence i .active) (houtlives : e.Outlives)
    (hmark : ∀ w, mark = some w → w.precedence ≤ precedence i .active)
    (hgeneration : e.installationGeneration ≤ r.generation)
    (hold : ∀ w, mark = some w → w.installationGeneration ≤ r.generation) :
    Lineage cipher now revoked (some r) (some (recorded mark e)) := by
  refine ⟨?_, ?_, ?_, ?_, ?_, fun t ht => (h.settled t ht).recorded, ?_⟩
  · rintro r' hr'
    obtain rfl : r = r' := Option.some.inj hr'
    exact hreadable
  · rintro w hw
    obtain rfl : recorded mark e = w := Option.some.inj hw
    exact recorded_cases (fun _ => houtlives) h.outlives
  · intro r' hr'
    obtain rfl : r = r' := Option.some.inj hr'
    refine ⟨i, hissued, hskew, settled_recorded ?_⟩
    rw [InstallationRow.recordState_of_active hactive, he]
  · intro r' j w hr' _ hj hw
    obtain rfl : r = r' := Option.some.inj hr'
    obtain rfl : recorded mark e = w := Option.some.inj hw
    obtain rfl : i = j := Option.some.inj (hissued.symm.trans hj)
    exact precedence_recorded_le_iff.mpr ⟨hmark, he.le⟩
  · intro r' w hr' hw
    obtain rfl : r = r' := Option.some.inj hr'
    obtain rfl : recorded mark e = w := Option.some.inj hw
    exact generation_recorded_le hgeneration hold
  · intro t ht r' j hr' _ hj
    obtain rfl : r = r' := Option.some.inj hr'
    obtain rfl : i = j := Option.some.inj (hissued.symm.trans hj)
    rcases h.settled t ht with helapsed | ⟨w, hw, hle⟩
    · by_contra hlt
      exact htimely (helapsed.of_le (not_lt.mp hlt))
    · exact precedence_inactive_le_active_iff.mp (hle.trans (hmark w hw))

theorem Lineage.record (h : Lineage cipher now revoked row mark)
    (he : precedence i .inactive ≤ e.precedence) (houtlives : e.Outlives)
    (hrow : ∀ r, row' = some r → r.status ≠ .active ∧
      (cipher.openToken r.addonTokenCiphertext).isSome ∧
      (∃ j, r.lifecycleIssuedAt = some j ∧ j ≤ seconds now + lifecycleClockSkewSeconds ∧
        Settled now (some (recorded mark e)) j r.recordState) ∧
      e.installationGeneration ≤ r.generation ∧
      ∀ w, mark = some w → w.installationGeneration ≤ r.generation) :
    Lineage cipher now (insert i revoked) row' (some (recorded mark e)) := by
  refine ⟨fun r hr => (hrow r hr).2.1, ?_, fun r hr => (hrow r hr).2.2.1, ?_, ?_, ?_, ?_⟩
  · rintro w hw
    obtain rfl : recorded mark e = w := Option.some.inj hw
    exact recorded_cases (fun _ => houtlives) h.outlives
  · intro r j w hr hactive
    exact absurd hactive (hrow r hr).1
  · intro r w hr hw
    obtain rfl : recorded mark e = w := Option.some.inj hw
    exact generation_recorded_le (hrow r hr).2.2.2.1 (hrow r hr).2.2.2.2
  · rintro t (rfl | ht)
    · exact settled_recorded he
    · exact (h.settled t ht).recorded
  · intro t _ r j hr hactive
    exact absurd hactive (hrow r hr).1

/-- A revocation turned away as stale is settled by what turned it away. -/
theorem Lineage.ignore (h : Lineage cipher now revoked row mark) (htimely : ¬ Elapsed now i)
    (hstate : state ≠ .active)
    (hstale : ¬ ∀ a, effectiveAuthority row (mark.map LifecycleAuthorityWatermark.authority) =
      some a → a.precedence ≤ precedence i state) :
    Lineage cipher now (insert i revoked) row mark := by
  have habove : (∃ r j, row = some r ∧ r.lifecycleIssuedAt = some j ∧
        precedence i state < precedence j r.status) ∨
      ∃ w, mark = some w ∧ precedence i state < w.precedence := by
    rw [effectiveAuthority_le_iff h.issued_isSome] at hstale
    simp only [not_and_or, not_forall, not_le, exists_prop] at hstale
    rcases hstale with ⟨r, j, hr, hj, hlt⟩ | ⟨w, hw, hlt⟩
    · exact .inl ⟨r, j, hr, hj, hlt⟩
    · exact .inr ⟨w, hw, hlt⟩
  refine { h with settled := ?_, superseded := ?_ }
  · rintro t (rfl | ht)
    · rcases habove with ⟨r, j, hr, hj, hlt⟩ | ⟨w, hw, hlt⟩
      · obtain ⟨j', hj', _, hsettled⟩ := h.issued r hr
        obtain rfl : j = j' := Option.some.inj (hj.symm.trans hj')
        rcases hsettled with helapsed | ⟨w, hw, hle⟩
        · exact absurd (helapsed.of_le (le_of_precedence_le hlt.le)) htimely
        · exact .inr ⟨w, hw, (precedence_recordState hstate hlt).trans hle⟩
      · exact .inr ⟨w, hw, (precedence_inactive_le hstate).trans hlt.le⟩
    · exact h.settled t ht
  · rintro t (rfl | ht) r j hr hactive hj
    · have hbelow : precedence t state < precedence j .active := by
        rcases habove with ⟨r', j', hr', hj', hlt⟩ | ⟨w, hw, hlt⟩
        · obtain rfl : r = r' := Option.some.inj (hr.symm.trans hr')
          obtain rfl : j = j' := Option.some.inj (hj.symm.trans hj')
          rwa [hactive] at hlt
        · exact hlt.trans_le (h.active r j w hr hactive hj hw)
      exact precedence_lt_active_iff.mp hbelow
    · exact h.superseded t ht r j hr hactive hj

theorem Lineage.retire (h : Lineage cipher now revoked row mark) {r r' : InstallationRow}
    (hr : row = some r) (hreadable : (cipher.openToken r'.addonTokenCiphertext).isSome)
    (hstatus : r'.status ≠ .active) (hstate : r'.recordState = r.recordState)
    (hissued : r'.lifecycleIssuedAt = r.lifecycleIssuedAt)
    (hgeneration : r.generation ≤ r'.generation) : Lineage cipher now revoked (some r') mark := by
  refine ⟨?_, h.outlives, ?_, ?_, ?_, h.settled, ?_⟩
  · rintro _ ⟨⟩
    exact hreadable
  · rintro _ ⟨⟩
    rw [hissued, hstate]
    exact h.issued r hr
  · rintro _ j w ⟨⟩ hactive
    exact absurd hactive hstatus
  · rintro _ w ⟨⟩ hw
    exact (h.generation r w hr hw).trans hgeneration
  · rintro t _ _ j ⟨⟩ hactive
    exact absurd hactive hstatus

theorem Lineage.seed (h : Lineage cipher now revoked row mark) {r : InstallationRow}
    (hr : row = some r) (hissued : r.status = .active → r.lifecycleIssuedAt = some i)
    (he : e.precedence = precedence i r.status) (houtlives : e.Outlives)
    (hgeneration : e.installationGeneration = r.generation) :
    Lineage cipher now revoked row (some (recorded mark e)) := by
  refine ⟨h.readable, ?_, ?_, ?_, ?_, fun t ht => (h.settled t ht).recorded, h.superseded⟩
  · rintro w hw
    obtain rfl : recorded mark e = w := Option.some.inj hw
    exact recorded_cases (fun _ => houtlives) h.outlives
  · intro r' hr'
    obtain ⟨j, hj, hskew, hsettled⟩ := h.issued r' hr'
    exact ⟨j, hj, hskew, hsettled.recorded⟩
  · intro r' j w hr' hactive hj hw
    obtain rfl : recorded mark e = w := Option.some.inj hw
    obtain rfl : r = r' := Option.some.inj (hr.symm.trans hr')
    obtain rfl : i = j := Option.some.inj ((hissued hactive).symm.trans hj)
    refine precedence_recorded_le_iff.mpr ⟨fun w hw => h.active r i w hr hactive hj hw, ?_⟩
    rw [he, hactive]
  · intro r' w hr' hw
    obtain rfl : recorded mark e = w := Option.some.inj hw
    obtain rfl : r = r' := Option.some.inj (hr.symm.trans hr')
    exact generation_recorded_le hgeneration.le fun w hw => h.generation r w hr hw

end Lineage

end ClockifyAssistant
