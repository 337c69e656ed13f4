import ClockifyAssistant.Harness.SafeJson

/-!
Snapshots of the targets that an admin was shown, and their check against what the host says when
the change is confirmed. A snapshot keeps a bounded copy of the target to show, and the
fingerprint of all of it to compare.
-/
namespace ClockifyAssistant

open Lib Lib.CodeUnits SafeJson

namespace TargetSnapshots

inductive Relation
  | target
  | parent
  deriving DecidableEq

def Relation.text : Relation → String
  | target => "target"
  | parent => "parent"

structure EntityRef where
  type : CodeUnits
  id : CodeUnits
  name : Option CodeUnits := none
  projectId : Option CodeUnits := none
  deriving DecidableEq

structure TargetSnapshot where
  relation : Relation
  ref : EntityRef
  projection : UnitJson
  fingerprint : Hash

/-- What a reading shows of a target. The projection may be missing. -/
structure TargetEvidence where
  ref : EntityRef
  projection : Option UnitJson
  truncated : Bool := false

inductive SnapshotVerification
  | ok
  | refused (code message : String)
  deriving DecidableEq

def SnapshotVerification.code : SnapshotVerification → Option String
  | ok => none
  | refused code _ => some code

def Relation.refusal : Relation → SnapshotVerification
  | parent => .refused "stale_parent"
      "The target parent changed or could not be verified. Create a fresh preview."
  | target => .refused "stale_target"
      "The target changed or could not be verified. Create a fresh preview."

section Verification

variable (sha256 : CodeUnits → Hash)

def captureTargetSnapshot (relation : Relation) (ref : EntityRef) (projection : UnitJson) :
    TargetSnapshot where
  relation := relation
  ref := ref
  projection := boundedSanitizedJson projection
  fingerprint := sanitizedFingerprint sha256 projection

/-- Whether a reading shows the target of the snapshot as it was. A reading that fails shows
nothing. -/
def confirms (snapshot : TargetSnapshot) : Except String (Option TargetEvidence) → Bool
  | .ok (some evidence) =>
      !evidence.truncated && decide (evidence.ref.type = snapshot.ref.type) &&
        decide (evidence.ref.id = snapshot.ref.id) &&
        match evidence.projection with
        | some projection => sanitizedFingerprint sha256 projection == snapshot.fingerprint
        | none => false
  | _ => false

/-- The snapshots in order; `fetch` is what the reading at a place in that order returns. -/
def verifyFrom (fetch : Nat → TargetSnapshot → Except String (Option TargetEvidence)) :
    Nat → List TargetSnapshot → SnapshotVerification
  | _, [] => .ok
  | place, snapshot :: rest =>
      if confirms sha256 snapshot (fetch place snapshot) then verifyFrom fetch (place + 1) rest
      else snapshot.relation.refusal

def verifyTargetSnapshots (snapshots : List TargetSnapshot)
    (fetch : Nat → TargetSnapshot → Except String (Option TargetEvidence)) : SnapshotVerification :=
  if snapshots.isEmpty then
    .refused "stale_target" "The target could not be verified. Create a fresh preview."
  else verifyFrom sha256 fetch 0 snapshots

end Verification

section Verified

variable {sha256 : CodeUnits → Hash} {snapshot : TargetSnapshot} {snapshots : List TargetSnapshot}
  {fetch : Nat → TargetSnapshot → Except String (Option TargetEvidence)} {place : Nat}

theorem confirms_iff {reading : Except String (Option TargetEvidence)} :
    confirms sha256 snapshot reading = true ↔
      ∃ evidence projection, reading = .ok (some evidence) ∧ evidence.truncated = false ∧
        evidence.ref.type = snapshot.ref.type ∧ evidence.ref.id = snapshot.ref.id ∧
        evidence.projection = some projection ∧
        sanitizedFingerprint sha256 projection = snapshot.fingerprint := by
  constructor
  · intro h
    unfold confirms at h
    split at h
    · rename_i evidence
      simp only [Bool.and_eq_true, Bool.not_eq_true', decide_eq_true_eq] at h
      obtain ⟨⟨⟨hcomplete, htype⟩, hid⟩, hsame⟩ := h
      split at hsame
      · next projection hprojection =>
        exact ⟨evidence, projection, rfl, hcomplete, htype, hid, hprojection, beq_iff_eq.mp hsame⟩
      · exact absurd hsame nofun
    · exact absurd h nofun
  · rintro ⟨evidence, projection, rfl, hcomplete, htype, hid, hprojection, hsame⟩
    simp [confirms, hcomplete, htype, hid, hprojection, hsame]

theorem Relation.refusal_ne_ok (relation : Relation) : relation.refusal ≠ .ok := by
  cases relation <;> exact nofun

theorem verifyFrom_eq_ok_iff : verifyFrom sha256 fetch place snapshots = .ok ↔
      ∀ i (h : i < snapshots.length),
        confirms sha256 snapshots[i] (fetch (place + i) snapshots[i]) = true := by
  induction snapshots generalizing place with
  | nil => simp [verifyFrom]
  | cons first rest ih =>
    unfold verifyFrom
    by_cases hfirst : confirms sha256 first (fetch place first) = true
    · rw [if_pos hfirst, ih]
      constructor
      · intro hrest i hi
        cases i with
        | zero => exact hfirst
        | succ i =>
          have hlt : i < rest.length := by simpa using hi
          simpa [Nat.add_right_comm, Nat.add_assoc] using hrest i hlt
      · intro hall i hi
        have hlt : i + 1 < (first :: rest).length := by simpa using hi
        simpa [Nat.add_right_comm, Nat.add_assoc] using hall (i + 1) hlt
    · rw [if_neg hfirst]
      constructor
      · intro hok
        exact absurd hok first.relation.refusal_ne_ok
      · intro hall
        exact absurd (hall 0 (Nat.succ_pos _)) hfirst

/-- The snapshots stand when there are some and every reading confirms its own. -/
theorem verifyTargetSnapshots_eq_ok_iff : verifyTargetSnapshots sha256 snapshots fetch = .ok ↔
      snapshots ≠ [] ∧ ∀ i (h : i < snapshots.length),
        confirms sha256 snapshots[i] (fetch i snapshots[i]) = true := by
  unfold verifyTargetSnapshots
  cases snapshots with
  | nil => simp
  | cons first rest =>
    simp only [List.isEmpty_cons, Bool.false_eq_true, if_false, verifyFrom_eq_ok_iff, ne_eq,
      reduceCtorEq, not_false_eq_true, true_and, Nat.zero_add]

theorem verifyTargetSnapshots_const_eq_ok_iff
    {read : TargetSnapshot → Except String (Option TargetEvidence)} :
    verifyTargetSnapshots sha256 snapshots (fun _ => read) = .ok ↔
      snapshots ≠ [] ∧ ∀ snapshot ∈ snapshots, confirms sha256 snapshot (read snapshot) = true := by
  rw [verifyTargetSnapshots_eq_ok_iff]
  refine and_congr_right fun _ => ?_
  constructor
  · intro hall snapshot hmem
    obtain ⟨i, hi, rfl⟩ := List.getElem_of_mem hmem
    exact hall i hi
  · intro hall i hi
    exact hall _ (List.getElem_mem hi)

theorem SnapshotVerification.code_eq_none_iff {verification : SnapshotVerification} :
    verification.code = none ↔ verification = .ok := by
  cases verification <;> simp [SnapshotVerification.code]

theorem verifyTargetSnapshots_singleton_stale (htarget : snapshot.relation = .target)
    (hstale : confirms sha256 snapshot (fetch 0 snapshot) = false) :
    (verifyTargetSnapshots sha256 [snapshot] fetch).code = some "stale_target" := by
  simp [verifyTargetSnapshots, verifyFrom, hstale, htarget, Relation.refusal,
    SnapshotVerification.code]

end Verified

end TargetSnapshots

end ClockifyAssistant
