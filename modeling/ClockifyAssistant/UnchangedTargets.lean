import ClockifyAssistant.UnchangedInvoices
import Mathlib.Data.Nat.Digits.Lemmas

/-!
A target that did not change since its preview is not reported as changed, and what is accepted
did not change. The bounded copy in a snapshot and a body without its `id` are where the commits
compare something else than they captured.
-/
namespace ClockifyAssistant

open Lib Lib.CodeUnits Lib.ObjectKeys SafeJson Composite

namespace TargetSnapshots

/-! `clockify_delete_entity` -/

/-- A deletion that was previewed from these readings. -/
structure Deletion (e : Evidence) where
  reads : EntityReads
  type : GenericDeleteType
  id : String
  name : Option String
  preview : DeletePreview
  previewed : previewDelete e reads type id name = .ok (some preview)

section Captures

variable {e : Evidence} {reads : EntityReads} {id : CodeUnits} {target : TargetSnapshot}

/-- The reading shows the entity that the snapshot captured. -/
structure Shows (e : Evidence) (reads : EntityReads) (type : GenericDeleteType) (id : CodeUnits)
    (target : TargetSnapshot) : Prop where
  relation : target.relation = .target
  id_eq : target.ref.id = id
  current : ∃ current, readGenericTarget reads type id = .ok (some current) ∧
    sanitizedFingerprint e.sha256 current = target.fingerprint

theorem captured_eq_some {read : Except String (Option HostRow)}
    {capture : HostRow → Except String TargetSnapshot} (h : captured read capture = .ok (some target)) :
    ∃ row, read = .ok (some row) ∧ capture row = .ok target := by
  unfold captured at h
  split at h
  · next row =>
    refine ⟨row, rfl, ?_⟩
    cases hcapture : capture row with
    | error message =>
      rw [hcapture] at h
      exact absurd h nofun
    | ok captured =>
      rw [hcapture] at h
      exact congrArg Except.ok (Option.some.inj (Except.ok.inj h))
  · exact absurd (Except.ok.inj h) nofun
  · exact absurd h nofun

variable {type : GenericDeleteType}

theorem captureStructureSnapshot_eq_ok {row : HostRow}
    (h : captureStructureSnapshot e reads type row = .ok target) :
    ∃ projection, loadStructureProjection reads type row.id = some projection ∧
      target.relation = .target ∧ target.ref.id = row.id ∧
      target.fingerprint = sanitizedFingerprint e.sha256 (.obj projection) := by
  unfold captureStructureSnapshot at h
  split at h
  · next projection hprojection =>
    obtain rfl := Except.ok.inj h
    exact ⟨projection, hprojection, rfl, rfl, rfl⟩
  · exact absurd h nofun

theorem toOption_bind_eq_some {α : Type} {read : Except String (Option α)} {value : α}
    (h : (read.toOption.bind fun state => state) = some value) : read = .ok (some value) := by
  cases read with
  | error message => exact absurd h nofun
  | ok state => exact congrArg Except.ok h

theorem toOption_eq_some {α : Type} {read : Except String α} {value : α}
    (h : read.toOption = some value) : read = .ok value := by
  cases read with
  | error message => exact absurd h nofun
  | ok state => exact congrArg Except.ok (Option.some.inj h)

theorem shows_of_structure {read : CodeUnits → Except String (Option HostRow)}
    (hread : read ∈ [reads.getProject, reads.getClient, reads.getTag, reads.getEntry])
    (hload : ∀ projection, loadStructureProjection reads type id = some projection →
      readGenericTarget reads type id = .ok (some (.obj projection)))
    (h : captured (read id) (captureStructureSnapshot e reads type) = .ok (some target)) :
    Shows e reads type id target := by
  obtain ⟨row, hrow, hcapture⟩ := captured_eq_some h
  obtain ⟨projection, hprojection, hrelation, href, hfingerprint⟩ :=
    captureStructureSnapshot_eq_ok hcapture
  have hid := reads.answers_id read hread id row hrow
  rw [hid] at hprojection href
  exact ⟨hrelation, href, _, hload projection hprojection, hfingerprint.symm⟩

theorem shows_of_row {read : Except String (Option HostRow)}
    {ref : HostRow → EntityRef} (href : ∀ row, (ref row).id = id)
    (hread : readGenericTarget reads type id = read.map (Option.map HostRow.projection))
    (h : captured read (fun row =>
      .ok (captureTargetSnapshot e.sha256 .target (ref row) row.projection)) = .ok (some target)) :
    Shows e reads type id target := by
  obtain ⟨row, hrow, hcapture⟩ := captured_eq_some h
  obtain rfl := Except.ok.inj hcapture
  rw [hrow] at hread
  exact ⟨rfl, href row, _, hread, rfl⟩

/-- The reader before a delete shows what the capture saw, except for a time entry. -/
theorem shows_of_capture (htype : type ≠ .timeEntry)
    (h : captureGenericTarget e reads type id = .ok (some target)) :
    Shows e reads type id target := by
  cases type with
  | timeEntry => exact absurd rfl htype
  | project =>
    refine shows_of_structure (by simp) (fun projection hload => ?_) h
    rw [readGenericTarget, toOption_bind_eq_some hload]
    rfl
  | client =>
    refine shows_of_structure (by simp) (fun projection hload => ?_) h
    rw [readGenericTarget, toOption_bind_eq_some hload]
    rfl
  | tag =>
    refine shows_of_structure (by simp) (fun projection hload => ?_) h
    rw [readGenericTarget, toOption_eq_some hload]
    rfl
  | invoice => exact shows_of_row (fun _ => rfl) rfl h
  | expense => exact shows_of_row (fun _ => rfl) rfl h
  | webhook => exact shows_of_row (fun _ => rfl) rfl h
  | group =>
    cases hlist : reads.listGroups with
    | error message =>
      rw [captureGenericTarget, hlist] at h
      cases h
    | ok listed =>
      rw [captureGenericTarget, hlist] at h
      have hfound := Except.ok.inj h
      dsimp only at hfound
      split at hfound
      · cases hfound
      obtain ⟨row, hrow, rfl⟩ := Option.map_eq_some_iff.mp hfound
      have hid : row.id = id := by simpa using List.find?_some hrow
      have hgroup : getGroup reads id = .ok (some row) := by
        unfold getGroup
        rw [hlist]
        dsimp only [bind, Except.bind]
        rw [hrow]
        rfl
      have hread : readGenericTarget reads .group id = .ok (some (groupProjection row)) := by
        rw [readGenericTarget, hgroup]
        rfl
      exact ⟨rfl, hid, _, hread, rfl⟩

theorem previewDelete_eq_some {id : String} {name : Option String}
    {preview : DeletePreview} (h : previewDelete e reads type id name = .ok (some preview)) :
    ∃ target raw, captureGenericTarget e reads type (ofString id) = .ok (some target) ∧
      readGenericTarget reads type (ofString id) = .ok raw ∧
      preview.entityType = type ∧ preview.id = id ∧ preview.targetSnapshot = target ∧
      preview.needsArchive = needsArchive type raw ∧
      preview.transitionedFingerprint =
        if needsArchive type raw then sanitizedFingerprint e.sha256 preview.archiveBody
        else target.fingerprint := by
  unfold previewDelete at h
  cases hcapture : captureGenericTarget e reads type (ofString id) with
  | error message =>
    rw [hcapture] at h
    exact absurd h nofun
  | ok target =>
    rw [hcapture] at h
    cases target with
    | none => exact absurd (Except.ok.inj h) nofun
    | some target =>
      cases hread : readGenericTarget reads type (ofString id) with
      | error message =>
        rw [hread] at h
        exact absurd h nofun
      | ok raw =>
        rw [hread] at h
        obtain rfl := Option.some.inj (Except.ok.inj h)
        exact ⟨target, raw, rfl, rfl, rfl, rfl, rfl, rfl, rfl⟩

end Captures

section Entries

variable {current : Fields} {field : CodeUnits × UnitJson}

def entryNames : List String :=
  ["start", "end", "description", "projectId", "taskId", "tagIds", "billable"]

theorem prepareTimeEntryUpdate_names (h : field ∈ prepareTimeEntryUpdate current) :
    ∃ name ∈ entryNames, field.1 = ofString name := by
  have hkept : ∀ (source : Fields) (name : String),
      field ∈ (source.lookup (ofString name)).toList.map (fun value => (ofString name, value)) →
      field.1 = ofString name := by
    intro source name hfield
    obtain ⟨value, -, rfl⟩ := List.mem_map.mp hfield
    rfl
  simp only [prepareTimeEntryUpdate, List.mem_append, List.mem_flatMap] at h
  rcases h with (hstart | hend) | ⟨name, hname, hfield⟩
  · exact ⟨"start", by simp [entryNames], hkept _ _ hstart⟩
  · exact ⟨"end", by simp [entryNames], hkept _ _ (List.mem_filter.mp hend).1⟩
  · refine ⟨name, ?_, hkept _ _ hfield⟩
    simp only [entryNames, List.mem_cons] at hname ⊢
    exact .inr (.inr hname)

theorem lookup_eq_none {name : CodeUnits} {fields : Fields} (h : ∀ field ∈ fields, field.1 ≠ name) :
    fields.lookup name = none := by
  induction fields with
  | nil => rfl
  | cons first rest ih =>
    have hne : (name == first.1) = false :=
      beq_eq_false_iff_ne.mpr (h first List.mem_cons_self).symm
    rw [List.lookup_cons, hne]
    exact ih fun field hfield => h field (List.mem_cons_of_mem _ hfield)

/-- A document without a `type` whose first name is no number is not binary. -/
theorem isBinary_eq_false {fields : Fields} (htype : ∀ field ∈ fields, field.1 ≠ ofString "type")
    (hnames : ∀ field ∈ fields, isNumeric field.1 = false) : isBinary fields = false := by
  have hbuffer : isBufferRecord fields = false := by
    rw [isBufferRecord, lookup_eq_none htype]
    rfl
  have hbytes : isByteRecord fields = false := by
    cases fields with
    | nil => rfl
    | cons first rest => simp [isByteRecord, hnames first List.mem_cons_self]
  rw [isBinary, hbuffer, hbytes]
  rfl

/-- The body that a delete of a time entry reads is never what was captured. -/
theorem entry_body_ne (id : CodeUnits) (current : Fields) :
    sanitizeCompleteJson (.obj (textField "id" id :: prepareTimeEntryUpdate current)) ≠
      sanitizeCompleteJson (.obj (prepareTimeEntryUpdate current)) := by
  have hnames : ∀ name ∈ entryNames, ofString name ≠ ofString "type" ∧
      ofString name ≠ ofString "id" ∧ isNumeric (ofString name) = false := by decide
  have hbody : ∀ field ∈ prepareTimeEntryUpdate current, field.1 ≠ ofString "type" ∧
      field.1 ≠ ofString "id" ∧ isNumeric field.1 = false := by
    intro field hfield
    obtain ⟨name, hname, heq⟩ := prepareTimeEntryUpdate_names hfield
    rw [heq]
    exact hnames name hname
  apply sanitizeCompleteJson_ne_of_text
  · decide
  · refine isBinary_eq_false (fun field hfield => ?_) fun field hfield => ?_
    · rcases List.mem_cons.mp hfield with rfl | hrest
      · exact (by decide : ofString "id" ≠ ofString "type")
      · exact (hbody field hrest).1
    · rcases List.mem_cons.mp hfield with rfl | hrest
      · exact (by decide : isNumeric (ofString "id") = false)
      · exact (hbody field hrest).2.2
  · exact isBinary_eq_false (fun field hfield => (hbody field hfield).1)
      fun field hfield => (hbody field hfield).2.2
  · intro value hvalue
    exact (hbody _ hvalue).2.1 rfl

end Entries

namespace Deletion

variable {e : Evidence} (deletion : Deletion e)

/-- Before the delete the host shows what it showed at the preview, or the archived entity once
the commit has archived it. -/
def Unchanged (transitioned : EntityReads) : Prop :=
  readGenericTarget transitioned deletion.type (ofString deletion.id) =
    if deletion.preview.needsArchive then .ok (some deletion.preview.archiveBody)
    else readGenericTarget deletion.reads deletion.type (ofString deletion.id)

def NeverStale : Prop :=
  (deletion.preview.needsArchive = true →
    verifyTargetSnapshots e.sha256 [deletion.preview.targetSnapshot]
      (fun _ => fetchCompositeSnapshot deletion.reads deletion.type) = .ok) ∧
  ∀ transitioned, deletion.Unchanged transitioned → ∀ answers operationId s s' result,
    (commitDeletePreview e deletion.preview operationId deletion.reads transitioned answers).exec s =
      (.ok result, s') → ¬ ReportsChange result

variable {deletion}

/-- Only projects and clients are archived, and they are read in one way. -/
theorem fetchCompositeSnapshot_archived {reads : EntityReads} {type : GenericDeleteType}
    {raw : Option UnitJson} {stored : TargetSnapshot} (harchive : needsArchive type raw = true) :
    fetchCompositeSnapshot reads type stored =
      (readGenericTarget reads type stored.ref.id).map (Option.map fun projection => {
        ref := stored.ref
        projection := some projection }) := by
  cases type with
  | project => rfl
  | client => rfl
  | tag => exact absurd harchive nofun
  | timeEntry => exact absurd harchive nofun
  | invoice => exact absurd harchive nofun
  | expense => exact absurd harchive nofun
  | webhook => exact absurd harchive nofun
  | group => exact absurd harchive nofun

theorem neverStale_of_type (htype : deletion.type ≠ .timeEntry) : deletion.NeverStale := by
  obtain ⟨target, raw, hcapture, hraw, hentity, hid, htarget, harchives, htransitioned⟩ :=
    previewDelete_eq_some deletion.previewed
  have hshows := shows_of_capture htype hcapture
  obtain ⟨current, hcurrent, hsame⟩ := hshows.current
  constructor
  · intro harchive
    refine verifyTargetSnapshots_const_eq_ok_iff.mpr ⟨List.cons_ne_nil _ _, fun snapshot hmem => ?_⟩
    obtain rfl := List.mem_singleton.mp hmem
    rw [fetchCompositeSnapshot_archived (harchives.symm.trans harchive), htarget, hshows.id_eq,
      hcurrent]
    exact confirms_iff.mpr ⟨_, current, rfl, rfl, rfl, rfl, rfl, hsame⟩
  · intro transitioned hunchanged answers operationId s s' result hrun
    refine Session.wp_ok (commitDeleteEntity_quiet ?_) hrun
    change Except.map _ (readGenericTarget transitioned deletion.preview.entityType
      (ofString deletion.preview.id)) = .ok (some deletion.preview.transitionedFingerprint)
    rw [hentity, hid, hunchanged, htransitioned, ← harchives]
    split
    · rfl
    · rw [hcurrent]
      exact congrArg (fun hash => Except.ok (some hash)) hsame

theorem not_neverStale_timeEntry (hsha : Function.Injective e.sha256)
    (htype : deletion.type = .timeEntry) : ¬ deletion.NeverStale := by
  obtain ⟨target, raw, hcapture, hraw, hentity, hid, htarget, harchives, htransitioned⟩ :=
    previewDelete_eq_some deletion.previewed
  rintro ⟨-, hnever⟩
  rw [htype] at hcapture hraw harchives htransitioned hentity
  have harchive : deletion.preview.needsArchive = false := harchives
  obtain ⟨row, hrow, hstructure⟩ := captured_eq_some hcapture
  obtain ⟨projection, hload, -, -, hfingerprint⟩ := captureStructureSnapshot_eq_ok hstructure
  obtain ⟨current, hcurrent, rfl⟩ := Option.map_eq_some_iff.mp hload
  have hrowid := deletion.reads.answers_id deletion.reads.getEntry (by simp) _ row hrow
  rw [hrowid] at hcurrent hfingerprint
  have hread : readGenericTarget deletion.reads .timeEntry (ofString deletion.id) =
      .ok (some (.obj (prepareTimeEntryUpdate current))) := by
    rw [readGenericTarget, hcurrent]
    rfl
  have hunchanged : deletion.Unchanged deletion.reads := by
    rw [Unchanged, harchive]
    rfl
  have hdiffer : some (sanitizedFingerprint e.sha256 (.obj (prepareTimeEntryUpdate current))) ≠
      some deletion.preview.transitionedFingerprint := by
    rw [htransitioned]
    intro hsome
    have hsame := Option.some.inj hsome
    rw [if_neg (by simp [needsArchive]), hfingerprint] at hsame
    exact entry_body_ne _ _ ((sanitizedFingerprint_eq_iff hsha).mp hsame).symm
  have hreports : Session.wp
      (commitDeletePreview e deletion.preview 0 deletion.reads deletion.reads
        ⟨⟨none, .refused .requestCancelled, none, none, {}, 0⟩,
          ⟨none, .refused .requestCancelled, none, none, {}, 0⟩,
          ⟨none, .refused .requestCancelled, none, none, {}, 0⟩⟩)
      (fun result _ => ReportsChange result) (fun _ _ => False) ⟨Db.empty, []⟩ := by
    refine commitDeleteEntity_reports harchive ?_ hdiffer
    change Except.map _ (readGenericTarget deletion.reads deletion.preview.entityType
      (ofString deletion.preview.id)) = _
    rw [hentity, hid, hread]
    rfl
  obtain ⟨result, s', hrun, hchange⟩ := Session.exists_exec_of_wp hreports
  exact hnever _ hunchanged _ 0 _ s' result hrun hchange

theorem neverStale_iff (hsha : Function.Injective e.sha256) :
    deletion.NeverStale ↔ deletion.type ≠ .timeEntry :=
  ⟨fun hnever htype => not_neverStale_timeEntry hsha htype hnever, neverStale_of_type⟩

end Deletion

/-! What a confirmation checks against the host -/

inductive Check (e : Evidence)
  | verification (captures : List Capture)
  | invoice (change : InvoiceChange)
  | deletion (deletion : Deletion e)

namespace Check

variable {e : Evidence} (scaled : NumberText → NumberText)

/-- A host that shows what it showed is never said to have changed. -/
def NeverStale : Check e → Prop
  | verification captures => VerificationAccepts e.sha256 captures
  | invoice change => change.NeverStale e scaled
  | deletion previewed => previewed.NeverStale

def HoldsWhen : Check e → Prop
  | verification captures => captures ≠ []
  | invoice change => change.HoldsWhen e scaled
  | deletion previewed => previewed.type ≠ .timeEntry

end Check

/-- When exactly an unchanged target is never stale; and what is accepted has not changed. -/
theorem unchanged_never_stale (e : Evidence) (scaled : NumberText → NumberText)
    (hsha : Function.Injective e.sha256) :
    (∀ check : Check e, Check.NeverStale scaled check ↔ Check.HoldsWhen scaled check) ∧
    ∀ (captures : List Capture) (fetch : Nat → TargetSnapshot → Except String (Option TargetEvidence)),
      verifyTargetSnapshots e.sha256 (captures.map (Capture.snapshot e.sha256)) fetch = .ok →
      ∀ i (h : i < captures.length), ∃ evidence projection,
        fetch i (captures[i].snapshot e.sha256) = .ok (some evidence) ∧
        evidence.projection = some projection ∧
        sanitizeCompleteJson projection = sanitizeCompleteJson captures[i].projection := by
  refine ⟨fun check => ?_, fun captures fetch hok i hi => verified_same hsha hok hi⟩
  cases check with
  | verification captures => exact verificationAccepts_iff
  | invoice change => exact InvoiceChange.neverStale_iff hsha
  | deletion deletion => exact Deletion.neverStale_iff hsha

section Example

/-- The text read as a numeral, in place of a digest. -/
def numeral (text : CodeUnits) : Nat := Nat.ofDigits 65537 (text.map fun u => u.toNat + 1)

theorem digits_numeral (text : CodeUnits) :
    Nat.digits 65537 (numeral text) = text.map fun u => u.toNat + 1 := by
  refine Nat.digits_ofDigits 65537 (by decide) _ (fun n hn => ?_) fun hne hlast => ?_
  · obtain ⟨u, -, rfl⟩ := List.mem_map.mp hn
    have hu := u.toNat_lt
    omega
  · obtain ⟨u, -, hu⟩ := List.mem_map.mp (List.getLast_mem hne)
    omega

def plainEvidence : Evidence where
  sha256 := numeral
  hex := CodeUnits.ofNat
  stored := fun value => numeral value.stringify

theorem plainEvidence_injective : Function.Injective plainEvidence.sha256 := by
  intro text other h
  have hdigits : (text.map fun u => u.toNat + 1) = other.map fun u => u.toNat + 1 := by
    rw [← digits_numeral, ← digits_numeral]
    exact congrArg (Nat.digits 65537) h
  exact List.map_injective_iff.mpr (fun u v heq => UInt16.toNat_inj.mp (Nat.succ.inj heq)) hdigits

def entryRow : HostRow where
  fields := [textField "id" (ofString "e1"), textField "description" (ofString "Standup")]
  id := ofString "e1"
  id_eq := rfl

/-- A host with one time entry. -/
def entryReads : EntityReads where
  getProject := fun _ => .ok none
  getClient := fun _ => .ok none
  getTag := fun _ => .ok none
  getEntry := fun id => .ok (if id = entryRow.id then some entryRow else none)
  getProjectMutationState := fun _ => .ok none
  getClientMutationState := fun _ => .ok none
  getRawTag := fun _ => .error "404"
  getRawEntry := fun _ => .ok entryRow.fields
  getInvoice := fun _ => .ok none
  getExpense := fun _ => .ok none
  getWebhook := fun _ => .ok none
  listGroups := .ok ⟨[], false⟩
  answers_id := by
    intro read hread id row hrow
    simp only [List.mem_cons, List.not_mem_nil, or_false] at hread
    rcases hread with rfl | rfl | rfl | rfl
    · exact absurd (Except.ok.inj hrow) nofun
    · exact absurd (Except.ok.inj hrow) nofun
    · exact absurd (Except.ok.inj hrow) nofun
    · have hfound := Except.ok.inj hrow
      split at hfound
      · next heq => rw [← Option.some.inj hfound, heq]
      · cases hfound

def entryCapture : Capture where
  relation := .target
  ref := { type := ofString "time_entry", id := ofString "e1" }
  projection := .obj (textField "id" (ofString "e1") :: prepareTimeEntryUpdate entryRow.fields)

/-- The preview that the admin confirms. -/
def entryPreview : DeletePreview :=
  let target := entryCapture.snapshot plainEvidence.sha256
  { entityType := .timeEntry
    id := "e1"
    name := none
    needsArchive := false
    archiveBody := archived (some (.obj (prepareTimeEntryUpdate entryRow.fields))) true
    targetSnapshot := target
    transitionedFingerprint := target.fingerprint
    plan := deletePlan .timeEntry false target.fingerprint target.fingerprint }

def entryDeletion : Deletion plainEvidence where
  reads := entryReads
  type := .timeEntry
  id := "e1"
  name := none
  preview := entryPreview
  previewed := rfl

theorem unchanged_never_stale_entry :
    Check.NeverStale id (.verification [entryCapture] : Check plainEvidence) ∧
      ¬ Check.NeverStale id (.deletion entryDeletion) := by
  have hall := (unchanged_never_stale plainEvidence id plainEvidence_injective).1
  refine ⟨(hall (.verification [entryCapture])).mpr (List.cons_ne_nil _ _), fun hnever => ?_⟩
  exact (hall (.deletion entryDeletion)).mp hnever rfl

/-- The host shows one time entry all along, and its deletion reports that it changed. -/
theorem unchanged_entry_reported :
    ¬ ∀ (e : Evidence) (scaled : NumberText → NumberText), Function.Injective e.sha256 →
      ∀ check : Check e, Check.NeverStale scaled check := by
  intro hnever
  have hentry : entryDeletion.NeverStale :=
    hnever plainEvidence id plainEvidence_injective (.deletion entryDeletion)
  exact Deletion.not_neverStale_timeEntry plainEvidence_injective rfl hentry

end Example

end TargetSnapshots

end ClockifyAssistant
