import ClockifyAssistant.ChangeReports

/-!
An invoice that did not change since its preview: the verification accepts it, and the update
reports no change unless its status step starts from a copy that the snapshot has cut.
-/
namespace ClockifyAssistant

open Lib Lib.CodeUnits Lib.ObjectKeys SafeJson Composite

namespace TargetSnapshots

section Fields

variable {name other : CodeUnits} {value : UnitJson} {fields : Fields}

theorem lookup_assign_ne (h : other ≠ name) :
    (assign name value fields).lookup other = fields.lookup other := by
  have hother : (other == name) = false := beq_eq_false_iff_ne.mpr h
  induction fields with
  | nil => simp [assign, List.lookup_cons, hother]
  | cons field rest ih =>
    unfold assign
    split
    · next heq =>
      obtain ⟨first, last⟩ := field
      obtain rfl : first = name := heq
      simp [List.lookup_cons, hother]
    · rw [List.lookup_cons, List.lookup_cons, ih]

theorem lookup_assigned_ne {name : String} {value : Option UnitJson} (h : other ≠ ofString name) :
    (assigned name value fields).lookup other = fields.lookup other := by
  cases value with
  | none => rfl
  | some value => exact lookup_assign_ne h

theorem lookup_foldl_assigned {α : Type} {json : α → UnitJson} {entries : List (String × Option α)}
    (h : ∀ entry ∈ entries, other ≠ ofString entry.1) :
    (entries.foldl (fun fields entry => assigned entry.1 (entry.2.map json) fields) fields).lookup
      other = fields.lookup other := by
  induction entries generalizing fields with
  | nil => rfl
  | cons entry rest ih =>
    rw [List.foldl_cons, ih fun entry hentry => h entry (List.mem_cons_of_mem _ hentry),
      lookup_assigned_ne (h entry List.mem_cons_self)]

theorem lookup_id_expectedAfterFields (scaled : NumberText → NumberText) (patch : InvoicePatch)
    (fields : Fields) : (expectedAfterFields scaled patch fields).lookup (ofString "id") =
      fields.lookup (ofString "id") := by
  unfold expectedAfterFields
  dsimp only
  rw [lookup_foldl_assigned, lookup_foldl_assigned]
  · intro entry hentry
    have hnames : ∀ name ∈ ["number", "issuedDate", "currency", "dueDate", "note", "subject",
        "clientId"], ofString "id" ≠ ofString name := by decide
    exact hnames entry.1 (List.mem_map_of_mem hentry)
  · intro entry hentry
    have hnames : ∀ name ∈ ["tax", "tax2", "discount"], ofString "id" ≠ ofString name := by decide
    exact hnames entry.1 (List.mem_map_of_mem hentry)

end Fields

section Verification

/-- A target that the host described. -/
structure Capture where
  relation : Relation
  ref : EntityRef
  projection : UnitJson

variable (sha256 : CodeUnits → Hash)

def Capture.snapshot (capture : Capture) : TargetSnapshot :=
  captureTargetSnapshot sha256 capture.relation capture.ref capture.projection

/-- The reading shows what was captured. -/
def Capture.ShownBy (capture : Capture) (reading : Except String (Option TargetEvidence)) : Prop :=
  ∃ evidence, reading = .ok (some evidence) ∧ evidence.truncated = false ∧
    evidence.ref.type = capture.ref.type ∧ evidence.ref.id = capture.ref.id ∧
    evidence.projection = some capture.projection

/-- Readings that show what was captured are accepted. -/
def VerificationAccepts (captures : List Capture) : Prop :=
  ∀ fetch : Nat → TargetSnapshot → Except String (Option TargetEvidence),
    (∀ i (h : i < captures.length), captures[i].ShownBy (fetch i (captures[i].snapshot sha256))) →
    verifyTargetSnapshots sha256 (captures.map (Capture.snapshot sha256)) fetch = .ok

variable {sha256} {capture : Capture} {captures : List Capture}
  {reading : Except String (Option TargetEvidence)}

theorem Capture.ShownBy.confirms (h : capture.ShownBy reading) :
    confirms sha256 (capture.snapshot sha256) reading = true := by
  obtain ⟨evidence, hreading, hcomplete, htype, hid, hprojection⟩ := h
  exact confirms_iff.mpr ⟨evidence, _, hreading, hcomplete, htype, hid, hprojection, rfl⟩

theorem verificationAccepts_iff : VerificationAccepts sha256 captures ↔ captures ≠ [] := by
  constructor
  · rintro haccepts rfl
    have hok := haccepts (fun _ _ => .ok none) fun i hi => absurd hi (Nat.not_lt_zero i)
    exact absurd hok nofun
  · intro hsome fetch hshown
    refine verifyTargetSnapshots_eq_ok_iff.mpr ⟨by simpa using hsome, fun i hi => ?_⟩
    have hi' : i < captures.length := by simpa using hi
    rw [List.getElem_map]
    exact (hshown i hi').confirms

/-- What is accepted is, sanitized completely, what was captured. -/
theorem verified_same (hsha : Function.Injective sha256)
    {fetch : Nat → TargetSnapshot → Except String (Option TargetEvidence)}
    (hok : verifyTargetSnapshots sha256 (captures.map (Capture.snapshot sha256)) fetch = .ok)
    {i : Nat} (hi : i < captures.length) :
    ∃ evidence projection, fetch i (captures[i].snapshot sha256) = .ok (some evidence) ∧
      evidence.projection = some projection ∧
      sanitizeCompleteJson projection = sanitizeCompleteJson captures[i].projection := by
  have hi' : i < (captures.map (Capture.snapshot sha256)).length := by simpa using hi
  have hconfirms := (verifyTargetSnapshots_eq_ok_iff.mp hok).2 i hi'
  rw [List.getElem_map] at hconfirms
  obtain ⟨evidence, projection, hreading, -, -, -, hprojection, hsame⟩ := confirms_iff.mp hconfirms
  exact ⟨evidence, projection, hreading, hprojection, (sanitizedFingerprint_eq_iff hsha).mp hsame⟩

end Verification

/-! The updates of an invoice -/

/-- An update that was previewed from these rows. -/
structure InvoiceChange where
  invoice : HostRow
  client : Option HostRow
  id : String
  action : InvoiceAction

namespace InvoiceChange

variable (e : Evidence) (scaled : NumberText → NumberText) (change : InvoiceChange)

def preview : InvoicePreview :=
  previewInvoiceUpdate e scaled change.invoice change.client change.id change.action

def ref : EntityRef where
  type := ofString "invoice"
  id := change.invoice.id
  name := textOf "number" change.invoice.fields

/-- The invoice after the field update, if it is all that happens to it. -/
def updated : HostRow where
  fields := expectedAfterFields scaled change.action.patch change.invoice.fields
  id := change.invoice.id
  id_eq := (lookup_id_expectedAfterFields scaled _ _).trans change.invoice.id_eq

/-- The host shows the rows of the preview until the fields are updated, and the invoice with
these fields after it. -/
structure Unchanged (host : InvoiceCommitHost) : Prop where
  invoice : host.beforeFields.getInvoice change.invoice.id = .ok (some change.invoice)
  client : ∀ client, change.client = some client →
    host.beforeFields.getClient client.id = .ok (some client)
  status : host.beforeStatus.getInvoice change.invoice.id = .ok (some (change.updated scaled))

def NeverStale : Prop :=
  ∀ host, change.Unchanged scaled host → ∀ operationId s s' result,
    (commitInvoicePreview e (change.preview e scaled) operationId host).exec s = (.ok result, s') →
    ¬ ReportsChange result

/-- The snapshot with which the status step starts. -/
def statusSnapshot : TargetSnapshot :=
  captureTargetSnapshot e.sha256 .target change.ref (change.preview e scaled).expectedAfterFields

/-- There is no status step, or the journal cannot hold the evidence of a step, or the bounded
copy of the invoice lost nothing that the field update does not replace. -/
def HoldsWhen : Prop :=
  change.action.newStatus = none ∨
  (change.action.updatesFields = true ∧
    ∃ message, preparedSnapshots e (change.preview e scaled).targetSnapshots = .error message) ∨
  (∃ message, preparedSnapshots e [change.statusSnapshot e scaled] = .error message) ∨
  sanitizeCompleteJson (change.preview e scaled).expectedAfterFields =
    sanitizeCompleteJson (change.updated scaled).projection

section Lemmas

variable {e scaled change}

theorem boundedSanitizedJson_null : boundedSanitizedJson .null = .null := by
  have hbytes : jsonByteLength .null = 4 := by decide
  have hsafe : sanitizeJson .null = .null := rfl
  rw [boundedSanitizedJson, hsafe]
  exact if_pos (by rw [hbytes]; decide)

@[simp] theorem action_preview : (change.preview e scaled).action = change.action := by
  obtain ⟨invoice, client, id, action⟩ := change
  cases action <;> rfl

theorem statusTarget_preview {original : TargetSnapshot} (href : original.ref = change.ref)
    (hnull : (change.preview e scaled).expectedAfterFields = .null → original.projection = .null) :
    statusTarget e (change.preview e scaled) original = change.statusSnapshot e scaled := by
  unfold statusTarget statusSnapshot expectedBeforeStatus
  rw [href]
  split
  · next heq => rw [heq, hnull heq]
  · rfl

theorem original_preview : ∃ original, (change.preview e scaled).targetSnapshots.find?
        (fun snapshot => snapshot.ref.type == ofString "invoice") = some original ∧
      statusTarget e (change.preview e scaled) original = change.statusSnapshot e scaled := by
  obtain ⟨invoice, client, id, action⟩ := change
  cases action with
  | fields patch => exact ⟨_, rfl, statusTarget_preview rfl nofun⟩
  | status value =>
    refine ⟨_, rfl, statusTarget_preview rfl fun hnull => ?_⟩
    change boundedSanitizedJson (boundedSanitizedJson invoice.projection) = .null
    have hbounded : boundedSanitizedJson invoice.projection = .null := hnull
    rw [hbounded, boundedSanitizedJson_null]
  | update patch value => exact ⟨_, rfl, statusTarget_preview rfl nofun⟩

theorem fetchSnapshot_invoice {reads : InvoiceReads} {snapshot : TargetSnapshot} {row : HostRow}
    (htype : snapshot.ref.type = ofString "invoice")
    (hread : reads.getInvoice snapshot.ref.id = .ok (some row)) :
    ∃ evidence, fetchSnapshot reads snapshot = .ok (some evidence) ∧ evidence.truncated = false ∧
      evidence.ref.type = snapshot.ref.type ∧ evidence.ref.id = row.id ∧
      evidence.projection = some row.projection := by
  have hne : ¬ snapshot.ref.type = ofString "client" := by
    rw [htype]
    decide
  refine ⟨{
    ref := {
      type := ofString "invoice", id := row.id
      name := (textOf "number" row.fields).filter fun number => !number.isEmpty }
    projection := some row.projection }, ?_, rfl, htype.symm, rfl, rfl⟩
  rw [fetchSnapshot, if_neg hne, hread]
  rfl

theorem fetchSnapshot_client {reads : InvoiceReads} {snapshot : TargetSnapshot} {row : HostRow}
    (htype : snapshot.ref.type = ofString "client")
    (hread : reads.getClient snapshot.ref.id = .ok (some row)) :
    ∃ evidence, fetchSnapshot reads snapshot = .ok (some evidence) ∧ evidence.truncated = false ∧
      evidence.ref.type = snapshot.ref.type ∧ evidence.ref.id = row.id ∧
      evidence.projection = some row.projection := by
  refine ⟨{
    ref := { type := ofString "client", id := row.id, name := textOf "name" row.fields }
    projection := some row.projection }, ?_, rfl, htype.symm, rfl, rfl⟩
  rw [fetchSnapshot, if_pos htype, hread]
  rfl

theorem targets_verified {host : InvoiceCommitHost} (h : change.Unchanged scaled host)
    (hupdates : change.action.updatesFields = true) :
    verifyTargetSnapshots e.sha256 (change.preview e scaled).targetSnapshots
      (fun _ => fetchSnapshot host.beforeFields) = .ok := by
  have htargets : (change.preview e scaled).targetSnapshots =
      captureInvoiceSnapshot e change.invoice ::
        change.client.toList.map (captureClientSnapshot e) := by
    obtain ⟨invoice, client, id, action⟩ := change
    cases action with
    | fields patch => rfl
    | status value => exact absurd hupdates nofun
    | update patch value => rfl
  rw [htargets, verifyTargetSnapshots_const_eq_ok_iff]
  refine ⟨List.cons_ne_nil _ _, fun snapshot hmem => ?_⟩
  rcases List.mem_cons.mp hmem with rfl | hclient
  · obtain ⟨evidence, hreading, hcomplete, htype, hid, hprojection⟩ :=
      @fetchSnapshot_invoice _ (captureInvoiceSnapshot e change.invoice) _ rfl h.invoice
    exact confirms_iff.mpr ⟨evidence, _, hreading, hcomplete, htype, hid, hprojection, rfl⟩
  · obtain ⟨client, hsome, rfl⟩ := List.mem_map.mp hclient
    obtain ⟨evidence, hreading, hcomplete, htype, hid, hprojection⟩ :=
      @fetchSnapshot_client _ (captureClientSnapshot e client) _ rfl
        (h.client client (Option.mem_toList.mp hsome))
    exact confirms_iff.mpr ⟨evidence, _, hreading, hcomplete, htype, hid, hprojection, rfl⟩

/-- The status step accepts the invoice when the stored copy sanitizes to the same value. -/
theorem confirms_statusSnapshot (hsha : Function.Injective e.sha256) {host : InvoiceCommitHost}
    (h : change.Unchanged scaled host) : confirms e.sha256 (change.statusSnapshot e scaled)
        (fetchSnapshot host.beforeStatus (change.statusSnapshot e scaled)) = true ↔
      sanitizeCompleteJson (change.preview e scaled).expectedAfterFields =
        sanitizeCompleteJson (change.updated scaled).projection := by
  obtain ⟨evidence, hreading, hcomplete, htype, hid, hprojection⟩ :=
    @fetchSnapshot_invoice _ (change.statusSnapshot e scaled) _ rfl h.status
  constructor
  · intro hconfirms
    obtain ⟨evidence', projection, hreading', -, -, -, hprojection', hsame⟩ :=
      confirms_iff.mp hconfirms
    obtain rfl : evidence = evidence' := by
      rw [hreading] at hreading'
      exact Option.some.inj (Except.ok.inj hreading')
    obtain rfl := Option.some.inj (hprojection.symm.trans hprojection')
    exact ((sanitizedFingerprint_eq_iff hsha).mp hsame).symm
  · intro hsame
    exact confirms_iff.mpr ⟨evidence, _, hreading, hcomplete, htype, hid, hprojection,
      (sanitizedFingerprint_eq_iff hsha).mpr hsame.symm⟩

/-- A step that verifies snapshots which stand, or whose evidence cannot be stored. -/
theorem undisturbed_verified {α : Type} {h : StepHost α} {snapshots : List TargetSnapshot}
    {fetch : Nat → TargetSnapshot → Except String (Option TargetEvidence)}
    (hok : verifyTargetSnapshots e.sha256 snapshots fetch = .ok ∨
      ∃ message, preparedSnapshots e snapshots = .error message) :
    Undisturbed (verified e h snapshots fetch) := by
  rcases hok with hok | ⟨message, hmessage⟩
  · exact .inl (SnapshotVerification.code_eq_none_iff.mpr hok)
  · refine .inr ⟨message, ?_⟩
    rw [verified, hmessage]
    rfl

theorem neverStale_of_holdsWhen (hsha : Function.Injective e.sha256)
    (h : change.HoldsWhen e scaled) : change.NeverStale e scaled := by
  intro host hunchanged operationId s s' result hrun
  obtain ⟨original, horiginal, htarget⟩ := @original_preview e scaled change
  rw [commitInvoicePreview, horiginal] at hrun
  dsimp only at hrun
  rw [htarget] at hrun
  refine Session.wp_ok (commitInvoiceUpdate_quiet (fun hupdates => ?_) fun hstatus => ?_) hrun
  · rw [InvoicePreview.payload, action_preview] at hupdates
    exact undisturbed_verified (.inl (targets_verified hunchanged hupdates))
  · rw [InvoicePreview.payload, action_preview] at hstatus
    rcases h with hnone | ⟨hupdates, message, hmessage⟩ | hevidence | hsame
    · rw [hnone] at hstatus
      exact absurd hstatus nofun
    · refine .inr ⟨by rw [InvoicePreview.payload, action_preview]; exact hupdates, message, ?_⟩
      change some (Except.map e.stored (preparedSnapshots e _)) = _
      rw [hmessage]
      rfl
    · exact .inl (undisturbed_verified (.inr hevidence))
    · refine .inl (undisturbed_verified (.inl ?_))
      refine verifyTargetSnapshots_const_eq_ok_iff.mpr ⟨List.cons_ne_nil _ _, fun snapshot hmem => ?_⟩
      obtain rfl := List.mem_singleton.mp hmem
      exact (confirms_statusSnapshot hsha hunchanged).mpr hsame

/-- The host that shows the unchanged invoice and takes every mutation. -/
def quietHost (scaled : NumberText → NumberText) (change : InvoiceChange) : InvoiceCommitHost where
  beforeFields := {
    getInvoice := fun _ => .ok (some change.invoice)
    getClient := fun _ => .ok change.client }
  beforeStatus := {
    getInvoice := fun _ => .ok (some (change.updated scaled))
    getClient := fun _ => .ok change.client }
  answers := {
    updateFields := { answer := .sent 0 (.ok { type := "invoice", id := change.id }) }
    updateStatus := { answer := .sent 0 (.ok { type := "invoice", id := change.id }) } }

theorem unchanged_quietHost : change.Unchanged scaled (quietHost scaled change) where
  invoice := rfl
  client := fun _ hclient => congrArg Except.ok hclient
  status := rfl

theorem plan_preview (hstatus : change.action.newStatus.isSome = true) (operationId : OperationId) :
    (change.action.updatesFields = true →
      ((change.preview e scaled).operation operationId).plannedPrimary "update-invoice-fields" 0 =
        some (updateFieldsStep (captureInvoiceSnapshot e change.invoice))) ∧
    ((change.preview e scaled).operation operationId).plannedPrimary "update-invoice-status"
      (if change.action.updatesFields then 1 else 0) =
        some (updateStatusStep (change.statusSnapshot e scaled)) := by
  obtain ⟨invoice, client, id, action⟩ := change
  cases action with
  | fields patch => exact absurd hstatus nofun
  | status value => exact ⟨nofun, rfl⟩
  | update patch value =>
    obtain ⟨value, rfl⟩ := Option.isSome_iff_exists.mp hstatus
    cases hempty : patch.isEmpty with
    | true =>
      simp only [InvoiceAction.updatesFields, hempty, preview, statusSnapshot,
        previewInvoiceUpdate, InvoicePreview.operation]
      exact ⟨nofun, rfl⟩
    | false =>
      simp only [InvoiceAction.updatesFields, hempty, preview, statusSnapshot,
        previewInvoiceUpdate, InvoicePreview.operation]
      exact ⟨fun _ => rfl, rfl⟩

/-- An operation that executes, and nothing in its journal. -/
def executingDb : Db :=
  (Txn.commit (do
    let _ ← prepareRun [.simple 100]
    let _ ← markConfirmationExecuting 1 2) Db.empty).2

theorem journaling_executingDb : Journaling executingDb 0 [] := by
  have hnone : executingDb.steps.rows = [] := by decide +kernel
  refine ⟨by decide +kernel, fun id _ => ?_, fun row hrow => ?_⟩
  · rw [Table.get?, hnone]
    rfl
  · rw [hnone] at hrow
    exact absurd hrow List.not_mem_nil

theorem preparedDetail_verified {α : Type} {h : StepHost α} {snapshots : List TargetSnapshot}
    {fetch : Nat → TargetSnapshot → Except String (Option TargetEvidence)}
    (hstored : ∀ message, preparedSnapshots e snapshots ≠ .error message) (message : String) :
    (verified e h snapshots fetch).preparedDetail ≠ some (.error message) := by
  change some (Except.map e.stored (preparedSnapshots e snapshots)) ≠ _
  cases hprepared : preparedSnapshots e snapshots with
  | error reason => exact absurd hprepared (hstored reason)
  | ok value => exact nofun

/-- An update whose status step starts from something else reports a change, at a host that takes
every mutation. -/
theorem commitInvoicePreview_reports (hsha : Function.Injective e.sha256)
    {host : InvoiceCommitHost} (hunchanged : change.Unchanged scaled host)
    {value : Composite.EntityRef} (hanswer : host.answers.updateFields.answer = .sent 0 (.ok value))
    (hfieldsFaults : host.answers.updateFields.faults = {})
    (hstatusFaults : host.answers.updateStatus.faults = {}) {operationId : OperationId}
    {s : WorkflowState} (hjournaling : Journaling s.db operationId [])
    (h : ¬ change.HoldsWhen e scaled) :
    Session.wp (commitInvoicePreview e (change.preview e scaled) operationId host)
      (fun result _ => ReportsChange result) (fun _ _ => False) s := by
  simp only [HoldsWhen, not_or, not_and, not_exists] at h
  obtain ⟨hstatus, hfieldsEvidence, hstatusEvidence, hdiffer⟩ := h
  have hsome : change.action.newStatus.isSome = true := Option.isSome_iff_ne_none.mpr hstatus
  obtain ⟨hfieldsPlan, hstatusPlan⟩ := @plan_preview e scaled change hsome operationId
  obtain ⟨original, horiginal, htarget⟩ := @original_preview e scaled change
  have hrefused : confirms e.sha256 (change.statusSnapshot e scaled)
      (fetchSnapshot host.beforeStatus (change.statusSnapshot e scaled)) = false := by
    rw [← Bool.not_eq_true, confirms_statusSnapshot hsha hunchanged]
    exact hdiffer
  have hstale : (verifyTargetSnapshots e.sha256 [change.statusSnapshot e scaled]
      (fun _ => fetchSnapshot host.beforeStatus)).code = some "stale_target" :=
    verifyTargetSnapshots_singleton_stale rfl hrefused
  rw [commitInvoicePreview, horiginal]
  dsimp only
  rw [htarget]
  have hupdates : (change.preview e scaled).payload.updatesFields = change.action.updatesFields := by
    rw [InvoicePreview.payload, action_preview]
  have hnew : (change.preview e scaled).payload.status = change.action.newStatus := by
    rw [InvoicePreview.payload, action_preview]
  apply commitInvoiceUpdate_reports hjournaling rfl (hnew ▸ hsome)
  · intro hfields
    rw [hupdates] at hfields
    refine ⟨hfieldsPlan hfields, ?_, hanswer, hfieldsFaults,
      preparedDetail_verified (hfieldsEvidence hfields)⟩
    exact SnapshotVerification.code_eq_none_iff.mpr (targets_verified hunchanged hfields)
  · exact hupdates ▸ hstatusPlan
  · exact hstatusFaults
  · exact preparedDetail_verified hstatusEvidence
  · exact hstale

theorem holdsWhen_of_neverStale (hsha : Function.Injective e.sha256)
    (h : change.NeverStale e scaled) : change.HoldsWhen e scaled := by
  by_contra hfails
  have hunchanged := @unchanged_quietHost scaled change
  obtain ⟨db, hjournaling⟩ : ∃ db, Journaling db 0 [] := ⟨_, journaling_executingDb⟩
  have hreports := @commitInvoicePreview_reports e scaled change hsha _ hunchanged _ rfl rfl rfl 0
    ⟨db, []⟩ hjournaling hfails
  obtain ⟨result, s', hrun, hchange⟩ := Session.exists_exec_of_wp hreports
  exact h _ hunchanged 0 _ s' result hrun hchange

end Lemmas

/-- Exactly which updates of an unchanged invoice report no change. -/
theorem neverStale_iff {e : Evidence} {scaled : NumberText → NumberText} {change : InvoiceChange}
    (hsha : Function.Injective e.sha256) : change.NeverStale e scaled ↔ change.HoldsWhen e scaled :=
  ⟨holdsWhen_of_neverStale hsha, neverStale_of_holdsWhen hsha⟩

end InvoiceChange

end TargetSnapshots

end ClockifyAssistant
