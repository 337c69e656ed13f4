import ClockifyAssistant.CompositeResults
import ClockifyAssistant.Harness.CheckedTargets
import ClockifyAssistant.StepRuns

/-!
When a commit tells the admin that a target changed since the preview: which results say so, and
how the steps of an invoice update and of a deletion come to them.
-/
namespace ClockifyAssistant

open Lib Lib.CodeUnits Lib.ObjectKeys SafeJson Composite

namespace TargetSnapshots

/-- The result tells the admin that the target changed since the preview. -/
def ReportsChange (result : Composite.CommitResult) : Prop :=
  (∃ receipt, result = .error receipt ∧
    (receipt.code = "stale_target" ∨ receipt.code = "stale_parent")) ∨
  (∃ id, result = partialInvoiceUpdate id "the invoice changed before the status update") ∨
  ∃ p, result = deletePartial p ("The " ++ p.entityType.text ++
    " changed before delete, so delete was not sent.")

section Reports

@[simp] theorem reportsChange_success (receipt : ChangeReceipt) :
    ¬ ReportsChange (.success receipt) := by
  rintro (⟨_, h, _⟩ | ⟨_, h⟩ | ⟨_, h⟩) <;> exact nomatch h

@[simp] theorem reportsChange_failure {action code message : String} {hint : Option String}
    {retryable : Option Bool} : ReportsChange (failure action code message hint retryable) ↔
      code = "stale_target" ∨ code = "stale_parent" := by
  constructor
  · rintro (⟨receipt, h, hcode⟩ | ⟨_, h⟩ | ⟨_, h⟩)
    · obtain rfl := Composite.CommitResult.error.inj h
      exact hcode
    · exact nomatch h
    · exact nomatch h
  · intro hcode
    exact .inl ⟨_, rfl, hcode⟩

theorem partialInvoiceUpdate_inj {id id' failed failed' : String}
    (h : partialInvoiceUpdate id failed = partialInvoiceUpdate id' failed') : failed = failed' := by
  simp only [partialInvoiceUpdate, Composite.CommitResult.partially.injEq, and_true] at h
  obtain ⟨hreceipt, hmessage⟩ := h
  have hid : id = id' := by simpa [updateReceipt] using hreceipt
  subst hid
  simpa using hmessage

theorem deletePartial_ne_partialInvoiceUpdate {p : EntityDelete} {message id failed : String} :
    deletePartial p message ≠ partialInvoiceUpdate id failed := by
  simp [deletePartial, partialInvoiceUpdate, updateReceipt]

@[simp] theorem reportsChange_partialInvoiceUpdate {id failed : String} :
    ReportsChange (partialInvoiceUpdate id failed) ↔
      failed = "the invoice changed before the status update" := by
  constructor
  · rintro (⟨_, h, _⟩ | ⟨_, h⟩ | ⟨p, h⟩)
    · exact nomatch h
    · exact partialInvoiceUpdate_inj h
    · exact absurd h.symm deletePartial_ne_partialInvoiceUpdate
  · rintro rfl
    exact .inr (.inl ⟨id, rfl⟩)

@[simp] theorem reportsChange_degradedInvoiceUpdate (id : String) :
    ¬ ReportsChange (degradedInvoiceUpdate id) := by
  have hwarns : ∀ result : Composite.CommitResult, result = degradedInvoiceUpdate id →
      ∃ receipt message hint, result = .partially receipt message hint ∧ receipt.warnings ≠ [] := by
    rintro _ rfl
    exact ⟨_, _, _, rfl, List.cons_ne_nil _ _⟩
  rintro (⟨_, h, _⟩ | ⟨_, h⟩ | ⟨_, h⟩)
  · exact nomatch h
  · obtain ⟨receipt, _, _, heq, hne⟩ := hwarns _ h.symm
    obtain ⟨rfl, -, -⟩ := Composite.CommitResult.partially.inj heq
    exact hne rfl
  · obtain ⟨receipt, _, _, heq, hne⟩ := hwarns _ h.symm
    obtain ⟨rfl, -, -⟩ := Composite.CommitResult.partially.inj heq
    exact hne rfl

@[simp] theorem reportsChange_deletePartial {p : EntityDelete} {message : String} :
    ReportsChange (deletePartial p message) ↔
      message = "The " ++ p.entityType.text ++ " changed before delete, so delete was not sent." := by
  constructor
  · rintro (⟨_, h, _⟩ | ⟨_, h⟩ | ⟨other, h⟩)
    · exact nomatch h
    · exact absurd h deletePartial_ne_partialInvoiceUpdate
    · simp only [deletePartial, Composite.CommitResult.partially.injEq, and_true] at h
      obtain ⟨hreceipt, hmessage⟩ := h
      have htype : p.entityType.text = other.entityType.text := by
        have hentity := congrArg ChangeReceipt.entity hreceipt
        exact hentity
      rw [hmessage, htype]
  · rintro rfl
    exact .inr (.inr ⟨p, rfl⟩)

end Reports

section Commits

variable {operation : Operation} {s : WorkflowState}

/-- The dispatch of a step finds its targets as they were, or the step never gets there. -/
def Undisturbed {α : Type} (h : StepHost α) : Prop :=
  h.stale = none ∨ ∃ message, h.preparedDetail = some (.error message)

variable {planStepId : String} {index : Nat}

theorem executeDurableRiskyStep_throws {α : Type}
    {h : StepHost α} {message : String} (hevidence : h.preparedDetail = some (.error message)) :
    Session.wp (executeDurableRiskyStep operation planStepId index h) (fun _ _ => False)
      (fun _ _ => True) s := by
  unfold executeDurableRiskyStep
  split
  · trivial
  · unfold executeStep
    rw [Session.wp_bind]
    refine wp_ensure (fun _ => ?_) fun _ _ => trivial
    rw [Session.wp_bind]
    refine wp_ensure (fun _ => ?_) fun _ _ => trivial
    rw [Session.wp_bind, wp_operationStatus, Session.wp_bind]
    refine wp_ensure (fun _ => ?_) fun _ _ => trivial
    rw [primaryStep, hevidence]
    trivial

theorem wp_undisturbed {α : Type} {h : StepHost α}
    {f : JournaledMutationStep → JournalSession Composite.CommitResult}
    {Q : Composite.CommitResult → WorkflowState → Prop} (hh : Undisturbed h)
    (hf : h.stale = none → ∀ step s', Session.wp (f step) Q (fun _ _ => True) s') :
    Session.wp (executeDurableRiskyStep operation planStepId index h >>= f) Q
      (fun _ _ => True) s := by
  rcases hh with hfresh | ⟨message, hevidence⟩
  · exact Session.wp_seq executeDurableRiskyStep_spec fun step s' _ => hf hfresh step s'
  · exact Session.wp_seq (executeDurableRiskyStep_throws hevidence) fun _ _ hno => hno.elim

/-- The program returns no report of a change. -/
def Quiet (m : JournalSession Composite.CommitResult) (s : WorkflowState) : Prop :=
  Session.wp m (fun result _ => ¬ ReportsChange result) (fun _ _ => True) s

variable {host : InvoiceUpdateHost} {p : InvoiceUpdate}

theorem updateInvoiceStatus_quiet {updated : Bool}
    {name : Option String} (hstatus : p.status.isSome = true → Undisturbed host.updateStatus) :
    Quiet (updateInvoiceStatus operation p host updated name) s := by
  unfold updateInvoiceStatus
  refine Session.wp_ite (fun _ => reportsChange_success _) fun hsome => ?_
  refine wp_undisturbed (hstatus (by simpa [Option.isSome_iff_ne_none] using hsome)) fun hfresh step s' => ?_
  simp only [hfresh]
  refine Session.wp_ite (fun _ => ?_) fun _ => ?_
  · change ¬ ReportsChange (failure _ _ _ _ _)
    simp
  refine Session.wp_ite (fun _ => Session.wp_ite (fun _ => ?_) fun _ => ?_) fun _ => ?_
  · change ¬ ReportsChange (partialInvoiceUpdate _ _)
    simp
  · change ¬ ReportsChange (failure _ _ _ _ _)
    simp
  refine Session.wp_ite (fun _ => Session.wp_ite (fun _ => ?_) fun _ => ?_) fun _ => ?_
  · exact reportsChange_degradedInvoiceUpdate _
  · exact reportsChange_success _
  · exact reportsChange_success _

theorem commitInvoiceUpdate_quiet (hfields : p.updatesFields = true → Undisturbed host.updateFields)
    (hstatus : p.status.isSome = true → Undisturbed host.updateStatus ∨
      p.updatesFields = true ∧ ∃ message, host.updateFields.preparedDetail = some (.error message)) :
    Quiet (commitInvoiceUpdate operation true p host) s := by
  unfold commitInvoiceUpdate
  refine Session.wp_ite (fun hno => absurd hno (by simp)) fun _ => ?_
  refine Session.wp_ite (fun hnone => ?_) fun hupdates => ?_
  · refine updateInvoiceStatus_quiet fun hsome => ?_
    refine (hstatus hsome).resolve_right fun hupdated => ?_
    simp [hupdated.1] at hnone
  rw [Bool.not_eq_true', Bool.not_eq_false] at hupdates
  by_cases hevidence : ∃ message, host.updateFields.preparedDetail = some (.error message)
  · obtain ⟨message, hmessage⟩ := hevidence
    exact Session.wp_seq (executeDurableRiskyStep_throws hmessage) fun _ _ hno => hno.elim
  refine wp_undisturbed (hfields hupdates) fun hfresh step s' => ?_
  simp only [hfresh]
  refine Session.wp_ite (fun _ => ?_) fun _ => ?_
  · change ¬ ReportsChange (failure _ _ _ _ _)
    simp
  refine Session.wp_ite (fun _ => ?_) fun _ => ?_
  · change ¬ ReportsChange (failure _ _ _ _ _)
    simp
  refine Session.wp_ite (fun _ => Session.wp_ite (fun _ => ?_) fun _ => ?_) fun _ => ?_
  · change ¬ ReportsChange (partialInvoiceUpdate _ _)
    simp
  · exact reportsChange_success _
  · exact updateInvoiceStatus_quiet fun hsome =>
      (hstatus hsome).resolve_right fun hupdated => hevidence hupdated.2

theorem append_type_ne (type : String) {said other : String} (h : said ≠ other) :
    "The " ++ type ++ said ≠ "The " ++ type ++ other := by
  intro heq
  exact h ((String.append_right_inj _).mp heq)

theorem restoreEntity_quiet {p : EntityDelete} {host : EntityDeleteHost} :
    Quiet (restoreEntity operation p host) s := by
  have hmessage : ¬ ReportsChange (deletePartial p ("Delete was rejected and restoring the " ++
      p.entityType.text ++ " did not complete definitively.")) := by
    rw [reportsChange_deletePartial]
    cases p.entityType <;> decide
  have hrow : Session.wp (journaledRow operation.operationId ("archive-" ++ p.entityType.text))
      (fun _ _ => True) (fun _ _ => True) s := by
    unfold journaledRow
    rw [Session.wp_bind, Session.wp_get]
    split <;> trivial
  unfold restoreEntity
  refine Session.wp_seq hrow fun archiveId s' _ => ?_
  refine Session.wp_seq (executeCompensationStep_spec rfl) fun status s' _ => ?_
  refine Session.wp_ite (fun _ => ?_) fun _ => hmessage
  change ¬ ReportsChange (failure _ _ _)
  simp

theorem deleteEntity_quiet {p : EntityDelete} {host : EntityDeleteHost}
    (hcurrent : host.current = .ok (some p.transitionedFingerprint)) :
    Quiet (deleteEntity operation p host index) s := by
  unfold deleteEntity
  dsimp only
  rw [hcurrent]
  refine Session.wp_seq (Q := fun read _ => read = some p.transitionedFingerprint) rfl ?_
  rintro _ s' rfl
  refine Session.wp_ite (fun hchanged => absurd rfl hchanged) fun _ => ?_
  refine Session.wp_seq executeDurableRiskyStep_spec fun step s' _ => ?_
  refine Session.wp_ite (fun _ => reportsChange_success _) fun _ => ?_
  refine Session.wp_ite (fun _ => Session.wp_ite (fun _ => ?_) fun _ => ?_) fun _ => ?_
  · change ¬ ReportsChange (failure _ _ _ _ _)
    simp
  · change ¬ ReportsChange (failure _ _ _)
    simp
  refine Session.wp_ite (fun _ => ?_) fun _ => restoreEntity_quiet
  change ¬ ReportsChange (deletePartial _ _)
  rw [reportsChange_deletePartial]
  exact append_type_ne _ (by decide)

theorem commitDeleteEntity_quiet {p : EntityDelete} {host : EntityDeleteHost}
    (hcurrent : host.current = .ok (some p.transitionedFingerprint)) :
    Quiet (commitDeleteEntity operation p host) s := by
  unfold commitDeleteEntity
  refine Session.wp_ite (fun _ => deleteEntity_quiet hcurrent) fun _ => ?_
  refine Session.wp_seq executeDurableRiskyStep_spec fun step s' _ => ?_
  refine Session.wp_ite (fun _ => ?_) fun _ => ?_
  · change ¬ ReportsChange (failure _ _ _ _ _)
    simp
  refine Session.wp_ite (fun _ => ?_) fun _ => deleteEntity_quiet hcurrent
  change ¬ ReportsChange (failure _ _ _)
  simp

/-- A deletion without an archive whose target is not as expected before the delete. -/
theorem commitDeleteEntity_reports {p : EntityDelete} {host : EntityDeleteHost}
    {current : Option Hash} (harchive : p.needsArchive = false) (hread : host.current = .ok current)
    (hchanged : current ≠ some p.transitionedFingerprint) :
    Session.wp (commitDeleteEntity operation p host) (fun result _ => ReportsChange result)
      (fun _ _ => False) s := by
  unfold commitDeleteEntity
  refine Session.wp_ite (fun _ => ?_) fun hno => absurd harchive (by simpa using hno)
  unfold deleteEntity
  dsimp only
  rw [hread]
  refine Session.wp_seq (Q := fun read _ => read = current) rfl ?_
  rintro _ s' rfl
  refine Session.wp_ite (fun _ => ?_) fun hsame => absurd hchanged hsame
  refine Session.wp_ite (fun hno => absurd (harchive.symm.trans hno) nofun) fun _ => ?_
  exact reportsChange_failure.mpr (.inl rfl)

/-- A planned step returns as its dispatch ends, where the journal works. -/
theorem executeDurableRiskyStep_returns {α : Type}
    {h : StepHost α} {used : List (Nat × String)} {planStep : MutationPlanStep}
    (hjournaling : Journaling s.db operation.operationId used)
    (hjournal : operation.journal = operation.operationId)
    (hplan : operation.plannedPrimary planStepId index = some planStep) (hfaults : h.faults = {})
    (hevidence : ∀ message, h.preparedDetail ≠ some (.error message))
    (hanswered : h.dispatch.outcome ≠ .error .requestCancelled)
    (hnew : ∀ place ∈ used, place.1 ≠ index ∧ place.2 ≠ planStepId) :
    Session.wp (executeDurableRiskyStep operation planStepId index h)
      (fun result s' => result.status = h.dispatch.verdict.toStatus ∧
        result.journalDegraded = false ∧
        Journaling s'.db operation.operationId ((index, planStepId) :: used))
      (fun _ _ => False) s := by
  unfold executeDurableRiskyStep
  rw [hplan, hjournal]
  exact executeStep_returns hjournaling rfl hfaults hevidence hanswered hnew

/-- A dispatch that finds its target changed is not a cancellation. -/
theorem outcome_of_stale {α : Type} {h : StepHost α} {code : String}
    (hstale : h.stale = some code) : h.dispatch.outcome ≠ .error .requestCancelled := by
  simp [StepHost.dispatch, StepHost.result, hstale, Except.map]

theorem updateInvoiceStatus_reports {updated : Bool}
    {name : Option String} {used : List (Nat × String)} {planStep : MutationPlanStep}
    (hjournaling : Journaling s.db operation.operationId used)
    (hjournal : operation.journal = operation.operationId) (hstatus : p.status.isSome = true)
    (hplan : operation.plannedPrimary "update-invoice-status" (if updated then 1 else 0) =
      some planStep) (hfaults : host.updateStatus.faults = {})
    (hevidence : ∀ message, host.updateStatus.preparedDetail ≠ some (.error message))
    (hstale : host.updateStatus.stale = some "stale_target")
    (hnew : ∀ place ∈ used, place.1 ≠ (if updated then 1 else 0) ∧
      place.2 ≠ "update-invoice-status") :
    Session.wp (updateInvoiceStatus operation p host updated name)
      (fun result _ => ReportsChange result) (fun _ _ => False) s := by
  unfold updateInvoiceStatus
  refine Session.wp_ite (fun hnone => ?_) fun _ => ?_
  · rw [Option.isNone_iff_eq_none] at hnone
    rw [hnone] at hstatus
    exact absurd hstatus nofun
  refine Session.wp_seq (executeDurableRiskyStep_returns hjournaling hjournal hplan hfaults hevidence
    (outcome_of_stale hstale) hnew) fun step s' _ => ?_
  simp only [hstale]
  refine Session.wp_ite (fun _ => ?_) fun _ => ?_
  · exact reportsChange_partialInvoiceUpdate.mpr rfl
  · exact reportsChange_failure.mpr (.inl rfl)

/-- The fields are updated, and the status step then finds the invoice changed. -/
theorem commitInvoiceUpdate_reports {value : Composite.EntityRef}
    {fieldsStep statusStep : MutationPlanStep}
    (hjournaling : Journaling s.db operation.operationId [])
    (hjournal : operation.journal = operation.operationId) (hstatus : p.status.isSome = true)
    (hfieldsPlan : p.updatesFields = true →
      operation.plannedPrimary "update-invoice-fields" 0 = some fieldsStep ∧
        host.updateFields.stale = none ∧ host.updateFields.answer = .sent 0 (.ok value) ∧
        host.updateFields.faults = {} ∧
        ∀ message, host.updateFields.preparedDetail ≠ some (.error message))
    (hstatusPlan : operation.plannedPrimary "update-invoice-status"
      (if p.updatesFields then 1 else 0) = some statusStep)
    (hfaults : host.updateStatus.faults = {})
    (hevidence : ∀ message, host.updateStatus.preparedDetail ≠ some (.error message))
    (hstale : host.updateStatus.stale = some "stale_target") :
    Session.wp (commitInvoiceUpdate operation true p host)
      (fun result _ => ReportsChange result) (fun _ _ => False) s := by
  unfold commitInvoiceUpdate
  refine Session.wp_ite (fun hno => absurd hno (by simp)) fun _ => ?_
  refine Session.wp_ite (fun hnone => ?_) fun hupdates => ?_
  · rw [Bool.not_eq_true'] at hnone
    rw [hnone] at hstatusPlan
    exact updateInvoiceStatus_reports hjournaling hjournal hstatus hstatusPlan hfaults hevidence
      hstale (List.forall_mem_nil _)
  rw [Bool.not_eq_true', Bool.not_eq_false] at hupdates
  rw [hupdates] at hstatusPlan
  obtain ⟨hplan, hfresh, hanswer, hfieldsFaults, hfieldsEvidence⟩ := hfieldsPlan hupdates
  have houtcome : host.updateFields.dispatch.outcome = .ok () := by
    simp [StepHost.dispatch, StepHost.result, hfresh, hanswer, HostAnswer.value,
      dispatchWithReconciliation, Except.map]
  have hverdict : host.updateFields.dispatch.verdict = .succeeded := by
    simp [StepDispatch.verdict, houtcome, dispatchStatus]
  refine Session.wp_seq (executeDurableRiskyStep_returns hjournaling hjournal hplan hfieldsFaults
    hfieldsEvidence (by simp [houtcome]) (List.forall_mem_nil _)) fun step s' hstep => ?_
  obtain ⟨hsucceeded, hrecorded, hjournaling'⟩ := hstep
  rw [hverdict] at hsucceeded
  simp only [hfresh]
  refine Session.wp_ite (fun hunknown => ?_) fun _ => ?_
  · cases hsucceeded.symm.trans hunknown
  refine Session.wp_ite (fun hfailed => ?_) fun _ => ?_
  · cases hsucceeded.symm.trans hfailed
  refine Session.wp_ite (fun hdegraded => Bool.noConfusion (hrecorded.symm.trans hdegraded))
    fun _ => ?_
  refine updateInvoiceStatus_reports hjournaling' hjournal hstatus hstatusPlan hfaults hevidence
    hstale fun place hplace => ?_
  obtain rfl := List.mem_singleton.mp hplace
  exact ⟨by simp, by simp⟩

end Commits

end TargetSnapshots

end ClockifyAssistant
