import Mathlib.Data.List.Induction
import ClockifyAssistant.Journal
import ClockifyAssistant.RecoveryConvergence
import ClockifyAssistant.Store.OperationSteps

/-!
Runs over the step journal: the step functions of the store in any order, with
anything happening to the other tables in between, and startup recovery. Each
function is at most one move of the journal.
-/
namespace ClockifyAssistant

open Lib Txn Function

def Db.journal (db : Db) : Journal := fun i => db.steps.get? i

/-- The persisted plan asks for this compensation, and the step it reverses succeeded. -/
def Db.Planned (db : Db) (k : OperationStep) : Prop :=
  ∃ s o plan, k.compensatesStepId = some s.id ∧ db.steps.get? s.id = some s ∧
    s.kind = .primary ∧ s.status = .succeeded ∧ s.operationId = k.operationId ∧
    db.operations.get? k.operationId = some o ∧
    o.envelope.bind OperationEnvelope.mutationPlan = some plan ∧ plan.valid = true ∧
    plan.describes k.index k.planStepId k.targetFingerprint .compensation = true

/-- What one transaction may do to the journal. -/
structure JournalStep (db db' : Db) : Prop where
  move : JournalInv db.journal → db'.journal = db.journal ∨ JournalMove db.journal db'.journal
  planned : ∀ i k, db.journal i = none → db'.journal i = some k → k.kind = .compensation →
    db.Planned k

namespace JournalStep

variable {db db' : Db}

theorem of_eq (h : db'.journal = db.journal) : JournalStep db db' :=
  ⟨fun _ => .inl h, fun i k hi hk => by rw [h, hi] at hk; cases hk⟩

theorem refl (db : Db) : JournalStep db db := of_eq rfl

theorem of_move (h : JournalInv db.journal → JournalMove db.journal db'.journal)
    (hold : ∀ i, db.journal i = none → db'.journal i = none) : JournalStep db db' :=
  ⟨fun hI => .inr (h hI), fun i k hi hk => by rw [hold i hi] at hk; cases hk⟩

end JournalStep

section Writes

variable {db : Db}

variable {f : OperationStep → OperationStep}

theorem Db.journal_updateStep {id : StepId} {row : OperationStep} {hf : ∀ s, key (f s) = key s}
    (h : db.steps.get? id = some row) :
    ({ db with steps := db.steps.update id f hf } : Db).journal =
      update db.journal id (some (f row)) := by
  funext i
  simp only [journal, Table.get?_update]
  by_cases hi : i = id
  · subst hi
    simp [h]
  · simp [hi, journal]

theorem Db.journal_insertStep {row : OperationStep} {h : db.steps.get? (key row) = none} :
    ({ db with steps := db.steps.insert row h } : Db).journal =
      update db.journal row.id (some row) := by
  funext i
  simp only [journal, Table.get?_insert]
  by_cases hi : i = row.id
  · subst hi
    exact (if_pos rfl).trans (by simp)
  · exact (if_neg hi).trans (by simp [hi, journal])

theorem wp_updateStep_journal {id : StepId} {p : OperationStep → Bool} {hf : ∀ s, key (f s) = key s}
    {Q : Bool → Db → Prop} {E : StoreError → Prop}
    (htrue : ∀ row db', db.steps.get? id = some row → p row = true →
      db'.journal = update db.journal id (some (f row)) → db'.operations = db.operations →
        Q true db') (hfalse : Q false db) : wp (updateStep id p f hf) Q E db := by
  unfold updateStep
  rw [wp_bind, wp_get]
  split
  · exact hfalse
  · rename_i hany
    obtain ⟨row, hrow, hp⟩ := (Option.any_eq_true _ _).mp (by simpa using hany)
    exact htrue row _ hrow hp (Db.journal_updateStep hrow) rfl

theorem wp_insertStep_journal {step : OperationStep} {Q : Unit → Db → Prop}
    (hQ : ∀ db', db.journal step.id = none → db'.journal = update db.journal step.id (some step) →
      Q () db') : wp (insertStep step) Q (fun _ => True) db := by
  unfold insertStep
  rw [wp_bind, wp_get, wp_bind, wp_require]
  refine ⟨fun _ => ?_, fun _ => trivial⟩
  rw [wp_bind, wp_require]
  refine ⟨fun _ => ?_, fun _ => trivial⟩
  split
  · rename_i hfresh
    exact hQ _ hfresh Db.journal_insertStep
  · trivial

/-- A write to one row that neither enters nor leaves `compensating`. -/
theorem journalStep_updateStep {id : StepId} {p : OperationStep → Bool}
    {hf : ∀ s, key (f s) = key s}
    (hwrite : ∀ row, db.steps.get? id = some row → p row = true → row.Identical (f row) ∧
      row.DispatchKept (f row) ∧ ((f row).status = row.status ∨ (row.kind = .primary ∧
        row.status.known = false ∧ (f row).status ≠ .compensating))) :
    wp (updateStep id p f hf) (fun _ db' => JournalStep db db') (fun _ => True) db := by
  refine wp_updateStep_journal (fun row db' hrow hp h _ => ?_) (JournalStep.refl db)
  obtain ⟨hsame, hdispatch, hstatus⟩ := hwrite row hrow hp
  obtain rfl : row.id = id := Table.key_of_get? hrow
  refine JournalStep.of_move (fun _ => h ▸ JournalMove.write hrow hsame hdispatch hstatus)
    fun i hi => ?_
  have hne : i ≠ row.id := by
    rintro rfl
    exact nomatch hi.symm.trans hrow
  rw [h, update_of_ne hne, hi]

end Writes

section Functions

/-- A function of the store makes at most one journal step where it commits. -/
abbrev Journals {α : Type} (m : StoreTxn α) : Prop := Within JournalStep m

theorem journals_prepareOperationStep (input : PrepareOperationStepInput) :
    Journals (prepareOperationStep input) := by
  intro db
  unfold prepareOperationStep
  rw [wp_bind, wp_require]
  refine ⟨fun hkind => ?_, fun _ => trivial⟩
  simp only [mintId, wp_bind, wp_get, wp_set, wp_pure]
  refine wp_insertStep_journal fun db' hfresh h => ⟨fun _ => .inr ?_, fun i k hi hk hcomp => ?_⟩
  · exact h ▸ JournalMove.prepare hfresh hkind rfl rfl
  · by_cases hne : i = (preparedStep db.nextId input).id
    · have hk' : preparedStep db.nextId input = k := by
        simpa [h, hne] using hk
      rw [← hk'] at hcomp
      cases hkind.symm.trans hcomp
    · rw [h, update_of_ne hne] at hk
      cases hi.symm.trans hk

theorem journals_markOperationStepExecuting (id : StepId) (operationId : Option OperationId)
    (now : Time) : Journals (markOperationStepExecuting id operationId now) := by
  refine within_get_bind fun db => journalStep_updateStep fun row _ hp => ?_
  simp only [Bool.and_eq_true, beq_iff_eq] at hp
  refine ⟨by constructor <;> rfl, .inl rfl, .inr ⟨hp.1.2, ?_, by simp⟩⟩
  rw [hp.1.1.2]
  rfl

theorem journals_markOperationStepDispatched (id : StepId) (operationId : Option OperationId)
    (now : Time) : Journals (markOperationStepDispatched id operationId now) := by
  refine fun db => journalStep_updateStep fun row _ hp => ?_
  simp only [Bool.and_eq_true, beq_iff_eq, Option.isNone_iff_eq_none] at hp
  exact ⟨by constructor <;> rfl, .inr ⟨hp.2, hp.1.2, hp.1.2⟩, .inl rfl⟩

/-- A cancellation keeps the journal's pairs unless it hits an executing compensation. -/
def Db.cancelsCompensation (db : Db) (id : StepId) (operationId : Option OperationId) : Bool :=
  (db.steps.get? id).any fun s => s.kind == .compensation && s.ownedBy operationId &&
    s.status == .executing && s.dispatchedAt.isNone

theorem journalStep_cancelOperationStepBeforeDispatch {db : Db} {id : StepId}
    {operationId : Option OperationId} (now : Time)
    (hprimary : db.cancelsCompensation id operationId = false) :
    wp (cancelOperationStepBeforeDispatch id operationId now)
      (fun _ db' => JournalStep db db') (fun _ => True) db := by
  refine journalStep_updateStep fun row hrow hp => ?_
  have hkind : row.kind = .primary := by
    simp only [Bool.and_eq_true] at hp
    cases hkind : row.kind with
    | primary => rfl
    | compensation => simp [Db.cancelsCompensation, hrow, hkind, hp] at hprimary
  simp only [Bool.and_eq_true, beq_iff_eq] at hp
  refine ⟨by constructor <;> rfl, .inl rfl, .inr ⟨hkind, ?_, by simp⟩⟩
  rw [hp.1.2]
  rfl

theorem journals_settleOperationStep (id : StepId) (status : StepOutcome)
    (operationId : Option OperationId) (degraded : Bool) (now : Time) :
    Journals (settleOperationStep id status operationId degraded now) := by
  intro db
  refine wp_seq (journalStep_updateStep fun row _ hp => ?_) fun updated db' h => ?_
  · simp only [Bool.and_eq_true, beq_iff_eq] at hp
    refine ⟨by constructor <;> rfl, .inl rfl, .inr ⟨hp.2, ?_, by cases status <;> simp [StepOutcome.toStatus]⟩⟩
    rw [hp.1.2]
    rfl
  · rw [wp_require]
    exact ⟨fun _ => h, fun _ => trivial⟩

theorem journals_settleReconciledStep (id : StepId) (applied : Bool)
    (operationId : Option OperationId) (now : Time) :
    Journals (settleReconciledStep id applied operationId now) := by
  refine within_get_bind fun db => ?_
  rw [wp_bind, wp_require]
  refine ⟨fun _ => ?_, fun _ => trivial⟩
  refine wp_seq (journalStep_updateStep fun row _ hp => ?_) fun updated db' h => ?_
  · simp only [Bool.and_eq_true, beq_iff_eq] at hp
    refine ⟨by constructor <;> rfl, .inl rfl, .inr ⟨hp.2, ?_, by cases applied <;> simp⟩⟩
    rw [hp.1]
    rfl
  · rw [wp_require]
    exact ⟨fun _ => h, fun _ => trivial⟩

theorem Db.compensationEligible_planned {db : Db} {input : PrepareOperationStepInput}
    {sourceId : StepId} {source : OperationStep} {operation : OperationRun}
    (h : db.compensationEligible input sourceId source operation = true) :
    source.status = .succeeded ∧
    (∃ plan, operation.envelope.bind OperationEnvelope.mutationPlan = some plan ∧
      plan.valid = true ∧
      plan.describes input.index input.planStepId input.targetFingerprint .compensation = true) ∧
    ∀ s ∈ db.steps.rows, s.operationId = source.operationId → s.kind = .compensation →
      s.compensatesStepId ≠ some sourceId := by
  obtain ⟨plan, hplan, hall⟩ := (Option.any_eq_true _ _).mp h
  obtain ⟨hplan, hvalid⟩ := Option.filter_eq_some_iff.mp hplan
  simp only [Bool.and_eq_true, Bool.not_eq_true', beq_iff_eq, List.any_eq_false,
    List.mem_filter] at hall
  obtain ⟨⟨⟨⟨-, hdescribes⟩, hunused⟩, hstatus⟩, -⟩ := hall
  refine ⟨hstatus, ⟨plan, hplan, hvalid, hdescribes⟩, fun s hs howner hkind hcomp => ?_⟩
  have hnot := hunused s ⟨hs, howner⟩
  simp [hkind, hcomp] at hnot

theorem journals_prepareCompensationStep (input : PrepareOperationStepInput)
    (sourceId : StepId) : Journals (prepareCompensationStep input sourceId) := by
  refine within_get_bind fun db => ?_
  rw [wp_bind, wp_require]
  refine ⟨fun heligible => ?_, fun _ => trivial⟩
  obtain ⟨source, hsource, hop⟩ := (Option.any_eq_true _ _).mp heligible
  obtain ⟨operation, hoperation, hall⟩ := (Option.any_eq_true _ _).mp hop
  obtain ⟨hget, howner⟩ := Option.filter_eq_some_iff.mp hsource
  obtain rfl : source.id = sourceId := Table.key_of_get? hget
  obtain ⟨hstatus, ⟨plan, hplan, hvalid, hdescribes⟩, hunused⟩ := Db.compensationEligible_planned hall
  simp only [Bool.and_eq_true, beq_iff_eq] at howner
  simp only [mintId, wp_bind, wp_get, wp_set, wp_pure]
  generalize hk : preparedStep db.nextId
    { input with kind := .compensation, compensatesStepId := some source.id } = k
  have hprepared : k.kind = .compensation ∧ k.status = .prepared ∧ k.dispatchedAt = none ∧
      k.compensatesStepId = some source.id ∧ k.operationId = input.operationId ∧
      k.index = input.index ∧ k.planStepId = input.planStepId ∧
      k.targetFingerprint = input.targetFingerprint := by
    rw [← hk]
    exact ⟨rfl, rfl, rfl, rfl, rfl, rfl, rfl, rfl⟩
  obtain ⟨hkind, hprep, hdispatched, hcomp, hkowner, hindex, hstep, hfingerprint⟩ := hprepared
  refine wp_insertStep_journal fun db' hfresh h => ⟨fun hI => .inr ?_, fun i k' hi hk' _ => ?_⟩
  · refine h ▸ JournalMove.prepareCompensation hfresh hkind hprep hdispatched hcomp hget howner.2
      (by simp [hstatus, StepStatus.known]) (howner.1.trans hkowner.symm) fun i r hr hrkind hrcomp => ?_
    obtain ⟨s, hs, hjs, -, -, hsowner⟩ := hI.source i r hr hrkind
    obtain hid : source.id = s.id := Option.some.inj (hrcomp.symm.trans hs)
    obtain rfl : source = s := Option.some.inj (hget.symm.trans (hid ▸ hjs))
    exact hunused r (Table.mem_of_get? hr) hsowner.symm hrkind hrcomp
  · have hid : i = k.id := by
      by_contra hne
      rw [h, update_of_ne hne] at hk'
      cases hi.symm.trans hk'
    obtain rfl : k = k' := by simpa [h, hid] using hk'
    refine ⟨source, operation, plan, hcomp, hget, howner.2, hstatus, howner.1.trans hkowner.symm,
      ?_, hplan, hvalid, ?_⟩
    · rw [hkowner, ← howner.1]
      exact hoperation
    · rw [hindex, hstep, hfingerprint]
      exact hdescribes

theorem Db.compensatedStep_eq_some {db : Db} {id sourceId : StepId}
    {operationId : Option OperationId} {status : StepStatus}
    (h : db.compensatedStep id operationId status = some sourceId) :
    ∃ k, db.steps.get? id = some k ∧ k.status = status ∧ k.kind = .compensation ∧
      k.compensatesStepId = some sourceId := by
  obtain ⟨k, hk, hcomp⟩ := Option.bind_eq_some_iff.mp h
  obtain ⟨hget, hp⟩ := Option.filter_eq_some_iff.mp hk
  simp only [Bool.and_eq_true, beq_iff_eq] at hp
  exact ⟨k, hget, hp.1.2, hp.2, hcomp⟩

/-- A row found after another row was written, and told apart by its status. -/
theorem Db.journal_other {db db₁ : Db} {i i' : StepId} {row s : OperationStep}
    (h₁ : db₁.journal = update db.journal i (some row)) (hs : db₁.steps.get? i' = some s)
    (hne : row.status ≠ s.status) : db.steps.get? i' = some s := by
  have hget := congrFun h₁ i'
  have hi : i' ≠ i := by
    rintro rfl
    rw [update_self] at hget
    exact hne (congrArg OperationStep.status (Option.some.inj (hget.symm.trans hs)))
  rw [update_of_ne hi] at hget
  exact hget.symm.trans hs

theorem JournalStep.of_pair {db db₁ db₂ : Db} {k k' s s' : OperationStep}
    (hk : db.steps.get? k.id = some k) (hs : db.steps.get? s.id = some s)
    (h₁ : db₁.journal = update db.journal k.id (some k'))
    (h₂ : db₂.journal = update db₁.journal s.id (some s'))
    (hmove : JournalMove db.journal (update (update db.journal k.id (some k')) s.id (some s'))) :
    JournalStep db db₂ := by
  rw [h₁] at h₂
  refine JournalStep.of_move (fun _ => h₂ ▸ hmove) fun i hi => ?_
  have hi₁ : i ≠ k.id := by
    rintro rfl
    exact nomatch hi.symm.trans hk
  have hi₂ : i ≠ s.id := by
    rintro rfl
    exact nomatch hi.symm.trans hs
  rw [h₂, update_of_ne hi₂, update_of_ne hi₁, hi]

theorem journals_markOperationStepCompensating (id : StepId) (operationId : Option OperationId)
    (now : Time) : Journals (markOperationStepCompensating id operationId now) := by
  refine within_get_bind fun db => ?_
  split
  · exact JournalStep.refl db
  · rename_i sourceId hcompensated
    obtain ⟨k, hk, hstatus, hkind, hcomp⟩ := Db.compensatedStep_eq_some hcompensated
    rw [wp_bind]
    refine wp_updateStep_journal (fun row db₁ hrow _ h₁ _ => ?_) ?_
    · obtain rfl : k = row := Option.some.inj (hk.symm.trans hrow)
      obtain rfl : k.id = id := Table.key_of_get? hk
      rw [wp_bind]
      refine wp_updateStep_journal (fun source db₂ hsource hp h₂ _ => ?_) (by simp)
      obtain rfl : source.id = sourceId := Table.key_of_get? hsource
      simp only [Bool.and_eq_true, beq_iff_eq] at hp
      have hold := Db.journal_other h₁ hsource (by simp [hp.1])
      simp only [wp_bind, wp_require, wp_pure, Bool.and_self, true_imp_iff, not_true_eq_false,
        false_imp_iff, and_true]
      exact JournalStep.of_pair hk hold h₁ h₂
        (JournalMove.compensate hk hkind hstatus hcomp hold hp.2 hp.1 (some now))
    · rw [wp_bind]
      exact wp_updateStep_journal (fun _ _ _ _ _ _ => by simp) (by simp)

theorem journals_settleCompensationStep (id : StepId) (status : CompensationOutcome)
    (operationId : Option OperationId) (degraded : Bool) (now : Time) :
    Journals (settleCompensationStep id status operationId degraded now) := by
  refine within_get_bind fun db => ?_
  rw [wp_bind, wp_demand]
  refine ⟨fun sourceId hcompensated => ?_, fun _ => trivial⟩
  obtain ⟨k, hk, hstatus, hkind, hcomp⟩ := Db.compensatedStep_eq_some hcompensated
  obtain rfl : k.id = id := Table.key_of_get? hk
  rw [wp_bind]
  refine wp_updateStep_journal (fun row db₁ hrow _ h₁ _ => ?_) (by simp)
  obtain rfl : k = row := Option.some.inj (hk.symm.trans hrow)
  rw [wp_bind, wp_require]
  refine ⟨fun _ => ?_, fun _ => trivial⟩
  rw [wp_bind]
  refine wp_updateStep_journal (fun source db₂ hsource hp h₂ _ => ?_) (by simp)
  obtain rfl : source.id = sourceId := Table.key_of_get? hsource
  simp only [beq_iff_eq] at hp
  have hsettled : status.toStatus ≠ .executing ∧ status.toStatus ≠ .compensating := by
    cases status <;> simp [CompensationOutcome.toStatus]
  have hold := Db.journal_other h₁ hsource (by simp [hp, hsettled.2])
  rw [wp_require]
  refine ⟨fun _ => ?_, fun _ => trivial⟩
  exact JournalStep.of_pair hk hold h₁ h₂ (JournalMove.settleCompensation hk hkind hstatus hcomp
    hold hp (by constructor <;> rfl) (by constructor <;> rfl) rfl rfl hsettled
    (by cases status <;> simp))

def SameSteps (db db' : Db) : Prop := db'.steps = db.steps

theorem SameSteps.trans {db db' db'' : Db} (h : SameSteps db db') (h' : SameSteps db' db'') :
    SameSteps db db'' :=
  Eq.trans h' h

theorem sameSteps_insertActionResult (r : ActionResult) : Within SameSteps (insertActionResult r) :=
  fun _ => wp_insertActionResult (fun _ _ => rfl) fun _ => trivial

theorem sameSteps_updateOperationStatus (id : OperationId) (p : OperationRun → Bool)
    (status : OperationRunStatus) (f : OperationRun → Option ResultId) (now : Time) :
    Within SameSteps (updateOperationStatus id p status f now) := by
  intro db
  rw [wp_updateOperationStatus]
  split <;> rfl

theorem sameSteps_reconcileConfirmation (run : OperationRun) (r : ResultId)
    (kind : ActionResultKind) : Within SameSteps (reconcileConfirmation run r kind) := by
  intro db
  unfold reconcileConfirmation
  split
  · rfl
  · rename_i i _
    refine wp_seq (Q := fun _ db' => SameSteps db db') ?_ fun _ _ h => h
    cases hold : (db.confirmations.get? i).filter fun c => c.operationId == run.id &&
        c.status == .outcomeUnknown && c.actionResultId == some r with
    | none =>
      simp only [wp, updateConfirmationStatus_none hold]
      rfl
    | some old =>
      have hpre : ¬ preDispatch old
          (({ status := kind.toPending, clearsIdempotencyKey := true } :
            ConfirmationPatch).apply old) := by
        rintro ⟨-, h⟩
        cases kind <;> simp [ActionResultKind.toPending, PendingStatus.cancelledOrExpired] at h
      rw [updateConfirmationStatus_direct hold hpre (by simp)]
      rfl

theorem sameSteps_settleReconciled (run : OperationRun) (kind : ActionResultKind)
    (result : CommitResult) (now : Time) :
    Within SameSteps (settleReconciled run kind result now) := by
  have hrefl (db : Db) : SameSteps db db := rfl
  refine within_bind (R := SameSteps) SameSteps.trans ?_ fun r => ?_
  · unfold settleReconciledResult
    split
    · refine within_bind (R := SameSteps) SameSteps.trans (fun _ => rfl) fun _ => ?_
      exact within_bind (R := SameSteps) SameSteps.trans (sameSteps_insertActionResult _) fun _ =>
        within_pure hrefl _
    · refine within_get_bind fun db => ?_
      rw [wp_bind, wp_require]
      exact ⟨fun _ => rfl, fun _ => trivial⟩
  · refine within_bind (R := SameSteps) SameSteps.trans (sameSteps_reconcileConfirmation _ _ _)
      fun _ => ?_
    refine within_bind (R := SameSteps) SameSteps.trans
      (sameSteps_updateOperationStatus _ _ _ _ _) fun _ => ?_
    exact within_bind (R := SameSteps) SameSteps.trans (within_require hrefl _ _) fun _ =>
      within_pure hrefl _

theorem journals_settleStartupReconciliation (validHash : OperationRun → Bool)
    (id : OperationId) (stepId : StepId) (e : ReconciliationResult) (now : Time) :
    Journals (settleStartupReconciliation validHash id stepId e now) := by
  refine within_get_bind fun db => ?_
  rw [wp_bind, wp_demand]
  refine ⟨fun run hrun => ?_, fun _ => trivial⟩
  rw [wp_bind, wp_require]
  refine ⟨fun _ => ?_, fun _ => trivial⟩
  rw [wp_bind, wp_demand]
  refine ⟨fun step hstep => ?_, fun _ => trivial⟩
  rw [wp_bind, wp_demand]
  refine ⟨fun plan _ => ?_, fun _ => trivial⟩
  rw [wp_bind, wp_require]
  refine ⟨fun _ => ?_, fun _ => trivial⟩
  rw [wp_bind, wp_require]
  refine ⟨fun _ => ?_, fun _ => trivial⟩
  obtain ⟨hget, hunknown⟩ := Option.filter_eq_some_iff.mp hstep
  obtain rfl : step.id = stepId := Table.key_of_get? hget
  simp only [OperationStep.unknownPrimary, Bool.and_eq_true, beq_iff_eq] at hunknown
  dsimp only
  rw [wp_bind, wp_modify]
  refine wp_seq (sameSteps_settleReconciled run _ _ now _) fun r db₂ h₂ => ?_
  have h : db₂.journal = update db.journal step.id
      (some { step with status := .succeeded, settledAt := some now }) :=
    (congrArg (fun (t : Table OperationStep) (i : StepId) => t.get? i) h₂).trans
      (Db.journal_updateStep hget)
  refine JournalStep.of_move (fun _ => ?_) fun i hi => ?_
  · change JournalMove db.journal db₂.journal
    rw [h]
    refine JournalMove.write hget (by constructor <;> rfl) (.inl rfl) (.inr ⟨hunknown.1.2, ?_, by simp⟩)
    rw [hunknown.2]
    rfl
  · change db₂.journal i = none
    have hne : i ≠ step.id := by
      rintro rfl
      exact nomatch hi.symm.trans hget
    rw [h, update_of_ne hne, hi]

/-- What recovery makes of one step. -/
def OperationStep.recovered (now : Time) (s : OperationStep) : OperationStep :=
  match s.status with
  | .compensating => { s with status := .succeeded }
  | .executing =>
      if s.dispatchedAt.isNone then { s with status := .definitiveFailed, settledAt := some now }
      else { s with status := .outcomeUnknown, settledAt := some now }
  | _ => s

theorem get?_recoveredSteps (steps : Table OperationStep) (now : Time) (i : StepId) :
    (recoveredSteps steps now).get? i = (steps.get? i).map (OperationStep.recovered now) := by
  unfold recoveredSteps failUndispatchedSteps
  rw [Table.get?_updateWhere, Table.get?_updateWhere, Table.get?_updateWhere, Option.map_map,
    Option.map_map]
  congr 1
  funext s
  cases hstatus : s.status <;> cases hat : s.dispatchedAt <;>
    simp [OperationStep.recovered, OperationStep.undispatched, OperationStep.ambiguous, hstatus, hat]

theorem journals_recoverOrphanedRuns (now : Time) : Journals (recoverOrphanedRuns now) := by
  intro db
  refine wp_weaken (recoverOrphanedRuns_spec now db) fun _ db' h => ?_
  have hjournal : db'.journal = fun i => (db.journal i).map (OperationStep.recovered now) := by
    funext i
    change db'.steps.get? i = _
    rw [h.2.2, get?_recoveredSteps]
    rfl
  refine JournalStep.of_move (fun _ => ?_) fun i hi => by simp [hjournal, hi]
  rw [hjournal]
  refine JournalMove.recover (fun s => ?_) (fun s => ?_) (fun s => ?_) fun s hs => ?_
  · constructor <;> cases hstatus : s.status <;> cases hat : s.dispatchedAt <;>
      simp [OperationStep.recovered, hstatus, hat]
  all_goals
    cases hstatus : s.status <;> cases hat : s.dispatchedAt <;>
      simp_all [OperationStep.recovered, StepStatus.known]

end Functions

/-- A call of a step function, a restart, or anything that leaves the steps alone. -/
inductive JournalEvent
  | prepareStep (input : PrepareOperationStepInput)
  | markExecuting (id : StepId) (operationId : Option OperationId) (now : Time)
  | markDispatched (id : StepId) (operationId : Option OperationId) (now : Time)
  | cancelBeforeDispatch (id : StepId) (operationId : Option OperationId) (now : Time)
  | settle (id : StepId) (status : StepOutcome) (operationId : Option OperationId)
      (degraded : Bool) (now : Time)
  | settleReconciled (id : StepId) (applied : Bool) (operationId : Option OperationId) (now : Time)
  | prepareCompensation (input : PrepareOperationStepInput) (sourceId : StepId)
  | markCompensating (id : StepId) (operationId : Option OperationId) (now : Time)
  | settleCompensation (id : StepId) (status : CompensationOutcome)
      (operationId : Option OperationId) (degraded : Bool) (now : Time)
  | startupReconcile (validHash : OperationRun → Bool) (id : OperationId) (stepId : StepId)
      (result : ReconciliationResult) (now : Time)
  | recover (now : Time)
  | elsewhere (db : Db)

namespace JournalEvent

/-- What an event leaves in the database; a failed transaction leaves it as it was. -/
def apply (db : Db) : JournalEvent → Db
  | prepareStep input => ((prepareOperationStep input).commit db).2
  | markExecuting id operationId now =>
      ((markOperationStepExecuting id operationId now).commit db).2
  | markDispatched id operationId now =>
      ((markOperationStepDispatched id operationId now).commit db).2
  | cancelBeforeDispatch id operationId now =>
      ((cancelOperationStepBeforeDispatch id operationId now).commit db).2
  | settle id status operationId degraded now =>
      ((settleOperationStep id status operationId degraded now).commit db).2
  | settleReconciled id applied operationId now =>
      ((settleReconciledStep id applied operationId now).commit db).2
  | prepareCompensation input sourceId => ((prepareCompensationStep input sourceId).commit db).2
  | markCompensating id operationId now =>
      ((markOperationStepCompensating id operationId now).commit db).2
  | settleCompensation id status operationId degraded now =>
      ((settleCompensationStep id status operationId degraded now).commit db).2
  | startupReconcile validHash id stepId result now =>
      ((settleStartupReconciliation validHash id stepId result now).commit db).2
  | recover now => ((recoverOrphanedRuns now).commit db).2
  | elsewhere db' => { db' with steps := db.steps }

/-- The events that record that a step was never dispatched. -/
def cancels : JournalEvent → Bool
  | cancelBeforeDispatch .. | recover .. => true
  | _ => false

/-- The cancellations that break a pair. -/
def breaksPair (db : Db) : JournalEvent → Bool
  | cancelBeforeDispatch id operationId _ => db.cancelsCompensation id operationId
  | _ => false

theorem step {db : Db} (e : JournalEvent) (h : e.breaksPair db = false) :
    JournalStep db (e.apply db) := by
  have hcommit {α : Type} {m : StoreTxn α}
      (hm : wp m (fun _ db' => JournalStep db db') (fun _ => True) db) :
      JournalStep db (m.commit db).2 :=
    commit_inv (P := fun db' => JournalStep db db') (JournalStep.refl db) hm
  cases e with
  | prepareStep input => exact hcommit (journals_prepareOperationStep input db)
  | markExecuting => exact hcommit (journals_markOperationStepExecuting _ _ _ db)
  | markDispatched => exact hcommit (journals_markOperationStepDispatched _ _ _ db)
  | cancelBeforeDispatch => exact hcommit (journalStep_cancelOperationStepBeforeDispatch _ h)
  | settle => exact hcommit (journals_settleOperationStep _ _ _ _ _ db)
  | settleReconciled => exact hcommit (journals_settleReconciledStep _ _ _ _ db)
  | prepareCompensation => exact hcommit (journals_prepareCompensationStep _ _ db)
  | markCompensating => exact hcommit (journals_markOperationStepCompensating _ _ _ db)
  | settleCompensation => exact hcommit (journals_settleCompensationStep _ _ _ _ _ db)
  | startupReconcile => exact hcommit (journals_settleStartupReconciliation _ _ _ _ _ db)
  | recover => exact hcommit (journals_recoverOrphanedRuns _ db)
  | elsewhere db' => exact JournalStep.of_eq rfl

end JournalEvent

section Runs

def replay (db : Db) (es : List JournalEvent) : Db := es.foldl JournalEvent.apply db

/-- No cancellation of the run hits an executing compensation. -/
def keepsPairs (db : Db) : List JournalEvent → Bool
  | [] => true
  | e :: es => !e.breaksPair db && keepsPairs (e.apply db) es

variable {db : Db}

theorem replay_append (es es' : List JournalEvent) :
    replay db (es ++ es') = replay (replay db es) es' :=
  List.foldl_append

theorem keepsPairs_append (es es' : List JournalEvent) :
    keepsPairs db (es ++ es') = (keepsPairs db es && keepsPairs (replay db es) es') := by
  induction es generalizing db with
  | nil => rfl
  | cons e es ih => simp [keepsPairs, ih, replay, Bool.and_assoc]

theorem Db.Planned.of_identical {k k' : OperationStep} (h : db.Planned k)
    (hsame : k.Identical k') : db.Planned k' := by
  obtain ⟨s, o, plan, hcomp, hs, hkind, hstatus, howner, ho, hplan, hvalid, hdescribes⟩ := h
  refine ⟨s, o, plan, hsame.compensatesStepId.trans hcomp, hs, hkind, hstatus,
    howner.trans hsame.operationId.symm, hsame.operationId ▸ ho, hplan, hvalid, ?_⟩
  rw [hsame.index, hsame.planStepId, hsame.targetFingerprint]
  exact hdescribes

theorem JournalStep.inv {db' : Db} (h : JournalStep db db') (hI : JournalInv db.journal) :
    JournalInv db'.journal := by
  rcases h.move hI with heq | hmove
  · rwa [heq]
  · exact hmove.inv hI

theorem JournalStep.kept {db' : Db} (h : JournalStep db db') (hI : JournalInv db.journal)
    {i : StepId} {s : OperationStep} (hs : db.journal i = some s) :
    ∃ s', db'.journal i = some s' ∧ s.Identical s' ∧ s.DispatchKept s' := by
  rcases h.move hI with heq | hmove
  · exact ⟨s, by rw [heq, hs], .refl s, .inl rfl⟩
  · exact hmove.kept hs

theorem JournalStep.fresh {db' : Db} (h : JournalStep db db') (hI : JournalInv db.journal)
    {i : StepId} {s : OperationStep} (hi : db.journal i = none) (hs : db'.journal i = some s) :
    s.dispatchedAt = none := by
  rcases h.move hI with heq | hmove
  · rw [heq, hi] at hs
    cases hs
  · exact hmove.fresh hi hs

theorem journalInv_empty (h : db.steps = Table.empty) : JournalInv db.journal := by
  have hnone : ∀ i, db.journal i = none := fun i => by simp [Db.journal, h]
  constructor <;> intros <;> simp_all

theorem replay_inv (hempty : db.steps = Table.empty) {es : List JournalEvent}
    (hpairs : keepsPairs db es = true) : JournalInv (replay db es).journal := by
  induction es using List.reverseRecOn with
  | nil => exact journalInv_empty hempty
  | append_singleton es e ih =>
    rw [keepsPairs_append, Bool.and_eq_true] at hpairs
    have he : e.breaksPair (replay db es) = false := by simpa [keepsPairs] using hpairs.2
    rw [replay_append]
    exact (e.step he).inv (ih hpairs.1)

/-- Every compensation of the journal was planned when it was prepared. -/
theorem replay_planned (hempty : db.steps = Table.empty) {es : List JournalEvent}
    (hpairs : keepsPairs db es = true) {i : StepId} {k : OperationStep}
    (hk : (replay db es).journal i = some k) (hkind : k.kind = .compensation) :
    ∃ es₁ es₂, es = es₁ ++ es₂ ∧ (replay db es₁).Planned k := by
  induction es using List.reverseRecOn generalizing k with
  | nil => simp [replay, Db.journal, hempty] at hk
  | append_singleton es e ih =>
    rw [keepsPairs_append, Bool.and_eq_true] at hpairs
    have he : e.breaksPair (replay db es) = false := by simpa [keepsPairs] using hpairs.2
    have hstep := e.step he
    rw [replay_append] at hk
    cases hold : (replay db es).journal i with
    | none => exact ⟨es, [e], rfl, hstep.planned i k hold hk hkind⟩
    | some k₀ =>
      obtain ⟨k', hk', hsame, -⟩ := hstep.kept (replay_inv hempty hpairs.1) hold
      obtain rfl : k' = k := Option.some.inj (hk'.symm.trans hk)
      obtain ⟨es₁, es₂, hes, hplanned⟩ := ih hpairs.1 hold (hsame.kind.symm.trans hkind)
      exact ⟨es₁, es₂ ++ [e], by rw [hes, List.append_assoc], hplanned.of_identical hsame⟩

/-- Neither a cancellation nor a restart says of a dispatched step that it was not. -/
theorem JournalEvent.cancels_undispatched {e : JournalEvent} {i : StepId}
    {s s' : OperationStep} (he : e.cancels = true) (hs : db.journal i = some s)
    (hdispatched : s.dispatchedAt.isSome) (hs' : (e.apply db).journal i = some s')
    (hfailed : s'.status = .definitiveFailed) : s.status = .definitiveFailed := by
  cases e with
  | cancelBeforeDispatch id operationId now =>
    have hkeep : wp (cancelOperationStepBeforeDispatch id operationId now)
        (fun _ db' => db'.journal i = some s) (fun _ => True) db := by
      refine wp_updateStep_journal (fun row db' hrow hp h _ => ?_) hs
      have hne : i ≠ id := by
        rintro rfl
        obtain rfl : row = s := Option.some.inj (hrow.symm.trans hs)
        simp only [Bool.and_eq_true, Option.isNone_iff_eq_none] at hp
        simp [hp.2] at hdispatched
      rw [h, update_of_ne hne, hs]
    have hsame : (apply db (.cancelBeforeDispatch id operationId now)).journal i = some s :=
      commit_inv (P := fun db' : Db => db'.journal i = some s) hs hkeep
    obtain rfl : s = s' := Option.some.inj (hsame.symm.trans hs')
    exact hfailed
  | recover now =>
    have hrecovered : (apply db (.recover now)).journal i = some s ∨
        (apply db (.recover now)).journal i = some (s.recovered now) := by
      refine commit_inv (P := fun db' : Db => db'.journal i = some s ∨
        db'.journal i = some (s.recovered now)) (.inl hs) ?_
      refine wp_weaken (recoverOrphanedRuns_spec now db) fun _ db' h => .inr ?_
      change db'.steps.get? i = _
      rw [h.2.2, get?_recoveredSteps]
      exact congrArg (Option.map (OperationStep.recovered now)) hs
    rcases hrecovered with h | h <;> obtain rfl := Option.some.inj (h.symm.trans hs')
    · exact hfailed
    · cases hstatus : s.status <;> cases hat : s.dispatchedAt <;> simp_all [OperationStep.recovered]
  | _ => simp [cancels] at he

/-- A compensation that is under way for a step. -/
def OperationStep.Compensates (k s : OperationStep) : Prop :=
  k.kind = .compensation ∧ k.compensatesStepId = some s.id ∧ k.status = .executing

/-- What one event does to the dispatch of a step, new or old. -/
def KeepsDispatch (e : JournalEvent) (s : Option OperationStep) (s' : OperationStep) : Prop :=
  match s with
  | none => s'.dispatchedAt = none
  | some s => s.DispatchKept s' ∧ (e.cancels = true → s.dispatchedAt.isSome →
      s'.status = .definitiveFailed → s.status = .definitiveFailed)

/-- In a run over an empty journal whose cancellations hit no executing compensation:
a step is compensating exactly when one compensation of it executes; a step has at most
one compensation; each was planned when prepared; a dispatch is recorded once, on an
executing step, and is never taken back. -/
theorem replay_journal (hempty : db.steps = Table.empty) (es : List JournalEvent)
    (hpairs : keepsPairs db es = true) :
    (∀ s ∈ (replay db es).steps.rows, s.status = .compensating ↔
      ∃! k, k ∈ (replay db es).steps.rows ∧ k.Compensates s) ∧
    (∀ k ∈ (replay db es).steps.rows, ∀ k' ∈ (replay db es).steps.rows, k.kind = .compensation →
      k'.kind = .compensation → k.compensatesStepId = k'.compensatesStepId → k = k') ∧
    (∀ k ∈ (replay db es).steps.rows, k.kind = .compensation →
      ∃ es₁ es₂, es = es₁ ++ es₂ ∧ (replay db es₁).Planned k) ∧
    (∀ es₁ e es₂, es = es₁ ++ e :: es₂ → ∀ i, (∀ s' ∈ (e.apply (replay db es₁)).steps.get? i,
        KeepsDispatch e ((replay db es₁).steps.get? i) s') ∧
      (((replay db es₁).steps.get? i).isSome → ((e.apply (replay db es₁)).steps.get? i).isSome)) := by
  have hI := replay_inv hempty hpairs
  have hmem {s : OperationStep} : s ∈ (replay db es).steps.rows ↔
      (replay db es).journal s.id = some s :=
    ⟨fun h => Table.get?_of_mem h, fun h => Table.mem_of_get? h⟩
  have hunique : ∀ k ∈ (replay db es).steps.rows, ∀ k' ∈ (replay db es).steps.rows,
      k.kind = .compensation → k'.kind = .compensation →
      k.compensatesStepId = k'.compensatesStepId → k = k' := by
    intro k hk k' hk' hkind hkind' hsame
    obtain ⟨s, hs, -⟩ := hI.source k.id k (hmem.mp hk) hkind
    have hid := hI.unique _ _ _ _ _ (hmem.mp hk) (hmem.mp hk') hkind hkind' hs (hsame ▸ hs)
    have hget := hmem.mp hk'
    rw [← hid] at hget
    exact Option.some.inj ((hmem.mp hk).symm.trans hget)
  refine ⟨fun s hs => ⟨fun hstatus => ?_, ?_⟩, hunique, fun k hk hkind => ?_, ?_⟩
  · obtain ⟨-, i, k, hk, hkind, hcomp, hexec⟩ := hI.compensating s.id s (hmem.mp hs) hstatus
    have hkmem : k ∈ (replay db es).steps.rows := Table.mem_of_get? hk
    refine ⟨k, ⟨hkmem, hkind, hcomp, hexec⟩, ?_⟩
    rintro k' ⟨hk', hkind', hcomp', -⟩
    exact hunique k' hk' k hkmem hkind' hkind (hcomp'.trans hcomp.symm)
  · rintro ⟨k, ⟨hk, hkind, hcomp, hexec⟩, -⟩
    obtain ⟨r, hr, hstatus⟩ := hI.executing k.id k s.id (hmem.mp hk) hkind hexec hcomp
    obtain rfl := Option.some.inj ((hmem.mp hs).symm.trans hr)
    exact hstatus
  · exact replay_planned hempty hpairs (hmem.mp hk) hkind
  · intro es₁ e es₂ hes i
    rw [hes, keepsPairs_append, Bool.and_eq_true] at hpairs
    have he : e.breaksPair (replay db es₁) = false := by
      simp only [keepsPairs, Bool.and_eq_true, Bool.not_eq_true'] at hpairs
      exact hpairs.2.1
    have hI₁ := replay_inv hempty hpairs.1
    have hstep := e.step he
    cases hold : (replay db es₁).steps.get? i with
    | none => exact ⟨fun s' hs' => hstep.fresh hI₁ hold hs', by simp⟩
    | some s =>
      obtain ⟨s₁, hs₁, -, hdispatch⟩ := hstep.kept hI₁ hold
      refine ⟨fun s' hs' => ?_, fun _ => Option.isSome_iff_exists.mpr ⟨s₁, hs₁⟩⟩
      obtain rfl : s₁ = s' := Option.some.inj (hs₁.symm.trans hs')
      exact ⟨hdispatch, fun hcancels hdispatched hfailed =>
        JournalEvent.cancels_undispatched hcancels hold hdispatched hs₁ hfailed⟩

/-- A claimed operation whose plan has two steps and a compensation of the first. -/
def compensableOperation : Db :=
  (Txn.commit (do
    let _ ← prepareRun [{ PreviewDraft.simple 100 with
      mutationPlan := { mode := .curated, maxHostCalls := 4, steps := [
        { id := "create", kind := .primary }, { id := "link", kind := .primary },
        { id := "remove", kind := .compensation }] } }]
    let _ ← markConfirmationExecuting 1 2) Db.empty).2

/-- The second step is rejected, and the compensation of the first one starts. -/
def compensatingRun : List JournalEvent :=
  [.prepareStep { operationId := 0, index := 0, planStepId := "create", kind := .primary },
    .markExecuting 3 (some 0) 3, .markDispatched 3 (some 0) 3, .settle 3 .succeeded (some 0) false 4,
    .prepareStep { operationId := 0, index := 1, planStepId := "link", kind := .primary },
    .markExecuting 4 (some 0) 5, .markDispatched 4 (some 0) 5,
    .settle 4 .definitiveFailed (some 0) false 6,
    .prepareCompensation
      { operationId := 0, index := 2, planStepId := "remove", kind := .compensation } 3,
    .markCompensating 5 (some 0) 7]

theorem replay_journal_compensating :
    (∃ s ∈ (replay compensableOperation compensatingRun).steps.rows, s.status = .compensating) ∧
    ∀ s ∈ (replay compensableOperation compensatingRun).steps.rows, s.status = .compensating ↔
      ∃! k, k ∈ (replay compensableOperation compensatingRun).steps.rows ∧ k.Compensates s :=
  ⟨by decide +kernel, (replay_journal (by decide +kernel) compensatingRun (by decide +kernel)).1⟩

/-- Cancelled before its dispatch, the compensation fails and its source stays compensating. -/
theorem cancelled_compensation_strands_source : compensableOperation.steps = Table.empty ∧
    ∃ s ∈ (replay compensableOperation
        (compensatingRun ++ [.cancelBeforeDispatch 5 (some 0) 8])).steps.rows,
      s.status = .compensating ∧ ∀ k ∈ (replay compensableOperation
        (compensatingRun ++ [.cancelBeforeDispatch 5 (some 0) 8])).steps.rows,
        ¬ (k.kind = .compensation ∧ k.compensatesStepId = some s.id ∧ k.status = .executing) := by
  decide +kernel

end Runs

end ClockifyAssistant
