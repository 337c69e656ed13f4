import Mathlib.Data.Finset.Card
import ClockifyAssistant.StepJournal

/-!
Sequences of startup settlements. A settlement needs evidence that matches the
persisted plan and hash, and it decides the whole operation from the journal:
it is right when no other primary step is still unknown and the journal's
primary rows are those of the plan.
-/
namespace ClockifyAssistant

open Lib Txn

/-- One call of `settleStartupReconciliation`. -/
structure SettlementCall where
  operationId : OperationId
  stepId : StepId
  result : ReconciliationResult
  now : Time

/-- The evidence of a call matches the persisted plan and hash of its operation. -/
structure Db.Matched (validHash : OperationRun → Bool) (db : Db) (c : SettlementCall)
    (run : OperationRun) (step : OperationStep) (plan : ExternalMutationPlan) : Prop where
  stored : db.operations.get? c.operationId = some run
  unknown : run.status = .outcomeUnknown
  hash : validHash run = true
  journaled : db.steps.get? c.stepId = some step
  unsettled : step.unknownPrimary c.operationId = true
  planned : run.envelope.bind OperationEnvelope.mutationPlan = some plan
  valid : plan.valid = true
  reconciles : plan.reconciles step c.result = true
  binds : c.result.bindsTo run step = true

/-- The result row of the operation can be rewritten, or added. -/
def Db.resultWritable (db : Db) (run : OperationRun) : Prop :=
  match run.actionResultId with
  | none => db.operationResult run.id = none ∧ db.results.get? db.nextId = none
  | some r =>
      (db.results.get? r).any fun row => row.operationId == some run.id && row.scope == run.scope

/-- What a settling call leaves. -/
structure Db.SettledBy (db : Db) (c : SettlementCall) (plan : ExternalMutationPlan)
    (db' : Db) : Prop where
  steps : db'.steps = db.steps.update c.stepId fun s => { s with
    status := .succeeded, settledAt := some c.now }
  operation : ∃ o, db'.operations.get? c.operationId = some o ∧
    o.status = if db.fullyApplied c.operationId c.stepId plan then .succeeded else .partially
  others : ∀ i, i ≠ c.operationId → db'.operations.get? i = db.operations.get? i

section Specification

/-- Two databases that differ in no operation but possibly this one, and in no step. -/
def SameElsewhere (id : OperationId) (db db' : Db) : Prop :=
  db'.steps = db.steps ∧ ∀ i, i ≠ id → db'.operations.get? i = db.operations.get? i

variable {kind : ActionResultKind}

theorem settleReconciledResult_spec {run : OperationRun}
    {result : CommitResult} {now : Time} {db : Db} : wp (settleReconciledResult run kind result now)
      (fun _ db' => db.resultWritable run ∧ db'.steps = db.steps ∧
        db'.operations = db.operations ∧ db'.confirmations = db.confirmations)
      (fun _ => ¬ db.resultWritable run) db := by
  unfold settleReconciledResult Db.resultWritable
  cases run.actionResultId with
  | none =>
    simp only [recordActionResult, mintId, insertActionResult, wp_bind, wp_get, wp_set,
      wp_require, wp_pure]
    refine ⟨fun hunique => ?_, fun hunique hwritable => hunique ?_⟩
    · split
      · rename_i hfresh
        exact ⟨⟨by simpa [Db.operationResult] using hunique, hfresh⟩, rfl, rfl, rfl⟩
      · rename_i hfresh
        exact fun hwritable => hfresh hwritable.2
    · have hnone := hwritable.1
      simpa [Db.operationResult] using hnone
  | some r =>
    dsimp only
    rw [wp_bind, wp_get, wp_bind, wp_require]
    exact ⟨fun hrow => ⟨hrow, rfl, rfl, rfl⟩, fun hrow => hrow⟩

theorem reconcileConfirmation_spec {run : OperationRun} {r : ResultId} {db : Db} :
    wp (reconcileConfirmation run r kind)
      (fun _ db' => SameElsewhere run.id db db' ∧ ∃ f : OperationRun → OperationRun,
        (∀ o, (f o).status = o.status) ∧
        db'.operations.get? run.id = (db.operations.get? run.id).map f) (fun _ => False) db := by
  have hsame : SameElsewhere run.id db db ∧ ∃ f : OperationRun → OperationRun,
      (∀ o, (f o).status = o.status) ∧
      db.operations.get? run.id = (db.operations.get? run.id).map f :=
    ⟨⟨rfl, fun _ _ => rfl⟩, fun o => o, fun _ => rfl, by simp⟩
  unfold reconcileConfirmation
  split
  · exact hsame
  · rename_i i _
    rw [wp_bind]
    cases hold : (db.confirmations.get? i).filter fun c => c.operationId == run.id &&
        c.status == .outcomeUnknown && c.actionResultId == some r with
    | none =>
      simp only [wp, updateConfirmationStatus_none hold]
      exact hsame
    | some old =>
      have hpre : ¬ preDispatch old
          (({ status := kind.toPending, clearsIdempotencyKey := true } :
            ConfirmationPatch).apply old) := by
        rintro ⟨-, h⟩
        cases kind <;> simp [ActionResultKind.toPending, PendingStatus.cancelledOrExpired] at h
      have hid : old.operationId = run.id := by
        have hp := (Option.filter_eq_some_iff.mp hold).2
        simp only [Bool.and_eq_true, beq_iff_eq] at hp
        exact hp.1.1
      rw [updateConfirmationStatus_direct hold hpre (by simp), wp_pure]
      refine ⟨⟨rfl, fun j hj => ?_⟩, ?_⟩
      · simp only [Db.patchConfirmation, hid]
        split
        · rw [Table.get?_update, if_neg hj]
        · rfl
      · simp only [Db.patchConfirmation, hid]
        split
        · exact ⟨fun o => { o with envelope := none }, fun _ => rfl, by simp⟩
        · exact ⟨fun o => o, fun _ => rfl, by simp⟩

theorem settleReconciled_spec {run : OperationRun}
    {result : CommitResult} {now : Time} {db : Db} (hstored : db.operations.get? run.id = some run)
    (hunknown : run.status = .outcomeUnknown) : wp (settleReconciled run kind result now)
      (fun _ db' => db.resultWritable run ∧ SameElsewhere run.id db db' ∧
        ∃ o, db'.operations.get? run.id = some o ∧ o.status = kind.toOperation)
      (fun _ => ¬ db.resultWritable run) db := by
  unfold settleReconciled
  rw [wp_bind]
  refine wp_mono settleReconciledResult_spec ?_ fun _ he => he
  rintro r db₁ ⟨hwritable, hsteps, hoperations, -⟩
  rw [wp_bind]
  refine wp_mono reconcileConfirmation_spec ?_ fun _ he => he.elim
  rintro _ db₂ ⟨helsewhere, f, hf, hget⟩
  rw [hoperations, hstored, Option.map_some] at hget
  have hstill : (db₂.operations.get? run.id).any (fun o => o.status == .outcomeUnknown) = true := by
    simp [hget, hf, hunknown]
  rw [wp_bind, wp_updateOperationStatus, if_pos hstill, wp_bind, wp_require]
  refine ⟨fun _ => ⟨hwritable, ⟨helsewhere.1.trans hsteps, fun i hi => ?_⟩, ?_⟩, by simp⟩
  · rw [Table.get?_update, if_neg hi, helsewhere.2 i hi, hoperations]
  · exact ⟨_, by rw [Table.get?_update, if_pos rfl, hget, Option.map_some],
      OperationRun.withStatus_status _ _ _ _⟩

/-- A call settles where its evidence matches and its result can be written. -/
def SettlementCall.Settles (validHash : OperationRun → Bool) (c : SettlementCall) (db : Db) :
    Prop :=
  ∃ run step plan, db.Matched validHash c run step plan ∧ db.resultWritable run

theorem settleStartupReconciliation_spec (validHash : OperationRun → Bool) (c : SettlementCall)
    (db : Db) : wp (settleStartupReconciliation validHash c.operationId c.stepId c.result c.now)
      (fun _ db' => ∃ run step plan, db.Matched validHash c run step plan ∧
        db.resultWritable run ∧ db.SettledBy c plan db')
      (fun _ => ¬ c.Settles validHash db) db := by
  unfold settleStartupReconciliation
  rw [wp_bind, wp_get, wp_bind, wp_demand]
  refine ⟨fun run hrun => ?_, fun hnone => ?_⟩
  rotate_left
  · rintro ⟨run, step, plan, h, -⟩
    exact nomatch hnone.symm.trans h.stored
  rw [wp_bind, wp_require]
  refine ⟨fun hstatus => ?_, fun hstatus => ?_⟩
  rotate_left
  · rintro ⟨run', step, plan, h, -⟩
    obtain rfl : run = run' := Option.some.inj (hrun.symm.trans h.stored)
    exact hstatus ⟨h.unknown, h.hash⟩
  rw [wp_bind, wp_demand]
  refine ⟨fun step hstep => ?_, fun hnone => ?_⟩
  rotate_left
  · rintro ⟨run', step, plan, h, -⟩
    simp [h.journaled, h.unsettled] at hnone
  obtain ⟨hjournaled, hunsettled⟩ := Option.filter_eq_some_iff.mp hstep
  rw [wp_bind, wp_demand]
  refine ⟨fun plan hplan => ?_, fun hnone => ?_⟩
  rotate_left
  · rintro ⟨run', step, plan, h, -⟩
    obtain rfl : run = run' := Option.some.inj (hrun.symm.trans h.stored)
    exact nomatch hnone.symm.trans h.planned
  rw [wp_bind, wp_require]
  refine ⟨fun hreconciles => ?_, fun hreconciles => ?_⟩
  rotate_left
  · rintro ⟨run', step', plan', h, -⟩
    obtain rfl : run = run' := Option.some.inj (hrun.symm.trans h.stored)
    obtain rfl : step = step' := Option.some.inj (hjournaled.symm.trans h.journaled)
    obtain rfl : plan = plan' := Option.some.inj (hplan.symm.trans h.planned)
    exact hreconciles (by simp [h.valid, h.reconciles])
  rw [wp_bind, wp_require]
  refine ⟨fun hbinds => ?_, fun hbinds => ?_⟩
  rotate_left
  · rintro ⟨run', step', plan', h, -⟩
    obtain rfl : run = run' := Option.some.inj (hrun.symm.trans h.stored)
    obtain rfl : step = step' := Option.some.inj (hjournaled.symm.trans h.journaled)
    exact hbinds h.binds
  rw [Bool.and_eq_true] at hreconciles
  have hmatched : db.Matched validHash c run step plan :=
    ⟨hrun, hstatus.1, hstatus.2, hjournaled, hunsettled, hplan, hreconciles.1, hreconciles.2, hbinds⟩
  obtain hid : run.id = c.operationId := Table.key_of_get? hrun
  dsimp only
  rw [wp_bind, wp_modify]
  refine wp_seq (wp_mono (settleReconciled_spec (by rw [hid]; exact hrun) hstatus.1)
    (fun _ _ h => h) fun _ hwritable => ?_) fun r db' h => ?_
  · rintro ⟨run', step', plan', h, hwritable'⟩
    obtain rfl : run = run' := Option.some.inj (hrun.symm.trans h.stored)
    exact hwritable hwritable'
  · obtain ⟨hwritable, ⟨hsteps, helsewhere⟩, o, ho, hkind⟩ := h
    rw [hid] at helsewhere ho
    rw [wp_bind, wp_modify]
    refine ⟨run, step, plan, hmatched, hwritable, hsteps, ?_, fun i hi => ?_⟩
    · refine ⟨_, by rw [Table.get?_update, if_pos rfl, ho, Option.map_some], ?_⟩
      change o.status = _
      rw [hkind]
      split <;> rfl
    · rw [Table.get?_update, if_neg hi]
      exact helsewhere i hi

end Specification

section Journal

variable {db db' : Db} {id : OperationId} {plan : ExternalMutationPlan}

/-- Every primary descriptor of the plan has its row in the journal. -/
def Db.Journaled (db : Db) (id : OperationId) (plan : ExternalMutationPlan) : Prop :=
  ∀ i d, plan.steps[i]? = some d → d.kind = .primary →
    ∃ s ∈ db.primarySteps id, s.index = i ∧ s.planStepId = d.id

/-- The whole plan was carried out, as far as the journal says. -/
def Db.Completed (db : Db) (id : OperationId) (plan : ExternalMutationPlan) : Prop :=
  db.Journaled id plan ∧ ∀ s ∈ db.primarySteps id, s.status = .succeeded

def ExternalMutationPlan.primaryCount (plan : ExternalMutationPlan) : Nat :=
  (plan.steps.filter fun s => s.kind == .primary).length

/-- What a settlement takes for granted of the journal: the other primary steps are
known, and where all of them succeeded the rows are as many as the plan's primary
descriptors exactly when each descriptor has its row. -/
structure Db.Conclusive (db : Db) (id : OperationId) (stepId : StepId)
    (plan : ExternalMutationPlan) : Prop where
  known : ∀ s ∈ db.primarySteps id, s.id ≠ stepId → s.status ≠ .outcomeUnknown
  tallies : (∀ s ∈ db.primarySteps id, s.id ≠ stepId → s.status = .succeeded) →
    (plan.primaryCount = (db.primarySteps id).length ↔ db.Journaled id plan)

theorem Db.mem_primarySteps {s : OperationStep} :
    s ∈ db.primarySteps id ↔ s ∈ db.steps.rows ∧ s.operationId = id ∧ s.kind = .primary := by
  simp [primarySteps]

theorem Db.primarySteps_updateStep {stepId : StepId} {f : OperationStep → OperationStep}
    {hf : ∀ s, key (f s) = key s} (h : db'.steps = db.steps.update stepId f hf)
    (hkeeps : ∀ s, (f s).operationId = s.operationId ∧ (f s).kind = s.kind) :
    db'.primarySteps id = (db.primarySteps id).map fun s => if s.id = stepId then f s else s := by
  unfold primarySteps
  rw [h]
  change (List.map _ _).filter _ = _
  rw [List.filter_map]
  have hpred : ((fun s : OperationStep => s.operationId == id && s.kind == .primary) ∘
      fun s => if decide (key s = stepId) = true then f s else s) =
      fun s => s.operationId == id && s.kind == .primary := by
    funext s
    by_cases hs : key s = stepId <;> simp [hs, hkeeps]
  rw [hpred]
  refine List.map_congr_left fun s _ => ?_
  simp [key]

variable {validHash : OperationRun → Bool} {c : SettlementCall} {run : OperationRun}
  {step : OperationStep}

theorem Db.SettledBy.primarySteps (h : db.SettledBy c plan db') :
    db'.primarySteps id = (db.primarySteps id).map fun s =>
      if s.id = c.stepId then { s with status := .succeeded, settledAt := some c.now } else s :=
  Db.primarySteps_updateStep h.steps fun _ => ⟨rfl, rfl⟩

theorem Db.SettledBy.journaled_iff (h : db.SettledBy c plan db') :
    db'.Journaled c.operationId plan ↔ db.Journaled c.operationId plan := by
  unfold Db.Journaled
  rw [h.primarySteps]
  refine forall₄_congr fun i d _ _ => ?_
  constructor
  · rintro ⟨s', hs', hindex, hid⟩
    obtain ⟨s, hs, rfl⟩ := List.mem_map.mp hs'
    refine ⟨s, hs, ?_, ?_⟩
    · rw [← hindex]
      split <;> rfl
    · rw [← hid]
      split <;> rfl
  · rintro ⟨s, hs, hindex, hid⟩
    refine ⟨_, List.mem_map.mpr ⟨s, hs, rfl⟩, ?_, ?_⟩
    · rw [← hindex]
      split <;> rfl
    · rw [← hid]
      split <;> rfl

theorem Db.Matched.step_mem (h : db.Matched validHash c run step plan) :
    step ∈ db.primarySteps c.operationId := by
  have hunsettled := h.unsettled
  simp only [OperationStep.unknownPrimary, Bool.and_eq_true, beq_iff_eq] at hunsettled
  exact Db.mem_primarySteps.mpr ⟨Table.mem_of_get? h.journaled, hunsettled.1⟩

theorem Db.Matched.fullyApplied_iff (h : db.Matched validHash c run step plan) :
    db.fullyApplied c.operationId c.stepId plan = true ↔
      plan.primaryCount = (db.primarySteps c.operationId).length ∧
      ∀ s ∈ db.primarySteps c.operationId, s.id ≠ c.stepId → s.status = .succeeded := by
  have hunsettled := h.unsettled
  simp only [OperationStep.unknownPrimary, Bool.and_eq_true, beq_iff_eq] at hunsettled
  simp only [Db.fullyApplied, Bool.and_eq_true, beq_iff_eq, List.all_eq_true]
  refine and_congr Iff.rfl (forall₂_congr fun s hs => ?_)
  by_cases hid : s.id = c.stepId
  · have hget := Table.get?_of_mem (Db.mem_primarySteps.mp hs).1
    obtain rfl : step = s := Option.some.inj (h.journaled.symm.trans (hid ▸ hget))
    simp [hid, hunsettled.2]
  · simp [hid]

/-- After the settlement the journal is complete when the other steps had succeeded. -/
theorem Db.SettledBy.completed_iff (h : db.SettledBy c plan db') :
    db'.Completed c.operationId plan ↔ db.Journaled c.operationId plan ∧
      ∀ s ∈ db.primarySteps c.operationId, s.id ≠ c.stepId → s.status = .succeeded := by
  refine and_congr h.journaled_iff ?_
  rw [h.primarySteps]
  simp only [List.forall_mem_map]
  refine forall₂_congr fun s _ => ?_
  by_cases hid : s.id = c.stepId <;> simp [hid]

theorem Db.SettledBy.known_iff (h : db.SettledBy c plan db') :
    (∀ s ∈ db'.primarySteps c.operationId, s.status ≠ .outcomeUnknown) ↔
      ∀ s ∈ db.primarySteps c.operationId, s.id ≠ c.stepId → s.status ≠ .outcomeUnknown := by
  rw [h.primarySteps]
  simp only [List.forall_mem_map]
  refine forall₂_congr fun s _ => ?_
  by_cases hid : s.id = c.stepId <;> simp [hid]

end Journal

section Runs

variable {validHash : OperationRun → Bool} {db : Db} {c : SettlementCall} {id : OperationId}
  {run o : OperationRun} {step : OperationStep} {plan : ExternalMutationPlan}
  {calls : List SettlementCall}

def SettlementCall.apply (validHash : OperationRun → Bool) (db : Db) (c : SettlementCall) : Db :=
  ((settleStartupReconciliation validHash c.operationId c.stepId c.result c.now).commit db).2

def reconcile (validHash : OperationRun → Bool) (db : Db) (calls : List SettlementCall) : Db :=
  calls.foldl (SettlementCall.apply validHash) db

theorem reconcile_concat (validHash : OperationRun → Bool) (db : Db)
    (calls : List SettlementCall) (c : SettlementCall) :
    reconcile validHash db (calls ++ [c]) = c.apply validHash (reconcile validHash db calls) :=
  List.foldl_append

theorem SettlementCall.apply_cases (validHash : OperationRun → Bool) (c : SettlementCall)
    (db : Db) : (∃ run step plan, db.Matched validHash c run step plan ∧ db.resultWritable run ∧
      db.SettledBy c plan (c.apply validHash db)) ∨
    (¬ c.Settles validHash db ∧ c.apply validHash db = db) := by
  have h := settleStartupReconciliation_spec validHash c db
  unfold apply
  cases hm : settleStartupReconciliation validHash c.operationId c.stepId c.result c.now db with
  | error e =>
    rw [commit_error hm]
    exact .inr ⟨wp_error (E := fun _ => ¬ c.Settles validHash db) h hm, rfl⟩
  | ok r =>
    rw [commit_ok (a := r.1) (t := r.2) hm]
    exact .inl (wp_ok h hm)

/-- A settlement of another operation touches neither this one nor its steps. -/
theorem Db.Matched.primarySteps_other {db' : Db} (h : db.Matched validHash c run step plan)
    (hsettled : db.SettledBy c plan db') (hid : id ≠ c.operationId) :
    db'.primarySteps id = db.primarySteps id := by
  rw [hsettled.primarySteps]
  conv_rhs => rw [← List.map_id (db.primarySteps id)]
  refine List.map_congr_left fun s hs => ?_
  have hne : s.id ≠ c.stepId := by
    intro heq
    obtain ⟨hmem, howner, -⟩ := Db.mem_primarySteps.mp hs
    obtain rfl : step = s :=
      Option.some.inj (h.journaled.symm.trans (heq ▸ Table.get?_of_mem hmem))
    exact hid (howner.symm.trans (Db.mem_primarySteps.mp h.step_mem).2.1)
  simp [hne]

/-- What one call does to one operation: it settles it, or leaves it and its steps alone. -/
theorem SettlementCall.apply_operation (validHash : OperationRun → Bool) (c : SettlementCall)
    (db : Db) (id : OperationId) :
    (c.operationId = id ∧ ∃ run step plan, db.Matched validHash c run step plan ∧
      db.resultWritable run ∧ db.SettledBy c plan (c.apply validHash db)) ∨
    ((c.apply validHash db).operations.get? id = db.operations.get? id ∧
      (c.apply validHash db).primarySteps id = db.primarySteps id) := by
  rcases c.apply_cases validHash db with ⟨run, step, plan, hmatched, hwritable, hsettled⟩ | ⟨-, h⟩
  · by_cases hid : c.operationId = id
    · exact .inl ⟨hid, run, step, plan, hmatched, hwritable, hsettled⟩
    · have hne : id ≠ c.operationId := fun heq => hid heq.symm
      exact .inr ⟨hsettled.others id hne, hmatched.primarySteps_other hsettled hne⟩
  · exact .inr ⟨by rw [h], by rw [h]⟩

/-- An operation that a run leaves unknown was never touched by it. -/
theorem reconcile_untouched (h : (reconcile validHash db calls).operations.get? id = some run)
    (hunknown : run.status = .outcomeUnknown) : db.operations.get? id = some run := by
  induction calls using List.reverseRecOn with
  | nil => exact h
  | append_singleton calls c ih =>
    rw [reconcile_concat] at h
    rcases c.apply_operation validHash (reconcile validHash db calls) id with
      ⟨rfl, _, _, _, _, _, hsettled⟩ | ⟨hsame, -⟩
    · obtain ⟨o, ho, hstatus⟩ := hsettled.operation
      obtain rfl : o = run := Option.some.inj (ho.symm.trans h)
      rw [hunknown] at hstatus
      split at hstatus <;> cases hstatus
    · exact ih (hsame.symm.trans h)

/-- What must hold of an operation that a run of calls took out of `outcomeUnknown`. -/
structure SettledSoundly (validHash : OperationRun → Bool) (db : Db)
    (calls : List SettlementCall) (id : OperationId) (run o : OperationRun) : Prop where
  matched : ∃ pre c post step plan, calls = pre ++ c :: post ∧ c.operationId = id ∧
    (reconcile validHash db pre).Matched validHash c run step plan ∧
    (o.status = .succeeded ↔ (reconcile validHash db calls).Completed id plan)
  known : ∀ s ∈ (reconcile validHash db calls).primarySteps id, s.status ≠ .outcomeUnknown

def ReconciledSoundly (validHash : OperationRun → Bool) (db : Db) (calls : List SettlementCall)
    (id : OperationId) : Prop :=
  ∀ run o, db.operations.get? id = some run → run.status = .outcomeUnknown →
    (reconcile validHash db calls).operations.get? id = some o → o.status ≠ .outcomeUnknown →
      SettledSoundly validHash db calls id run o

/-- The calls that settle the operation find a conclusive journal. -/
def SettledConclusively (validHash : OperationRun → Bool) (db : Db)
    (calls : List SettlementCall) (id : OperationId) : Prop :=
  ∀ pre c post, calls = pre ++ c :: post → c.operationId = id → ∀ run step plan,
    (reconcile validHash db pre).Matched validHash c run step plan →
    (reconcile validHash db pre).resultWritable run →
      (reconcile validHash db pre).Conclusive id c.stepId plan

theorem Db.SettledBy.status_eq_succeeded {db' : Db} (h : db.Matched validHash c run step plan)
    (hsettled : db.SettledBy c plan db') (ho : db'.operations.get? c.operationId = some o) :
    o.status ≠ .outcomeUnknown ∧ (o.status = .succeeded ↔
      plan.primaryCount = (db.primarySteps c.operationId).length ∧
      ∀ s ∈ db.primarySteps c.operationId, s.id ≠ c.stepId → s.status = .succeeded) := by
  obtain ⟨o', ho', hstatus⟩ := hsettled.operation
  obtain rfl : o' = o := Option.some.inj (ho'.symm.trans ho)
  rw [hstatus, ← h.fullyApplied_iff]
  by_cases happlied : db.fullyApplied c.operationId c.stepId plan = true <;> simp [happlied]

theorem Db.Conclusive.sound_iff {db' : Db} (h : db.Matched validHash c run step plan)
    (hsettled : db.SettledBy c plan db') (ho : db'.operations.get? c.operationId = some o) :
    db.Conclusive c.operationId c.stepId plan ↔
      (o.status = .succeeded ↔ db'.Completed c.operationId plan) ∧
        ∀ s ∈ db'.primarySteps c.operationId, s.status ≠ .outcomeUnknown := by
  rw [(hsettled.status_eq_succeeded h ho).2, hsettled.completed_iff, hsettled.known_iff]
  constructor
  · rintro ⟨hknown, htallies⟩
    exact ⟨and_congr_left fun hothers => htallies hothers, hknown⟩
  · rintro ⟨hstatus, hknown⟩
    exact ⟨hknown, fun hothers => and_congr_left_iff.mp hstatus hothers⟩

theorem reconciledSoundly_of_conclusive (h : SettledConclusively validHash db calls id) :
    ReconciledSoundly validHash db calls id := by
  induction calls using List.reverseRecOn with
  | nil =>
    intro run o hrun hunknown ho hleft
    obtain rfl : run = o := Option.some.inj (hrun.symm.trans ho)
    exact absurd hunknown hleft
  | append_singleton calls c ih =>
    have hinit : SettledConclusively validHash db calls id := by
      intro pre c' post hcalls
      exact h pre c' (post ++ [c]) (by rw [hcalls, List.append_assoc, List.cons_append])
    intro run o hrun hunknown ho hleft
    rw [reconcile_concat] at ho
    rcases c.apply_operation validHash (reconcile validHash db calls) id with
      ⟨rfl, run', step, plan, hmatched, hwritable, hsettled⟩ | ⟨hsame, hsteps⟩
    · obtain rfl : run' = run := Option.some.inj
        ((reconcile_untouched hmatched.stored hmatched.unknown).symm.trans hrun)
      have hconclusive := h calls c [] rfl rfl run' step plan hmatched hwritable
      obtain ⟨hstatus, hknown⟩ := (Db.Conclusive.sound_iff hmatched hsettled ho).mp hconclusive
      exact ⟨⟨calls, c, [], step, plan, rfl, rfl, hmatched, by rw [reconcile_concat]; exact hstatus⟩,
        by rw [reconcile_concat]; exact hknown⟩
    · obtain ⟨⟨pre, c', post, step, plan, hcalls, hid, hmatched, hstatus⟩, hknown⟩ :=
        ih hinit run o hrun hunknown (hsame.symm.trans ho) hleft
      refine ⟨⟨pre, c', post ++ [c], step, plan, ?_, hid, hmatched, ?_⟩, ?_⟩
      · rw [hcalls, List.append_assoc, List.cons_append]
      · rw [reconcile_concat, hstatus]
        unfold Db.Completed Db.Journaled
        rw [hsteps]
      · rw [reconcile_concat, hsteps]
        exact hknown

/-- A sequence of settlements takes no operation out of `outcomeUnknown` wrongly, at no
point of it, exactly when every call that settles one finds a conclusive journal. -/
theorem reconcile_sound_iff (validHash : OperationRun → Bool) (db : Db)
    (calls : List SettlementCall) (id : OperationId) :
    (∀ pre post, calls = pre ++ post → ReconciledSoundly validHash db pre id) ↔
      SettledConclusively validHash db calls id := by
  constructor
  · intro h pre c post hcalls hid run step plan hmatched hwritable
    subst hid
    have hsound := h (pre ++ [c]) post (by rw [hcalls, List.append_assoc]; rfl)
    have hrun := reconcile_untouched hmatched.stored hmatched.unknown
    rcases c.apply_cases validHash (reconcile validHash db pre) with
      ⟨run', step', plan', hmatched', -, hsettled⟩ | ⟨hnot, -⟩
    · obtain rfl : run = run' := Option.some.inj (hmatched.stored.symm.trans hmatched'.stored)
      obtain rfl : plan = plan' := Option.some.inj (hmatched.planned.symm.trans hmatched'.planned)
      obtain ⟨o, ho, -⟩ := hsettled.operation
      rw [← reconcile_concat] at hsettled ho
      have hleft := (hsettled.status_eq_succeeded hmatched ho).1
      obtain ⟨⟨_, _, _, _, plan', -, -, hfirst, hstatus⟩, hknown⟩ :=
        hsound run o hrun hmatched.unknown ho hleft
      obtain rfl : plan = plan' := Option.some.inj (hmatched.planned.symm.trans hfirst.planned)
      exact (Db.Conclusive.sound_iff hmatched hsettled ho).mpr ⟨hstatus, hknown⟩
    · exact absurd ⟨run, step, plan, hmatched, hwritable⟩ hnot
  · intro h pre post hcalls
    refine reconciledSoundly_of_conclusive fun pre' c post' hpre => ?_
    exact h pre' c (post' ++ post) (by rw [hcalls, hpre, List.append_assoc, List.cons_append])

/-- A crash while both steps of a claimed operation were at the host. -/
def twoUnknownSteps : Db :=
  replay (Txn.commit (do
    let _ ← prepareRun [{ PreviewDraft.simple 100 with
      mutationPlan := { mode := .curated, maxHostCalls := 4, steps := [
        { id := "create", kind := .primary, reconciliationStrategy := some .create },
        { id := "link", kind := .primary, reconciliationStrategy := some .update }] } }]
    let _ ← markConfirmationExecuting 1 2) Db.empty).2
    [.prepareStep { operationId := 0, index := 0, planStepId := "create", kind := .primary },
      .markExecuting 3 (some 0) 3, .markDispatched 3 (some 0) 3,
      .prepareStep { operationId := 0, index := 1, planStepId := "link", kind := .primary },
      .markExecuting 4 (some 0) 4, .markDispatched 4 (some 0) 4, .recover 5]

/-- Complete evidence for one step of the operation above. -/
def matchingEvidence (stepId : StepId) (planStepId : String)
    (strategy : ReconciliationStrategy) : SettlementCall where
  operationId := 0
  stepId := stepId
  result := {
    authoritative := true, reason := "authoritative_match", operationId := 0, stepId, planStepId
    strategy := some strategy
    actionName := (twoUnknownSteps.operations.get? 0).elim "" OperationRun.actionName
    actionFingerprint := (twoUnknownSteps.operations.get? 0).elim 0 OperationRun.actionFingerprint
    catalogHash := (twoUnknownSteps.operations.get? 0).elim 0 OperationRun.catalogHash
    content := 0 }
  now := 6

/-- The first settlement makes the operation partial, which strands the other step. -/
theorem first_settlement_strands_second_step :
    ¬ ReconciledSoundly (fun _ => true) twoUnknownSteps [matchingEvidence 3 "create" .create] 0 ∧
    (reconcile (fun _ => true) twoUnknownSteps
      [matchingEvidence 3 "create" .create, matchingEvidence 4 "link" .update]).primarySteps 0 =
    (reconcile (fun _ => true) twoUnknownSteps
      [matchingEvidence 3 "create" .create]).primarySteps 0 := by
  refine ⟨fun h => ?_, by decide +kernel⟩
  have hbefore : (twoUnknownSteps.operations.get? 0).any
      (fun o => o.status == .outcomeUnknown) = true := by decide +kernel
  have hafter : ((reconcile (fun _ => true) twoUnknownSteps
      [matchingEvidence 3 "create" .create]).operations.get? 0).any
      (fun o => o.status == .partially) = true := by decide +kernel
  have hstranded : ∃ s ∈ (reconcile (fun _ => true) twoUnknownSteps
      [matchingEvidence 3 "create" .create]).primarySteps 0, s.status = .outcomeUnknown := by
    decide +kernel
  obtain ⟨run, hrun, hunknown⟩ := (Option.any_eq_true _ _).mp hbefore
  obtain ⟨o, ho, hpart⟩ := (Option.any_eq_true _ _).mp hafter
  obtain ⟨s, hs, hstatus⟩ := hstranded
  rw [beq_iff_eq] at hunknown hpart
  exact (h run o hrun hunknown ho (by simp [hpart])).known s hs hstatus

end Runs

end ClockifyAssistant
