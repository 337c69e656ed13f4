import ClockifyAssistant.WorkflowReports

/-!
A journal that works never stops a step of its operation: the step runs to its end, and the
journal takes the next one.
-/
namespace ClockifyAssistant

open Lib

/-- An operation that executes; `used` are the places and names of the steps it has journaled. -/
structure Journaling (db : Db) (operationId : OperationId) (used : List (Nat × String)) : Prop where
  executing : (db.operations.get? operationId).map OperationRun.status = some .executing
  fresh : ∀ id, db.nextId ≤ id → db.steps.get? id = none
  journaled : ∀ row ∈ db.steps.rows, (row.index, row.planStepId) ∈ used

section Rows

variable {db : Db} {operationId : OperationId} {used : List (Nat × String)}

theorem Journaling.updateStep (h : Journaling db operationId used) {id : StepId}
    {p : OperationStep → Bool} {f : OperationStep → OperationStep} {hf : ∀ s, key (f s) = key s}
    (hplace : ∀ row, (f row).index = row.index ∧ (f row).planStepId = row.planStepId) :
    Txn.wp (updateStep id p f hf) (fun _ db' => Journaling db' operationId used)
      (fun _ => False) db := by
  rw [wp_updateStep]
  split
  · refine ⟨h.executing, fun other hother => ?_, fun row hrow => ?_⟩
    · rw [Table.get?_update, h.fresh other hother]
      split <;> rfl
    · have hmapped : ∃ old ∈ db.steps.rows,
          (if decide (key old = id) = true then f old else old) = row :=
        Table.mem_updateWhere.mp (show row ∈ (db.steps.updateWhere (fun old => decide (key old = id)) f hf).rows from hrow)
      obtain ⟨old, hmem, rfl⟩ := hmapped
      have hused := h.journaled old hmem
      split
      · rw [(hplace old).1, (hplace old).2]
        exact hused
      · exact hused
  · exact h

theorem Journaling.prepare (h : Journaling db operationId used) {input : PrepareOperationStepInput}
    (hkind : input.kind = .primary) (howner : input.operationId = operationId)
    (hsource : input.compensatesStepId = none)
    (hnew : ∀ place ∈ used, place.1 ≠ input.index ∧ place.2 ≠ input.planStepId) :
    Txn.wp (prepareOperationStep input)
      (fun id db' => db'.steps.get? id = some (preparedStep id input) ∧
        Journaling db' operationId ((input.index, input.planStepId) :: used))
      (fun _ => False) db := by
  have hunused : db.steps.rows.all (fun s => !(s.operationId == input.operationId &&
      (s.index == input.index || s.planStepId == input.planStepId))) = true := by
    refine List.all_eq_true.mpr fun row hrow => ?_
    obtain ⟨hindex, hname⟩ := hnew _ (h.journaled row hrow)
    simp [hindex, hname]
  have hoperation : (db.operations.get? operationId).isSome = true := by
    have hsome := congrArg Option.isSome h.executing
    simpa using hsome
  have hfresh : db.steps.get? (key (preparedStep db.nextId input)) = none :=
    h.fresh db.nextId (Nat.le_refl _)
  unfold prepareOperationStep
  rw [Txn.wp_bind, Txn.wp_require]
  refine ⟨fun _ => ?_, fun hno => hno hkind⟩
  simp only [mintId, insertStep, Txn.wp_bind, Txn.wp_get, Txn.wp_set, Txn.wp_pure, Txn.wp_require]
  refine ⟨fun _ => ⟨fun _ => ?_, fun hno => hno ?_⟩, fun hno => hno hunused⟩
  · rw [dif_pos hfresh, Txn.wp_set]
    refine ⟨?_, h.executing, fun other hother => ?_, fun row hrow => ?_⟩
    · rw [Table.get?_insert]
      exact if_pos rfl
    · rw [Table.get?_insert]
      dsimp only at hother
      rw [if_neg (by change ¬ other = db.nextId; omega)]
      exact h.fresh other (by omega)
    · rcases (Table.mem_insert (h := hfresh)).mp hrow with hold | rfl
      · exact List.mem_cons_of_mem _ (h.journaled row hold)
      · exact List.mem_cons_self
  · simp [preparedStep, howner, hsource, hoperation]

end Rows

section Steps

variable {operationId : OperationId} {used : List (Nat × String)} {s : WorkflowState}

theorem wp_journaled_total {α : Type} {m : StoreTxn α} {Q : α → WorkflowState → Prop}
    {E : WorkflowError → WorkflowState → Prop}
    (hm : Txn.wp m (fun a db => Q a { s with db }) (fun _ => False) s.db) :
    Session.wp (journaled false m) Q E s :=
  wp_journaled (fun _ => Txn.wp_mono hm (fun _ _ hQ => hQ) fun _ he => he.elim) nofun

theorem markOperationStepExecuting_returns {db : Db} {stepId : StepId} {row : OperationStep}
    {now : Time} (h : Journaling db operationId used) (hget : db.steps.get? stepId = some row)
    (howner : row.operationId = operationId) (hstatus : row.status = .prepared)
    (hkind : row.kind = .primary) :
    Txn.wp (markOperationStepExecuting stepId (some operationId) now)
      (fun marked db' => marked = true ∧ Journaling db' operationId used) (fun _ => False) db := by
  have hkeeps : Txn.wp (markOperationStepExecuting stepId (some operationId) now)
      (fun _ db' => Journaling db' operationId used) (fun _ => False) db := by
    unfold markOperationStepExecuting
    rw [Txn.wp_bind, Txn.wp_get]
    exact h.updateStep fun _ => ⟨rfl, rfl⟩
  have hmarks : Txn.wp (markOperationStepExecuting stepId (some operationId) now)
      (fun marked _ => marked = true) (fun _ => True) db := by
    obtain ⟨operation, hoperation, hexecuting⟩ := Option.map_eq_some_iff.mp h.executing
    unfold markOperationStepExecuting
    rw [Txn.wp_bind, Txn.wp_get, wp_updateStep, if_pos]
    simp [hget, OperationStep.ownedBy, howner, hstatus, hkind, hoperation, hexecuting]
  exact Txn.wp_mono (Txn.wp_and hmarks hkeeps) (fun _ _ hboth => hboth) fun _ he => he.2

variable {step : ExecutableMutationStep}

theorem beginJournaledStep_returns
    (h : Journaling s.db operationId used) (hfaults : step.dispatch.faults = {})
    (hnew : ∀ place ∈ used, place.1 ≠ step.index ∧ place.2 ≠ step.id) :
    Session.wp (beginJournaledStep operationId step)
      (fun stepId s' => ExecutingRow s'.db operationId stepId none ∧
        Journaling s'.db operationId ((step.index, step.id) :: used)) (fun _ _ => False) s := by
  unfold beginJournaledStep
  dsimp only
  rw [Session.wp_bind, hfaults]
  refine wp_journaled_total ?_
  refine Txn.wp_mono (h.prepare rfl rfl rfl hnew) ?_ fun _ he => he
  rintro stepId db₁ ⟨hget, hprepared⟩
  rw [Session.wp_bind]
  refine wp_journaled_total ?_
  have hmark : Txn.wp (markOperationStepExecuting stepId (some operationId) step.dispatch.now)
      (fun marked db' => marked = true ∧
        Journaling db' operationId ((step.index, step.id) :: used)) (fun _ => False) db₁ :=
    markOperationStepExecuting_returns hprepared hget rfl rfl rfl
  have hrow : Txn.wp (markOperationStepExecuting stepId (some operationId) step.dispatch.now)
      (fun marked db' => marked = true → ExecutingRow db' operationId stepId none)
      (fun _ => True) db₁ :=
    markOperationStepExecuting_row hget rfl rfl rfl rfl
  refine Txn.wp_mono (Txn.wp_and hmark hrow) ?_ fun _ he => he.1
  rintro marked db₂ ⟨⟨rfl, hjournaling⟩, hexecuting⟩
  have hexecuting := hexecuting rfl
  obtain ⟨row, hget₂, howner, -⟩ := hexecuting.row
  rw [Session.wp_bind]
  refine wp_ensure (fun _ => ?_) fun hno => (hno rfl).elim
  rw [Session.wp_bind, wp_findStep, Session.wp_bind]
  refine wp_ensure (fun _ => ⟨hexecuting, hjournaling⟩) fun hno => ?_
  exact (hno (by simp [hget₂, howner])).elim

theorem Journaling.dispatched {db : Db} (h : Journaling db operationId used) (stepId : StepId)
    (t : Time) :
    Journaling ((markOperationStepDispatched stepId (some operationId) t).commit db).2 operationId
      used := by
  have hkeeps : Txn.wp (markOperationStepDispatched stepId (some operationId) t)
      (fun _ db' => Journaling db' operationId used) (fun _ => False) db :=
    h.updateStep fun _ => ⟨rfl, rfl⟩
  cases hrun : markOperationStepDispatched stepId (some operationId) t db with
  | error e => exact (Txn.wp_error hkeeps hrun).elim
  | ok r =>
    rw [Txn.commit_ok (a := r.1) (t := r.2) hrun]
    exact Txn.wp_ok (a := r.1) hkeeps hrun

theorem settleDispatchedStep_returns {stepId : StepId} {dispatchedAt : Option Time}
    {status : StepOutcome}
    (h : Journaling s.db operationId used) (hrow : ExecutingRow s.db operationId stepId dispatchedAt)
    (hfaults : step.dispatch.faults = {}) :
    Session.wp (settleDispatchedStep operationId stepId step status)
      (fun result s' => result.status = status.toStatus ∧ result.journalDegraded = false ∧
        Journaling s'.db operationId used) (fun _ _ => False) s := by
  unfold settleDispatchedStep
  dsimp only
  rw [Session.wp_bind, Session.wp_tryCatch, hfaults, Session.wp_bind]
  refine wp_journaled_total ?_
  have hkeeps : Txn.wp (settleOperationStep stepId status (some operationId) false step.dispatch.now)
      (fun _ db' => Journaling db' operationId used) (fun _ => True) s.db := by
    unfold settleOperationStep
    rw [Txn.wp_bind]
    refine Txn.wp_mono (h.updateStep fun _ => ⟨rfl, rfl⟩) (fun updated db' hdb => ?_) fun _ _ => trivial
    rw [Txn.wp_require]
    exact ⟨fun _ => hdb, fun _ => trivial⟩
  refine Txn.wp_mono (Txn.wp_and (hrow.settle status false step.dispatch.now) hkeeps) ?_
    fun _ he => he.1
  rintro _ db' ⟨hsettled, hjournaling⟩
  simp only [Session.wp_pure, if_true]
  exact wp_foundStep hsettled fun result hstatus hdegraded => ⟨hstatus, hdegraded, hjournaling⟩

/-- A step of the operation returns, unless its evidence cannot be stored. -/
theorem callDispatch_returns (hrow : ExecutingRow s.db operationId stepId none)
    (h : Journaling s.db operationId used) :
    Session.wp (callDispatch operationId stepId step)
      (fun _ s' => ExecutingRow s'.db operationId stepId step.dispatch.dispatchedAt ∧
        Journaling s'.db operationId used) (fun _ _ => False) s := by
  unfold callDispatch
  rw [Session.wp_modify]
  cases step.dispatch.dispatchedAt with
  | none => exact ⟨hrow, h⟩
  | some t => exact ⟨hrow.dispatched t, h.dispatched stepId t⟩

theorem executeStep_returns (h : Journaling s.db operationId used)
    (hkind : step.kind = .primary) (hfaults : step.dispatch.faults = {})
    (hevidence : ∀ message, step.preparedDetail ≠ some (.error message))
    (hanswered : step.dispatch.outcome ≠ .error .requestCancelled)
    (hnew : ∀ place ∈ used, place.1 ≠ step.index ∧ place.2 ≠ step.id) :
    Session.wp (executeStep operationId operationId step)
      (fun result s' => result.status = step.dispatch.verdict.toStatus ∧
        result.journalDegraded = false ∧
        Journaling s'.db operationId ((step.index, step.id) :: used)) (fun _ _ => False) s := by
  unfold executeStep
  rw [Session.wp_bind]
  refine wp_ensure (fun _ => ?_) fun hno => (hno hkind).elim
  rw [Session.wp_bind]
  refine wp_ensure (fun _ => ?_) fun hno => (hno rfl).elim
  rw [Session.wp_bind, wp_operationStatus, Session.wp_bind]
  refine wp_ensure (fun _ => ?_) fun hno => (hno h.executing).elim
  split
  · next message hmessage => exact absurd hmessage (hevidence message)
  · rw [Session.wp_bind]
    refine Session.wp_mono (beginJournaledStep_returns h hfaults hnew) ?_ fun _ _ he => he
    rintro stepId s₁ ⟨hrow, hjournaling⟩
    rw [Session.wp_bind]
    refine Session.wp_mono (callDispatch_returns hrow hjournaling) ?_ fun _ _ he => he
    rintro _ s₂ ⟨hdispatched, hafter⟩
    unfold concludeStep
    dsimp only
    rw [if_neg hanswered]
    refine Session.wp_mono (settleDispatchedStep_returns hafter hdispatched hfaults) ?_
      fun _ _ he => he
    rintro result s' ⟨hstatus, hdegraded, hdone⟩
    refine ⟨?_, hdegraded, hdone⟩
    rw [hstatus, StepDispatch.verdict, if_neg fun hcancelled => hanswered hcancelled.1]

end Steps

end ClockifyAssistant
