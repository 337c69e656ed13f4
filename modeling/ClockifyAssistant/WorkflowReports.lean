import ClockifyAssistant.Harness.MutationWorkflow
import ClockifyAssistant.StepJournal

/-!
What the report of a mutation workflow says about its dispatches. A step's
journal row follows what the host answered whatever the journal fails to
write, and the report folds the dispatched steps.
-/
namespace ClockifyAssistant

open Lib Session

section Calls

variable {operationId : OperationId} {stepId : StepId} {s : WorkflowState}

variable {E : WorkflowError → WorkflowState → Prop}

theorem wp_ensure {c : Prop} [Decidable c] {message : String} {Q : Unit → WorkflowState → Prop}
    (hc : c → Q () s) (hn : ¬ c → ∀ e, E e s) : Session.wp (ensure c message) Q E s := by
  unfold ensure
  by_cases h : c
  · rw [if_pos h]
    exact hc h
  · rw [if_neg h]
    exact hn h _

theorem wp_journaled {α : Type} {fault : Bool} {m : StoreTxn α} {Q : α → WorkflowState → Prop}
    (hm : fault = false → Txn.wp m (fun a db => Q a { s with db }) (fun _ => ∀ e, E e s) s.db)
    (hfault : fault = true → ∀ e, E e s) : Session.wp (journaled fault m) Q E s := by
  cases fault with
  | true => exact hfault rfl _
  | false =>
    have hm := hm rfl
    unfold journaled
    rw [if_neg Bool.false_ne_true, Session.wp_bind, Session.wp_get, Session.wp_bind, Session.wp_set]
    cases hrun : m s.db with
    | error e =>
      rw [Txn.commit_error hrun]
      exact Txn.wp_error hm hrun _
    | ok r =>
      rw [Txn.commit_ok (a := r.1) (t := r.2) hrun]
      have hQ := Txn.wp_ok (a := r.1) hm hrun
      exact hQ

theorem wp_findStep {Q : Option OperationStep → WorkflowState → Prop} :
    Session.wp (findStep operationId stepId) Q E s ↔
      Q ((s.db.steps.get? stepId).filter fun row => row.operationId == operationId) s := by
  rfl

theorem wp_operationStatus {Q : Option OperationRunStatus → WorkflowState → Prop} :
    Session.wp (operationStatus operationId) Q E s ↔
      Q ((s.db.operations.get? operationId).map OperationRun.status) s := by
  rfl

end Calls

section Steps

variable {operationId : OperationId} {stepId : StepId} {s : WorkflowState}

/-- The row of a step that waits in the governor's queue or is at the host. -/
structure ExecutingRow (db : Db) (operationId : OperationId) (stepId : StepId)
    (dispatchedAt : Option Time) : Prop where
  row : ∃ row, db.steps.get? stepId = some row ∧ row.operationId = operationId ∧
    row.kind = .primary ∧ row.status = .executing ∧ row.dispatchedAt = dispatchedAt ∧
    row.journalDegraded = false

variable {db : Db}

theorem prepareOperationStep_row {input : PrepareOperationStepInput} :
    Txn.wp (prepareOperationStep input)
      (fun id db' => ∃ row, db'.steps.get? id = some row ∧ row.operationId = input.operationId ∧
        row.kind = .primary ∧ row.dispatchedAt = none ∧ row.journalDegraded = false)
      (fun _ => True) db := by
  unfold prepareOperationStep
  rw [Txn.wp_bind, Txn.wp_require]
  refine ⟨fun hkind => ?_, fun _ => trivial⟩
  simp only [mintId, Txn.wp_bind, Txn.wp_get, Txn.wp_set, Txn.wp_pure]
  refine wp_insertStep_journal fun db' _ h => ⟨preparedStep db.nextId input, ?_, rfl, hkind, rfl, rfl⟩
  have hget := congrFun h db.nextId
  simpa [Db.journal, preparedStep] using hget

theorem markOperationStepExecuting_row {now : Time} {row : OperationStep}
    (hget : db.steps.get? stepId = some row) (howner : row.operationId = operationId)
    (hkind : row.kind = .primary) (hdispatched : row.dispatchedAt = none)
    (hdegraded : row.journalDegraded = false) :
    Txn.wp (markOperationStepExecuting stepId (some operationId) now)
      (fun marked db' => marked = true → ExecutingRow db' operationId stepId none)
      (fun _ => True) db := by
  unfold markOperationStepExecuting
  rw [Txn.wp_bind, Txn.wp_get]
  refine wp_updateStep_journal (fun row' db' hrow _ h _ _ => ?_) (fun h => by cases h)
  obtain rfl : row = row' := Option.some.inj (hget.symm.trans hrow)
  have hget' := congrFun h stepId
  rw [Function.update_self] at hget'
  exact ⟨_, hget', howner, hkind, rfl, hdispatched, hdegraded⟩

theorem wp_updateStep {p : OperationStep → Bool} {f : OperationStep → OperationStep}
    {hf : ∀ s, key (f s) = key s} {Q : Bool → Db → Prop} {E : StoreError → Prop} :
    Txn.wp (updateStep stepId p f hf) Q E db ↔
      if (db.steps.get? stepId).any p then
        Q true { db with steps := db.steps.update stepId f hf }
      else Q false db := by
  by_cases h : (db.steps.get? stepId).any p <;> simp [updateStep, h]

theorem ExecutingRow.updateStep {db : Db} {dispatchedAt : Option Time}
    (h : ExecutingRow db operationId stepId dispatchedAt) {p : OperationStep → Bool}
    {f : OperationStep → OperationStep} {hf : ∀ s, key (f s) = key s} {Q : Bool → Db → Prop}
    {E : StoreError → Prop}
    (hp : ∀ row : OperationStep, row.operationId = operationId → row.kind = .primary →
      row.status = .executing → row.dispatchedAt = dispatchedAt → p row = true)
    (hQ : ∀ row db', row.operationId = operationId → row.kind = .primary →
      row.status = .executing → row.dispatchedAt = dispatchedAt → row.journalDegraded = false →
      db'.steps.get? stepId = some (f row) → Q true db') :
    Txn.wp (updateStep stepId p f hf) Q E db := by
  obtain ⟨row, hget, howner, hkind, hstatus, hdispatched, hdegraded⟩ := h.row
  have hany : (db.steps.get? stepId).any p = true := by
    simp [hget, hp row howner hkind hstatus hdispatched]
  rw [wp_updateStep, if_pos hany]
  refine hQ row _ howner hkind hstatus hdispatched hdegraded ?_
  rw [Table.get?_update, if_pos rfl, hget, Option.map_some]

theorem ExecutingRow.dispatched (h : ExecutingRow db operationId stepId none) (t : Time) :
    ExecutingRow ((markOperationStepDispatched stepId (some operationId) t).commit db).2 operationId
      stepId (some t) := by
  have hwp : Txn.wp (markOperationStepDispatched stepId (some operationId) t)
      (fun _ db' => ExecutingRow db' operationId stepId (some t)) (fun _ => False) db := by
    refine h.updateStep (fun row howner hkind hstatus hdispatched => ?_)
      fun row db' howner hkind hstatus hdispatched hdegraded hget => ?_
    · simp [OperationStep.ownedBy, howner, hstatus, hdispatched]
    · exact ⟨_, hget, howner, hkind, hstatus, rfl, hdegraded⟩
  cases hrun : markOperationStepDispatched stepId (some operationId) t db with
  | error e => exact (Txn.wp_error hwp hrun).elim
  | ok r =>
    rw [Txn.commit_ok (a := r.1) (t := r.2) hrun]
    have hexecuting := Txn.wp_ok (a := r.1) hwp hrun
    exact hexecuting

/-- The row of a settled step. -/
structure SettledRow (db : Db) (operationId : OperationId) (stepId : StepId) (status : StepStatus)
    (degraded : Bool) : Prop where
  row : ∃ row, db.steps.get? stepId = some row ∧ row.operationId = operationId ∧
    row.status = status ∧ row.journalDegraded = degraded

variable {dispatchedAt : Option Time}

theorem ExecutingRow.settle
    (h : ExecutingRow db operationId stepId dispatchedAt) (status : StepOutcome) (degraded : Bool)
    (now : Time) : Txn.wp (settleOperationStep stepId status (some operationId) degraded now)
      (fun _ db' => SettledRow db' operationId stepId status.toStatus degraded)
      (fun _ => False) db := by
  unfold settleOperationStep
  rw [Txn.wp_bind]
  refine h.updateStep (fun row howner hkind hstatus _ => ?_)
    fun row db' howner hkind hstatus _ hdegraded hget => ?_
  · simp [OperationStep.ownedBy, howner, hstatus, hkind]
  · rw [Txn.wp_require]
    exact ⟨fun _ => ⟨_, hget, howner, rfl, by simp [hdegraded]⟩, by simp⟩

/-- A cancellation goes through exactly while the row is not marked dispatched. -/
theorem ExecutingRow.cancel (h : ExecutingRow db operationId stepId dispatchedAt) (now : Time) :
    Txn.wp (cancelOperationStepBeforeDispatch stepId (some operationId) now)
      (fun cancelled db' => cancelled = dispatchedAt.isNone ∧
        if cancelled then SettledRow db' operationId stepId .definitiveFailed false
        else ExecutingRow db' operationId stepId dispatchedAt)
      (fun _ => False) db := by
  cases dispatchedAt with
  | none =>
    refine h.updateStep (fun row howner hkind hstatus hdispatched => ?_)
      fun row db' howner hkind hstatus _ hdegraded hget => ⟨rfl, ?_⟩
    · simp [OperationStep.ownedBy, howner, hstatus, hdispatched]
    · exact ⟨_, hget, howner, rfl, hdegraded⟩
  | some t =>
    unfold cancelOperationStepBeforeDispatch
    rw [wp_updateStep]
    obtain ⟨row, hget, -, -, -, hdispatched, -⟩ := h.row
    simp [hget, hdispatched, h]

/-- What a dispatch amounts to, whatever the journal does. -/
def StepDispatch.verdict (d : StepDispatch) : StepOutcome :=
  if d.outcome = .error .requestCancelled ∧ d.dispatchedAt.isSome then .outcomeUnknown
  else dispatchStatus d.outcome

theorem wp_foundStep {control : Option HostError} {status : StepStatus} {degraded : Bool}
    {Q : JournaledMutationStep → WorkflowState → Prop} {E : WorkflowError → WorkflowState → Prop}
    (h : SettledRow s.db operationId stepId status degraded)
    (hQ : ∀ result, result.status = status → result.journalDegraded = degraded → Q result s) :
    Session.wp (foundStep operationId stepId control) Q E s := by
  obtain ⟨row, hget, howner, hstatus, hdegraded⟩ := h.row
  unfold foundStep
  rw [Session.wp_bind, wp_findStep]
  have hfound : (s.db.steps.get? stepId).filter (fun row => row.operationId == operationId) =
      some row := by
    simp [hget, howner]
  rw [hfound, Session.wp_pure]
  exact hQ _ hstatus hdegraded

variable {step : ExecutableMutationStep}

/-- The settlement of a dispatched step reports its status and never throws. -/
theorem settleDispatchedStep_spec
    {status : StepOutcome} (h : ExecutingRow s.db operationId stepId dispatchedAt) :
    Session.wp (settleDispatchedStep operationId stepId step status)
      (fun result s' => s'.dispatched = s.dispatched ∧ result.status = status.toStatus ∧
        result.journalDegraded = step.dispatch.faults.settle) (fun _ _ => False) s := by
  unfold settleDispatchedStep
  dsimp only
  rw [Session.wp_bind, Session.wp_tryCatch]
  cases hfault : step.dispatch.faults.settle with
  | false =>
    rw [Session.wp_bind]
    refine wp_journaled (fun _ => ?_) (by simp)
    refine Txn.wp_mono (h.settle status false step.dispatch.now) (fun _ db' hsettled => ?_)
      fun _ he => he.elim
    simp only [Session.wp_pure, if_true]
    exact wp_foundStep hsettled fun result hstatus hdegraded => ⟨rfl, hstatus, hdegraded⟩
  | true =>
    rw [Session.wp_bind]
    refine wp_journaled (by simp) fun _ _ => ?_
    simp only [Session.wp_pure, Bool.false_eq_true, if_false]
    rw [Session.wp_bind, Session.wp_tryCatch, Session.wp_bind]
    refine wp_journaled (fun _ => ?_) fun _ _ => ?_
    · refine Txn.wp_mono (h.settle status true step.dispatch.now) (fun _ db' hsettled => ?_)
        fun _ he => he.elim
      obtain ⟨row, hget, howner, hstatus, hdegraded⟩ := hsettled.row
      rw [wp_findStep]
      have hfound : (db'.steps.get? stepId).filter (fun row => row.operationId == operationId) =
          some row := by
        simp [hget, howner]
      rw [hfound]
      exact ⟨rfl, hstatus, hdegraded⟩
    · exact ⟨rfl, rfl, rfl⟩

theorem concludeStep_spec (h : ExecutingRow s.db operationId stepId step.dispatch.dispatchedAt) :
    Session.wp (concludeStep operationId stepId step)
      (fun result s' => s'.dispatched = s.dispatched ∧
        result.status = step.dispatch.verdict.toStatus ∧
        (result.status = .succeeded → result.journalDegraded = step.dispatch.faults.settle))
      (fun _ s' => s'.dispatched = s.dispatched) s := by
  unfold concludeStep
  dsimp only
  by_cases hcancelled : step.dispatch.outcome = .error .requestCancelled
  · rw [if_pos hcancelled, Session.wp_bind]
    refine wp_journaled (fun _ => ?_) fun _ _ => rfl
    refine Txn.wp_mono (h.cancel step.dispatch.now) (fun cancelled db' hcancel => ?_)
      fun _ he => he.elim
    obtain ⟨hdispatched, hrow⟩ := hcancel
    cases cancelled with
    | true =>
      rw [if_pos rfl] at hrow ⊢
      refine wp_foundStep hrow fun result hstatus _ => ⟨rfl, ?_, fun hsucceeded => ?_⟩
      · simp [hstatus, StepDispatch.verdict, hcancelled, dispatchStatus, HostError.definitive,
          StepOutcome.toStatus, Option.isNone_iff_eq_none.mp hdispatched.symm]
      · cases hstatus.symm.trans hsucceeded
    | false =>
      rw [if_neg (by simp)] at hrow ⊢
      refine Session.wp_mono (settleDispatchedStep_spec hrow) (fun result s' hsettled => ?_)
        fun _ _ he => he.elim
      obtain ⟨hsame, hstatus, hdegraded⟩ := hsettled
      refine ⟨hsame, ?_, fun _ => hdegraded⟩
      have hsome : step.dispatch.dispatchedAt.isSome := by
        cases hat : step.dispatch.dispatchedAt <;> simp [hat] at hdispatched ⊢
      rw [hstatus, StepDispatch.verdict, if_pos ⟨hcancelled, hsome⟩]
  · rw [if_neg hcancelled]
    refine Session.wp_mono (settleDispatchedStep_spec h) (fun result s' hsettled => ?_)
      fun _ _ he => he.elim
    obtain ⟨hsame, hstatus, hdegraded⟩ := hsettled
    refine ⟨hsame, ?_, fun _ => hdegraded⟩
    rw [hstatus, StepDispatch.verdict, if_neg fun h => hcancelled h.1]

theorem beginJournaledStep_spec : Session.wp (beginJournaledStep operationId step)
      (fun stepId s' => s'.dispatched = s.dispatched ∧ ExecutingRow s'.db operationId stepId none)
      (fun _ s' => s'.dispatched = s.dispatched) s := by
  unfold beginJournaledStep
  dsimp only
  rw [Session.wp_bind]
  refine wp_journaled (fun _ => ?_) fun _ _ => rfl
  refine Txn.wp_mono prepareOperationStep_row (fun stepId db' hprepared => ?_) fun _ _ _ => rfl
  obtain ⟨row, hget, howner, hkind, hdispatched, hdegraded⟩ := hprepared
  rw [Session.wp_bind]
  refine wp_journaled (fun _ => ?_) fun _ _ => rfl
  refine Txn.wp_mono (markOperationStepExecuting_row hget howner hkind hdispatched hdegraded)
    (fun marked db'' hmarked => ?_) fun _ _ _ => rfl
  rw [Session.wp_bind]
  refine wp_ensure (fun hmarked' => ?_) fun _ _ => rfl
  rw [Session.wp_bind, wp_findStep, Session.wp_bind]
  exact wp_ensure (fun _ => ⟨rfl, hmarked hmarked'⟩) fun _ _ => rfl

theorem callDispatch_spec (hrow : ExecutingRow s.db operationId stepId none) :
    Session.wp (callDispatch operationId stepId step)
      (fun _ s' => s'.dispatched = s.dispatched ++ [step] ∧
        ExecutingRow s'.db operationId stepId step.dispatch.dispatchedAt) (fun _ _ => False) s := by
  unfold callDispatch
  rw [Session.wp_modify]
  refine ⟨rfl, ?_⟩
  cases step.dispatch.dispatchedAt with
  | none => exact hrow
  | some t => exact hrow.dispatched t

theorem executeStep_spec {journal : OperationId} : Session.wp (executeStep journal operationId step)
      (fun result s' => s'.dispatched = s.dispatched ++ [step] ∧
        result.status = step.dispatch.verdict.toStatus ∧
        (result.status = .succeeded → result.journalDegraded = step.dispatch.faults.settle))
      (fun _ s' => s'.dispatched = s.dispatched ∨ s'.dispatched = s.dispatched ++ [step]) s := by
  unfold executeStep
  rw [Session.wp_bind]
  refine wp_ensure (fun _ => ?_) fun _ _ => .inl rfl
  rw [Session.wp_bind]
  refine wp_ensure (fun _ => ?_) fun _ _ => .inl rfl
  rw [Session.wp_bind, wp_operationStatus, Session.wp_bind]
  refine wp_ensure (fun _ => ?_) fun _ _ => .inl rfl
  split
  · exact .inl rfl
  · rw [Session.wp_bind]
    refine Session.wp_mono beginJournaledStep_spec ?_ fun _ s' hsame => .inl hsame
    rintro stepId s₁ ⟨hsame, hrow⟩
    rw [Session.wp_bind]
    refine Session.wp_mono (callDispatch_spec hrow) ?_ fun _ _ he => he.elim
    rintro _ s₂ ⟨hs₂, hdispatched⟩
    refine Session.wp_mono (concludeStep_spec hdispatched) ?_ fun _ s' hs' => .inr ?_
    · rintro result s' ⟨hs', hresult⟩
      exact ⟨by rw [hs', hs₂, hsame], hresult⟩
    · rw [hs', hs₂, hsame]

end Steps

section Reports

variable {operationId : OperationId} {s : WorkflowState}

def ExecutableMutationStep.fullySucceeded (step : ExecutableMutationStep) : Prop :=
  step.dispatch.verdict = .succeeded ∧ step.dispatch.faults.settle = false

def WorkflowReport.succeeds : WorkflowReport → Bool
  | .success .. => true
  | _ => false

def WorkflowReport.isPartial : WorkflowReport → Bool
  | .partially .. | .journalDegraded .. => true
  | _ => false

/-- The report agrees with the dispatched steps. -/
structure Accounted (primaries ran : List ExecutableMutationStep) (report : WorkflowReport) :
    Prop where
  success : report.succeeds → ran = primaries ∧ ∀ step ∈ ran, step.dispatch.verdict = .succeeded
  unknown : report = .outcomeUnknown ↔ ∃ step ∈ ran, step.dispatch.verdict = .outcomeUnknown
  partially : report.isPartial ↔ (∃ step ∈ ran, step.dispatch.verdict = .succeeded) ∧
    ((∃ step ∈ ran, step.dispatch.verdict = .definitiveFailed) ∨
      (primaries.length ≠ 1 ∧ ∃ step ∈ ran, step.dispatch.verdict = .succeeded ∧
        step.dispatch.faults.settle = true))
  persisted : (∃ step ∈ ran, step.dispatch.verdict = .succeeded) →
    report.succeeds ∨ report.isPartial ∨ report = .outcomeUnknown

/-- The dispatched steps are a prefix of the primaries that stops at the first step
without full success. -/
def StopsAtFirst (primaries ran : List ExecutableMutationStep) : Prop :=
  ran <+: primaries ∧ ∀ step ∈ ran.dropLast, step.fullySucceeded

variable {primaries ran : List ExecutableMutationStep} {last : ExecutableMutationStep}

theorem StopsAtFirst.concat {rest : List ExecutableMutationStep}
    (hran : ∀ step ∈ ran, step.fullySucceeded) (hprimaries : primaries = ran ++ last :: rest) :
    StopsAtFirst primaries (ran ++ [last]) :=
  ⟨⟨rest, by rw [hprimaries, List.append_assoc]; rfl⟩, by simpa using hran⟩

theorem StopsAtFirst.all {rest : List ExecutableMutationStep}
    (hran : ∀ step ∈ ran, step.fullySucceeded) (hprimaries : primaries = ran ++ rest) :
    StopsAtFirst primaries ran :=
  ⟨⟨rest, hprimaries.symm⟩, fun step hstep => hran step (List.dropLast_subset ran hstep)⟩

theorem accounted_success (hran : ∀ step ∈ ran, step.fullySucceeded)
    (completed : List JournaledMutationStep) : Accounted ran ran (.success completed false) where
  success _ := ⟨rfl, fun step hstep => (hran step hstep).1⟩
  unknown := by
    refine ⟨nofun, fun ⟨step, hstep, hunknown⟩ => ?_⟩
    exact nomatch (hran step hstep).1.symm.trans hunknown
  partially := by
    refine ⟨nofun, fun ⟨_, hor⟩ => ?_⟩
    rcases hor with ⟨step, hstep, hfailed⟩ | ⟨-, step, hstep, -, hsettle⟩
    · exact nomatch (hran step hstep).1.symm.trans hfailed
    · exact nomatch (hran step hstep).2.symm.trans hsettle
  persisted _ := .inl rfl

theorem accounted_degraded {completed : List JournaledMutationStep}
    {degraded : JournaledMutationStep} (hran : ∀ step ∈ ran, step.fullySucceeded)
    (hlast : last.dispatch.verdict = .succeeded) (hsettle : last.dispatch.faults.settle = true)
    (hmany : primaries.length ≠ 1) :
    Accounted primaries (ran ++ [last]) (.journalDegraded completed degraded) where
  success := nofun
  unknown := by
    refine ⟨nofun, fun ⟨step, hstep, hunknown⟩ => ?_⟩
    rcases List.mem_append.mp hstep with hstep | hstep
    · exact nomatch (hran step hstep).1.symm.trans hunknown
    · obtain rfl := List.mem_singleton.mp hstep
      exact nomatch hlast.symm.trans hunknown
  partially := by
    have hmem : last ∈ ran ++ [last] := by simp
    exact ⟨fun _ => ⟨⟨last, hmem, hlast⟩, .inr ⟨hmany, last, hmem, hlast, hsettle⟩⟩, fun _ => rfl⟩
  persisted _ := .inr (.inl rfl)

theorem accounted_single {result : JournaledMutationStep}
    (hlast : last.dispatch.verdict = .succeeded) :
    Accounted [last] [last] (.success [result] true) where
  success _ := ⟨rfl, by simpa using hlast⟩
  unknown := ⟨nofun, by simp [hlast]⟩
  partially := by
    refine ⟨nofun, fun ⟨_, hor⟩ => ?_⟩
    rcases hor with ⟨step, hstep, hfailed⟩ | ⟨hmany, -⟩
    · obtain rfl := List.mem_singleton.mp hstep
      exact nomatch hlast.symm.trans hfailed
    · exact absurd rfl hmany
  persisted _ := .inl rfl

theorem accounted_unknown (hran : ∀ step ∈ ran, step.fullySucceeded)
    (hlast : last.dispatch.verdict = .outcomeUnknown) :
    Accounted primaries (ran ++ [last]) .outcomeUnknown where
  success := nofun
  unknown := ⟨fun _ => ⟨last, by simp, hlast⟩, fun _ => rfl⟩
  partially := by
    refine ⟨nofun, fun ⟨_, hor⟩ => ?_⟩
    rcases hor with ⟨step, hstep, hfailed⟩ | ⟨-, step, hstep, hsucceeded, hsettle⟩
    · rcases List.mem_append.mp hstep with hstep | hstep
      · exact nomatch (hran step hstep).1.symm.trans hfailed
      · obtain rfl := List.mem_singleton.mp hstep
        exact nomatch hlast.symm.trans hfailed
    · rcases List.mem_append.mp hstep with hstep | hstep
      · exact nomatch (hran step hstep).2.symm.trans hsettle
      · obtain rfl := List.mem_singleton.mp hstep
        exact nomatch hlast.symm.trans hsucceeded
  persisted _ := .inr (.inr rfl)

theorem definitiveReport_isPartial (completed : List JournaledMutationStep)
    (result : JournaledMutationStep) :
    (definitiveReport completed result).isPartial = !completed.isEmpty ∧
      (definitiveReport completed result).succeeds = false ∧
      definitiveReport completed result ≠ .outcomeUnknown := by
  unfold definitiveReport
  by_cases h : completed.isEmpty
  · rw [if_pos h]
    cases result.control with
    | none => simp [WorkflowReport.isPartial, WorkflowReport.succeeds, h]
    | some e => cases e <;> simp [WorkflowReport.isPartial, WorkflowReport.succeeds, h]
  · rw [if_neg h]
    simp [WorkflowReport.isPartial, WorkflowReport.succeeds, h]

theorem accounted_definitive {completed : List JournaledMutationStep}
    {result : JournaledMutationStep} (hran : ∀ step ∈ ran, step.fullySucceeded)
    (hcompleted : completed.isEmpty = ran.isEmpty)
    (hlast : last.dispatch.verdict = .definitiveFailed) :
    Accounted primaries (ran ++ [last]) (definitiveReport completed result) := by
  obtain ⟨hpart, hfails, hknown⟩ := definitiveReport_isPartial completed result
  have hsucceeded : (∃ step ∈ ran ++ [last], step.dispatch.verdict = .succeeded) ↔
      completed.isEmpty = false := by
    rw [hcompleted]
    constructor
    · rintro ⟨step, hstep, hverdict⟩
      rcases List.mem_append.mp hstep with hstep | hstep
      · exact List.isEmpty_eq_false_iff_exists_mem.mpr ⟨step, hstep⟩
      · obtain rfl := List.mem_singleton.mp hstep
        exact nomatch hlast.symm.trans hverdict
    · intro h
      obtain ⟨step, hstep⟩ := List.isEmpty_eq_false_iff_exists_mem.mp h
      exact ⟨step, List.mem_append_left _ hstep, (hran step hstep).1⟩
  refine ⟨by simp [hfails], ⟨fun h => absurd h hknown, fun ⟨step, hstep, hunknown⟩ => ?_⟩, ?_, ?_⟩
  · rcases List.mem_append.mp hstep with hstep | hstep
    · exact nomatch (hran step hstep).1.symm.trans hunknown
    · obtain rfl := List.mem_singleton.mp hstep
      exact nomatch hlast.symm.trans hunknown
  · rw [hpart, hsucceeded, Bool.not_eq_true']
    exact ⟨fun h => ⟨h, .inl ⟨last, by simp, hlast⟩⟩, fun h => h.1⟩
  · intro h
    rw [hpart]
    exact .inr (.inl (by simpa using hsucceeded.mp h))

theorem isEmpty_concat {α : Type} (xs : List α) (x : α) : (xs ++ [x]).isEmpty = false := by
  cases xs <;> rfl

theorem runPrimarySteps_spec {journal : OperationId} {start : List ExecutableMutationStep}
    (ran steps : List ExecutableMutationStep) (completed : List JournaledMutationStep)
    (hprimaries : primaries = ran ++ steps.filter fun step => step.kind == .primary)
    (hran : ∀ step ∈ ran, step.fullySucceeded) (hcompleted : completed.isEmpty = ran.isEmpty)
    (hs : s.dispatched = start ++ ran) :
    Session.wp (runPrimarySteps journal operationId primaries.length steps completed)
      (fun report s' => ∃ all, s'.dispatched = start ++ all ∧ StopsAtFirst primaries all ∧
        Accounted primaries all report)
      (fun _ s' => ∃ all, s'.dispatched = start ++ all ∧ StopsAtFirst primaries all) s := by
  induction steps generalizing ran completed s with
  | nil =>
    obtain rfl : primaries = ran := by simpa using hprimaries
    exact ⟨primaries, hs, ⟨List.prefix_rfl, fun step hstep => hran step (List.dropLast_subset _ hstep)⟩,
      accounted_success hran completed⟩
  | cons step rest ih =>
    unfold runPrimarySteps
    by_cases hkind : step.kind = .primary
    · have hsplit : primaries = ran ++ step :: rest.filter fun step => step.kind == .primary := by
        rw [hprimaries, List.filter_cons_of_pos (by simpa using hkind)]
      rw [if_neg (by simpa using hkind), Session.wp_bind]
      refine Session.wp_mono executeStep_spec ?_ ?_
      · rintro result s₁ ⟨hs₁, hstatus, hdegraded⟩
        rw [hs, List.append_assoc] at hs₁
        have hstops := StopsAtFirst.concat hran hsplit
        by_cases hsucceeded : result.status = .succeeded
        · have hverdict : step.dispatch.verdict = .succeeded := by
            rw [hsucceeded] at hstatus
            cases hv : step.dispatch.verdict <;> simp [hv, StepOutcome.toStatus] at hstatus ⊢
          rw [if_pos hsucceeded]
          by_cases hfault : result.journalDegraded = true
          · rw [if_pos hfault]
            have hsettle := (hdegraded hsucceeded).symm.trans hfault
            by_cases hone : primaries.length = 1
            · rw [if_pos hone, Session.wp_pure]
              have hlength := congrArg List.length hsplit
              rw [hone, List.length_append, List.length_cons] at hlength
              obtain rfl : ran = [] := List.length_eq_zero_iff.mp (by omega)
              have hrest : rest.filter (fun step => step.kind == .primary) = [] :=
                List.length_eq_zero_iff.mp (by simpa using hlength)
              rw [hrest] at hsplit
              subst hsplit
              exact ⟨[step], hs₁, hstops, accounted_single hverdict⟩
            · rw [if_neg hone, Session.wp_pure]
              exact ⟨ran ++ [step], hs₁, hstops, accounted_degraded hran hverdict hsettle hone⟩
          · rw [if_neg hfault]
            have hsettle : step.dispatch.faults.settle = false := by
              rw [← hdegraded hsucceeded]
              simpa using hfault
            have hprimaries' : primaries = (ran ++ [step]) ++
                rest.filter fun step => step.kind == .primary := by
              rw [hsplit, List.append_assoc]
              rfl
            refine ih (ran ++ [step]) (completed ++ [result]) hprimaries' (fun step' hstep' => ?_)
              (by rw [isEmpty_concat, isEmpty_concat]) hs₁
            rcases List.mem_append.mp hstep' with hold | hnew
            · exact hran step' hold
            · obtain rfl := List.mem_singleton.mp hnew
              exact ⟨hverdict, hsettle⟩
        · rw [if_neg hsucceeded]
          by_cases hunknown : result.status = .outcomeUnknown
          · rw [if_pos hunknown, Session.wp_pure]
            have hverdict : step.dispatch.verdict = .outcomeUnknown := by
              rw [hunknown] at hstatus
              cases hv : step.dispatch.verdict <;> simp [hv, StepOutcome.toStatus] at hstatus ⊢
            exact ⟨ran ++ [step], hs₁, hstops, accounted_unknown hran hverdict⟩
          · rw [if_neg hunknown, Session.wp_pure]
            have hverdict : step.dispatch.verdict = .definitiveFailed := by
              rw [hstatus] at hsucceeded hunknown
              cases hv : step.dispatch.verdict <;>
                simp [hv, StepOutcome.toStatus] at hsucceeded hunknown ⊢
            exact ⟨ran ++ [step], hs₁, hstops, accounted_definitive hran hcompleted hverdict⟩
      · rintro _ s₁ (hs₁ | hs₁)
        · exact ⟨ran, hs₁.trans hs, .all hran hsplit⟩
        · exact ⟨ran ++ [step], by rw [hs₁, hs, List.append_assoc], StopsAtFirst.concat hran hsplit⟩
    · rw [if_pos (by simpa using hkind)]
      refine ih ran completed ?_ hran hcompleted hs
      rw [hprimaries, List.filter_cons_of_neg (by simpa using hkind)]

/-- The host accepts the first step, whose settlement the journal then refuses. -/
def degradedFirstStep : List ExecutableMutationStep :=
  [{ id := "create", index := 0, kind := .primary,
     dispatch := { dispatchedAt := some 3, outcome := .ok (), faults := { settle := true }, now := 4 } },
    { id := "link", index := 1, kind := .primary,
      dispatch := { dispatchedAt := some 5, outcome := .ok (), now := 6 } }]

end Reports

end ClockifyAssistant
