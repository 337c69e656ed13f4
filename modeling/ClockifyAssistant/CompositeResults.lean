import ClockifyAssistant.Harness.CompositeCommits
import ClockifyAssistant.WorkflowReports

/-!
What the result of a commit of several mutations says about the steps that it dispatched. A
step ends as the host answered whatever the journal fails to write, and each commit folds
those ends: an unknown step is reported as unknown or, beside an effect that is known, as
partial, and the effects that are known are named.
-/
namespace ClockifyAssistant

open Lib Session

namespace Composite

/-- What a dispatched step came to. -/
def ended (step : ExecutableMutationStep) : StepStatus :=
  match step.kind with
  | .primary => step.dispatch.verdict.toStatus
  | .compensation => (compensationStatus step.dispatch.outcome).toStatus

/-- What a result says about the steps that were dispatched for it. `about step e` holds where
the entity `e` tells of the effect of `step`. -/
structure Tells (about : ExecutableMutationStep → EntityRef → Prop)
    (ran : List ExecutableMutationStep) (result : CommitResult) : Prop where
  unknown : (∃ step ∈ ran, ended step = .outcomeUnknown) →
    result.kind = .outcomeUnknown ∨ result.kind = .partially ∧ ∃ step ∈ ran, ended step = .succeeded
  known : (∀ step ∈ ran, ended step ≠ .outcomeUnknown ∧ ended step ≠ .compensated) →
    (∃ step ∈ ran, ended step = .succeeded) →
    result.kind = .succeeded ∨ result.kind = .partially
  names : result.kind = .succeeded ∨ result.kind = .partially →
    ∀ step ∈ ran, ended step = .succeeded → ∃ e ∈ result.named, about step e

section Steps

variable {operationId : OperationId} {stepId : StepId} {s : WorkflowState}

variable {step : ExecutableMutationStep}

theorem ended_primary (h : step.kind = .primary) : ended step = step.dispatch.verdict.toStatus := by
  simp [ended, h]

theorem ended_compensation (h : step.kind = .compensation) :
    ended step = (compensationStatus step.dispatch.outcome).toStatus := by
  simp [ended, h]

theorem toStatus_cases (status : StepOutcome) :
    status.toStatus = .succeeded ∨ status.toStatus = .definitiveFailed ∨
      status.toStatus = .outcomeUnknown := by
  cases status <;> simp [StepOutcome.toStatus]

variable {d : StepDispatch}

theorem verdict_of_succeeded (h : d.verdict.toStatus = .succeeded) : d.verdict = .succeeded := by
  cases hverdict : d.verdict <;> simp [hverdict, StepOutcome.toStatus] at h ⊢

theorem verdict_of_unknown (h : d.verdict.toStatus = .outcomeUnknown) :
    d.verdict = .outcomeUnknown := by
  cases hverdict : d.verdict <;> simp [hverdict, StepOutcome.toStatus] at h ⊢

theorem definitive_of_status {result : JournaledMutationStep} (hended : ended step = result.status)
    (hstatus : result.status = d.verdict.toStatus) (hunknown : result.status ≠ .outcomeUnknown)
    (hsucceeded : result.status ≠ .succeeded) : ended step = .definitiveFailed := by
  rcases toStatus_cases d.verdict with h | h | h
  · exact absurd (hstatus.trans h) hsucceeded
  · exact hended.trans (hstatus.trans h)
  · exact absurd (hstatus.trans h) hunknown

theorem succeeded_of_status {result : JournaledMutationStep} (hended : ended step = result.status)
    (hstatus : result.status = d.verdict.toStatus) (hunknown : result.status ≠ .outcomeUnknown)
    (hfailed : result.status ≠ .definitiveFailed) : ended step = .succeeded := by
  rcases toStatus_cases d.verdict with h | h | h
  · exact hended.trans (hstatus.trans h)
  · exact absurd (hstatus.trans h) hfailed
  · exact absurd (hstatus.trans h) hunknown

variable {α : Type}

theorem StepHost.verdict_of_stale {h : StepHost α} {code : String}
    (hstale : h.stale = some code) : h.dispatch.verdict = .definitiveFailed := by
  simp [StepDispatch.verdict, StepHost.dispatch, StepHost.result, hstale, Except.map,
    dispatchStatus, HostError.definitive]

/-- Only a response of the host leaves a step unknown, and no response is a cancellation. -/
theorem StepHost.outcome_of_unknown {h : StepHost α}
    (hunknown : h.dispatch.verdict = .outcomeUnknown) :
    ∃ e, h.dispatch.outcome = .error e ∧ e.definitive = false := by
  have hcancelled : ¬ (h.dispatch.outcome = .error .requestCancelled ∧
      h.dispatch.dispatchedAt.isSome) := by
    rintro ⟨houtcome, hat⟩
    cases hstale : h.stale with
    | some code => simp [StepHost.dispatch, hstale] at hat
    | none =>
      cases hanswer : h.answer with
      | refused e => simp [StepHost.dispatch, hstale, hanswer, HostAnswer.dispatchedAt] at hat
      | sent t answer =>
        rcases answer with e | a
        · cases e <;> cases hread : h.reconcile <;>
            simp [StepHost.dispatch, StepHost.result, hstale, hanswer, HostAnswer.value,
              SentFailure.error, dispatchWithReconciliation, hread, Except.map] at houtcome
        · simp [StepHost.dispatch, StepHost.result, hstale, hanswer, HostAnswer.value,
            dispatchWithReconciliation, Except.map] at houtcome
  rw [StepDispatch.verdict, if_neg hcancelled] at hunknown
  cases houtcome : h.dispatch.outcome with
  | ok _ => simp [houtcome, dispatchStatus] at hunknown
  | error e =>
    refine ⟨e, rfl, ?_⟩
    cases hdefinitive : e.definitive with
    | false => rfl
    | true => simp [houtcome, dispatchStatus, hdefinitive] at hunknown

theorem StepHost.value_of_succeeded {h : StepHost α}
    (hsucceeded : h.dispatch.verdict = .succeeded) : ∃ a, h.value = some a := by
  have houtcome : dispatchStatus (h.result.map fun _ => ()) = .succeeded := by
    unfold StepDispatch.verdict at hsucceeded
    split at hsucceeded
    · cases hsucceeded
    · exact hsucceeded
  unfold StepHost.value
  cases hresult : h.result with
  | ok r => exact ⟨r.1, rfl⟩
  | error e =>
    rw [hresult] at houtcome
    cases hdefinitive : e.definitive <;>
      simp [Except.map, dispatchStatus, hdefinitive] at houtcome

theorem settleCompensationStep_row {status : CompensationOutcome}
    {scope : Option OperationId} {degraded : Bool} {now : Time} {db : Db} :
    Txn.wp (settleCompensationStep stepId status scope degraded now)
      (fun _ db' => ∀ row, db'.steps.get? stepId = some row → row.status = status.toStatus)
      (fun _ => True) db := by
  unfold settleCompensationStep
  rw [Txn.wp_bind, Txn.wp_get, Txn.wp_bind, Txn.wp_demand]
  refine ⟨fun sourceId _ => ?_, fun _ => trivial⟩
  rw [Txn.wp_bind, wp_updateStep]
  by_cases hany : (db.steps.get? stepId).any
      fun s => s.status == .executing && s.kind == .compensation
  · rw [if_pos hany, Txn.wp_bind, Txn.wp_require]
    refine ⟨fun _ => ?_, fun _ => trivial⟩
    rw [Txn.wp_bind, wp_updateStep]
    split
    case isTrue hsource =>
      rw [Txn.wp_require]
      refine ⟨fun _ row hrow => ?_, fun _ => trivial⟩
      -- the source is another row, for the settled one no longer is compensating
      have hne : stepId ≠ sourceId := by
        rintro rfl
        rw [Table.get?_update, if_pos rfl] at hsource
        cases hget : db.steps.get? stepId with
        | none => simp [hget] at hsource
        | some r => cases status <;> simp [hget, CompensationOutcome.toStatus] at hsource
      rw [Table.get?_update, if_neg hne, Table.get?_update, if_pos rfl] at hrow
      obtain ⟨r, -, rfl⟩ := Option.map_eq_some_iff.mp hrow
      rfl
    case isFalse =>
      rw [Txn.wp_require]
      exact ⟨fun h => absurd h (by simp), fun _ => trivial⟩
  · rw [if_neg hany, Txn.wp_bind, Txn.wp_require]
    exact ⟨fun h => absurd h (by simp), fun _ => trivial⟩

theorem journaled_dispatched {fault : Bool} {m : StoreTxn α} :
    Session.wp (journaled fault m) (fun _ s' => s'.dispatched = s.dispatched)
      (fun _ s' => s'.dispatched = s.dispatched) s := by
  refine wp_journaled (fun _ => ?_) fun _ _ => rfl
  unfold Txn.wp
  split
  · rfl
  · exact fun _ => rfl

theorem beginCompensation_spec {sourceId : StepId} :
    Session.wp (beginCompensation operationId sourceId step)
      (fun _ s' => s'.dispatched = s.dispatched) (fun _ _ => True) s := by
  unfold beginCompensation
  rw [Session.wp_bind]
  refine Session.wp_mono journaled_dispatched (fun compensationId s₁ h₁ => ?_) fun _ _ _ => trivial
  rw [Session.wp_bind]
  refine Session.wp_mono journaled_dispatched (fun marked s₂ h₂ => ?_) fun _ _ _ => trivial
  rw [Session.wp_bind]
  refine wp_ensure (fun _ => ?_) fun _ _ => trivial
  rw [Session.wp_bind, wp_findStep, Session.wp_bind]
  exact wp_ensure (fun _ => h₂.trans h₁) fun _ _ => trivial

theorem settleCompensation_spec : Session.wp (settleCompensation operationId stepId step)
      (fun status s' => s'.dispatched = s.dispatched ∧
        status = (compensationStatus step.dispatch.outcome).toStatus) (fun _ _ => True) s := by
  unfold settleCompensation
  dsimp only
  have hsettled : Session.wp
      (tryCatch
        (do
          journaled step.dispatch.faults.settle
            (settleCompensationStep stepId (compensationStatus step.dispatch.outcome)
              (some operationId) false step.dispatch.now)
          return true)
        fun _ => return false)
      (fun settled s' => s'.dispatched = s.dispatched ∧ (settled = true →
        ∀ row, s'.db.steps.get? stepId = some row →
          row.status = (compensationStatus step.dispatch.outcome).toStatus))
      (fun _ _ => True) s := by
    rw [Session.wp_tryCatch, Session.wp_bind]
    refine wp_journaled (fun _ => ?_) fun _ _ => ⟨rfl, fun h => nomatch h⟩
    refine Txn.wp_mono settleCompensationStep_row (fun _ db' hrow => ?_) fun _ _ _ => ?_
    · exact ⟨rfl, fun _ => hrow⟩
    · exact ⟨rfl, fun h => nomatch h⟩
  refine wp_seq hsettled fun settled s₁ h₁ => ?_
  by_cases hs : settled = true
  · rw [if_pos hs, Session.wp_bind]
    unfold foundStep
    rw [Session.wp_bind, wp_findStep]
    cases hfound : (s₁.db.steps.get? stepId).filter fun row => row.operationId == operationId with
    | none => trivial
    | some row => exact ⟨h₁.1, h₁.2 hs row (Option.mem_filter_iff.mp hfound).1⟩
  · rw [if_neg hs]
    refine wp_seq (Q := fun _ s' => s'.dispatched = s.dispatched) ?_ fun _ s₂ h₂ => ⟨h₂, rfl⟩
    rw [Session.wp_tryCatch]
    exact Session.wp_mono journaled_dispatched (fun _ _ h => h.trans h₁.1) fun _ _ h => h.trans h₁.1

/-- A compensation that returns was dispatched, and reports how it ended. -/
theorem executeCompensationStep_spec {operation : Operation} {sourceId : StepId}
    (hkind : step.kind = .compensation) :
    Session.wp (executeCompensationStep operation sourceId step)
      (fun status s' => s'.dispatched = s.dispatched ++ [step] ∧ status = ended step)
      (fun _ _ => True) s := by
  unfold executeCompensationStep
  rw [Session.wp_bind]
  refine wp_ensure (fun _ => ?_) fun _ _ => trivial
  refine wp_seq beginCompensation_spec fun stepId s₁ h₁ => ?_
  rw [Session.wp_bind]
  unfold callDispatch
  rw [Session.wp_modify]
  refine Session.wp_mono settleCompensation_spec ?_ fun _ _ _ => trivial
  rintro status s' ⟨hs', rfl⟩
  exact ⟨by rw [hs', h₁], (ended_compensation hkind).symm⟩

/-- A primary step that returns was dispatched, and reports how it ended. -/
theorem executeDurableRiskyStep_spec {operation : Operation} {planStepId : String}
    {index : Nat} {h : StepHost α} :
    Session.wp (executeDurableRiskyStep operation planStepId index h)
      (fun result s' => ∃ step, s'.dispatched = s.dispatched ++ [step] ∧ step.index = index ∧
        result.status = h.dispatch.verdict.toStatus ∧ ended step = result.status)
      (fun _ _ => True) s := by
  unfold executeDurableRiskyStep
  split
  · trivial
  · next planStep _ =>
    refine Session.wp_mono executeStep_spec ?_ fun _ _ _ => trivial
    rintro result s' ⟨hs', hstatus, -⟩
    exact ⟨_, hs', rfl, hstatus, by rw [hstatus]; exact ended_primary rfl⟩

end Steps

section Reports

variable {about : ExecutableMutationStep → EntityRef → Prop} {ran base : List ExecutableMutationStep}
  {last : ExecutableMutationStep} {result : CommitResult} {s : WorkflowState}

/-- All steps succeeded, and each has an entity that tells of it. -/
def Named (about : ExecutableMutationStep → EntityRef → Prop) (ran : List ExecutableMutationStep)
    (names : List EntityRef) : Prop :=
  ∀ step ∈ ran, ended step = .succeeded ∧ ∃ e ∈ names, about step e

theorem Named.nil {names : List EntityRef} : Named about [] names := fun _ h => nomatch h

theorem Named.concat {names : List EntityRef} (h : Named about ran names)
    (hlast : ended last = .succeeded) {e : EntityRef} (he : e ∈ names) (habout : about last e) :
    Named about (ran ++ [last]) names := by
  intro step hstep
  rcases List.mem_append.mp hstep with hold | hnew
  · exact h step hold
  · obtain rfl := List.mem_singleton.mp hnew
    exact ⟨hlast, e, he, habout⟩

theorem Named.mono {names names' : List EntityRef} (h : Named about ran names)
    (hsub : ∀ e ∈ names, e ∈ names') : Named about ran names' := by
  intro step hstep
  obtain ⟨hended, e, he, habout⟩ := h step hstep
  exact ⟨hended, e, hsub e he, habout⟩

theorem tells_nothing : Tells about [] result where
  unknown := by simp
  known := by simp
  names := by simp

theorem tells_failed (hlast : ended last = .definitiveFailed) : Tells about [last] result where
  unknown := by simp [hlast]
  known := by simp [hlast]
  names := by simp [hlast]

theorem tells_unknown (hlast : ended last = .outcomeUnknown)
    (hkind : result.kind = .outcomeUnknown) : Tells about (ran ++ [last]) result where
  unknown := fun _ => .inl hkind
  known := fun h => absurd hlast (h last (by simp)).1
  names := fun h => by simp [hkind] at h

theorem tells_unknown_first (hlast : ended last = .outcomeUnknown)
    (hkind : result.kind = .outcomeUnknown) : Tells about [last] result :=
  (List.nil_append [last]) ▸ tells_unknown hlast hkind

theorem tells_success (h : Named about ran result.named)
    (hkind : result.kind = .succeeded ∨ result.kind = .partially) : Tells about ran result where
  unknown := by
    rintro ⟨step, hstep, hunknown⟩
    have hended := (h step hstep).1
    exact nomatch hunknown.symm.trans hended
  known := fun _ _ => hkind
  names := fun _ step hstep _ => (h step hstep).2

/-- A partial result beside a known effect may leave later steps without one. -/
theorem tells_partially {rest : List ExecutableMutationStep} (hne : ran ≠ [])
    (h : Named about ran result.named) (hrest : ∀ step ∈ rest, ended step ≠ .succeeded)
    (hkind : result.kind = .partially) : Tells about (ran ++ rest) result where
  unknown := fun _ => by
    obtain ⟨step, hstep⟩ := List.exists_mem_of_ne_nil ran hne
    exact .inr ⟨hkind, step, List.mem_append_left _ hstep, (h step hstep).1⟩
  known := fun _ _ => .inr hkind
  names := by
    intro _ step hstep hsucceeded
    rcases List.mem_append.mp hstep with hold | hnew
    · exact (h step hold).2
    · exact absurd hsucceeded (hrest step hnew)

theorem tells_unfinished (hne : ran ≠ []) (h : Named about ran result.named)
    (hlast : ended last ≠ .succeeded) (hkind : result.kind = .partially) :
    Tells about (ran ++ [last]) result :=
  tells_partially hne h (fun _ hstep => List.mem_singleton.mp hstep ▸ hlast) hkind

theorem tells_compensated (hlast : ended last = .compensated)
    (hran : ∀ step ∈ ran, ended step ≠ .outcomeUnknown) (hkind : result.kind = .definitiveFailed) :
    Tells about (ran ++ [last]) result where
  unknown := by
    rintro ⟨step, hstep, hunknown⟩
    rcases List.mem_append.mp hstep with hold | hnew
    · exact absurd hunknown (hran step hold)
    · rw [List.mem_singleton.mp hnew, hlast] at hunknown
      cases hunknown
  known := fun h => absurd hlast (h last (by simp)).2
  names := fun h => by simp [hkind] at h

/-- Where the commit returns, its result tells of the steps dispatched since `base`. -/
def Told (about : ExecutableMutationStep → EntityRef → Prop) (base : List ExecutableMutationStep)
    (m : JournalSession CommitResult) (s : WorkflowState) : Prop :=
  Session.wp m (fun result s' => ∃ ran, s'.dispatched = base ++ ran ∧ Tells about ran result)
    (fun _ _ => True) s

theorem told_pure (hs : s.dispatched = base ++ ran) (h : Tells about ran result) :
    Told about base (pure result) s := ⟨ran, hs, h⟩

theorem told_read {α : Type} {read : Except String α} {f : α → JournalSession CommitResult}
    (hf : ∀ a, Told about base (f a) s) : Told about base (readHost read >>= f) s := by
  unfold Told
  rw [Session.wp_bind]
  cases read with
  | ok a => exact hf a
  | error message => trivial

theorem told_step {α : Type} {operation : Operation} {planStepId : String} {index : Nat}
    {h : StepHost α} {f : JournaledMutationStep → JournalSession CommitResult}
    (hs : s.dispatched = base ++ ran)
    (hf : ∀ step result s', s'.dispatched = base ++ (ran ++ [step]) → step.index = index →
      result.status = h.dispatch.verdict.toStatus → ended step = result.status →
      Told about base (f result) s') :
    Told about base (executeDurableRiskyStep operation planStepId index h >>= f) s := by
  refine wp_seq executeDurableRiskyStep_spec ?_
  rintro result s' ⟨step, hs', hindex, hstatus, hended⟩
  exact hf step result s' (by rw [hs', hs, List.append_assoc]) hindex hstatus hended

theorem told_verified {α : Type} {operation : Operation} {planStepId : String} {index : Nat}
    {h : StepHost α} {f : JournaledMutationStep → JournalSession CommitResult}
    (hs : s.dispatched = base ++ ran)
    (hf : ∀ step result s', s'.dispatched = base ++ (ran ++ [step]) → step.index = index →
      result.status = h.dispatch.verdict.toStatus → ended step = result.status →
      Told about base (f result) s') :
    Told about base (executeVerifiedMutationStep operation planStepId index h >>= f) s := by
  refine wp_seq (Session.wp_mono executeStep_spec ?_ fun _ _ _ => trivial) fun _ _ h => h
  rintro result s' ⟨hs', hstatus, -⟩
  refine hf _ result s' (by rw [hs', hs, List.append_assoc]) rfl hstatus ?_
  rw [hstatus]
  exact ended_primary rfl

theorem told_ite {c : Prop} [Decidable c] {m n : JournalSession CommitResult}
    (hm : c → Told about base m s) (hn : ¬ c → Told about base n s) :
    Told about base (if c then m else n) s := by
  by_cases h : c
  · rw [if_pos h]
    exact hm h
  · rw [if_neg h]
    exact hn h

end Reports

/-- What a setup created tells of every step of it. -/
def aboutCreated (created : Option EntityRef) (_ : ExecutableMutationStep) (e : EntityRef) : Prop :=
  created = some e

theorem told_created {operation : Operation} {planStepId : String} {h : StepHost EntityRef}
    {unknown rejected : CommitResult} {f : EntityRef → JournalSession CommitResult}
    {base : List ExecutableMutationStep} {s : WorkflowState} (hs : s.dispatched = base ++ [])
    (hunknown : unknown.kind = .outcomeUnknown)
    (hf : ∀ created step s', h.value = some created →
      Named (aboutCreated h.value) [step] [created] → s'.dispatched = base ++ [step] →
      Told (aboutCreated h.value) base (f created) s') :
    Told (aboutCreated h.value) base (do
      let createStep ← executeDurableRiskyStep operation planStepId 0 h
      if createStep.status = .outcomeUnknown then return unknown
      match h.value.filter fun _ => createStep.status == .succeeded with
      | none => return rejected
      | some created => f created) s := by
  refine told_step hs fun step result s' hs' _ hstatus hended => ?_
  refine told_ite (fun hstep => told_pure hs' ?_) fun hknown => ?_
  · exact tells_unknown (hended.trans hstep) hunknown
  · by_cases hsucceeded : result.status = .succeeded
    · obtain ⟨created, hcreated⟩ := h.value_of_succeeded
        (verdict_of_succeeded (hstatus.symm.trans hsucceeded))
      have hvalue : (h.value.filter fun _ => result.status == .succeeded) = some created := by
        simp [hcreated, hsucceeded]
      rw [hvalue]
      have hran : Named (aboutCreated h.value) ([] ++ [step]) [created] :=
        Named.nil.concat (hended.trans hsucceeded) (List.mem_singleton_self _) hcreated
      exact hf created step s' hcreated hran hs'
    · have hvalue : (h.value.filter fun _ => result.status == .succeeded) = none := by
        simp [hsucceeded]
      rw [hvalue]
      exact told_pure hs' (tells_failed (definitive_of_status hended hstatus hknown hsucceeded))

section SetupProject

variable {access : WriteAccess} {operation : Operation} {host : SetupProjectHost}
  {created : EntityRef} {base ran : List ExecutableMutationStep} {s : WorkflowState}

/-- What the setup reports once the project is there, whatever the last step came to. -/
theorem told_setupProjectPartial (hran : Named (aboutCreated host.create.value) ran [created])
    (hs : s.dispatched = base ++ ran) (message : String) :
    Told (aboutCreated host.create.value) base (pure (setupProjectPartial created message)) s :=
  told_pure hs (tells_success hran (.inr rfl))

theorem setMemberRates_told (hcreated : host.create.value = some created) (hne : ran ≠ [])
    (hran : Named (aboutCreated host.create.value) ran [created]) (hs : s.dispatched = base ++ ran)
    (rates : List MemberRate) (rateIndex planIndex : Nat) :
    Told (aboutCreated host.create.value) base
      (setMemberRates access operation host created rates rateIndex planIndex) s := by
  induction rates generalizing rateIndex planIndex ran s with
  | nil => exact told_pure hs (tells_success hran (.inl rfl))
  | cons rate rest ih =>
    unfold setMemberRates
    refine told_ite (fun _ => told_setupProjectPartial hran hs _) fun _ => ?_
    refine told_read fun current => ?_
    refine told_ite (fun _ => told_setupProjectPartial hran hs _) fun _ => ?_
    refine told_ite (fun _ => told_setupProjectPartial hran hs _) fun _ => ?_
    refine told_step hs fun step result s' hs' _ _ hended => ?_
    refine told_ite (fun hfailed => ?_) fun hsucceeded => ?_
    · refine told_pure hs' (tells_unfinished hne hran ?_ rfl)
      rwa [hended]
    · have hran' : Named (aboutCreated host.create.value) (ran ++ [step]) [created] :=
        hran.concat (hended.trans (not_not.mp hsucceeded)) (List.mem_singleton_self _) hcreated
      refine told_ite (fun _ => told_setupProjectPartial hran' hs' _) fun _ => ?_
      exact ih (by simp) hran' hs' _ _

theorem completeProject_told {p : SetupProject} (hcreated : host.create.value = some created)
    (hne : ran ≠ []) (hran : Named (aboutCreated host.create.value) ran [created])
    (hs : s.dispatched = base ++ ran) : Told (aboutCreated host.create.value) base
      (completeProject access operation p host created) s := by
  unfold completeProject
  refine told_ite (fun _ => setMemberRates_told hcreated hne hran hs _ _ _) fun _ => ?_
  refine told_ite (fun _ => told_setupProjectPartial hran hs _) fun _ => ?_
  refine told_read fun memberships => ?_
  refine told_ite (fun _ => told_setupProjectPartial hran hs _) fun _ => ?_
  refine told_step hs fun step result s' hs' _ _ hended => ?_
  refine told_ite (fun hfailed => ?_) fun hsucceeded => ?_
  · refine told_pure hs' (tells_unfinished hne hran ?_ rfl)
    rwa [hended]
  · have hran' : Named (aboutCreated host.create.value) (ran ++ [step]) [created] :=
      hran.concat (hended.trans (not_not.mp hsucceeded)) (List.mem_singleton_self _) hcreated
    refine told_ite (fun _ => told_setupProjectPartial hran' hs' _) fun _ => ?_
    exact setMemberRates_told hcreated (by simp) hran' hs' _ _ _

theorem commitSetupProject_told {payload : Option SetupProject} :
    Told (aboutCreated host.create.value) s.dispatched
      (commitSetupProject access operation payload host) s := by
  have hnone : s.dispatched = s.dispatched ++ [] := (List.append_nil _).symm
  unfold commitSetupProject
  split
  · exact told_pure hnone tells_nothing
  · exact told_pure hnone tells_nothing
  · unfold createProject
    refine told_read fun truncated => ?_
    refine told_ite (fun _ => told_pure hnone tells_nothing) fun _ => ?_
    refine told_created hnone rfl fun created step s' hcreated hran hs' => ?_
    refine told_ite (fun _ => told_setupProjectPartial hran hs' _) fun _ => ?_
    exact completeProject_told hcreated (by simp) hran hs'

end SetupProject

section SetupTask

variable {access : WriteAccess} {operation : Operation} {p : SetupTask} {host : SetupTaskHost}
  {s : WorkflowState}

theorem setTaskRate_told {created : EntityRef} {base ran : List ExecutableMutationStep}
    (hcreated : host.create.value = some created) (hne : ran ≠ [])
    (hran : Named (aboutCreated host.create.value) ran [created]) (hs : s.dispatched = base ++ ran) :
    Told (aboutCreated host.create.value) base (setTaskRate access operation p host created) s := by
  unfold setTaskRate
  refine told_ite (fun _ => told_pure hs (tells_success hran (.inl rfl))) fun _ => ?_
  refine told_ite (fun _ => told_pure hs (tells_success hran (.inr rfl))) fun _ => ?_
  refine told_step hs fun step result s' hs' _ _ hended => ?_
  refine told_ite (fun hfailed => ?_) fun hsucceeded => ?_
  · refine told_pure hs' (tells_unfinished hne hran ?_ rfl)
    rwa [hended]
  · have hran' : Named (aboutCreated host.create.value) (ran ++ [step]) [created] :=
      hran.concat (hended.trans (not_not.mp hsucceeded)) (List.mem_singleton_self _) hcreated
    exact told_pure hs' (tells_success hran' (.inl rfl))

theorem commitSetupTask_told {payload : Option SetupTask} :
    Told (aboutCreated host.create.value) s.dispatched
      (commitSetupTask access operation payload host) s := by
  have hnone : s.dispatched = s.dispatched ++ [] := (List.append_nil _).symm
  unfold commitSetupTask
  split
  · exact told_pure hnone tells_nothing
  · exact told_pure hnone tells_nothing
  · refine told_read fun truncated => ?_
    refine told_ite (fun _ => told_pure hnone tells_nothing) fun _ => ?_
    split
    · exact told_pure hnone tells_nothing
    · unfold createTask
      refine told_created hnone rfl fun created step s' hcreated hran hs' => ?_
      refine told_ite (fun _ => told_pure hs' (tells_success hran (.inr rfl))) fun _ => ?_
      exact setTaskRate_told hcreated (by simp) hran hs'

end SetupTask

section GroupAdd

variable {operation : Operation} {groupId : String} {userIds : List String}
  {host : Nat → StepHost Unit} {s : WorkflowState}

/-- The group tells of every addition, and a membership of the one of its user. -/
def aboutGroup (groupId : String) (userIds : List String) (step : ExecutableMutationStep)
    (e : EntityRef) : Prop :=
  e = { type := "group", id := groupId } ∨
    ∃ userId, userIds[step.index]? = some userId ∧ e = groupMembership userId

/-- Each addition that succeeded has its membership among those of the users. -/
def Added (userIds : List String) (ran : List ExecutableMutationStep)
    (succeeded : List String) : Prop :=
  ∀ step ∈ ran, ended step = .succeeded ∧ ∃ userId ∈ succeeded, userIds[step.index]? = some userId

theorem Added.named {ran : List ExecutableMutationStep} {succeeded : List String}
    (h : Added userIds ran succeeded) :
    Named (aboutGroup groupId userIds) ran (succeeded.map groupMembership) := by
  intro step hstep
  obtain ⟨hended, userId, huser, hindex⟩ := h step hstep
  exact ⟨hended, _, List.mem_map_of_mem huser, .inr ⟨userId, hindex, rfl⟩⟩

theorem Added.concat {ran : List ExecutableMutationStep} {succeeded : List String}
    {last : ExecutableMutationStep} {userId : String} (h : Added userIds ran succeeded)
    (hlast : ended last = .succeeded) (hindex : userIds[last.index]? = some userId) :
    Added userIds (ran ++ [last]) (succeeded ++ [userId]) := by
  intro step hstep
  rcases List.mem_append.mp hstep with hold | hnew
  · obtain ⟨hended, userId', huser, hindex'⟩ := h step hold
    exact ⟨hended, userId', List.mem_append_left _ huser, hindex'⟩
  · obtain rfl := List.mem_singleton.mp hnew
    exact ⟨hlast, userId, by simp, hindex⟩

theorem partialGroupAdd_named (succeeded : List String) (total : Nat) (reason : PartialGroupAdd) :
    (partialGroupAdd succeeded total reason).named = succeeded.map groupMembership := by
  simp [partialGroupAdd, CommitResult.named]

theorem addUsers_told {total : Nat} {base : List ExecutableMutationStep} (rest : List String) :
    ∀ (ran : List ExecutableMutationStep) (succeeded : List String) (s : WorkflowState),
      userIds = succeeded ++ rest → ran.isEmpty = succeeded.isEmpty →
      Added userIds ran succeeded → s.dispatched = base ++ ran →
      Told (aboutGroup groupId userIds) base
        (addUsers operation groupId total host rest succeeded) s := by
  induction rest with
  | nil =>
    intro ran succeeded s _ _ hran hs
    refine told_pure hs (tells_success (fun step hstep => ⟨(hran step hstep).1, ?_⟩) (.inl rfl))
    exact ⟨_, List.mem_singleton_self _, .inl rfl⟩
  | cons userId rest ih =>
    intro ran succeeded s husers hempty hran hs
    have hnext : userIds[succeeded.length]? = some userId := by simp [husers]
    have hunfinished {reason : PartialGroupAdd} {step : ExecutableMutationStep}
        (hne : (!succeeded.isEmpty) = true) (hstep : ended step ≠ .succeeded) :
        Tells (aboutGroup groupId userIds) (ran ++ [step])
          (partialGroupAdd succeeded total reason) := by
      refine tells_unfinished ?_ ?_ hstep rfl
      · rintro rfl
        simp [← hempty] at hne
      · rw [partialGroupAdd_named]
        exact hran.named
    have hfirst (hne : ¬ (!succeeded.isEmpty) = true) : ran = [] := by
      simpa [← hempty] using hne
    unfold addUsers
    refine told_verified hs fun step result s' hs' hindex hstatus hended => ?_
    split
    · next code hstale =>
      have hfailed : ended step = .definitiveFailed := by
        rw [hended, hstatus, (host _).verdict_of_stale hstale, StepOutcome.toStatus]
      refine told_ite (fun hne => told_pure hs' (hunfinished hne (by simp [hfailed]))) fun hne => ?_
      rw [hfirst hne] at hs'
      exact told_pure hs' (tells_failed hfailed)
    · refine told_ite (fun hsucceeded => ?_) fun hsucceeded => ?_
      · have hran' := hran.concat (hended.trans hsucceeded) (hindex ▸ hnext)
        refine told_ite (fun _ => told_pure hs' (tells_success ?_ (.inr rfl))) fun _ => ?_
        · rw [partialGroupAdd_named]
          exact hran'.named
        · have husers' : userIds = (succeeded ++ [userId]) ++ rest := by simp [husers]
          have hempty' : (ran ++ [step]).isEmpty = (succeeded ++ [userId]).isEmpty := by
            rw [isEmpty_concat, isEmpty_concat]
          exact ih _ _ s' husers' hempty' hran' hs'
      · have hne' : ended step ≠ .succeeded := by rwa [hended]
        refine told_ite (fun hunknown => ?_) fun hknown => ?_
        · refine told_ite (fun hne => told_pure hs' (hunfinished hne hne')) fun _ => ?_
          exact told_pure hs' (tells_unknown (hended.trans hunknown) rfl)
        · refine told_ite (fun hne => told_pure hs' (hunfinished hne hne')) fun hne => ?_
          rw [hfirst hne] at hs'
          exact told_pure hs' (tells_failed (definitive_of_status hended hstatus hknown hsucceeded))

theorem commitGroupAdd_told : Told (aboutGroup groupId userIds) s.dispatched
      (commitGroupAdd operation groupId userIds host) s :=
  addUsers_told userIds [] [] s rfl rfl (fun _ h => nomatch h) (List.append_nil _).symm

end GroupAdd

section Approvals

variable {operation : Operation} {batch : PendingApprovals} {host : Nat → StepHost String}
  {s : WorkflowState}

/-- The approval that the host returned for its index. -/
def aboutApproval (batch : PendingApprovals) (host : Nat → StepHost String)
    (step : ExecutableMutationStep) (e : EntityRef) : Prop :=
  ∃ approval, batch.approvals[step.index]? = some approval ∧
    e = approvedTimesheet ((host step.index).value.getD approval)

theorem approvePendingPartial_named (completedIds : List String) (total : Nat) (message : String)
    (outcomeUnknown : Bool) :
    (approvePendingPartial completedIds total message outcomeUnknown).named =
      completedIds.map approvedTimesheet := by
  simp [approvePendingPartial, CommitResult.named]

theorem stoppedApproval_tells {completedIds : List String} {total : Nat} {h : StepHost String}
    {step : ExecutableMutationStep} {result : JournaledMutationStep}
    {ran : List ExecutableMutationStep}
    (hran : Named (aboutApproval batch host) ran (completedIds.map approvedTimesheet))
    (hempty : ran.isEmpty = completedIds.isEmpty) (hended : ended step = result.status)
    (hstatus : result.status = h.dispatch.verdict.toStatus) (hne : result.status ≠ .succeeded) :
    Tells (aboutApproval batch host) (ran ++ [step])
      (stoppedApproval operation completedIds total h result) := by
  unfold stoppedApproval
  dsimp only
  by_cases hcompleted : (!completedIds.isEmpty) = true
  · rw [if_pos hcompleted]
    refine tells_unfinished ?_ ?_ (by rwa [hended]) rfl
    · rintro rfl
      simp [← hempty] at hcompleted
    · rw [approvePendingPartial_named]
      exact hran
  · rw [if_neg hcompleted]
    obtain rfl : ran = [] := by simpa [← hempty] using hcompleted
    rcases toStatus_cases h.dispatch.verdict with hverdict | hverdict | hverdict
    · exact absurd (hstatus.trans hverdict) hne
    · exact tells_failed (hended.trans (hstatus.trans hverdict))
    · have hunknown : result.status = .outcomeUnknown := hstatus.trans hverdict
      have hstale : h.stale = none := by
        cases hstale : h.stale with
        | none => rfl
        | some code => simp [h.verdict_of_stale hstale, StepOutcome.toStatus] at hverdict
      have hdispatched : approvePendingPreDispatchStopped h result = false := by
        obtain ⟨e, houtcome, he⟩ := h.outcome_of_unknown (verdict_of_unknown hverdict)
        cases e <;> simp [approvePendingPreDispatchStopped, houtcome, HostError.definitive] at he ⊢
      refine tells_unknown_first (hended.trans hunknown) ?_
      simp [hstale, hdispatched, hunknown, failure, CommitResult.kind]

theorem approveTimesheets_told {base : List ExecutableMutationStep} (rest : List String) :
    ∀ (ran : List ExecutableMutationStep) (index : Nat) (completedIds : List String)
      (s : WorkflowState), batch.approvals.drop index = rest → ran.isEmpty = completedIds.isEmpty →
      Named (aboutApproval batch host) ran (completedIds.map approvedTimesheet) →
      s.dispatched = base ++ ran → Told (aboutApproval batch host) base
        (approveTimesheets operation batch host rest index completedIds) s := by
  induction rest with
  | nil =>
    intro ran index completedIds s _ _ hran hs
    refine told_pure hs (tells_success ?_ (.inl rfl))
    simpa [CommitResult.named] using hran
  | cons approval rest ih =>
    intro ran index completedIds s hdrop hempty hran hs
    have hnext : batch.approvals[index]? = some approval := by
      rw [← List.head?_drop, hdrop, List.head?_cons]
    unfold approveTimesheets
    dsimp only
    refine told_ite (fun _ => ?_) fun _ => ?_
    · by_cases hcompleted : (!completedIds.isEmpty) = true
      · rw [if_pos hcompleted]
        refine told_pure hs (tells_success ?_ (.inr rfl))
        rw [approvePendingPartial_named]
        exact hran
      · rw [if_neg hcompleted]
        obtain rfl : ran = [] := by simpa [← hempty] using hcompleted
        exact told_pure hs tells_nothing
    · refine told_step hs fun step result s' hs' hindex hstatus hended => ?_
      refine told_ite (fun hsucceeded => ?_) fun hsucceeded => ?_
      · have hran' : Named (aboutApproval batch host) (ran ++ [step])
            ((completedIds ++ [(host index).value.getD approval]).map approvedTimesheet) := by
          refine (hran.mono fun e he => ?_).concat (hended.trans hsucceeded) ?_
            ⟨approval, hindex ▸ hnext, rfl⟩
          · rw [List.map_append]
            exact List.mem_append_left _ he
          · simp [hindex]
        refine told_ite (fun _ => told_pure hs' (tells_success ?_ (.inr rfl))) fun _ => ?_
        · rw [approvePendingPartial_named]
          exact hran'
        refine told_ite (fun _ => told_pure hs' (tells_success ?_ (.inr rfl))) fun _ => ?_
        · rw [approvePendingPartial_named]
          exact hran'
        have hdrop' : batch.approvals.drop (index + 1) = rest := by
          rw [← List.drop_drop, hdrop, List.drop_one, List.tail_cons]
        refine ih _ _ _ s' hdrop' ?_ hran' hs'
        rw [isEmpty_concat, isEmpty_concat]
      · exact told_pure hs' (stoppedApproval_tells hran hempty hended hstatus hsucceeded)

theorem commitApprovePending_told :
    Told (aboutApproval batch host) s.dispatched (commitApprovePending operation batch host) s := by
  unfold commitApprovePending
  refine told_ite (fun _ => ?_) fun _ => ?_
  · exact told_pure (List.append_nil _).symm tells_nothing
  · exact approveTimesheets_told _ [] 0 [] s (List.drop_zero) rfl Named.nil (List.append_nil _).symm

end Approvals

/-- The entity that is updated or deleted tells of every step. -/
def aboutEntity (type id : String) (_ : ExecutableMutationStep) (e : EntityRef) : Prop :=
  e.type = type ∧ e.id = id

theorem named_entity {ran : List ExecutableMutationStep} {type id : String}
    {result : CommitResult} (name : Option String)
    (hran : ∀ step ∈ ran, ended step = .succeeded) (hnamed : result.named = [{ type, id, name }]) :
    Named (aboutEntity type id) ran result.named := by
  intro step hstep
  refine ⟨hran step hstep, { type, id, name }, ?_, rfl, rfl⟩
  rw [hnamed]
  exact List.mem_singleton_self _

theorem succeeded_nil : ∀ step ∈ ([] : List ExecutableMutationStep), ended step = .succeeded :=
  fun _ h => nomatch h

theorem succeeded_concat {ran : List ExecutableMutationStep} {last : ExecutableMutationStep}
    (hran : ∀ step ∈ ran, ended step = .succeeded) (hlast : ended last = .succeeded) :
    ∀ step ∈ ran ++ [last], ended step = .succeeded := by
  intro step hstep
  rcases List.mem_append.mp hstep with hold | hnew
  · exact hran step hold
  · rwa [List.mem_singleton.mp hnew]

section InvoiceUpdates

variable {operation : Operation} {p : InvoiceUpdate} {host : InvoiceUpdateHost}
  {base ran : List ExecutableMutationStep} {s : WorkflowState}

theorem withJournalDegradedWarning_named (id : String) (name : Option String) :
    (CommitResult.success (withJournalDegradedWarning (updateReceipt id name))).named =
      [{ type := "invoice", id, name }] := by
  unfold withJournalDegradedWarning
  split <;> rfl

theorem unknownInvoiceUpdate_kind (id : String) :
    (unknownInvoiceUpdate operation id).kind = .outcomeUnknown := rfl

theorem updateInvoiceStatus_told {updated : Bool} {name : Option String}
    (hran : ∀ step ∈ ran, ended step = .succeeded) (hupdated : ran.isEmpty = !updated)
    (hs : s.dispatched = base ++ ran) : Told (aboutEntity "invoice" p.id) base
      (updateInvoiceStatus operation p host updated name) s := by
  unfold updateInvoiceStatus
  refine told_ite (fun _ => ?_) fun _ => ?_
  · exact told_pure hs (tells_success (named_entity name hran rfl) (.inl rfl))
  dsimp only
  refine told_step hs fun step result s' hs' _ hstatus hended => ?_
  have hunfinished {message : String} (h : updated = true) (hstep : ended step ≠ .succeeded) :
      Tells (aboutEntity "invoice" p.id) (ran ++ [step]) (partialInvoiceUpdate p.id message) := by
    refine tells_unfinished ?_ (named_entity none hran rfl) hstep rfl
    rintro rfl
    simp [h] at hupdated
  have hfirst (h : ¬ updated = true) : ran = [] := by simpa [h] using hupdated
  split
  · next code hstale =>
    have hfailed : ended step = .definitiveFailed := by
      rw [hended, hstatus, host.updateStatus.verdict_of_stale hstale, StepOutcome.toStatus]
    refine told_ite (fun h => told_pure hs' (hunfinished h (by simp [hfailed]))) fun h => ?_
    rw [hfirst h] at hs'
    exact told_pure hs' (tells_failed hfailed)
  · refine told_ite (fun hunknown => ?_) fun hunknown => ?_
    · exact told_pure hs' (tells_unknown (hended.trans hunknown) (unknownInvoiceUpdate_kind _))
    refine told_ite (fun hfailed => ?_) fun hfailed => ?_
    · refine told_ite (fun h => told_pure hs' (hunfinished h (by simp [hended, hfailed]))) fun h => ?_
      rw [hfirst h] at hs'
      exact told_pure hs' (tells_failed (hended.trans hfailed))
    have hran' := succeeded_concat hran (succeeded_of_status hended hstatus hunknown hfailed)
    refine told_ite (fun _ => told_ite (fun _ => ?_) fun _ => ?_) fun _ => ?_
    · exact told_pure hs' (tells_success (named_entity none hran' rfl) (.inr rfl))
    · exact told_pure hs' (tells_success
        (named_entity _ hran' (withJournalDegradedWarning_named _ _)) (.inl rfl))
    · exact told_pure hs' (tells_success (named_entity _ hran' rfl) (.inl rfl))

theorem commitInvoiceUpdate_told {targetStored : Bool} :
    Told (aboutEntity "invoice" p.id) s.dispatched
      (commitInvoiceUpdate operation targetStored p host) s := by
  have hnone : s.dispatched = s.dispatched ++ [] := (List.append_nil _).symm
  unfold commitInvoiceUpdate
  refine told_ite (fun _ => told_pure hnone tells_nothing) fun _ => ?_
  refine told_ite (fun _ => updateInvoiceStatus_told (by simp) rfl hnone) fun _ => ?_
  dsimp only
  refine told_step hnone fun step result s' hs' _ hstatus hended => ?_
  split
  · next code hstale =>
    refine told_pure hs' (tells_failed ?_)
    rw [hended, hstatus, host.updateFields.verdict_of_stale hstale, StepOutcome.toStatus]
  · refine told_ite (fun hunknown => ?_) fun hunknown => ?_
    · exact told_pure hs' (tells_unknown (hended.trans hunknown) (unknownInvoiceUpdate_kind _))
    refine told_ite (fun hfailed => ?_) fun hfailed => ?_
    · exact told_pure hs' (tells_failed (hended.trans hfailed))
    have hran := succeeded_concat succeeded_nil
      (succeeded_of_status hended hstatus hunknown hfailed)
    refine told_ite (fun _ => told_ite (fun _ => ?_) fun _ => ?_) fun _ => ?_
    · exact told_pure hs' (tells_success (named_entity none hran rfl) (.inr rfl))
    · exact told_pure hs' (tells_success
        (named_entity _ hran (withJournalDegradedWarning_named _ _)) (.inl rfl))
    · exact updateInvoiceStatus_told hran rfl hs'

end InvoiceUpdates

section Deletes

variable {operation : Operation} {base ran : List ExecutableMutationStep} {s : WorkflowState}

/-- A failure code tells apart an unknown step and a rejected one. -/
theorem stepFailure_tells {about : ExecutableMutationStep → EntityRef → Prop} {d : StepDispatch}
    {step : ExecutableMutationStep} {result : JournaledMutationStep} {action message : String}
    {hint : Option String} {retryable : Option Bool} (hended : ended step = result.status)
    (hstatus : result.status = d.verdict.toStatus) (hne : result.status ≠ .succeeded) :
    Tells about [step] (failure action (stepFailureCode result.status) message hint retryable) := by
  by_cases hunknown : result.status = .outcomeUnknown
  · refine tells_unknown_first (hended.trans hunknown) ?_
    simp [failure, stepFailureCode, CommitResult.kind, hunknown]
  · exact tells_failed (definitive_of_status hended hstatus hunknown hne)

theorem deleteCategory_told {p : CategoryDelete} {host : CategoryDeleteHost} {index : Nat}
    (hran : ∀ step ∈ ran, ended step = .succeeded) (harchived : ran.isEmpty = p.wasArchived)
    (hs : s.dispatched = base ++ ran) :
    Told (aboutEntity "expense_category" p.id) base (deleteCategory operation p host index) s := by
  unfold deleteCategory
  refine told_step hs fun step result s' hs' _ hstatus hended => ?_
  have hunfinished {message : String} (h : (!p.wasArchived) = true)
      (hstep : ended step ≠ .succeeded) :
      Tells (aboutEntity "expense_category" p.id) (ran ++ [step])
        (partialCategoryDelete operation p.id message) := by
    refine tells_unfinished ?_ (named_entity none hran rfl) hstep rfl
    rintro rfl
    simp [← harchived] at h
  have hfirst (h : ¬ (!p.wasArchived) = true) : ran = [] := by simpa [← harchived] using h
  split
  · next code hstale =>
    have hfailed : ended step = .definitiveFailed := by
      rw [hended, hstatus, host.delete.verdict_of_stale hstale, StepOutcome.toStatus]
    refine told_ite (fun h => told_pure hs' (hunfinished h (by simp [hfailed]))) fun h => ?_
    rw [hfirst h] at hs'
    exact told_pure hs' (tells_failed hfailed)
  · refine told_ite (fun hsucceeded => ?_) fun hsucceeded => ?_
    · have hran' := succeeded_concat hran (hended.trans hsucceeded)
      exact told_pure hs' (tells_success (named_entity _ hran' rfl) (.inl rfl))
    refine told_ite (fun h => told_pure hs' (hunfinished h (by rwa [hended]))) fun h => ?_
    rw [hfirst h] at hs'
    exact told_pure hs' (stepFailure_tells hended hstatus hsucceeded)

theorem commitCategoryDelete_told {targetStored : Bool} {p : CategoryDelete}
    {host : CategoryDeleteHost} : Told (aboutEntity "expense_category" p.id) s.dispatched
      (commitCategoryDelete operation targetStored p host) s := by
  have hnone : s.dispatched = s.dispatched ++ [] := (List.append_nil _).symm
  unfold commitCategoryDelete
  refine told_ite (fun _ => told_pure hnone tells_nothing) fun _ => ?_
  refine told_ite (fun h => deleteCategory_told succeeded_nil h.symm hnone) fun h => ?_
  refine told_step hnone fun step result s' hs' _ hstatus hended => ?_
  split
  · next code hstale =>
    refine told_pure hs' (tells_failed ?_)
    rw [hended, hstatus, host.archive.verdict_of_stale hstale, StepOutcome.toStatus]
  · refine told_ite (fun hfailed => ?_) fun hsucceeded => ?_
    · exact told_pure hs' (stepFailure_tells hended hstatus hfailed)
    · have hran := succeeded_concat succeeded_nil (hended.trans (not_not.mp hsucceeded))
      exact deleteCategory_told hran (by simpa using h) hs'

variable {p : EntityDelete} {host : EntityDeleteHost}

/-- The restoration that a rejected delete of an archived entity makes. -/
theorem restoreEntity_told {deleted : ExecutableMutationStep}
    (hran : ∀ step ∈ ran, ended step = .succeeded) (hne : ran ≠ [])
    (hdeleted : ended deleted = .definitiveFailed)
    (hs : s.dispatched = base ++ (ran ++ [deleted])) :
    Told (aboutEntity p.entityType.text p.id) base (restoreEntity operation p host) s := by
  unfold restoreEntity journaledRow
  unfold Told
  rw [Session.wp_bind, Session.wp_bind, Session.wp_get]
  split
  · rw [Session.wp_pure, Session.wp_bind]
    refine Session.wp_mono (executeCompensationStep_spec rfl) ?_ fun _ _ _ => trivial
    rintro status s' ⟨hs', rfl⟩
    have hran' : s'.dispatched = base ++ (ran ++ [deleted] ++ [restoreStep p host.restore]) := by
      rw [hs', hs, List.append_assoc]
    refine told_ite (fun hcompensated => ?_) fun hcompensated => ?_
    · refine told_pure hran' (tells_compensated hcompensated (fun step hstep => ?_) rfl)
      rcases List.mem_append.mp hstep with hold | hnew
      · simp [hran step hold]
      · simp [List.mem_singleton.mp hnew, hdeleted]
    · rw [List.append_assoc] at hran'
      refine told_pure hran' (tells_partially hne (named_entity _ hran rfl) ?_ rfl)
      intro step hstep
      rcases List.mem_append.mp hstep with hold | hnew
      · simp [List.mem_singleton.mp hold, hdeleted]
      · rw [List.mem_singleton.mp hnew, ended_compensation rfl]
        cases compensationStatus (restoreStep p host.restore).dispatch.outcome <;>
          simp [CompensationOutcome.toStatus]
  · trivial

theorem deleteEntity_told {deleteIndex : Nat} (hran : ∀ step ∈ ran, ended step = .succeeded)
    (harchived : ran.isEmpty = !p.needsArchive) (hs : s.dispatched = base ++ ran) :
    Told (aboutEntity p.entityType.text p.id) base
      (deleteEntity operation p host deleteIndex) s := by
  have hne (h : p.needsArchive = true) : ran ≠ [] := by
    rintro rfl
    simp [h] at harchived
  have hfirst (h : p.needsArchive = false) : ran = [] := by simpa [h] using harchived
  unfold deleteEntity
  dsimp only
  refine told_read fun current => ?_
  refine told_ite (fun _ => told_ite (fun _ => ?_) fun h => ?_) fun _ => ?_
  · exact told_pure hs (tells_success (named_entity _ hran rfl) (.inr rfl))
  · rw [hfirst (by simpa using h)] at hs
    exact told_pure hs tells_nothing
  refine told_step hs fun step result s' hs' _ hstatus hended => ?_
  refine told_ite (fun hsucceeded => ?_) fun hsucceeded => ?_
  · have hran' := succeeded_concat hran (hended.trans hsucceeded)
    exact told_pure hs' (tells_success (named_entity _ hran' rfl) (.inl rfl))
  refine told_ite (fun h => ?_) fun h => ?_
  · have hneeds : p.needsArchive = false := by simpa [p.restorable_eq] using h
    rw [hfirst hneeds] at hs'
    refine told_ite (fun hunknown => ?_) fun hunknown => ?_
    · exact told_pure hs' (tells_unknown_first (hended.trans hunknown) rfl)
    · exact told_pure hs' (tells_failed (definitive_of_status hended hstatus hunknown hsucceeded))
  · have hneeds : p.needsArchive = true := by
      simpa [p.restorable_eq] using h
    refine told_ite (fun hunknown => ?_) fun hunknown => ?_
    · refine told_pure hs' (tells_unfinished (hne hneeds) (named_entity _ hran rfl) ?_ rfl)
      rwa [hended]
    · exact restoreEntity_told hran (hne hneeds)
        (definitive_of_status hended hstatus hunknown hsucceeded) hs'

theorem commitDeleteEntity_told : Told (aboutEntity p.entityType.text p.id) s.dispatched
      (commitDeleteEntity operation p host) s := by
  have hnone : s.dispatched = s.dispatched ++ [] := (List.append_nil _).symm
  unfold commitDeleteEntity
  refine told_ite (fun h => ?_) fun h => ?_
  · exact deleteEntity_told succeeded_nil h.symm hnone
  dsimp only
  refine told_step hnone fun step result s' hs' _ hstatus hended => ?_
  refine told_ite (fun hunknown => ?_) fun hunknown => ?_
  · exact told_pure hs' (tells_unknown (hended.trans hunknown) rfl)
  refine told_ite (fun hfailed => ?_) fun hsucceeded => ?_
  · exact told_pure hs' (tells_failed (definitive_of_status hended hstatus hunknown hfailed))
  · have hran := succeeded_concat succeeded_nil (hended.trans (not_not.mp hsucceeded))
    exact deleteEntity_told hran (by simpa using h) hs'

end Deletes

/-- The commits that send several mutations, each with what it finds at the host. -/
inductive CompositeCommit
  | setupProject (access : WriteAccess) (payload : Option SetupProject) (host : SetupProjectHost)
  | setupTask (access : WriteAccess) (payload : Option SetupTask) (host : SetupTaskHost)
  | groupAdd (groupId : String) (userIds : List String) (host : Nat → StepHost Unit)
  | approvePending (batch : PendingApprovals) (host : Nat → StepHost String)
  | invoiceUpdate (targetStored : Bool) (p : InvoiceUpdate) (host : InvoiceUpdateHost)
  | categoryDelete (targetStored : Bool) (p : CategoryDelete) (host : CategoryDeleteHost)
  | entityDelete (p : EntityDelete) (host : EntityDeleteHost)

namespace CompositeCommit

def run (operation : Operation) : CompositeCommit → JournalSession CommitResult
  | setupProject access payload host => commitSetupProject access operation payload host
  | setupTask access payload host => commitSetupTask access operation payload host
  | groupAdd groupId userIds host => commitGroupAdd operation groupId userIds host
  | approvePending batch host => commitApprovePending operation batch host
  | invoiceUpdate targetStored p host => commitInvoiceUpdate operation targetStored p host
  | categoryDelete targetStored p host => commitCategoryDelete operation targetStored p host
  | entityDelete p host => commitDeleteEntity operation p host

/-- Which entities tell of the effect of a step. -/
def about : CompositeCommit → ExecutableMutationStep → EntityRef → Prop
  | setupProject _ _ host => aboutCreated host.create.value
  | setupTask _ _ host => aboutCreated host.create.value
  | groupAdd groupId userIds _ => aboutGroup groupId userIds
  | approvePending batch host => aboutApproval batch host
  | invoiceUpdate _ p _ => aboutEntity "invoice" p.id
  | categoryDelete _ p _ => aboutEntity "expense_category" p.id
  | entityDelete p _ => aboutEntity p.entityType.text p.id

theorem run_told (commit : CompositeCommit) (operation : Operation) (s : WorkflowState) :
    Told commit.about s.dispatched (commit.run operation) s := by
  cases commit with
  | setupProject access payload host => exact commitSetupProject_told
  | setupTask access payload host => exact commitSetupTask_told
  | groupAdd groupId userIds host => exact commitGroupAdd_told
  | approvePending batch host => exact commitApprovePending_told
  | invoiceUpdate targetStored p host => exact commitInvoiceUpdate_told
  | categoryDelete targetStored p host => exact commitCategoryDelete_told
  | entityDelete p host => exact commitDeleteEntity_told

end CompositeCommit

/-- However the host and the journal answer each step, a composite commit that returns tells
what its steps came to: an unknown step gives an unknown outcome or, beside a known effect, a
partial result; without one, a known effect that was not compensated gives success or a partial
result; and such results name every known effect. -/
theorem composite_result_tells (commit : CompositeCommit) (operation : Operation)
    (s s' : WorkflowState) (result : CommitResult)
    (hrun : (commit.run operation).exec s = (.ok result, s')) :
    ∃ ran, s'.dispatched = s.dispatched ++ ran ∧ Tells commit.about ran result :=
  Session.wp_ok (commit.run_told operation s) hrun

/-- A confirmed setup of a task with a rate. -/
def setupTaskOperation : Operation where
  operationId := 0
  journal := 0
  actionName := "clockify_setup_task"
  plan := [{ id := "create-task", kind := .primary }, { id := "set-task-rate", kind := .primary }]

def setupTaskDb : Db :=
  (Txn.commit (do
    let _ ← prepareRun [{ PreviewDraft.simple 100 with
      actionName := setupTaskOperation.actionName
      mutationPlan := { mode := .curated, maxHostCalls := 9, steps := setupTaskOperation.plan } }]
    let _ ← markConfirmationExecuting 1 2) Db.empty).2

/-- The task is created, and Clockify does not answer its rate definitively. -/
def unknownRate : CompositeCommit :=
  .setupTask ⟨true, true⟩
    (some {
      projectId := "p", name := "t"
      rate := some { userId := "u", amountMinor := 1, kind := .hourly } })
    { initialParents := none
      truncated := .ok false
      immediateParents := none
      create := { answer := .sent 3 (.ok { type := "task", id := "t1" }) }
      setRate := { answer := .sent 5 (.error (.ambiguous (some 502))) } }

theorem unknown_rate_tells : ∃ result s' ran,
      (unknownRate.run setupTaskOperation).exec ⟨setupTaskDb, []⟩ = (.ok result, s') ∧
      s'.dispatched = [] ++ ran ∧ Tells unknownRate.about ran result := by
  have hreturns : ((unknownRate.run setupTaskOperation).exec ⟨setupTaskDb, []⟩).1.toOption.isSome =
      true := by decide +kernel
  rcases hrun : (unknownRate.run setupTaskOperation).exec ⟨setupTaskDb, []⟩ with ⟨returned, s'⟩
  cases returned with
  | error e => simp [hrun, Except.toOption] at hreturns
  | ok result =>
    obtain ⟨ran, hran⟩ := composite_result_tells unknownRate setupTaskOperation _ s' result hrun
    exact ⟨result, s', ran, rfl, hran⟩

theorem unknown_rate_reports_partial :
    let run := (unknownRate.run setupTaskOperation).exec ⟨setupTaskDb, []⟩
    run.1.toOption.map CommitResult.kind = some .partially ∧
      ∃ step ∈ run.2.dispatched, ended step = .outcomeUnknown := by
  have hkind : ((unknownRate.run setupTaskOperation).exec ⟨setupTaskDb, []⟩).1.toOption.map
      CommitResult.kind = some .partially := by decide +kernel
  have hunknown : ((unknownRate.run setupTaskOperation).exec ⟨setupTaskDb, []⟩).2.dispatched.any
      (fun step => ended step == .outcomeUnknown) = true := by decide +kernel
  obtain ⟨step, hstep, hended⟩ := List.any_eq_true.mp hunknown
  exact ⟨hkind, step, hstep, by simpa using hended⟩

end Composite

end ClockifyAssistant
