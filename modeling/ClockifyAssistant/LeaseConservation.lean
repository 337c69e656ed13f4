import ClockifyAssistant.ChatLeases

/-!
The leases of every request. A chat turn conserves its leases whatever happens; a
confirmation and an undo conserve theirs as long as two calls that the source leaves without
a `catch` do not throw: the claim of the preview, and a step of the undo that follows a
dispatch.
-/
namespace ClockifyAssistant

open Lib Fallible

namespace TurnMachinery

variable {config : TurnConfig} {x : Watched} {E : TurnError → Watched → Prop} {lease : Nat}

/-- A lease that the request acquired is not settled, and `LeaseKept` did not hold. -/
def Lost (config : TurnConfig) (x : Watched) : Prop :=
  ¬ x.2 ∧ Booked config x.1 ∧ ∃ lease, (lease, .acquired) ∈ x.1.log ∧ ¬ x.1.log.Settled lease

def Ended (config : TurnConfig) (x : Watched) : Prop :=
  Stands config .rest x ∨ Lost config x

section Confirming

theorem Stands.namesInHand {phases : List LeasePhase}
    (h : Stands config (.inHand (some lease) phases) x) (hphases : phases ⊆ LeaseLog.outPhases)
    {o : TurnOp} (ho : o.lease? x.1 = some lease) : o.NamesOut x.1 :=
  h.namesOut hphases fun _ hother => ho.symm.trans hother

theorem safeE_settleCommitted {status : ActionResultKind}
    (h : Stands config (.inHand (some lease) workPhases) x) :
    SafeE (S := leaseSpec config) (settleCommitted lease status)
      (fun _ => Stands config (.inHand (some lease) [.recorded])) E x := by
  refine safeE_storedOrGivenUp (fun y hy => ?_) (fun y hy => ?_) h
  · exact safeE_recording hy (hy.namesInHand work_out rfl) (fun _ => rfl) (fun _ => trivial)
      (hy.record rfl (List.Subset.refl _) (.inl rfl))
  · exact safeE_reporting (hy.namesInHand work_out rfl) (fun _ => rfl) (fun _ => trivial)
      (hy.record rfl (List.Subset.refl _) (.inr rfl))

theorem safeE_commitConfirmedOperation (h : Stands config (.inHand (some lease) [.held]) x) :
    SafeE (S := leaseSpec config) (commitConfirmedOperation lease)
      (fun _ => Stands config (.inHand (some lease) workPhases))
      (fun _ => Stands config (.inHand (some lease) [.held])) x := by
  refine safeE_bind (safeE_quiet (o := .authorizeWrite "confirmed") rfl h) fun denial y hy => ?_
  cases denial with
  | some denial => exact safeE_pure hy.working
  | none =>
    refine safeE_bind (safeE_caught (safeE_acting (o := .commit lease) hy rfl held_work rfl
      (fun _ => rfl) fun _ => trivial)) fun result z hz => ?_
    cases result <;> exact safeE_pure hz

theorem safeE_auditResult {s : Standing} {resultRef : Option ResultId} (h : Stands config s x) :
    SafeE (S := leaseSpec config) (auditResult resultRef) (fun _ => Stands config s) E x := by
  cases resultRef with
  | none => exact safeE_pure h
  | some ref => exact safeE_bind (safeE_tried (o := .addAuditEvent ref) rfl h) fun _ _ hy => hy

theorem safeE_giveBack {phases : List LeasePhase}
    (h : Stands config (.inHand (some lease) phases) x) (hphases : phases ⊆ [.held, .recorded]) :
    SafeE (S := leaseSpec config) (perform (.release lease))
      (fun _ => Stands config .rest) E x := by
  refine SafeE.weaken (safeE_release h rfl hphases) ?_
  exact fun _ y hy => Stands.atRest hy

/-- A claimed confirmation records its outcome, or throws before it commits. -/
theorem safeE_commitClaimed (h : Stands config (.inHand (some lease) [.held]) x) :
    SafeE (S := leaseSpec config) (commitClaimed config lease)
      (fun _ => Stands config .rest) (fun _ => Stands config .rest) x := by
  refine safeE_ensuring (Q := fun _ => Stands config (.inHand (some lease) [.recorded]))
    (E := fun _ => Stands config (.inHand (some lease) [.held])) ?_ ?_ ?_
  · have hdenies : SafeE (S := leaseSpec config) (capabilityDenies config)
        (fun _ => Stands config (.inHand (some lease) [.held]))
        (fun _ => Stands config (.inHand (some lease) [.held])) x := by
      unfold capabilityDenies
      split
      · exact safeE_quiet (o := .consumeIntentCapability) rfl h
      · exact safeE_pure h
    refine safeE_bind hdenies fun denied y hy => ?_
    have hcommitted : SafeE (S := leaseSpec config) (commitUnlessDenied lease denied)
        (fun _ => Stands config (.inHand (some lease) workPhases))
        (fun _ => Stands config (.inHand (some lease) [.held])) y := by
      unfold commitUnlessDenied
      split
      · exact safeE_pure hy.working
      · exact safeE_commitConfirmedOperation hy
    refine safeE_bind hcommitted fun result z hz => ?_
    refine safeE_bind (safeE_settleCommitted hz) fun resultRef v hv => ?_
    refine safeE_bind (safeE_auditResult hv) fun _ u hu => ?_
    exact safeE_bind (safeE_tried rfl hu) fun _ t ht => safeE_pure ht
  · exact fun _ y hy => safeE_giveBack hy (by simp)
  · exact fun _ y hy => safeE_giveBack hy (by simp)

/-- The claim of the preview is not inside the block that releases the lease. -/
theorem safeE_markConfirmationExecuting (h : Stands config (.inHand (some lease) [.held]) x) :
    SafeE (S := leaseSpec config) (perform .markConfirmationExecuting)
      (fun _ => Stands config (.inHand (some lease) [.held])) (fun _ => Ended config) x := by
  refine safeE_op nofun fun env => ?_
  have hawait := h.await env.others
  change Ends _ _ (env.answer .markConfirmationExecuting) (x.1.await env.others, x.2 ∧ _)
  cases hanswer : env.answer .markConfirmationExecuting with
  | ok claimed => exact hawait.congr (and_iff_left ⟨claimed, hanswer⟩).symm
  | error e =>
    right
    have hshows := LeaseLog.phase_shows x.1.log lease
    rw [List.mem_singleton.mp (h.mine lease rfl)] at hshows
    refine ⟨?_, hawait.booked, lease, hshows.1, ?_⟩
    · rintro ⟨-, claimed, hok⟩
      rw [hanswer] at hok
      cases hok
    · exact LeaseLog.not_settled_of_unreleased hshows.2.2.2.2

theorem safeE_commitConfirmation (h : Stands config (.inHand none []) x) :
    SafeE (S := leaseSpec config) (commitConfirmation config)
      (fun _ => Stands config .rest) (fun _ => Ended config) x := by
  refine safeE_bind (SafeE.rethrow (safeE_quiet (o := .checkConfirmation) rfl h)
    fun _ _ he => .inl (Stands.atRest he)) fun rejection y hy => ?_
  cases rejection with
  | some rejection => exact safeE_pure hy.atRest
  | none =>
    refine safeE_bind (safeE_caught (safeE_acquire hy rfl)) fun granted z hz => ?_
    cases granted with
    | error e =>
      have hz : Stands config (.inHand none []) z := hz
      simp only
      split
      · exact safeE_pure hz.atRest
      · exact safeE_throw (.inl hz.atRest)
    | ok lease =>
      have hz : Stands config (.inHand (some lease) [.held]) z := hz
      refine safeE_bind (safeE_leaseAborted lease hz) fun aborted v hv => ?_
      cases aborted with
      | true => exact safeE_bind (safeE_giveBack hv (by simp)) fun _ u hu => safeE_pure hu
      | false =>
        refine safeE_bind (safeE_markConfirmationExecuting hv) fun claimed u hu => ?_
        cases claimed with
        | true =>
          refine safeE_bind (SafeE.rethrow (safeE_commitClaimed hu)
            fun _ _ he => .inl he) fun _ t ht => safeE_pure ht
        | false => exact safeE_bind (safeE_giveBack hu (by simp)) fun _ t ht => safeE_pure ht

theorem safeE_confirmPreview {messages : List ModelMessage}
    (h : Stands config (.inHand none []) x) :
    SafeE (S := leaseSpec config) (confirmPreview config messages)
      (fun _ => Ended config) (fun _ => Ended config) x := by
  refine safeE_bind (safeE_commitConfirmation h) fun committed y hy => ?_
  match committed with
  | .error rejected => exact safeE_pure (.inl hy)
  | .ok (result, resultRef) =>
    simp only
    split
    · refine safeE_bind (SafeE.rethrow (safeE_runResume hy)
        fun _ _ he => .inl he) fun _ z hz => safeE_pure (.inl hz)
    · exact safeE_pure (.inl hy)

end Confirming

section Undoing

/-- An undo that threw after it reached the host, its lease not yet released. -/
def Astray (config : TurnConfig) (lease : Nat) (x : Watched) : Prop :=
  ¬ x.2 ∧ Booked config x.1 ∧ x.1.log.phase lease = .dispatched

/-- How a reversal leaves its lease when it throws. -/
def Stopped (config : TurnConfig) (lease : Nat) (x : Watched) : Prop :=
  Stands config (.inHand (some lease) [.held]) x ∨ Astray config lease x

theorem Stands.stopped {w : TurnWorld} {kept kept' : Prop}
    (h : Stands config (.inHand (some lease) workPhases) (w, kept))
    (hkept : kept' ↔ (lease, .dispatched) ∉ w.log) : Stopped config lease (w, kept') := by
  have hshows := LeaseLog.phase_shows w.log lease
  rcases mem_workPhases.mp (h.mine lease rfl) with hphase | hphase
  · rw [hphase] at hshows
    left
    exact { h with
      kept := hkept.mpr hshows.2.1
      mine := fun other hother => by
        obtain rfl := Option.some.inj hother
        exact List.mem_singleton.mpr hphase }
  · rw [hphase] at hshows
    exact .inr ⟨fun hk => hkept.mp hk hshows.2.1, h.booked, hphase⟩

theorem dispatched_of_act (w : TurnWorld) (env : TurnEnv) (lease : Nat) :
    (lease, .dispatched) ∈ (w.act env lease).log ↔
      env.dispatched = true ∨ (lease, .dispatched) ∈ w.log := by
  unfold TurnWorld.act TurnWorld.await TurnWorld.note
  cases env.dispatched <;> simp

theorem safeE_undoStep {spec : UndoPlanStep}
    (h : Stands config (.inHand (some lease) workPhases) x) :
    SafeE (S := leaseSpec config) (perform (.undoStep lease spec))
      (fun _ => Stands config (.inHand (some lease) workPhases))
      (fun _ => Stopped config lease) x := by
  refine safeE_op (h.namesInHand work_out rfl) fun env => ?_
  have hact := h.act rfl (List.Subset.refl _) env
  change Ends _ _ (env.answer (.undoStep lease spec)) (x.1.act env lease, x.2 ∧ (_ ∨ _))
  cases hanswer : env.answer (.undoStep lease spec) with
  | ok step => exact hact.congr (and_iff_left (.inl ⟨step, rfl⟩)).symm
  | error e =>
    refine Stands.stopped hact ?_
    rw [dispatched_of_act, not_or, Bool.not_eq_true, and_iff_right h.kept]
    refine ⟨fun hkept => ?_, .inr⟩
    rcases hkept with ⟨step, hok⟩ | hkept
    · cases hok
    · exact hkept

theorem safeE_listUndoSteps (h : Stands config (.inHand (some lease) workPhases) x) :
    SafeE (S := leaseSpec config) (perform (.listUndoSteps lease))
      (fun _ => Stands config (.inHand (some lease) workPhases))
      (fun _ => Stopped config lease) x := by
  refine safeE_op nofun fun env => ?_
  have hawait := h.await env.others
  change Ends _ _ (env.answer (.listUndoSteps lease)) (x.1.await env.others, x.2 ∧ (_ ∨ _))
  cases hanswer : env.answer (.listUndoSteps lease) with
  | ok n => exact hawait.congr (and_iff_left (.inl ⟨n, rfl⟩)).symm
  | error e =>
    refine Stands.stopped hawait ?_
    rw [and_iff_right h.kept]
    refine ⟨fun hkept => ?_, .inr⟩
    rcases hkept with ⟨n, hok⟩ | hkept
    · cases hok
    · exact hkept

theorem safeE_prepareUndoStep {s : Standing} {spec : UndoPlanStep} (h : Stands config s x) :
    SafeE (S := leaseSpec config) (prepareUndoStep spec) (fun _ => Stands config s) E x := by
  unfold prepareUndoStep
  split
  · exact safeE_bind (safeE_tried (o := .prepareTransition spec.ref) rfl h)
      fun _ _ hy => safeE_pure hy
  · exact safeE_pure h

theorem safeE_reverseSteps {steps : List UndoPlanStep} {p : UndoProgress}
    (h : Stands config (.inHand (some lease) workPhases) x) :
    SafeE (S := leaseSpec config) (reverseSteps lease steps p)
      (fun _ => Stands config (.inHand (some lease) workPhases))
      (fun _ => Stopped config lease) x := by
  induction steps generalizing p x with
  | nil => exact safeE_pure h
  | cons spec rest ih =>
    refine safeE_bind (safeE_prepareUndoStep h) fun ready y hy => ?_
    cases ready with
    | false => exact safeE_pure hy
    | true =>
      refine safeE_bind (safeE_undoStep hy) fun step z hz => ?_
      simp only
      split
      · exact ih hz
      · exact safeE_pure hz

variable {refs : List EntityRef}

theorem safeE_reverseCreationDurably (h : Stands config (.inHand (some lease) [.held]) x) :
    SafeE (S := leaseSpec config) (reverseCreationDurably lease refs)
      (fun _ => Stands config (.inHand (some lease) workPhases))
      (fun _ => Stopped config lease) x := by
  unfold reverseCreationDurably
  split
  · exact safeE_pure h.working
  · refine safeE_bind (SafeE.rethrow (safeE_quiet (o := .checkUndoPolicy) rfl h)
      fun _ _ he => .inl he) fun denial y hy => ?_
    cases denial with
    | some denial => exact safeE_pure (Stands.working hy)
    | none =>
      refine safeE_bind (SafeE.rethrow (safeE_quiet (o := .openUndoScope) rfl hy)
        fun _ _ he => .inl he) fun _ z hz => ?_
      refine safeE_bind (safeE_reverseSteps (Stands.working hz)) fun p v hv => ?_
      simp only
      split
      · exact safeE_bind (safeE_listUndoSteps hv) fun _ u hu => safeE_pure hu
      · exact safeE_pure hv

theorem safeE_settleUndo {status : UndoOutcome}
    (h : Stands config (.inHand (some lease) workPhases) x) :
    SafeE (S := leaseSpec config) (settleUndo lease status)
      (fun _ => Stands config (.inHand (some lease) [.recorded])) E x := by
  refine safeE_storedOrGivenUp (fun y hy => ?_) (fun y hy => ?_) h
  · exact safeE_recording hy (hy.namesInHand work_out rfl) (fun _ => rfl) (fun _ => trivial)
      (hy.record rfl (List.Subset.refl _) (.inl rfl))
  · exact safeE_reporting (hy.namesInHand work_out rfl) (fun _ => rfl) (fun _ => trivial)
      (hy.record rfl (List.Subset.refl _) (.inr rfl))

theorem safeE_executeUndoCommit (h : Stands config (.inHand (some lease) [.held]) x) :
    SafeE (S := leaseSpec config) (executeUndoCommit lease refs)
      (fun _ => Stands config (.inHand (some lease) [.held, .recorded]))
      (fun _ => Stopped config lease) x := by
  refine safeE_bind (SafeE.rethrow (safeE_quiet (o := .startUndoOperation) rfl h)
    fun _ _ he => .inl he) fun started y hy => ?_
  cases started with
  | none => exact safeE_pure (Stands.weaken hy (by simp [Standing.inHand]))
  | some operationId =>
    refine safeE_bind (safeE_reverseCreationDurably hy) fun undo z hz => ?_
    refine safeE_bind (safeE_settleUndo hz) fun resultRef v hv => safeE_pure ?_
    exact Stands.weaken hv (by simp [Standing.inHand])

theorem safeE_releaseStopped (h : Stopped config lease x) :
    SafeE (S := leaseSpec config) (perform (.release lease)) (fun _ => Ended config) E x := by
  rcases h with h | ⟨hkept, hbooked, hphase⟩
  · exact SafeE.weaken (safeE_giveBack h (by simp)) (fun _ _ hy => .inl hy)
  · have hshows := LeaseLog.phase_shows x.1.log lease
    rw [hphase] at hshows
    obtain ⟨hacquired, hdispatched, hstored, hgivenUp, hreleased⟩ := hshows
    refine safeE_op ?_ fun env => .inr ⟨?_, hbooked.release hacquired, lease, ?_, ?_⟩
    · intro other hother
      obtain rfl := Option.some.inj hother
      exact ⟨hacquired, hreleased⟩
    · exact fun hafter => hkept hafter.1
    · exact List.mem_append_left _ hacquired
    · apply LeaseLog.not_settled_of_unrecorded (List.mem_append_left _ hdispatched)
      · show (lease, LeaseEvent.stored) ∉ x.1.log ++ [(lease, LeaseEvent.released)]
        simp [hstored]
      · show (lease, LeaseEvent.givenUp) ∉ x.1.log ++ [(lease, LeaseEvent.released)]
        simp [hgivenUp]

theorem safeE_undoLeased (h : Stands config (.inHand (some lease) [.held]) x) :
    SafeE (S := leaseSpec config) (undoLeased lease refs)
      (fun _ => Ended config) (fun _ => Ended config) x := by
  refine safeE_ensuring (Q := fun _ => Stands config (.inHand (some lease) [.held, .recorded]))
    (E := fun _ => Stopped config lease) ?_ ?_ fun _ y hy => safeE_releaseStopped hy
  · refine safeE_bind (safeE_executeUndoCommit h) fun done y hy => ?_
    match done with
    | none => exact safeE_pure hy
    | some (undo, resultRef) =>
      exact safeE_bind (safeE_auditResult hy) fun _ z hz => safeE_pure hz
  · intro _ y hy
    exact SafeE.weaken (safeE_giveBack hy (by simp)) (fun _ _ hz => .inl hz)

theorem safeE_executeUndo (h : Stands config (.inHand none []) x) :
    SafeE (S := leaseSpec config) (executeUndo refs)
      (fun _ => Ended config) (fun _ => Ended config) x := by
  refine safeE_bind (SafeE.rethrow (safeE_quiet (o := .checkUndo) rfl h)
    fun _ _ he => .inl (Stands.atRest he)) fun rejection y hy => ?_
  cases rejection with
  | some rejection => exact safeE_pure (.inl hy.atRest)
  | none =>
    refine safeE_bind (safeE_caught (safeE_acquire hy rfl)) fun granted z hz => ?_
    cases granted with
    | error e =>
      have hz : Stands config (.inHand none []) z := hz
      simp only
      split
      · exact safeE_pure (.inl hz.atRest)
      · exact safeE_throw (.inl hz.atRest)
    | ok lease =>
      have hz : Stands config (.inHand (some lease) [.held]) z := hz
      refine safeE_bind (safeE_leaseAborted lease hz) fun aborted v hv => ?_
      cases aborted with
      | true =>
        exact safeE_bind (safeE_giveBack hv (by simp)) fun _ u hu => safeE_pure (.inl hu)
      | false => exact safeE_undoLeased hv

end Undoing

section Requests

theorem safeE_handle (request : TurnRequest) (h : Stands config (.inHand none []) x) :
    SafeE (S := leaseSpec config) (handle config request)
      (fun _ => Ended config) (fun _ => Ended config) x := by
  have hchat : ∀ {α : Type} {m : Turn α},
      SafeE (S := leaseSpec config) m (fun _ => Stands config .rest)
        (fun _ => Stands config .rest) x →
      SafeE (S := leaseSpec config) (do let _ ← m) (fun _ => Ended config)
        (fun _ => Ended config) x := by
    intro α m hm
    exact safeE_bind (SafeE.rethrow hm fun _ _ he => .inl he)
      fun _ y hy => safeE_pure (.inl hy)
  cases request with
  | agentic messages narrowed => exact hchat (safeE_runAgenticTurn h.atRest)
  | planned narrowed => exact hchat (safeE_runPlannedTurn h.atRest)
  | resume messages => exact hchat (safeE_runResume h.atRest)
  | confirm messages => exact safeE_bind (safeE_confirmPreview h) fun _ y hy => safeE_pure hy
  | undo reversal => exact safeE_bind (safeE_executeUndo h) fun _ y hy => safeE_pure hy

/-- A turn that starts after any history of the coordinator. -/
def TurnWorld.opened (history : List CoordinatorStep) : TurnWorld where
  coordinator := createWorkspaceMutationCoordinator.run history
  log := []
  memory := .fresh

theorem booked_opened (history : List CoordinatorStep) : Booked config (.opened history) where
  settling := MutationCoordinator.Settling.initial.run history
  resolving := MutationCoordinator.Resolving.initial.run
    MutationCoordinator.Settling.initial history
  acquired := nofun
  handle := nofun

theorem stands_opened (history : List CoordinatorStep) :
    Stands config (.inHand none []) (.opened history, True) where
  kept := trivial
  booked := booked_opened history
  marked := nofun
  owners := rfl
  ready := fun _ => rfl
  mine := nofun
  others := fun _ _ => .inl rfl

/-- Where a request stands once it has had the given answers. -/
def during (config : TurnConfig) (history : List CoordinatorStep) (request : TurnRequest)
    (envs : List TurnEnv) : TurnWorld :=
  (turnServer config).interrupt (handle config request).run envs (.opened history)

/-- Every lease is released once, after the outcome of its work was recorded; so the drains of
the workspace are resolved when no other lease is out, and an uninstall that has drained
finds the outcome of everything dispatched so far on record. -/
structure Conserved (config : TurnConfig) (history : List CoordinatorStep) (request : TurnRequest)
    (envs : List TurnEnv) (after : TurnWorld) : Prop where
  settled : ∀ lease, (lease, .acquired) ∈ after.log → after.log.Settled lease
  drains : ∀ d drain, after.coordinator.drains d = some drain →
    drain.workspaceId = config.workspaceId →
    (∀ lease handle, after.coordinator.handles lease = some handle →
      handle.workspaceId = config.workspaceId → (lease, .acquired) ∉ after.log →
      handle.released = true) →
    after.coordinator.drained d = true
  recorded : ∀ n d,
    (during config history request (envs.take n)).coordinator.deletions config.workspaceId = some d →
    (during config history request (envs.take n)).coordinator.drained d = true →
    ∀ lease, (lease, .dispatched) ∈ (during config history request (envs.take n)).log →
      (lease, .stored) ∈ (during config history request (envs.take n)).log ∨
        (lease, .givenUp) ∈ (during config history request (envs.take n)).log

theorem booked_during (history : List CoordinatorStep) (request : TurnRequest)
    (envs : List TurnEnv) : Booked config (during config history request envs) := by
  refine Safe.interrupt_watched (S := leaseSpec config) (fun _ => rfl) (fun _ _ _ => trivial) ?_
    (safeE_handle request (stands_opened history)) (booked_opened history)
  exact fun o env w kept hpre hbooked => hbooked.exec hpre

theorem Stands.settled (h : Stands config .rest x) (hlease : (lease, .acquired) ∈ x.1.log) :
    x.1.log.Settled lease := by
  have hshows := LeaseLog.phase_shows x.1.log lease
  rcases h.others lease (by simp [Standing.rest]) with habsent | hreleased
  · rw [habsent] at hshows
    exact absurd hlease (hshows .acquired)
  · exact LeaseLog.settled_of_phase hreleased

theorem Booked.conserved {history : List CoordinatorStep} {request : TurnRequest}
    {envs : List TurnEnv} {after : TurnWorld} (h : Booked config after)
    (hlog : ∀ n, (during config history request (envs.take n)).log <+: after.log)
    (hsettled : ∀ lease, (lease, .acquired) ∈ after.log → after.log.Settled lease) :
    Conserved config history request envs after where
  settled := hsettled
  drains := by
    intro d drain hdrain hworkspace hothers
    refine h.resolving.drained h.settling hdrain fun lease handle hhandle hw => ?_
    by_cases hlease : (lease, .acquired) ∈ after.log
    · obtain ⟨handle', hhandle', -, hreleased⟩ := h.handle lease hlease
      obtain rfl := Option.some.inj (hhandle.symm.trans hhandle')
      refine hreleased.mpr (List.count_pos_iff.mp ?_)
      rw [(hsettled lease hlease).released_once]
      exact Nat.one_pos
    · exact hothers lease handle hhandle (hw.trans hworkspace) hlease
  recorded := by
    intro n d hdeletion hdrained lease hdispatched
    have hbooked : Booked config (during config history request (envs.take n)) :=
      booked_during history request (envs.take n)
    have hacquired := hbooked.acquired lease .dispatched hdispatched
    obtain ⟨handle, hhandle, hworkspace, hreleased⟩ := hbooked.handle lease hacquired
    have hout := hbooked.settling.no_lease_out hdeletion hdrained hhandle hworkspace
    exact (hsettled lease ((hlog n).subset hacquired)).recorded_where_seen (hlog n)
      (hreleased.mp hout) hdispatched

/-- A request conserves its leases exactly when no claim of a preview throws under its lease
and no undo throws once it reached the host. -/
theorem leases_conserved (config : TurnConfig) (history : List CoordinatorStep)
    (request : TurnRequest) (envs : List TurnEnv) (result : Except TurnError Unit)
    (after : TurnWorld)
    (hplay : (turnServer config).play (handle config request).run envs (.opened history) =
      some (result, after)) : Conserved config history request envs after ↔
      (turnServer config).Along LeaseKept (handle config request).run envs (.opened history) := by
  obtain ⟨kept, hkept, hmeets⟩ := Safe.play_watched (S := leaseSpec config) (fun _ => rfl)
    (fun _ _ _ => trivial) (safeE_handle request (stands_opened history)) hplay
  rw [true_and] at hkept
  rw [← hkept]
  have hended : Ended config (after, kept) := by cases result <;> exact hmeets
  have hlog : ∀ n, (during config history request (envs.take n)).log <+: after.log :=
    Server.interrupt_related (R := fun w w' : TurnWorld => w.log <+: w'.log)
      (fun _ => List.prefix_refl _) List.IsPrefix.trans
      (fun o env w => TurnOp.log_exec config o env w) hplay
  rcases hended with hstands | ⟨hlost, -, lease, hacquired, hunsettled⟩
  · refine iff_of_true ?_ hstands.kept
    exact hstands.booked.conserved hlog fun lease hlease => hstands.settled hlease
  · exact iff_of_false (fun hconserved => hunsettled (hconserved.settled lease hacquired)) hlost

end Requests

section Runs

def busyError : TurnError := ⟨.other, "database is locked"⟩

def sampleConfig : TurnConfig where
  workspaceId := 1
  generation := 1
  getAction := fun _ => none
  suggestActionNames := fun _ => []
  intentCapabilitiesEnforced := false
  intentCapability := none
  adjacentCreatedProject := none
  journaled := true
  maxSteps := 8
  maxToolCallsPerStep := 4

/-- A host that reverses what it is asked to, and a store that fails where it is told to. -/
def answering (claim : Except TurnError Bool) (rows : Except TurnError Nat) :
    (o : TurnOp) → Except TurnError o.Val
  | .checkUndo => .ok none
  | .startUndoOperation => .ok (some 1)
  | .checkUndoPolicy => .ok none
  | .openUndoScope => .ok ()
  | .undoStep _ _ => .ok ⟨.succeeded, false⟩
  | .listUndoSteps _ => rows
  | .settleUndoOperation _ _ => .ok 1
  | .addAuditEvent _ => .ok ()
  | .checkConfirmation => .ok none
  | .markConfirmationExecuting => claim
  | _ => .error busyError

def undoTag : TurnRequest := .undo [⟨"tag", "t1", none⟩]

theorem leaseKept_answering (o : TurnOp) (w : TurnWorld) :
    LeaseKept o ⟨answering (.ok true) (.ok 1), false, true, []⟩ w := by
  cases o with
  | markConfirmationExecuting => exact ⟨true, rfl⟩
  | undoStep lease spec => exact .inl ⟨_, rfl⟩
  | listUndoSteps lease => exact .inl ⟨1, rfl⟩
  | _ => trivial

/-- The undo of a tag: it is deleted, the rows of the journal are counted, and the outcome is
stored before the lease is released. -/
theorem leases_conserved_undo : ∃ result after,
    (turnServer sampleConfig).play (handle sampleConfig undoTag).run
      (List.replicate 11 ⟨answering (.ok true) (.ok 1), false, true, []⟩) (.opened []) =
        some (result, after) ∧ (0, .dispatched) ∈ after.log ∧ Conserved sampleConfig [] undoTag
      (List.replicate 11 ⟨answering (.ok true) (.ok 1), false, true, []⟩) after := by
  refine ⟨_, _, rfl, by decide, ?_⟩
  refine (leases_conserved sampleConfig [] undoTag _ _ _ rfl).mpr ?_
  exact Server.along_replicate leaseKept_answering _ 11 _

/-- A claim that throws leaves its lease out for good; an undo that throws when it counts the
rows of its journal releases a lease whose dispatched work is on record nowhere. -/
theorem leases_lost : (∃ result after,
      (turnServer sampleConfig).play (handle sampleConfig (.confirm [])).run
        (List.replicate 4 ⟨answering (.error busyError) (.ok 1), false, true, []⟩) (.opened []) =
          some (result, after) ∧ (0, .acquired) ∈ after.log ∧ (0, .released) ∉ after.log ∧
      ¬ Conserved sampleConfig [] (.confirm [])
        (List.replicate 4 ⟨answering (.error busyError) (.ok 1), false, true, []⟩) after) ∧
    ∃ result after, (turnServer sampleConfig).play (handle sampleConfig undoTag).run
        (List.replicate 9 ⟨answering (.ok true) (.error busyError), false, true, []⟩) (.opened []) =
          some (result, after) ∧ (0, .dispatched) ∈ after.log ∧ (0, .released) ∈ after.log ∧
      (0, .stored) ∉ after.log ∧ (0, .givenUp) ∉ after.log ∧ ¬ Conserved sampleConfig [] undoTag
        (List.replicate 9 ⟨answering (.ok true) (.error busyError), false, true, []⟩) after := by
  constructor
  · refine ⟨_, _, rfl, by decide, by decide, fun hconserved => ?_⟩
    exact LeaseLog.not_settled_of_unreleased (by decide) (hconserved.settled 0 (by decide))
  · refine ⟨_, _, rfl, by decide, by decide, by decide, by decide, fun hconserved => ?_⟩
    exact LeaseLog.not_settled_of_unrecorded (by decide) (by decide) (by decide)
      (hconserved.settled 0 (by decide))

end Runs

end TurnMachinery

end ClockifyAssistant
