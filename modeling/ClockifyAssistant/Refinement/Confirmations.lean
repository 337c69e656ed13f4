import ClockifyAssistant.Refinement.View
import ClockifyAssistant.Store.Idempotency

/-!
The status changes that take a confirmation away from `pending`, as moves: each is
a drop with its trigger.
-/
namespace ClockifyAssistant

open Lib Txn Lifecycle

variable {π : Policy} {base : Nat}

section Drop

/-- The database once the prepared operation of a dropped preview has failed. -/
structure FailedUndispatched (o : OperationId) (row : OperationRun) (db db' : Db) : Prop where
  operation : db.operations.get? o = some row
  undispatched : row.undispatched = true
  fresh : db.results.get? db.nextId = none
  confirmations : db'.confirmations = db.confirmations
  result : (db'.operationResult o).map ActionResult.id = some db.nextId
  core : db'.core = (({ db.core with nextId := db.nextId + 1 } : Core).setOp o
    ⟨row.confirmationId, .definitiveFailed, some db.nextId⟩).setRes db.nextId
      ⟨some o, .definitiveFailed⟩

theorem wp_failUndispatchedOperation {db : Db} {o : OperationId} {status : PendingStatus}
    {now : Time} {Q : Unit → Db → Prop}
    (hnone : (db.operations.get? o).filter OperationRun.undispatched = none → Q () db)
    (hsome : ∀ row db', FailedUndispatched o row db db' → Q () db') :
    wp (failUndispatchedOperation o status now) Q (fun _ => True) db := by
  unfold failUndispatchedOperation
  rw [wp_bind, wp_get]
  cases hop : (db.operations.get? o).filter OperationRun.undispatched with
  | none => exact hnone hop
  | some row =>
    obtain ⟨hrow, hundispatched⟩ := Option.filter_eq_some_iff.mp hop
    obtain rfl : row.id = o := Table.key_of_get? hrow
    simp only [mintId, wp_bind, wp_get, wp_set, wp_pure]
    refine wp_insertActionResult (fun hfresh hunique => ?_) fun _ => trivial
    have hunowned : db.operationResult row.id = none := hunique _ rfl
    refine hsome row _ ⟨hrow, hundispatched, hfresh, rfl, ?_, ?_⟩
    · refine (congrArg _ (Db.operationResult_insert (h := hfresh) row.id)).trans ?_
      rw [if_pos rfl]
      exact congrArg (fun r : Option ActionResult => (r.or _).map ActionResult.id) hunowned
    · simp only [Db.core, Core.setOp, Core.setRes]
      rw [get?_update_map OperationRun.view hrow, get?_insert_map ActionResult.view]
      rfl

/-- What a drop leaves at the confirmation it was asked to drop. -/
structure Dropped (π : Policy) (base : Nat) (id : ConfirmationId)
    (p : PendingConfirmation → Bool) (status : PendingStatus) (db : Db) (changed : Bool)
    (db' : Db) : Prop where
  steps : Steps π base db db'
  unchanged : changed = false → db' = db ∧ (db.confirmations.get? id).filter p = none
  dropped : changed = true → Inv db.core → ∃ x, db'.core.conf id = some x ∧ x.status = status

variable (π base) in
theorem wp_drop (id : ConfirmationId) {p : PendingConfirmation → Bool}
    {patch : ConfirmationPatch} (hp : ∀ c, p c = true → c.status = .pending)
    (hs : patch.status = .cancelled ∨ patch.status = .expired)
    (hr : patch.actionResultId = none) (db : Db) : wp (updateConfirmationStatus id p patch)
      (fun changed db' => Dropped π base id p patch.status db changed db') (fun _ => True) db := by
  unfold updateConfirmationStatus
  rw [wp_bind, wp_get]
  cases hold : (db.confirmations.get? id).filter p with
  | none => exact ⟨Steps.refl db, fun _ => ⟨rfl, hold⟩, fun h => Bool.noConfusion h⟩
  | some old =>
    obtain ⟨hget, hpold⟩ := Option.filter_eq_some_iff.mp hold
    obtain rfl : old.id = id := Table.key_of_get? hget
    have hpending := hp old hpold
    have hpre : preDispatch old (patch.apply old) := by
      refine ⟨hpending, ?_⟩
      rcases hs with hs | hs <;> simp [hs, PendingStatus.cancelledOrExpired]
    have hnosettle : ¬ settlesDispatched old (patch.apply old) := by
      simp [settlesDispatched, hpending]
    simp only [wp_bind, wp_require, preDispatchOperationGuard, wp_get, wp_modify,
      preDispatchTerminal, hpre, ConfirmationPatch.apply_id,
      ConfirmationPatch.apply_operationId, not_true_eq_false, ↓reduceIte, true_imp_iff,
      settlementScrubsOperation, hnosettle, not_false_eq_true, wp_pure, implies_true, and_true]
    intro _ hguard
    refine wp_failUndispatchedOperation (fun hop => ?_) fun row db' h => ?_
    · -- The guard lets a drop pass without its operation only when there is none.
      have hnone : db.operations.get? old.operationId = none := by
        cases hrow : db.operations.get? old.operationId with
        | none => rfl
        | some row => simp_all
      have hmove : Move π base _ _ :=
        Move.dropOrphan (Db.core_conf hget) hpending hs (Db.core_op_none hnone)
      let db₁ : Db :=
        { db with confirmations := db.confirmations.update old.id patch.apply patch.key_apply }
      have hget₁ : db₁.confirmations.get? old.id = some (patch.apply old) := by
        simp [db₁, hget]
      have hcore (hI : Inv db.core) : (db₁.adoptOperationResult old.id old.operationId).core =
          db.core.setConf old.id { old.view with status := patch.status } := by
        have hunowned := (hI.pending _ _ (Db.core_conf hget) hpending).2.1
        have hresult : db₁.operationResult old.operationId = none :=
          Db.operationResult_eq_none.mpr hunowned
        rw [Db.core_adoptOperationResult hget₁, hresult, Db.core_updateConfirmation hget]
        simp [Core.setConf, PendingConfirmation.view, hr]
      exact ⟨fun hI => Chain.single (hmove.of_eq (hcore hI)), fun h => Bool.noConfusion h, fun _ hI =>
        ⟨_, (congrFun (congrArg Core.conf (hcore hI)) old.id).trans (Function.update_self ..), rfl⟩⟩
    · have hundispatched : row.status = .prepared ∧ row.actionResultId = none := by
        simpa [OperationRun.undispatched] using h.undispatched
      have hmove : Move π base _ _ :=
        Move.drop (c := { db.core with nextId := db.nextId + 1 }) (Db.core_conf hget) hpending hs
          (Db.core_op h.operation) hundispatched.1 hundispatched.2 (Db.core_res_none h.fresh)
          (Nat.lt_succ_self _)
      have hget' : db'.confirmations.get? old.id = some (patch.apply old) := by
        rw [h.confirmations]
        simp [hget]
      have hcore : (db'.adoptOperationResult old.id old.operationId).core =
          db'.core.setConf old.id { old.view with
            status := patch.status, resultId := old.actionResultId <|> some db.nextId } := by
        rw [Db.core_adoptOperationResult hget', h.result]
        simp [PendingConfirmation.view, hr]
      refine ⟨Steps.trans (refines_mintId db) fun hI => Chain.single (hmove.of_eq ?_),
        fun h => Bool.noConfusion h,
        fun _ _ => ⟨_, (congrFun (congrArg Core.conf hcore) old.id).trans
          (Function.update_self ..), rfl⟩⟩
      have hnone : old.actionResultId = none :=
        (hI.pending _ _ (Db.core_conf hget) hpending).1
      rw [hcore, h.core, Db.core_updateConfirmation hget]
      simp [Core.setConf, Core.setOp, Core.setRes, PendingConfirmation.view, OperationRun.view,
        hnone, Db.core]

variable (π base) in
/-- Once cancelled, or found no longer pending, a confirmation is not pending. -/
theorem wp_cancelConfirmation (id : ConfirmationId) (now : Time) (db : Db) :
    wp (cancelConfirmation id now) (fun _ db' => Steps π base db db' ∧ (Inv db.core →
        ∀ x, db'.core.conf id = some x → x.status ≠ .pending)) (fun _ => True) db := by
  refine wp_mono (wp_drop π base id (p := fun c => c.status == .pending) (by simp) (.inl rfl) rfl db)
    (fun changed db' h => ⟨h.steps, fun hI x hx => ?_⟩) fun _ _ => trivial
  cases changed with
  | false =>
    obtain ⟨rfl, hnone⟩ := h.unchanged rfl
    obtain ⟨row, hrow, rfl⟩ := Option.map_eq_some_iff.mp hx
    simpa [hrow] using hnone
  | true =>
    obtain ⟨x', hx', hs⟩ := h.dropped rfl hI
    obtain rfl := Option.some.inj (hx'.symm.trans hx)
    simp [hs, cancelledPatch]

end Drop

section Ledger

theorem refines_fillOpenClaim (ledgerKey : LedgerKey) (scope : SessionScope)
    (resultId : ResultId) (now : Time) :
    Refines π base (fillOpenClaim ledgerKey scope resultId now) := by
  refine refines_get fun db => ?_
  split
  · exact Steps.refl db
  · exact Steps.of_core_eq rfl

end Ledger

end ClockifyAssistant
