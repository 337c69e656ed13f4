import ClockifyAssistant.Refinement.Recovery

/-!
Undo as moves: its operation has no confirmation, starts executing and is settled
once with a result of its own.
-/
namespace ClockifyAssistant

open Lib Txn Lifecycle

variable {π : Policy} {base : Nat}

section Preparation

variable {db : Db}

theorem Db.core_insertOperation {row : OperationRun} {h : db.operations.get? (key row) = none} :
    ({ db with operations := db.operations.insert row h } : Db).core =
      db.core.setOp row.id row.view := by
  simp only [core, Core.setOp]
  rw [get?_insert_map OperationRun.view]
  rfl

theorem wp_prepareOperationRun_core {input : PrepareOperationRunInput} {now : Time}
    {Q : OperationId → Db → Prop}
    (hQ : ∀ db', db'.core = db.core.setOp input.id ⟨input.confirmationId, .prepared, none⟩ →
      Q input.id db') : wp (prepareOperationRun input now) Q (fun _ => True) db := by
  unfold prepareOperationRun
  rw [wp_bind, wp_get, wp_bind, wp_require]
  refine ⟨fun _ => ?_, fun _ => trivial⟩
  rw [wp_bind, wp_require]
  refine ⟨fun _ => ?_, fun _ => trivial⟩
  dsimp only
  split
  · exact hQ _ Db.core_insertOperation
  · trivial

end Preparation

theorem untouched_updateUndo {id : UndoId} {p : UndoRecord → Bool} {f : UndoRecord → UndoRecord}
    {hf : ∀ u, key (f u) = key u} : Untouched (updateUndo id p f hf) := by
  refine within_get_bind fun db => ?_
  split
  · exact SameCore.refl db
  · exact SameCore.refl db

theorem untouched_getUndoRecord (id : UndoId) (now : Time) : Untouched (getUndoRecord id now) :=
  untouched_bind untouched_updateUndo fun _ => within_get_bind fun db => SameCore.refl db

theorem refines_recordUndoable (scope : SessionScope) (reversal : Json) (now : Time) :
    Refines π base (recordUndoable scope reversal now) := by
  refine refines_bind refines_mintId fun id => refines_get fun db => ?_
  dsimp only
  split
  · exact Steps.refl db
  · trivial

theorem wp_startUndoOperation {db db₁ : Db} {input : PrepareOperationRunInput} (id : UndoId)
    (now : Time) (hcore : db₁.core = { db.core with nextId := db.nextId + 1 })
    (hid : input.id = db.nextId) (hconf : input.confirmationId = none) :
    wp (startUndoOperation id input now) (fun _ db' => Steps π base db db') (fun _ => True) db₁ := by
  have hmint : Steps π base db db₁ := Steps.move fun _ => (Move.mint db.core).of_eq hcore
  unfold startUndoOperation
  refine wp_seq (untouched_updateUndo db₁) fun taken db₂ h₂ => ?_
  have h₂ : db₂.core = db₁.core := h₂
  split
  · exact hmint.trans (Steps.of_core_eq h₂)
  · rw [wp_bind]
    refine wp_prepareOperationRun_core fun db₃ h₃ => ?_
    rw [wp_bind, markOperationExecuting]
    refine wp_updateOperationStatus_core (fun row db₄ hrow _ h₄ => ?_) fun hmiss => ?_
    · simp only [wp_bind, wp_require, true_imp_iff, not_true_eq_false, false_imp_iff, and_true,
        wp_pure]
      have hop : db₃.core.op input.id = some row.view := Db.core_op hrow
      rw [h₃, hconf] at hop
      simp only [Core.setOp, Function.update_self, Option.some.injEq, OperationRun.view,
        OpView.mk.injEq] at hop
      refine Steps.move fun _ => (Move.operation db.core).of_eq ?_
      rw [h₄, h₃, h₂, hcore, ← hop.1, ← hop.2.2, hid]
      simp only [Core.setOp, Core.addOperation, Function.update_idem]
      rfl
    · simp

theorem refines_settleUndoOperation (id : UndoId) (operationId : OperationId)
    (status : UndoOutcome) (remaining : Json) (receipt : Receipt) (now : Time) (hπ : π.settles) :
    Refines π base (settleUndoOperation id operationId status remaining receipt now) := by
  refine refines_of_inv fun db hI => ?_
  unfold settleUndoOperation
  rw [wp_bind, wp_get]
  dsimp only
  rw [wp_bind, wp_demand]
  refine ⟨fun owner howner => ?_, fun _ => trivial⟩
  obtain ⟨hrow, hguard⟩ := Option.filter_eq_some_iff.mp howner
  obtain ⟨undo, -, hguard⟩ := (Option.any_eq_true _ _).mp hguard
  simp only [Bool.and_eq_true, beq_iff_eq, Option.isNone_iff_eq_none] at hguard
  have hy : db.core.op operationId = some owner.view := Db.core_op hrow
  have hexec : owner.view.status = .executing := hguard.1.2
  have hlink : owner.view.confirmationId = none := by
    refine Option.eq_none_iff_forall_ne_some.mpr fun i hi => ?_
    exact hI.executing operationId owner.view i hy hi hexec hguard.2
  -- No confirmation is linked to the operation.
  have hfree : ∀ i x, db.core.conf i = some x → x.operationId = operationId →
      x.status ≠ .executing := by
    rintro i x hx rfl
    exact absurd ((hI.link i x _ hx hy).symm.trans hlink) (by simp)
  simp only [recordActionResult, wp_bind, wp_pure]
  refine wp_mintId_core fun db₁ h₁ => ?_
  refine wp_insertActionResult_core fun db₂ h₂ hfresh hunowned => ?_
  rw [h₁] at hfresh hunowned h₂
  refine wp_mono ((untouched_bind untouched_updateUndo fun _ => untouched_require _ _) db₂)
    (fun _ db₃ h₃ => ?_) fun _ h => h
  · refine wp_updateOperationStatus_core (fun row db₄ hrow₄ _ h₄ => ?_) (by simp)
    simp only [wp_require, true_imp_iff, not_true_eq_false, false_imp_iff, and_true]
    have h₃ : db₃.core = db₂.core := h₃
    have hrow₃ : db₃.core.op operationId = some row.view := Db.core_op hrow₄
    rw [h₃, h₂] at hrow₃
    have hlink₄ : row.confirmationId = owner.view.confirmationId :=
      congrArg OpView.confirmationId (Option.some.inj (hrow₃.symm.trans hy))
    have hrecord : Move π base { db.core with nextId := db.nextId + 1 } _ :=
      Move.record status.toKind hy hexec (hunowned _ rfl) hfresh (Nat.lt_succ_self _)
    have hsettle : Move π base db₂.core db₄.core := by
      refine (Move.settleOp (c := db₂.core) (r := db.nextId)
        (z := ⟨some operationId, status.toKind⟩) ?_ hexec ?_ rfl ?_ hπ).of_eq ?_
      · rw [h₂]
        exact hy
      · rw [h₂]
        exact Function.update_self ..
      · rw [h₂]
        exact hfree
      · rw [h₄, h₃, hlink₄]
    exact fun _ => ((Chain.single (Move.mint db.core)).trans
      (Chain.single (hrecord.of_eq h₂))).trans (Chain.single hsettle)

end ClockifyAssistant
