import ClockifyAssistant.UndoPairs
import ClockifyAssistant.Refinement.Undo

/-!
The undo ledger of a database. A statement on a confirmation writes only the
operation that names it, so it spares the operations of undos, which name none.
-/
namespace ClockifyAssistant

open Lib Txn Lifecycle

@[simps] def UndoRecord.entry (u : UndoRecord) : UndoEntry := ⟨u.scope, u.status, u.actionResultId⟩

def OperationRun.reversal (o : OperationRun) : Option UndoReversal :=
  if o.actionName = "undo" then
    some ⟨o.scope, o.confirmationId, o.envelope.bind OperationEnvelope.undoId, o.status,
      o.actionResultId⟩
  else none

def Db.undoPairs (db : Db) : UndoPairs where
  entry := fun u => (db.undos.get? u).map UndoRecord.entry
  reversal := fun o => (db.operations.get? o).bind OperationRun.reversal
  owned := fun o => (db.operationResult o).isSome

open UndoPairs

variable {db db' db'' : Db}

section Writes

theorem Db.undoPairs_eq (hundos : db'.undos = db.undos)
    (hoperations : db'.operations = db.operations)
    (hresults : db'.results = db.results) : db'.undoPairs = db.undoPairs := by
  simp only [undoPairs, operationResult, hundos, hoperations, hresults]

theorem Db.undoPairs_entry {u : UndoId} {row : UndoRecord} (h : db.undos.get? u = some row) :
    db.undoPairs.entry u = some row.entry := by
  simp [undoPairs, h]

variable {row : OperationRun}

theorem Db.undoPairs_reversal {o : OperationId}
    (h : db.operations.get? o = some row) : db.undoPairs.reversal o = row.reversal := by
  simp [undoPairs, h]

theorem Db.undoPairs_updateUndo {u : UndoId} {row : UndoRecord} {f : UndoRecord → UndoRecord}
    {hf : ∀ r, key (f r) = key r} (h : db.undos.get? u = some row) :
    ({ db with undos := db.undos.update u f hf } : Db).undoPairs =
      db.undoPairs.setEntry u (some (f row).entry) := by
  simp only [undoPairs, setEntry]
  rw [get?_update_map UndoRecord.entry h]
  rfl

theorem Db.undoPairs_insertUndo {row : UndoRecord} {h : db.undos.get? (key row) = none} :
    ({ db with undos := db.undos.insert row h } : Db).undoPairs =
      db.undoPairs.setEntry row.id (some row.entry) := by
  simp only [undoPairs, setEntry]
  rw [get?_insert_map UndoRecord.entry]
  rfl

theorem Db.undoPairs_updateOperation {o : OperationId}
    {f : OperationRun → OperationRun} {hf : ∀ r, key (f r) = key r}
    (h : db.operations.get? o = some row) :
    ({ db with operations := db.operations.update o f hf } : Db).undoPairs =
      db.undoPairs.setReversal o (f row).reversal := by
  refine UndoPairs.ext rfl (funext fun o' => ?_) rfl
  simp only [undoPairs, setReversal, Table.get?_update]
  by_cases heq : o' = o
  · subst heq
    simp [h]
  · simp [heq]

theorem Db.undoPairs_insertOperation {h : db.operations.get? (key row) = none} :
    ({ db with operations := db.operations.insert row h } : Db).undoPairs =
      db.undoPairs.setReversal row.id row.reversal := by
  refine UndoPairs.ext rfl (funext fun o' => ?_) rfl
  simp only [undoPairs, setReversal, Table.get?_insert]
  by_cases heq : o' = row.id
  · rw [if_pos (show o' = key row from heq), heq, Function.update_self]
    rfl
  · rw [if_neg (show ¬o' = key row from heq), Function.update_of_ne heq]

theorem Db.undoPairs_insertResult {r : ActionResult} {h : db.results.get? (key r) = none} :
    ({ db with results := db.results.insert r h } : Db).undoPairs =
      match r.operationId with
      | some o => db.undoPairs.record o
      | none => db.undoPairs := by
  have howned : ∀ o, (({ db with results := db.results.insert r h } : Db).operationResult o).isSome =
      ((db.operationResult o).isSome || decide (r.operationId = some o)) := by
    intro o
    rw [Db.operationResult_insert]
    by_cases heq : r.operationId = some o <;> simp [heq]
  cases hr : r.operationId with
  | none =>
    refine UndoPairs.ext rfl rfl (funext fun o => ?_)
    exact (howned o).trans (by simp [hr, undoPairs])
  | some o =>
    refine UndoPairs.ext rfl rfl (funext fun o' => (howned o').trans ?_)
    by_cases heq : o' = o
    · subst heq
      simp [hr, UndoPairs.record]
    · simp [hr, UndoPairs.record, undoPairs, heq, Ne.symm heq]

end Writes

section Statements

theorem OperationRun.withStatus_actionName (o : OperationRun) (status : OperationRunStatus)
    (r : Option ResultId) (now : Time) : (o.withStatus status r now).actionName = o.actionName := by
  unfold withStatus terminalScrub
  split <;> rfl

theorem OperationRun.reversal_eq_none {o : OperationRun} :
    o.reversal = none ↔ o.actionName ≠ "undo" := by
  unfold reversal
  split <;> simp_all

theorem OperationRun.of_reversal {o : OperationRun} {y : UndoReversal} (h : o.reversal = some y) :
    o.actionName = "undo" ∧ y = ⟨o.scope, o.confirmationId,
      o.envelope.bind OperationEnvelope.undoId, o.status, o.actionResultId⟩ := by
  unfold reversal at h
  split at h
  · exact ⟨‹_›, (Option.some.inj h).symm⟩
  · cases h

/-- A status written to the operation of an undo touches nothing else it has. -/
theorem OperationRun.reversal_withStatus {o : OperationRun} {status : OperationRunStatus}
    {r : Option ResultId} {now : Time} (h : ∀ y, o.reversal = some y → y.confirmationId = none) :
    (o.withStatus status r now).reversal =
      o.reversal.map fun y => { y with status, resultId := r } := by
  by_cases hname : o.actionName = "undo"
  · have hreversal : o.reversal = some ⟨o.scope, o.confirmationId,
        o.envelope.bind OperationEnvelope.undoId, o.status, o.actionResultId⟩ := if_pos hname
    have hnone : o.confirmationId = none := h _ hreversal
    simp [withStatus, terminalScrub, reversal, hname, hnone]
  · have hnone : (o.withStatus status r now).reversal = none := by
      rw [reversal_eq_none, withStatus_actionName]
      exact hname
    rw [hnone, reversal_eq_none.mpr hname]
    rfl

def UndoPairs.Unconfirmed (v : UndoPairs) : Prop :=
  ∀ o y, v.reversal o = some y → y.confirmationId = none

theorem wp_updateOperationStatus_pairs {o : OperationId} {p : OperationRun → Bool}
    {status : OperationRunStatus} {r : ResultId} {now : Time} {Q : Bool → Db → Prop}
    {E : StoreError → Prop} (hfree : db.undoPairs.Unconfirmed)
    (htrue : ∀ row db', db.operations.get? o = some row → p row = true →
      db'.undoPairs = db.undoPairs.settleReversal o status r → Q true db')
    (hfalse : (∀ row, db.operations.get? o = some row → p row = false) → Q false db) :
    wp (updateOperationStatus o p status (fun _ => some r) now) Q E db := by
  rw [wp_updateOperationStatus]
  split
  · rename_i hany
    obtain ⟨row, hrow, hp⟩ := (Option.any_eq_true _ _).mp hany
    refine htrue row _ hrow hp ?_
    rw [Db.undoPairs_updateOperation hrow, settleReversal, Db.undoPairs_reversal hrow,
      OperationRun.reversal_withStatus]
    intro y hy
    exact hfree o y ((Db.undoPairs_reversal hrow).trans hy)
  · rename_i hany
    refine hfalse fun row hrow => ?_
    simpa [hrow] using hany

theorem wp_updateUndo_pairs {u : UndoId} {p : UndoRecord → Bool} {f : UndoRecord → UndoRecord}
    {hf : ∀ r, key (f r) = key r} {Q : Bool → Db → Prop} {E : StoreError → Prop}
    (htrue : ∀ row db', db.undos.get? u = some row → p row = true →
      db'.undoPairs = db.undoPairs.setEntry u (some (f row).entry) → Q true db')
    (hfalse : (∀ row, db.undos.get? u = some row → p row = false) → Q false db) :
    wp (updateUndo u p f hf) Q E db := by
  unfold updateUndo
  rw [wp_bind, wp_get]
  split
  · rename_i hmiss
    refine hfalse fun row hrow => ?_
    simpa [hrow] using hmiss
  · rename_i hany
    obtain ⟨row, hrow, hp⟩ := (Option.any_eq_true _ _).mp (by simpa using hany)
    exact htrue row _ hrow hp (Db.undoPairs_updateUndo hrow)

theorem wp_insertActionResult_pairs {r : ActionResult} {Q : Unit → Db → Prop}
    (hQ : ∀ db', db'.undoPairs = (match r.operationId with
        | some o => db.undoPairs.record o
        | none => db.undoPairs) → Q () db') :
    wp (insertActionResult r) Q (fun _ => True) db :=
  wp_insertActionResult (fun _ _ => hQ _ Db.undoPairs_insertResult) fun _ => trivial

end Statements

section Confirmations

variable {o : OperationId}

theorem UndoPairs.Fades.reversal_none {v v' : UndoPairs} (h : v.Fades v')
    (hnone : v.reversal o = none) : v'.reversal o = none := by
  cases hy : v'.reversal o with
  | none => rfl
  | some y => exact absurd ((h.reversal o y hy).1.symm.trans hnone) (by simp)

theorem UndoPairs.Fades.unconfirmed {v v' : UndoPairs} (h : v.Fades v') (hfree : v.Unconfirmed) :
    v'.Unconfirmed :=
  fun o y hy => hfree o y (h.reversal o y hy).1

theorem UndoPairs.fades_record {v : UndoPairs} (hnone : v.reversal o = none) :
    v.Fades (v.record o) := by
  refine ⟨fun _ e h => ⟨e, h, .inl rfl⟩, fun o' y hy => ⟨hy, fun howned => ?_⟩⟩
  have hne : o' ≠ o := by
    rintro rfl
    exact absurd (hnone.symm.trans hy) (by simp)
  rw [← howned]
  exact (Function.update_of_ne hne _ _).symm

/-- An operation that is no undo's is not in the ledger, whatever is written to it. -/
theorem fades_updateOperation {f : OperationRun → OperationRun} {hf : ∀ r, key (f r) = key r}
    (hnone : db.undoPairs.reversal o = none) (hname : ∀ r, (f r).actionName = r.actionName) :
    db.undoPairs.Fades ({ db with operations := db.operations.update o f hf } : Db).undoPairs := by
  cases hrow : db.operations.get? o with
  | none =>
    have hsame : db.operations.update o f hf = db.operations :=
      Table.update_eq_self fun r hr => absurd (hrow.symm.trans hr) (by simp)
    rw [hsame]
    exact Fades.refl _
  | some row =>
    have hrev : row.reversal = none := (Db.undoPairs_reversal hrow).symm.trans hnone
    have hnew : (f row).reversal = none := by
      rw [OperationRun.reversal_eq_none, hname]
      exact OperationRun.reversal_eq_none.mp hrev
    rw [Db.undoPairs_updateOperation hrow, hnew, setReversal,
      Function.update_eq_self_iff.mpr hnone.symm]
    exact Fades.refl _

theorem reversal_of_conf {i : ConfirmationId} {x : ConfView} (hI : Inv db.core)
    (hfree : db.undoPairs.Unconfirmed) (hx : db.core.conf i = some x) :
    db.undoPairs.reversal x.operationId = none := by
  cases hrow : db.operations.get? x.operationId with
  | none => simp [Db.undoPairs, hrow]
  | some row =>
    rw [Db.undoPairs_reversal hrow, OperationRun.reversal_eq_none]
    intro hname
    have hlink : row.confirmationId = some i := hI.link i x _ hx (Db.core_op hrow)
    have hnone : row.confirmationId = none :=
      hfree x.operationId _ ((Db.undoPairs_reversal hrow).trans (if_pos hname))
    exact absurd (hlink.symm.trans hnone) (by simp)

theorem fades_failUndispatchedOperation (status : PendingStatus) (now : Time)
    (hnone : db.undoPairs.reversal o = none) : wp (failUndispatchedOperation o status now)
      (fun _ db' => db.undoPairs.Fades db'.undoPairs) (fun _ => True) db := by
  unfold failUndispatchedOperation
  rw [wp_bind, wp_get]
  split
  · exact Fades.refl _
  · rename_i row hfound
    obtain ⟨hrow, -⟩ := Option.filter_eq_some_iff.mp hfound
    obtain rfl : row.id = o := Table.key_of_get? hrow
    simp only [mintId, wp_bind, wp_get, wp_set, wp_pure]
    refine wp_insertActionResult_pairs fun db₂ h₂ => ?_
    have hmint : ({ db with nextId := db.nextId + 1 } : Db).undoPairs = db.undoPairs :=
      Db.undoPairs_eq rfl rfl rfl
    have hfades : db.undoPairs.Fades db₂.undoPairs := by
      rw [h₂, hmint]
      exact fades_record hnone
    exact hfades.trans (fades_updateOperation (hfades.reversal_none hnone) fun _ => rfl)

/-- Whatever a status change of a confirmation triggers, it spares the undo ledger. -/
theorem fades_updateConfirmationStatus (id : ConfirmationId) (p : PendingConfirmation → Bool)
    (patch : ConfirmationPatch) (hconf : ∀ c, db.confirmations.get? id = some c →
      db.undoPairs.reversal c.operationId = none) : wp (updateConfirmationStatus id p patch)
      (fun _ db' => db.undoPairs.Fades db'.undoPairs) (fun _ => True) db := by
  unfold updateConfirmationStatus
  rw [wp_bind, wp_get]
  split
  · exact Fades.refl _
  · rename_i old hold
    obtain ⟨hget, -⟩ := Option.filter_eq_some_iff.mp hold
    have hnone : db.undoPairs.reversal old.operationId = none := hconf old hget
    simp only [wp_bind, wp_require, preDispatchOperationGuard, wp_get, wp_modify]
    refine ⟨fun _ => ⟨fun _ => ?_, fun _ => trivial⟩, fun _ => trivial⟩
    generalize hdb₁ : ({ db with
      confirmations := db.confirmations.update id patch.apply patch.key_apply } : Db) = db₁
    have hpairs₁ : db₁.undoPairs = db.undoPairs := by
      subst hdb₁
      exact Db.undoPairs_eq rfl rfl rfl
    have hterminal : wp (preDispatchTerminal old (patch.apply old))
        (fun _ db' => db.undoPairs.Fades db'.undoPairs) (fun _ => True) db₁ := by
      unfold preDispatchTerminal
      rw [← hpairs₁] at hnone ⊢
      split
      · exact Fades.refl _
      · refine wp_seq (fades_failUndispatchedOperation _ _ hnone) fun _ db₂ h₂ => ?_
        have hadopt : (db₂.adoptOperationResult (patch.apply old).id
            (patch.apply old).operationId).undoPairs = db₂.undoPairs :=
          Db.undoPairs_eq rfl rfl rfl
        rw [wp_modify, hadopt]
        exact h₂
    refine wp_mono hterminal (fun _ db₂ h₂ => ?_) fun _ h => h
    unfold settlementScrubsOperation
    split
    · exact h₂
    · exact h₂.trans (fades_updateOperation (h₂.reversal_none hnone) fun _ => rfl)

end Confirmations

section Spares

/-- Every move is allowed. -/
def Lifecycle.Policy.free : Policy where
  digest := fun _ => 0
  override := fun _ _ => True
  batchStatus := fun _ _ _ => True
  settles := True
  reconciles := True

/-- Moves that leave the undo ledger to fade. -/
structure Spares (base : Nat) (db db' : Db) : Prop where
  steps : Steps .free base db db'
  fades : Inv db.core → db.undoPairs.Unconfirmed → db.undoPairs.Fades db'.undoPairs

variable {base : Nat} {α : Type}

theorem Spares.refl (db : Db) : Spares base db db :=
  ⟨Steps.refl db, fun _ _ => Fades.refl _⟩

theorem Spares.trans (h : Spares base db db') (h' : Spares base db' db'') :
    Spares base db db'' where
  steps := h.steps.trans h'.steps
  fades := fun hI hfree => (h.fades hI hfree).trans
    (h'.fades (h.steps.inv hI) ((h.fades hI hfree).unconfirmed hfree))

theorem wp_spares {m : StoreTxn α}
    (hsteps : wp m (fun _ db' => Steps .free base db db') (fun _ => True) db)
    (hfades : Inv db.core → db.undoPairs.Unconfirmed →
      wp m (fun _ db' => db.undoPairs.Fades db'.undoPairs) (fun _ => True) db) :
    wp m (fun _ db' => Spares base db db') (fun _ => True) db :=
  wp_iff_forall.mpr fun a db' hm => ⟨wp_iff_forall.mp hsteps a db' hm, fun hI hfree =>
    wp_iff_forall.mp (hfades hI hfree) a db' hm⟩

theorem fades_recoveredResult {o : OperationId} (scope : SessionScope) (actionName : String)
    (kind : ActionResultKind) (now : Time) (hnone : db.undoPairs.reversal o = none) :
    wp (recoveredResult o scope actionName kind now)
      (fun _ db' => db.undoPairs.Fades db'.undoPairs) (fun _ => True) db := by
  unfold recoveredResult
  rw [wp_bind, wp_get]
  split
  · exact Fades.refl _
  · simp only [insertRecoveryResult, mintId, wp_bind, wp_get, wp_set, wp_pure]
    refine wp_insertActionResult_pairs fun db₂ h₂ => ?_
    have hmint : ({ db with nextId := db.nextId + 1 } : Db).undoPairs = db.undoPairs :=
      Db.undoPairs_eq rfl rfl rfl
    rw [h₂, hmint]
    exact fades_record hnone

theorem fades_recoverConfirmation {row : PendingConfirmation} (now : Time)
    (hrow : db.confirmations.get? row.id = some row) (hI : Inv db.core)
    (hfree : db.undoPairs.Unconfirmed) :
    wp (recoverConfirmation now row) (fun _ db' => db.undoPairs.Fades db'.undoPairs)
      (fun _ => True) db := by
  have hnone : db.undoPairs.reversal row.operationId = none :=
    reversal_of_conf hI hfree (Db.core_conf hrow)
  unfold recoverConfirmation
  rw [wp_bind, wp_get]
  refine wp_seq (wp_both (fades_recoveredResult row.scope _ _ now hnone)
    (recoveredResult_spec _ _ _ _ _ db)) fun ref db₁ h₁ => ?_
  obtain ⟨hfades₁, hadds, -⟩ := h₁
  have hconf : ∀ c, db₁.confirmations.get? row.id = some c →
      db₁.undoPairs.reversal c.operationId = none := by
    intro c hc
    rw [hadds.confirmations, hrow, Option.some.injEq] at hc
    subst hc
    exact hfades₁.reversal_none hnone
  refine wp_seq (fades_updateConfirmationStatus row.id _ ref.patch hconf) fun _ db₂ h₂ => ?_
  have hfades₂ := hfades₁.trans h₂
  rw [wp_bind, settleRecoveredOperation, wp_updateOperationStatus]
  have hclaim : ∀ db₃ : Db, db.undoPairs.Fades db₃.undoPairs →
      wp (fillRecoveredClaim row ref now) (fun _ db' => db.undoPairs.Fades db'.undoPairs)
        (fun _ => True) db₃ := by
    intro db₃ h₃
    unfold fillRecoveredClaim
    split
    · exact h₃
    · simp only [fillOpenClaim, wp_bind, wp_get]
      split
      · exact h₃
      · exact h₃
  split
  · have hsettled := @fades_updateOperation _ _ _ (fun r => r.key_withStatus _ _ now)
      (hfades₂.reversal_none hnone)
      (fun r => r.withStatus_actionName ref.kind.toOperation (some ref.id) now)
    exact wp_seq (hclaim _ (hfades₂.trans hsettled)) fun _ _ h => h
  · exact wp_seq (hclaim _ hfades₂) fun _ _ h => h

theorem spares_recoverConfirmations (now : Time) (db : Db) :
    wp (sumRecovered (recoverConfirmation now) db.executingConfirmations)
      (fun _ db' => Spares base db db') (fun _ => True) db :=
  wp_recoverConfirmations_within Spares.refl Spares.trans now (fun _ _ hrow hexec =>
    wp_spares (wp_recoverConfirmation now hrow hexec trivial) fun hI hfree =>
      fades_recoverConfirmation now hrow hI hfree) db

theorem spares_cancelPendingItem (now : Time) (item : ConfirmationBatchItem) :
    Within (Spares base) (cancelPendingItem now item) := by
  intro db
  refine wp_spares (refines_cancelPendingItem now item db) fun hI hfree => ?_
  unfold cancelPendingItem
  rw [wp_bind]
  have hcancel : ∀ db₁ : Db, db₁.confirmations = db.confirmations → db₁.undoPairs = db.undoPairs →
      wp (do let _ ← cancelConfirmation item.confirmationId now)
        (fun _ db' => db.undoPairs.Fades db'.undoPairs) (fun _ => True) db₁ := by
    intro db₁ hconfirmations hpairs
    rw [← hpairs]
    refine wp_seq (fades_updateConfirmationStatus _ _ _ fun c hc => ?_) fun _ _ h => h
    rw [hpairs]
    rw [hconfirmations] at hc
    exact reversal_of_conf hI hfree (Db.core_conf hc)
  unfold updateConfirmationBatchItemStatus
  rw [wp_bind, wp_get]
  split
  · exact hcancel db rfl rfl
  · rw [wp_bind, wp_require]
    exact ⟨fun _ => hcancel _ rfl (Db.undoPairs_eq rfl rfl rfl), fun _ => trivial⟩

theorem spares_updateBatch {b : BatchId} {p : ConfirmationBatch → Bool}
    {f : ConfirmationBatch → ConfirmationBatch} {hf : ∀ r, key (f r) = key r}
    {status : ConfirmationBatchStatus} (hview : ∀ row, (f row).view = { row.view with status }) :
    Within (Spares base) (updateBatch b p f hf) := by
  intro db
  refine wp_spares (refines_updateBatch hview fun _ _ _ => trivial) fun _ _ => ?_
  unfold updateBatch
  rw [wp_bind, wp_get]
  split
  · exact Fades.refl _
  · exact Fades.refl _

theorem spares_abandonBatch (batchId : BatchId) (items : List ConfirmationBatchItem)
    (fromIndex : Nat) (now : Time) : Within (Spares base) (abandonBatch batchId items fromIndex now) :=
  within_bind (R := Spares base) Spares.trans (spares_updateBatch fun _ => rfl) fun _ =>
    within_forM Spares.refl Spares.trans _ fun item _ => spares_cancelPendingItem now item

theorem spares_recoverConfirmationBatch (batchId : BatchId) (now : Time) :
    Within (Spares base) (recoverConfirmationBatch batchId now) := by
  intro db
  refine wp_spares (refines_recoverConfirmationBatch now (fun _ _ _ _ => trivial)
    (fun _ _ _ _ => trivial) db) fun hI hfree => ?_
  unfold recoverConfirmationBatch
  rw [wp_bind, wp_get]
  split
  · exact Fades.refl _
  · dsimp only
    split
    · split
      · exact Fades.refl _
      · refine wp_seq (@spares_updateBatch 0 _ _ _ _ _ (fun _ => rfl) db) fun _ _ h => ?_
        exact h.fades hI hfree
    · cases hitems : (db.batchItems batchId).filter fun item => item.status == .executing with
      | nil => exact Fades.refl _
      | cons item rest =>
        obtain ⟨hmem, hexec⟩ := List.mem_filter.mp (hitems ▸ List.mem_cons_self (a := item))
        have howned := Db.owned_of_executingItem hI hmem (by simpa using hexec)
        unfold recoverExecutingItems
        rw [wp_bind, wp_get]
        split
        · exact wp_mono (@spares_abandonBatch 0 batchId _ item.itemIndex now db)
            (fun _ _ h => h.fades hI hfree) fun _ h => h
        · exact wp_seq (wp_failUndispatchedItem now howned) fun _ _ h => h.elim

end Spares

section Recovery

variable {own : Prop} {commits : List (UndoId × OperationId)} {α : Type}

theorem wp_recoverReversal {o : OperationId} {scope : SessionScope} {actionName : String}
    {kind : ActionResultKind} {now : Time} {rest : ActionResultRef → Bool → StoreTxn α}
    {Q : α → Db → Prop} (h : Taken commits db.undoPairs)
    (hrest : ∀ ref settled db', RecoversReversal db.undoPairs o kind ref.id db'.undoPairs →
      wp (rest ref settled) Q (fun _ => True) db') :
    wp (do
        let ref ← recoveredResult o scope actionName kind now
        let settled ← settleRecoveredOperation o ref now
        rest ref settled) Q (fun _ => True) db := by
  -- A result found belongs to an operation that is not in flight.
  have hresult : wp (recoveredResult o scope actionName kind now)
      (fun ref db₁ => db₁.operations = db.operations ∧
        (db₁.undoPairs = db.undoPairs ∧ db.undoPairs.owned o = true ∨
          db₁.undoPairs = db.undoPairs.record o ∧ ref.kind = kind)) (fun _ => True) db := by
    refine wp_mono (wp_both (recoveredResult_spec o scope actionName kind now db) ?_)
      (fun _ _ h => ⟨h.1.1.operations, h.2⟩) fun _ h => h
    unfold recoveredResult
    rw [wp_bind, wp_get]
    cases hr : db.operationResult o with
    | some r => exact .inl ⟨rfl, by simp [Db.undoPairs, hr]⟩
    | none =>
      simp only [insertRecoveryResult, mintId, wp_bind, wp_get, wp_set, wp_pure]
      refine wp_insertActionResult_pairs fun db₂ h₂ => .inr ⟨?_, trivial⟩
      rw [h₂]
      exact congrArg (UndoPairs.record · o) (Db.undoPairs_eq rfl rfl rfl)
  refine wp_seq hresult fun ref db₁ h₁ => ?_
  obtain ⟨hoperations, hpairs⟩ := h₁
  have hreversal : db₁.undoPairs.reversal = db.undoPairs.reversal := by
    rcases hpairs with ⟨hsame, -⟩ | ⟨hrecord, -⟩
    · rw [hsame]
    · rw [hrecord]
      rfl
  have hfree : db₁.undoPairs.Unconfirmed := by
    intro o' y hy
    rw [hreversal] at hy
    exact h.unconfirmed o' y hy
  rw [wp_bind, settleRecoveredOperation]
  refine wp_updateOperationStatus_pairs hfree (fun row db₂ hrow hexec h₂ => ?_) fun hmiss => ?_
  · refine hrest ref true db₂ ?_
    have hy : db.undoPairs.reversal o = row.reversal := by
      rw [← hreversal]
      exact Db.undoPairs_reversal hrow
    cases hrev : row.reversal with
    | some y =>
      rw [hrev] at hy
      have hstatus : y.status = .executing := by
        rw [(OperationRun.of_reversal hrev).2]
        simpa using hexec
      have hunowned := (h.committed o y hy hstatus).1
      rcases hpairs with ⟨-, howned⟩ | ⟨hrecord, hkind⟩
      · rw [hunowned] at howned
        cases howned
      · rw [h₂, hrecord, hkind]
        exact .settled hy hstatus
    | none =>
      rw [hrev] at hy
      have hsame : db₁.undoPairs.settleReversal o ref.kind.toOperation ref.id = db₁.undoPairs := by
        rw [settleReversal, hreversal, hy, Option.map_none, setReversal, hreversal,
          Function.update_eq_self_iff.mpr hy.symm, ← hreversal]
      have hidle : ∀ y, db.undoPairs.reversal o = some y → y.status ≠ .executing := by
        intro y hy'
        exact absurd (hy.symm.trans hy') (by simp)
      rw [h₂, hsame]
      rcases hpairs with ⟨hkeep, -⟩ | ⟨hrecord, -⟩
      · rw [hkeep]
        exact .idle hidle
      · rw [hrecord]
        exact .recorded hidle
  · refine hrest ref false db₁ ?_
    have hidle : ∀ y, db.undoPairs.reversal o = some y → y.status ≠ .executing := by
      intro y hy
      rw [← hreversal] at hy
      obtain ⟨row, hrow, hrev⟩ := Option.bind_eq_some_iff.mp hy
      rw [(OperationRun.of_reversal hrev).2]
      simpa using hmiss row hrow
    rcases hpairs with ⟨hkeep, -⟩ | ⟨hrecord, -⟩
    · rw [hkeep]
      exact .idle hidle
    · rw [hrecord]
      exact .recorded hidle

theorem wp_settleRecoveredUndo {u : UndoId} {status : UndoStatus} {ref : ActionResultRef}
    {now : Time} : wp (settleRecoveredUndo u status ref now)
      (fun _ db' => RecoversEntry db.undoPairs u status ref.id db'.undoPairs) (fun _ => True) db := by
  refine wp_updateUndo_pairs (fun row db' hrow hexec h => ?_) fun hmiss => ?_
  · have he : db.undoPairs.entry u = some row.entry := Db.undoPairs_entry hrow
    have hsettled : db'.undoPairs = db.undoPairs.settleEntry u status ref.id := by
      rw [h, settleEntry, he]
      rfl
    rw [hsettled]
    exact .settled he (by simpa using hexec)
  · refine .idle fun e he => ?_
    obtain ⟨row, hrow, rfl⟩ := Option.map_eq_some_iff.mp he
    simpa using hmiss row hrow

theorem Db.recoveryKind_cases (db : Db) (o : OperationId) :
    db.recoveryKind o = .outcomeUnknown ∨ db.recoveryKind o = .definitiveFailed := by
  unfold recoveryKind
  split
  · exact .inl rfl
  · exact .inr rfl

/-- What recovery of one row leaves of the ledger. -/
structure Recovers (own : Prop) (commits : List (UndoId × OperationId)) (v v' : UndoPairs) :
    Prop where
  accord : Accord own commits v'
  drains : v.Drains v'

theorem wp_recoverLinkedUndo_pairs {row : LinkedUndo} (now : Time)
    (h : Accord own commits db.undoPairs) (hmem : (row.undo.id, row.operation.id) ∈ commits) :
    wp (recoverLinkedUndo now row) (fun _ db' => Recovers own commits db.undoPairs db'.undoPairs ∧
        ∀ y, db'.undoPairs.reversal row.operation.id = some y → y.status ≠ .executing)
      (fun _ => True) db := by
  unfold recoverLinkedUndo
  rw [wp_bind, wp_get]
  refine wp_recoverReversal h.toTaken fun ref _ db₁ h₁ => ?_
  refine wp_seq wp_settleRecoveredUndo fun _ db₂ h₂ => ?_
  have hstatus : (if db.recoveryKind row.operation.id = .outcomeUnknown then
      UndoStatus.outcomeUnknown else .failed) = (db.recoveryKind row.operation.id).toUndo := by
    rcases db.recoveryKind_cases row.operation.id with hkind | hkind <;> rw [hkind] <;> rfl
  have hundone : (db.recoveryKind row.operation.id).toUndo ≠ .undone := by
    rcases db.recoveryKind_cases row.operation.id with hkind | hkind <;> rw [hkind] <;>
      simp [ActionResultKind.toUndo]
  rw [hstatus] at h₂
  have hdrains := h₂.drains (ActionResultKind.toUndo_ne_executing _) hundone
  refine ⟨⟨h.recoverPair hmem h₁ h₂, h₁.drains.trans hdrains⟩, fun y hy hexec => ?_⟩
  exact h₁.idle_of y (hdrains.reversal _ y hy hexec) hexec

theorem wp_recoverOperation_pairs {row : OperationRun} (now : Time)
    (h : Accord own commits db.undoPairs) (hunpaired : Unpaired own commits db.undoPairs) :
    wp (recoverOperation now row)
      (fun _ db' => Recovers own commits db.undoPairs db'.undoPairs) (fun _ => True) db := by
  unfold recoverOperation
  rw [wp_bind, wp_get]
  refine wp_recoverReversal h.toTaken fun ref _ db₁ h₁ => ?_
  refine ⟨h.recoverReversal h₁ ?_, h₁.drains⟩
  exact fun hown u e y hmem he hy => hunpaired hown u _ e y hmem he hy

theorem wp_recoverUndo_pairs {row : UndoRecord} (now : Time)
    (h : Accord own commits db.undoPairs) (hunpaired : Unpaired own commits db.undoPairs) :
    wp (recoverUndo now row)
      (fun _ db' => Recovers own commits db.undoPairs db'.undoPairs) (fun _ => True) db := by
  unfold recoverUndo insertRecoveryResult
  simp only [mintId, wp_bind, wp_get, wp_set, wp_pure]
  refine wp_insertActionResult_pairs fun db₁ h₁ => ?_
  have hsame : db₁.undoPairs = db.undoPairs := h₁.trans (Db.undoPairs_eq rfl rfl rfl)
  refine wp_mono wp_settleRecoveredUndo (fun _ db₂ h₂ => ?_) fun _ h => h
  rw [hsame] at h₂
  refine ⟨h.recoverEntry h₂ rfl ?_, h₂.drains (by simp) (by simp)⟩
  exact fun hown o e y hmem he hy => hunpaired hown _ o e y hmem he hy

theorem Recovers.trans {v v' v'' : UndoPairs} (h : Recovers own commits v v')
    (h' : Recovers own commits v' v'') : Recovers own commits v v'' :=
  ⟨h'.accord, h.drains.trans h'.drains⟩

theorem Db.linked_of_commit {u : UndoId} {o : OperationId} {e : UndoEntry} {y : UndoReversal}
    (h : Taken commits db.undoPairs) (hmem : (u, o) ∈ commits)
    (he : db.undoPairs.entry u = some e) (hy : db.undoPairs.reversal o = some y)
    (hscope : e.scope = y.scope) (helive : e.status = .executing) (hylive : y.status = .executing) :
    ∃ row ∈ db.linkedUndos, row.operation.id = o := by
  obtain ⟨-, u', hundo, hmem'⟩ := h.committed o y hy hylive
  obtain rfl := h.entry_unique hmem hmem'
  obtain ⟨undo, hundoRow, rfl⟩ := Option.map_eq_some_iff.mp he
  obtain ⟨operation, hrow, hrev⟩ := Option.bind_eq_some_iff.mp hy
  have hid : undo.id = u' := Table.key_of_get? hundoRow
  have hoid : operation.id = o := Table.key_of_get? hrow
  obtain ⟨hname, rfl⟩ := OperationRun.of_reversal hrev
  have hundoStatus : undo.status = .executing := helive
  have hstatus : operation.status = .executing := hylive
  have hopScope : operation.scope = undo.scope := hscope.symm
  have hlink : operation.envelope.bind OperationEnvelope.undoId = some u' := hundo
  refine ⟨⟨undo, operation⟩, List.mem_flatMap.mpr ⟨undo, ?_, ?_⟩, hoid⟩
  · exact List.mem_filter.mpr ⟨Table.mem_of_get? hundoRow, by simpa using hundoStatus⟩
  · refine List.mem_map_of_mem (List.mem_filter.mpr ⟨Table.mem_of_get? hrow, ?_⟩)
    simp [OperationRun.reverses, hopScope, hname, hstatus, hlink, hid]

theorem Db.commit_of_linked {row : LinkedUndo} (h : Taken commits db.undoPairs)
    (hrow : row ∈ db.linkedUndos) : (row.undo.id, row.operation.id) ∈ commits := by
  obtain ⟨undo, -, hrow⟩ := List.mem_flatMap.mp hrow
  obtain ⟨operation, hoperation, rfl⟩ := List.mem_map.mp hrow
  obtain ⟨hmem, hreverses⟩ := List.mem_filter.mp hoperation
  simp only [OperationRun.reverses, Bool.and_eq_true, beq_iff_eq] at hreverses
  obtain ⟨⟨⟨-, hname⟩, hexec⟩, hundo⟩ := hreverses
  have hy := (Db.undoPairs_reversal (Table.get?_of_mem hmem)).trans (if_pos hname)
  obtain ⟨-, u, hlink, hcommit⟩ := h.committed _ _ hy hexec
  rw [hundo, Option.some.injEq] at hlink
  subst hlink
  exact hcommit

theorem wp_recoverLinkedUndos_pairs (now : Time) (h : Accord own commits db.undoPairs) :
    wp (sumRecovered (recoverLinkedUndo now) db.linkedUndos)
      (fun _ db' => Recovers own commits db.undoPairs db'.undoPairs ∧
        Unpaired own commits db'.undoPairs) (fun _ => True) db := by
  let J : List LinkedUndo → Db → Prop := fun done db' =>
    Recovers own commits db.undoPairs db'.undoPairs ∧
      ∀ row ∈ done, ∀ y, db'.undoPairs.reversal row.operation.id = some y → y.status ≠ .executing
  refine wp_mono (wp_sumRecovered J _ (fun done row rest hrows db₁ hJ => ?_) db
    ⟨⟨h, Drains.refl _⟩, by simp⟩) (fun _ db' hJ => ⟨hJ.1, ?_⟩) fun _ h => h
  · have hmem : (row.undo.id, row.operation.id) ∈ commits :=
      Db.commit_of_linked h.toTaken (by simp [hrows])
    refine wp_mono (wp_recoverLinkedUndo_pairs now hJ.1.accord hmem) (fun _ db₂ h₂ => ?_)
      fun _ h => h
    refine ⟨hJ.1.trans h₂.1, fun x hx y hy hexec => ?_⟩
    rcases List.mem_append.mp hx with hdone | hlast
    · exact hJ.2 x hdone y (h₂.1.drains.reversal _ y hy hexec) hexec
    · rw [List.mem_singleton.mp hlast] at hy
      exact h₂.2 y hy hexec
  · intro hown u o e y hmem he hy hexec
    obtain ⟨hscope, hagrees⟩ := hJ.1.accord.agree hown u o e y hmem he hy
    have helive := hagrees.executing_iff.mpr hexec
    have he₀ := hJ.1.drains.live he (.inl helive)
    have hy₀ := hJ.1.drains.reversal o y hy hexec
    obtain ⟨row, hrow, rfl⟩ :=
      Db.linked_of_commit h.toTaken hmem he₀ hy₀ hscope helive hexec
    exact hJ.2 row hrow y hy hexec

theorem wp_recoverEach_pairs {ι : Type} {recover : ι → StoreTxn RecoverySummary} (rows : List ι)
    (hstep : ∀ row db', Accord own commits (Db.undoPairs db') → Unpaired own commits db'.undoPairs →
      wp (recover row) (fun _ db'' => Recovers own commits db'.undoPairs db''.undoPairs)
        (fun _ => True) db')
    (h : Accord own commits db.undoPairs) (hunpaired : Unpaired own commits db.undoPairs) :
    wp (sumRecovered recover rows)
      (fun _ db' => Recovers own commits db.undoPairs db'.undoPairs) (fun _ => True) db := by
  refine wp_sumRecovered (fun _ db' => Recovers own commits db.undoPairs db'.undoPairs) rows
    (fun done row rest _ db₁ hJ => ?_) db ⟨h, Drains.refl _⟩
  refine wp_mono (hstep row db₁ hJ.accord (hJ.accord.unpaired hunpaired hJ.drains))
    (fun _ db₂ h₂ => hJ.trans h₂) fun _ h => h

theorem Recovers.of_fades {v v' v'' : UndoPairs} (h : Recovers own commits v v')
    (hfades : v'.Fades v'') : Recovers own commits v v'' :=
  h.trans ⟨h.accord.fades hfades, hfades.drains⟩

theorem aside_recoverAssistantRuns (now : Time) :
    Within (fun db db' => db'.undoPairs = db.undoPairs) (recoverAssistantRuns now) := by
  refine within_get_bind fun db => ?_
  refine wp_seq (within_forM (R := fun db db' : Db => db'.undoPairs = db.undoPairs)
    (fun _ => rfl) (fun h h' => h'.trans h) _ (fun run _ db₁ => ?_) db) fun _ db₁ h₁ => ?_
  · refine wp_seq (m := allocateAndInsertEvent _ _ _ _) ?_ fun _ _ h => h
    refine within_get_bind (R := fun db db' : Db => db'.undoPairs = db.undoPairs)
      (fun db₂ => ?_) db₁
    rw [wp_bind, wp_require]
    refine ⟨fun _ => ?_, fun _ => trivial⟩
    split
    · exact Db.undoPairs_eq rfl rfl rfl
    · trivial
  · rw [wp_bind, wp_get]
    exact (Db.undoPairs_eq rfl rfl rfl).trans h₁

/-- Startup recovery keeps every commit in accord, and marks nothing undone. -/
theorem wp_recoverOrphanedRuns_pairs (now : Time) (hI : Inv db.core)
    (h : Accord own commits db.undoPairs) : wp (recoverOrphanedRuns now)
      (fun _ db' => Recovers own commits db.undoPairs db'.undoPairs) (fun _ => True) db := by
  unfold recoverOrphanedRuns
  have hturns : wp (recoverTurns now) (fun _ db' => db'.undoPairs = db.undoPairs)
      (fun _ => True) db := by
    unfold recoverTurns
    rw [wp_bind, wp_get]
    exact Db.undoPairs_eq rfl rfl rfl
  refine wp_seq (wp_both (untouched_recoverTurns now db) hturns) fun _ db₁ h₁ => ?_
  have hsteps : wp (recoverSteps now) (fun _ db' => db'.undoPairs = db₁.undoPairs)
      (fun _ => True) db₁ := by
    unfold recoverSteps
    rw [wp_bind, wp_get]
    exact Db.undoPairs_eq rfl rfl rfl
  refine wp_seq (wp_both (untouched_recoverSteps now db₁) hsteps) fun _ db₂ h₂ => ?_
  have hcore₂ : db₂.core = db.core := h₁.1.trans h₂.1
  have hI₂ : Inv db₂.core := hcore₂ ▸ hI
  have hpairs₂ : db₂.undoPairs = db.undoPairs := h₂.2.trans h₁.2
  rw [← hpairs₂] at h ⊢
  rw [wp_bind, wp_get]
  -- Confirmations spare the ledger; after them none is in flight.
  refine wp_seq (wp_both (@spares_recoverConfirmations 0 now db₂)
    (recoverConfirmations_spec now db₂)) fun _ db₃ h₃ => ?_
  have hI₃ := h₃.1.steps.inv hI₂
  have hrecovers₃ : Recovers own commits db₂.undoPairs db₃.undoPairs :=
    Recovers.of_fades ⟨h, Drains.refl _⟩ (h₃.1.fades hI₂ h.unconfirmed)
  have hsettled₃ : db₃.Settled := h₃.2.2.2.1
  rw [wp_bind, wp_get]
  refine wp_seq (wp_both (wp_recoverLinkedUndos_pairs now hrecovers₃.accord)
    (wp_both (@wp_recoverLinkedUndos .free 0 _ now hsettled₃ trivial)
      (recoverLinkedUndos_spec now db₃.linkedUndos db₃))) fun _ db₄ h₄ => ?_
  obtain ⟨⟨hrecovers₄, hunpaired₄⟩, hsteps₄, hcalm₄, -⟩ := h₄
  have hsettled₄ : db₄.Settled := hsettled₃.calm hcalm₄
  rw [wp_bind, wp_get]
  refine wp_seq (wp_both (wp_recoverEach_pairs _ (fun row db' => wp_recoverOperation_pairs now)
    hrecovers₄.accord hunpaired₄)
    (@wp_recoverOperations .free 0 _ now hsettled₄ trivial)) fun _ db₅ h₅ => ?_
  obtain ⟨hrecovers₅, hsteps₅⟩ := h₅
  have hunpaired₅ := hrecovers₅.accord.unpaired hunpaired₄ hrecovers₅.drains
  rw [wp_bind, wp_get]
  refine wp_seq (wp_both (wp_recoverEach_pairs _ (fun row db' => wp_recoverUndo_pairs now)
    hrecovers₅.accord hunpaired₅)
    (@refines_sumRecovered .free 0 _ _ _
      (fun row _ => refines_recoverUndo now row) db₅)) fun _ db₆ h₆ => ?_
  obtain ⟨hrecovers₆, hsteps₆⟩ := h₆
  have hI₆ : Inv db₆.core := ((hsteps₄.trans hsteps₅).trans hsteps₆).inv hI₃
  rw [wp_bind, wp_get]
  refine wp_seq (within_forM (@Spares.refl 0) Spares.trans _
    (fun b _ => spares_recoverConfirmationBatch b.id now) db₆) fun _ db₇ h₇ => ?_
  have hfades₇ := h₇.fades hI₆ hrecovers₆.accord.unconfirmed
  have hlast := ((hrecovers₃.trans hrecovers₄).trans hrecovers₅).trans hrecovers₆ |>.of_fades hfades₇
  refine wp_seq (aside_recoverAssistantRuns now db₇) fun _ db₈ h₈ => ?_
  rw [wp_pure, h₈]
  exact hlast

end Recovery

end ClockifyAssistant
