import ClockifyAssistant.Refinement.Confirmations
import ClockifyAssistant.Store.ConfirmationBatches

/-!
The recovery of a batch as moves. A batch's own status is written where the policy
lets it; a pending item is cancelled with its confirmation, and an executing item
is never failed, because its operation already owns a result.
-/
namespace ClockifyAssistant

open Lib Txn Lifecycle

variable {π : Policy} {base : Nat}

/-- A batch in status `old` may be given status `new`. -/
def Lifecycle.Policy.Lets (π : Policy) (b : BatchId) (old new : ConfirmationBatchStatus) : Prop :=
  ∀ c v, c.batch b = some v → v.status = old → π.batchStatus c b new

section Rows

variable {b : BatchId} {db : Db}

theorem wp_updateBatch_core {p : ConfirmationBatch → Bool}
    {f : ConfirmationBatch → ConfirmationBatch} {hf : ∀ r, key (f r) = key r}
    {Q : Bool → Db → Prop} {E : StoreError → Prop}
    (htrue : ∀ row db', db.batches.get? b = some row → p row = true →
      db'.core = db.core.setBatch b (f row).view → Q true db')
    (hfalse : (∀ row, db.batches.get? b = some row → p row = false) → Q false db) :
    wp (updateBatch b p f hf) Q E db := by
  unfold updateBatch
  rw [wp_bind, wp_get]
  split
  · rename_i hmiss
    refine hfalse fun row hrow => ?_
    simpa [hrow] using hmiss
  · rename_i hany
    obtain ⟨row, hrow, hp⟩ := (Option.any_eq_true _ _).mp (by simpa using hany)
    exact htrue row _ hrow hp (Db.core_updateBatch hrow)

/-- A write of a batch's status and of columns the lifecycle does not read. -/
theorem refines_updateBatch {p : ConfirmationBatch → Bool}
    {f : ConfirmationBatch → ConfirmationBatch} {hf : ∀ r, key (f r) = key r}
    {status : ConfirmationBatchStatus} (hview : ∀ row, (f row).view = { row.view with status })
    (hπ : ∀ row, db.batches.get? b = some row → p row = true → π.batchStatus db.core b status) :
    wp (updateBatch b p f hf) (fun _ db' => Steps π base db db') (fun _ => True) db :=
  wp_updateBatch_core
    (fun row db' hrow hp h => Steps.move fun _ =>
      (Move.batchStatus (Db.core_batch hrow) (hπ row hrow hp)).of_eq (by rw [h, hview]))
    fun _ => Steps.refl db

theorem wp_updateItem_core {i : Nat} {p : ConfirmationBatchItem → Bool}
    {status : ConfirmationBatchItemStatus} {patch : ItemPatch} {Q : Bool → Db → Prop}
    (htrue : ∀ row db', db.items.get? (b, i) = some row → p row = true →
      db'.core = db.core.setItem (b, i) (patch.apply status row).view → Q true db')
    (hfalse : (∀ row, db.items.get? (b, i) = some row → p row = false) → Q false db) :
    wp (updateConfirmationBatchItemStatus b i p status patch) Q (fun _ => True) db := by
  unfold updateConfirmationBatchItemStatus
  rw [wp_bind, wp_get]
  cases hold : (db.items.get? (b, i)).filter p with
  | none =>
    refine hfalse fun row hrow => ?_
    simpa [hrow] using Option.filter_eq_none_iff.mp hold
  | some row =>
    obtain ⟨hrow, hp⟩ := Option.filter_eq_some_iff.mp hold
    rw [wp_bind, wp_require]
    exact ⟨fun _ => htrue row _ hrow hp (Db.core_updateItem hrow), fun _ => trivial⟩

end Rows

section Cancel

variable (π base) in
/-- A pending item is cancelled, and its confirmation is not pending afterwards. -/
theorem wp_cancelPendingItem (now : Time) (item : ConfirmationBatchItem) (db : Db) :
    wp (cancelPendingItem now item) (fun _ db' => Steps π base db db' ∧ (Inv db.core →
        ∀ x, db'.core.conf item.confirmationId = some x → x.status ≠ .pending))
      (fun _ => True) db := by
  have hitem : wp (updateConfirmationBatchItemStatus item.batchId item.itemIndex
      (fun i => i.status == .pending) .cancelled { completedAt := some now })
      (fun _ db' => Steps π base db db') (fun _ => True) db :=
    wp_updateItem_core
      (fun row _ hrow hp h => Steps.move fun _ =>
        (Move.itemCancelled (Db.core_item hrow) (by simpa using hp)).of_eq
          (h.trans (by simp [ItemPatch.apply, ConfirmationBatchItem.view])))
      fun _ => Steps.refl db
  refine wp_seq hitem fun _ db₁ h₁ => ?_
  refine wp_seq (wp_cancelConfirmation π base item.confirmationId now db₁) fun _ db₂ h₂ => ?_
  exact ⟨h₁.trans h₂.1, fun hI => h₂.2 (h₁.inv hI)⟩

theorem refines_cancelPendingItem (now : Time) (item : ConfirmationBatchItem) :
    Refines π base (cancelPendingItem now item) :=
  fun db => wp_mono (wp_cancelPendingItem π base now item db) (fun _ _ h => h.1) fun _ _ => trivial

end Cancel

section Recovery

/-- An executing item cannot be failed with a result of its own: its operation has one. -/
theorem wp_failUndispatchedItem {db : Db} {item : ConfirmationBatchItem} (now : Time)
    (howned : ¬ db.core.unowned item.operationId) :
    wp (failUndispatchedItem now item) (fun _ _ => False) (fun _ => True) db := by
  simp only [failUndispatchedItem, mintId, wp_bind, wp_get, wp_set, wp_pure]
  exact wp_insertActionResult_core fun _ _ _ hunowned => absurd (hunowned _ rfl) howned

variable {batchId : BatchId}

/-- The operation of an executing item has a result: its confirmation was claimed with one. -/
theorem Db.owned_of_executingItem {db : Db} {item : ConfirmationBatchItem}
    (hI : Inv db.core) (hmem : item ∈ db.batchItems batchId) (hexec : item.status = .executing) :
    ¬ db.core.unowned item.operationId := by
  have hitem := Db.core_item (Db.mem_batchItems.mp hmem).2
  obtain ⟨x, hx, hclaimed⟩ := hI.started _ _ hitem (by simp [hexec,
    ConfirmationBatchItemStatus.started])
  obtain ⟨x', hx', ho, -⟩ := hI.item_conf _ _ hitem
  obtain rfl := Option.some.inj (hx'.symm.trans hx)
  have howned := hI.owned_of_claimed hx hclaimed
  rwa [ho] at howned

theorem wp_abandonBatch {db : Db} (items : List ConfirmationBatchItem)
    (fromIndex : Nat) (now : Time) (hπ : ∀ row, db.batches.get? batchId = some row →
      π.batchStatus db.core batchId .outcomeUnknown) :
    wp (abandonBatch batchId items fromIndex now) (fun _ db' => Steps π base db db')
      (fun _ => True) db := by
  refine wp_steps_bind (refines_updateBatch (fun _ => rfl) fun row hrow _ => hπ row hrow)
    fun _ => ?_
  exact refines_forM _ fun item _ => refines_cancelPendingItem now item

theorem wp_recoverExecutingItems {db : Db} (now : Time)
    (hI : Inv db.core) (items : List ConfirmationBatchItem)
    (hπ : ∀ row, db.batches.get? batchId = some row → π.batchStatus db.core batchId .outcomeUnknown)
    (executing : List ConfirmationBatchItem)
    (hexec : ∀ item ∈ executing, item ∈ db.batchItems batchId ∧ item.status = .executing) :
    wp (recoverExecutingItems batchId items now executing)
      (fun _ db' => Steps π base db db') (fun _ => True) db := by
  cases executing with
  | nil => exact Steps.refl db
  | cons item rest =>
    unfold recoverExecutingItems
    rw [wp_bind, wp_get]
    split
    · exact wp_abandonBatch items item.itemIndex now hπ
    · obtain ⟨hmem, hs⟩ := hexec item List.mem_cons_self
      have howned := Db.owned_of_executingItem hI hmem hs
      exact wp_seq (wp_failUndispatchedItem now howned) fun _ _ h => h.elim

theorem refines_recoverConfirmationBatch (now : Time) (hresume : π.Lets batchId .executing .pending)
    (habandon : π.Lets batchId .executing .outcomeUnknown) :
    Refines π base (recoverConfirmationBatch batchId now) := by
  refine refines_of_inv fun db hI => ?_
  unfold recoverConfirmationBatch
  rw [wp_bind, wp_get]
  split
  · exact Steps.refl db
  · rename_i batch hbatch
    obtain ⟨hget, hexec⟩ := Option.filter_eq_some_iff.mp hbatch
    have hcore := Db.core_batch hget
    have hexec' : batch.view.status = .executing := by simpa using hexec
    dsimp only
    split
    · split
      · exact Steps.refl db
      · rw [wp_bind]
        exact refines_updateBatch (fun _ => rfl) fun _ _ _ => hresume _ _ hcore hexec'
    · refine wp_recoverExecutingItems now hI _ (fun _ _ => habandon _ _ hcore hexec') _ ?_
      intro item hitem
      simpa using List.mem_filter.mp hitem

end Recovery

end ClockifyAssistant
