import ClockifyAssistant.LifecycleInvariant
import ClockifyAssistant.Store.OperationSteps

/-!
The lifecycle a database is in: its rows seen through the columns the lifecycle
reads. One lemma per kind of write says what the write does to that view, so the
proofs about store functions speak of moves and never of tables.
-/
namespace ClockifyAssistant

open Lib Txn Lifecycle

@[simps] def PendingConfirmation.view (c : PendingConfirmation) : ConfView :=
  ⟨c.operationId, c.status, c.actionResultId, c.batchId⟩

@[simps] def OperationRun.view (o : OperationRun) : OpView := ⟨o.confirmationId, o.status, o.actionResultId⟩

@[simps] def ActionResult.view (r : ActionResult) : ResView := ⟨r.operationId, r.kind⟩

@[simps] def ConfirmationBatch.view (b : ConfirmationBatch) : BatchView :=
  ⟨b.scope, b.orderedTupleHash, b.status, b.currentIndex, b.expiresAt⟩

@[simps] def ConfirmationBatchItem.view (item : ConfirmationBatchItem) : ItemView :=
  ⟨item.confirmationId, item.operationId, item.status, item.actionResultId⟩

def OperationStep.bound (s : OperationStep) : Bool :=
  s.kind == .compensation || s.status != .prepared || s.dispatchedAt.isSome

@[simps] def OperationStep.view (s : OperationStep) : StepView := ⟨s.operationId, s.bound⟩

def Db.core (db : Db) : Core where
  conf := fun i => (db.confirmations.get? i).map PendingConfirmation.view
  op := fun o => (db.operations.get? o).map OperationRun.view
  res := fun r => (db.results.get? r).map ActionResult.view
  batch := fun b => (db.batches.get? b).map ConfirmationBatch.view
  item := fun k => (db.items.get? k).map ConfirmationBatchItem.view
  step := fun s => (db.steps.get? s).map OperationStep.view
  nextId := db.nextId

section Lookups

variable {db : Db}

theorem Db.core_conf {i : ConfirmationId} {c : PendingConfirmation}
    (h : db.confirmations.get? i = some c) : db.core.conf i = some c.view := by
  simp [core, h]

variable {o : OperationId}

theorem Db.core_op {row : OperationRun} (h : db.operations.get? o = some row) :
    db.core.op o = some row.view := by
  simp [core, h]

theorem Db.core_res {r : ResultId} {row : ActionResult} (h : db.results.get? r = some row) :
    db.core.res r = some row.view := by
  simp [core, h]

theorem Db.core_batch {b : BatchId} {row : ConfirmationBatch} (h : db.batches.get? b = some row) :
    db.core.batch b = some row.view := by
  simp [core, h]

theorem Db.core_item {k : BatchId × Nat} {row : ConfirmationBatchItem}
    (h : db.items.get? k = some row) : db.core.item k = some row.view := by
  simp [core, h]

theorem Db.core_res_none {r : ResultId} (h : db.results.get? r = none) : db.core.res r = none := by
  simp [core, h]

theorem Db.core_op_none (h : db.operations.get? o = none) : db.core.op o = none := by
  simp [core, h]

/-- A result row of an operation, as `idx_action_results_operation` finds it. -/
theorem Db.operationResult_eq_some {row : ActionResult} (h : db.operationResult o = some row) :
    db.core.res row.id = some row.view ∧ row.operationId = some o := by
  have hmem := List.mem_of_find?_eq_some h
  exact ⟨core_res (Table.get?_of_mem hmem), by simpa using List.find?_some h⟩

theorem Db.operationResult_eq_none : db.operationResult o = none ↔ db.core.unowned o := by
  constructor
  · intro h r z hz
    obtain ⟨row, hrow, rfl⟩ := Option.map_eq_some_iff.mp hz
    have hnone := List.find?_eq_none.mp h row (Table.mem_of_get? hrow)
    simpa [ActionResult.view] using hnone
  · intro h
    refine List.find?_eq_none.mpr fun row hrow => ?_
    have hne := h row.id row.view (core_res (Table.get?_of_mem hrow))
    simpa [ActionResult.view] using hne

end Lookups

section Writes

variable {ρ κ : Type} [Keyed ρ κ] [DecidableEq κ] {ν : Type}

theorem get?_update_map (view : ρ → ν) {t : Table ρ} {k : κ} {r : ρ} {f : ρ → ρ}
    {hf : ∀ r, key (f r) = key r} (h : t.get? k = some r) :
    (fun k' => ((t.update k f hf).get? k').map view) =
      Function.update (fun k' => (t.get? k').map view) k (some (view (f r))) := by
  funext k'
  rw [Table.get?_update]
  by_cases hk : k' = k
  · subst hk
    simp [h]
  · simp [hk]

theorem get?_insert_map (view : ρ → ν) {t : Table ρ} {r : ρ} {h : t.get? (key r) = none} :
    (fun k' => ((t.insert r h).get? k').map view) =
      Function.update (fun k' => (t.get? k').map view) (key r) (some (view r)) := by
  funext k'
  rw [Table.get?_insert]
  by_cases hk : k' = key r
  · subst hk
    simp
  · simp [hk]

theorem get?_updateWhere_map (view : ρ → ν) {t : Table ρ} {p : ρ → Bool} {f : ρ → ρ}
    {hf : ∀ r, key (f r) = key r} (h : ∀ r ∈ t.rows, p r = true → view (f r) = view r) :
    (fun k' => ((t.updateWhere p f hf).get? k').map view) = fun k' => (t.get? k').map view := by
  funext k'
  rw [Table.get?_updateWhere, Option.map_map]
  cases hr : t.get? k' with
  | none => rfl
  | some r =>
    by_cases hp : p r
    · simp [hp, h r (Table.mem_of_get? hr) hp]
    · simp [hp]

variable {db : Db}

variable {i : ConfirmationId}

theorem Db.core_updateConfirmation {row : PendingConfirmation}
    {f : PendingConfirmation → PendingConfirmation} {hf : ∀ c, key (f c) = key c}
    (h : db.confirmations.get? i = some row) :
    ({ db with confirmations := db.confirmations.update i f hf } : Db).core =
      db.core.setConf i (f row).view := by
  simp only [core, Core.setConf]
  rw [get?_update_map PendingConfirmation.view h]

theorem Db.core_updateOperation {o : OperationId} {row : OperationRun}
    {f : OperationRun → OperationRun} {hf : ∀ r, key (f r) = key r}
    (h : db.operations.get? o = some row) :
    ({ db with operations := db.operations.update o f hf } : Db).core =
      db.core.setOp o (f row).view := by
  simp only [core, Core.setOp]
  rw [get?_update_map OperationRun.view h]

theorem Db.core_updateBatch {b : BatchId} {row : ConfirmationBatch}
    {f : ConfirmationBatch → ConfirmationBatch} {hf : ∀ r, key (f r) = key r}
    (h : db.batches.get? b = some row) :
    ({ db with batches := db.batches.update b f hf } : Db).core =
      db.core.setBatch b (f row).view := by
  simp only [core, Core.setBatch]
  rw [get?_update_map ConfirmationBatch.view h]

theorem Db.core_updateItem {k : BatchId × Nat} {row : ConfirmationBatchItem}
    {f : ConfirmationBatchItem → ConfirmationBatchItem} {hf : ∀ r, key (f r) = key r}
    (h : db.items.get? k = some row) :
    ({ db with items := db.items.update k f hf } : Db).core = db.core.setItem k (f row).view := by
  simp only [core, Core.setItem]
  rw [get?_update_map ConfirmationBatchItem.view h]

theorem Db.core_insertResult {row : ActionResult} {h : db.results.get? (key row) = none} :
    ({ db with results := db.results.insert row h } : Db).core =
      db.core.setRes row.id row.view := by
  simp only [core, Core.setRes]
  rw [get?_insert_map ActionResult.view]
  rfl

theorem Lifecycle.Core.setRes_self {c : Core} {r : ResultId} {z : ResView}
    (h : c.res r = some z) : c.setRes r z = c := by
  rw [setRes, Function.update_eq_self_iff.mpr h.symm]

theorem Db.core_adoptOperationResult {o : OperationId}
    {row : PendingConfirmation} (h : db.confirmations.get? i = some row) :
    (db.adoptOperationResult i o).core = db.core.setConf i { row.view with
      resultId := row.actionResultId <|> (db.operationResult o).map ActionResult.id } :=
  Db.core_updateConfirmation h

theorem Db.core_patchConfirmation {old : PendingConfirmation} {patch : ConfirmationPatch}
    (h : db.confirmations.get? old.id = some old) :
    (db.patchConfirmation old patch).core = db.core.setConf old.id (patch.apply old).view := by
  have hop : (fun o => ((if settlesDispatched old (patch.apply old) then
        db.operations.update old.operationId fun o => { o with envelope := none }
      else db.operations).get? o).map OperationRun.view) =
        fun o => (db.operations.get? o).map OperationRun.view := by
    split
    · exact get?_updateWhere_map OperationRun.view fun _ _ _ => rfl
    · rfl
  simp only [patchConfirmation, core, Core.setConf]
  rw [get?_update_map PendingConfirmation.view h, hop]

end Writes

section Statements

variable {db : Db}

theorem wp_insertActionResult_core {r : ActionResult} {Q : Unit → Db → Prop}
    (hQ : ∀ db', db'.core = db.core.setRes r.id r.view → db.core.res r.id = none →
      (∀ o, r.operationId = some o → db.core.unowned o) → Q () db') :
    wp (insertActionResult r) Q (fun _ => True) db :=
  wp_insertActionResult
    (fun hfresh hunique => hQ _ Db.core_insertResult (Db.core_res_none hfresh)
      fun o ho => Db.operationResult_eq_none.mp (hunique o ho))
    fun _ => trivial

variable {E : StoreError → Prop}

theorem wp_mintId_core {Q : Nat → Db → Prop}
    (hQ : ∀ db', db'.core = { db.core with nextId := db.nextId + 1 } → Q db.nextId db') :
    wp mintId Q E db :=
  hQ _ rfl

theorem wp_updateOperationStatus_core {o : OperationId} {p : OperationRun → Bool}
    {status : OperationRunStatus} {f : OperationRun → Option ResultId} {now : Time}
    {Q : Bool → Db → Prop} (htrue : ∀ row db', db.operations.get? o = some row → p row = true →
      db'.core = db.core.setOp o ⟨row.confirmationId, status, f row⟩ → Q true db')
    (hfalse : (∀ row, db.operations.get? o = some row → p row = false) → Q false db) :
    wp (updateOperationStatus o p status f now) Q E db := by
  rw [wp_updateOperationStatus]
  split
  · rename_i hany
    obtain ⟨row, hrow, hp⟩ := (Option.any_eq_true _ _).mp hany
    refine htrue row _ hrow hp ?_
    rw [Db.core_updateOperation hrow]
    simp [OperationRun.view]
  · rename_i hany
    refine hfalse fun row hrow => ?_
    simpa [hrow] using hany

/-- A status change that fires no pre-dispatch trigger, seen through the lifecycle. -/
theorem wp_updateConfirmationStatus_core {i : ConfirmationId} {p : PendingConfirmation → Bool}
    {patch : ConfirmationPatch} {Q : Bool → Db → Prop}
    (hpatch : patch.status ≠ .cancelled ∧ patch.status ≠ .expired)
    (htrue : ∀ row db', db.confirmations.get? i = some row → p row = true →
      db'.core = db.core.setConf i (patch.apply row).view → Q true db')
    (hfalse : (∀ row, db.confirmations.get? i = some row → p row = false) → Q false db) :
    wp (updateConfirmationStatus i p patch) Q E db := by
  cases hold : (db.confirmations.get? i).filter p with
  | none =>
    have hmiss : updateConfirmationStatus i p patch db = .ok (false, db) :=
      updateConfirmationStatus_none hold
    simp only [wp, hmiss]
    refine hfalse fun row hrow => ?_
    simpa [hrow] using Option.filter_eq_none_iff.mp hold
  | some old =>
    obtain ⟨hget, hp⟩ := Option.filter_eq_some_iff.mp hold
    obtain rfl : old.id = i := Table.key_of_get? hget
    have hpre : ¬ preDispatch old (patch.apply old) := by
      rintro ⟨-, hdropped⟩
      cases hs : patch.status <;> simp_all [PendingStatus.cancelledOrExpired]
    rw [updateConfirmationStatus_direct hold hpre hpatch.2]
    exact htrue old _ hget hp (Db.core_patchConfirmation hget)

end Statements

theorem Lifecycle.Move.of_eq {π : Policy} {base : Nat} {c c' c'' : Core} (h : Move π base c c')
    (heq : c'' = c') : Move π base c c'' :=
  heq ▸ h

/-- The moves a transaction makes from a database that satisfies the invariant. -/
def Steps (π : Policy) (base : Nat) (db db' : Db) : Prop :=
  Inv db.core → Chain π base db.core db'.core

namespace Steps

variable {π : Policy} {base : Nat} {db db' db'' : Db}

theorem refl (db : Db) : Steps π base db db := fun _ => Chain.refl _

theorem trans (h : Steps π base db db') (h' : Steps π base db' db'') : Steps π base db db'' :=
  fun hI => (h hI).trans (h' ((h hI).inv hI))

theorem of_core_eq (h : db'.core = db.core) : Steps π base db db' :=
  fun _ => h ▸ Chain.refl _

theorem move (h : Inv db.core → Move π base db.core db'.core) : Steps π base db db' :=
  fun hI => Chain.single (h hI)

theorem inv (h : Steps π base db db') (hI : Inv db.core) : Inv db'.core := (h hI).inv hI

theorem later (h : Steps π base db db') (hI : Inv db.core) : Later base db.core db'.core :=
  (h hI).later

end Steps

/-- Every commit of the transaction is a chain of moves. -/
abbrev Refines {α : Type} (π : Policy) (base : Nat) (m : StoreTxn α) : Prop :=
  Within (Steps π base) m

section Rules

variable {π : Policy} {base : Nat} {α β : Type}

theorem refines_pure (a : α) : Refines π base (pure a) := within_pure Steps.refl a

variable {m : StoreTxn α}

theorem refines_bind {f : α → StoreTxn β} (hm : Refines π base m)
    (hf : ∀ a, Refines π base (f a)) : Refines π base (m >>= f) :=
  within_bind (R := Steps π base) Steps.trans hm hf

theorem refines_forM {ι : Type} {body : ι → StoreTxn PUnit} (xs : List ι)
    (h : ∀ x ∈ xs, Refines π base (body x)) : Refines π base (xs.forM body) :=
  within_forM Steps.refl Steps.trans xs h

theorem refines_mintId : Refines π base mintId :=
  fun db => Steps.move fun _ => Move.mint db.core

/-- A transaction that reads the state first is checked at the state it reads. -/
theorem refines_get {f : Db → StoreTxn α}
    (h : ∀ db, wp (f db) (fun _ db' => Steps π base db db') (fun _ => True) db) :
    Refines π base (get >>= f) :=
  within_get_bind h

theorem Refines.after (hm : Refines π base m) {db db' : Db}
    (h : Steps π base db db') : wp m (fun _ db'' => Steps π base db db'') (fun _ => True) db' :=
  Within.from_state (R := Steps π base) Steps.trans hm h

/-- The first transaction is checked where it runs, what follows it anywhere. -/
theorem wp_steps_bind {f : α → StoreTxn β} {db : Db}
    (hm : wp m (fun _ db' => Steps π base db db') (fun _ => True) db)
    (hf : ∀ a, Refines π base (f a)) :
    wp (m >>= f) (fun _ db' => Steps π base db db') (fun _ => True) db :=
  wp_seq hm fun a _ h => (hf a).after h

theorem wp_steps_of_inv {db db' : Db} (h : Steps π base db db') (hm : Inv db.core → Inv db'.core →
      wp m (fun _ db'' => Steps π base db' db'') (fun _ => True) db') :
    wp m (fun _ db'' => Steps π base db db'') (fun _ => True) db' := by
  by_cases hI : Inv db.core
  · exact wp_mono (hm hI (h.inv hI)) (fun _ _ h' => h.trans h') fun _ _ => trivial
  · exact wp_iff_forall.mpr fun _ _ _ hI' => absurd hI' hI

theorem refines_of_inv (h : ∀ db : Db, Inv db.core →
      wp m (fun _ db' => Steps π base db db') (fun _ => True) db) : Refines π base m :=
  fun db => wp_steps_of_inv (Steps.refl db) fun hI _ => h db hI

end Rules

end ClockifyAssistant
