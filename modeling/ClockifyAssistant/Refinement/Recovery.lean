import ClockifyAssistant.RecoveryConvergence
import ClockifyAssistant.Refinement.Batches
import ClockifyAssistant.Refinement.Runs

/-!
Startup recovery as moves. A claimed confirmation already has the result it is
settled with; an operation without a confirmation in flight is settled with the
result it has or with a new one.
-/
namespace ClockifyAssistant

open Lib Txn Lifecycle

variable {π : Policy} {base : Nat}

section Steps

theorem OperationStep.view_of_started {s : OperationStep} (h : s.status ≠ .prepared) :
    s.view = ⟨s.operationId, true⟩ := by
  simp [view, bound, h]

theorem Db.core_touchSteps {db : Db} {p : OperationStep → Bool} {f : OperationStep → OperationStep}
    {hf : ∀ s, key (f s) = key s} (hop : ∀ s, (f s).operationId = s.operationId)
    (h : ∀ s, p s = true → s.status ≠ .prepared ∧ (f s).status ≠ .prepared) :
    ({ db with steps := db.steps.updateWhere p f hf } : Db).core = db.core := by
  simp only [core]
  rw [get?_updateWhere_map OperationStep.view fun s _ hp => ?_]
  rw [OperationStep.view_of_started (h s hp).1, OperationStep.view_of_started (h s hp).2, hop]

theorem Db.core_failUndispatchedSteps (db : Db) (now : Time) :
    ({ db with steps := failUndispatchedSteps db.steps now } : Db).core = db.core := by
  unfold failUndispatchedSteps
  rw [@Db.core_touchSteps { db with
    steps := db.steps.updateWhere (fun s => s.status == .compensating) fun s =>
      { s with status := .succeeded } }]
  · exact Db.core_touchSteps (fun _ => rfl) (by simp +contextual)
  · exact fun _ => rfl
  · simp +contextual [OperationStep.undispatched]

theorem untouched_recoverSteps (now : Time) : Untouched (recoverSteps now) := by
  refine within_get_bind fun db => ?_
  have hcore : ({ db with steps := recoveredSteps db.steps now } : Db).core = db.core := by
    unfold recoveredSteps
    rw [@Db.core_touchSteps { db with steps := failUndispatchedSteps db.steps now }]
    · exact db.core_failUndispatchedSteps now
    · exact fun _ => rfl
    · simp +contextual [OperationStep.ambiguous]
  exact hcore

theorem untouched_recoverTurns (now : Time) : Untouched (recoverTurns now) := by
  refine within_get_bind fun db => ?_
  exact SameCore.refl db

theorem untouched_recoverAssistantRuns (now : Time) : Untouched (recoverAssistantRuns now) := by
  refine within_get_bind fun db => ?_
  refine untouched_bind (untouched_forM _ fun run _ => ?_) (fun _ => ?_) db
  · exact untouched_bind untouched_allocateAndInsertEvent fun _ => untouched_pure _
  · exact within_get_bind fun db₁ => SameCore.refl db₁

theorem untouched_settleRecoveredUndo (id : UndoId) (status : UndoStatus)
    (ref : ActionResultRef) (now : Time) : Untouched (settleRecoveredUndo id status ref now) := by
  refine within_get_bind fun db => ?_
  split
  · exact SameCore.refl db
  · exact SameCore.refl db

end Steps

section Results

variable {db : Db} {o : OperationId}

/-- The operation is executing, or has the result it will be settled with. -/
def Lifecycle.Core.answerable (c : Core) (o : OperationId) : Prop :=
  (∃ y, c.op o = some y ∧ y.status = .executing) ∨ ¬ c.unowned o

/-- What recovery knows of the result it settles an operation with. -/
structure Recovered (π : Policy) (base : Nat) (o : OperationId) (db : Db)
    (ref : ActionResultRef) (db' : Db) : Prop where
  steps : Steps π base db db'
  adds : AddsResults db db'
  result : db'.core.res ref.id = some ⟨some o, ref.kind⟩

variable (π base) in
theorem wp_recoveredResult (scope : SessionScope) (actionName : String)
    (kind : ActionResultKind) (now : Time) (ho : db.core.answerable o) :
    wp (recoveredResult o scope actionName kind now)
      (fun ref db' => Recovered π base o db ref db') (fun _ => True) db := by
  suffices hmoves : wp (recoveredResult o scope actionName kind now)
      (fun ref db' => Steps π base db db' ∧ db'.core.res ref.id = some ⟨some o, ref.kind⟩)
      (fun _ => True) db by
    refine wp_mono (wp_both hmoves (recoveredResult_spec o scope actionName kind now db))
      (fun _ _ h => ⟨h.1.1, h.2.1, h.1.2⟩) fun _ h => h
  unfold recoveredResult
  rw [wp_bind, wp_get]
  cases hr : db.operationResult o with
  | some r =>
    obtain ⟨hres, hown⟩ := Db.operationResult_eq_some hr
    refine ⟨Steps.refl db, ?_⟩
    rw [ActionResult.ref, hres, ActionResult.view, hown]
  | none =>
    have hunowned : db.core.unowned o := Db.operationResult_eq_none.mp hr
    obtain ⟨y, hy, hexec⟩ := ho.resolve_right (not_not_intro hunowned)
    simp only [insertRecoveryResult, wp_bind, wp_pure]
    refine wp_mintId_core fun db₁ h₁ => ?_
    refine wp_insertActionResult_core fun db₂ h₂ hfresh _ => ?_
    rw [h₁] at hfresh h₂
    have hmove : Move π base { db.core with nextId := db.nextId + 1 } _ :=
      Move.record kind hy hexec hunowned hfresh (Nat.lt_succ_self _)
    refine ⟨fun _ => (Chain.single (Move.mint db.core)).trans (Chain.single (hmove.of_eq h₂)), ?_⟩
    rw [h₂]
    exact Function.update_self ..

/-- Once no confirmation is in flight an executing operation is settled by its own result. -/
theorem refines_settleRecoveredOperation {ref : ActionResultRef} (now : Time)
    (hres : db.core.res ref.id = some ⟨some o, ref.kind⟩)
    (hquiet : ∀ i x, db.core.conf i = some x → x.status ≠ .executing) (hπ : π.settles) :
    wp (settleRecoveredOperation o ref now) (fun _ db' => Steps π base db db')
      (fun _ => True) db := by
  refine wp_updateOperationStatus_core (fun row db' hrow hp h => ?_) fun _ => Steps.refl db
  have hexec : row.view.status = .executing := by simpa using hp
  refine Steps.move fun _ => (Move.settleOp (Db.core_op hrow) hexec hres rfl ?_ hπ).of_eq h
  exact fun i x hx _ => hquiet i x hx

end Results

section Confirmations

theorem refines_fillRecoveredClaim (row : PendingConfirmation) (ref : ActionResultRef)
    (now : Time) : Refines π base (fillRecoveredClaim row ref now) := by
  unfold fillRecoveredClaim
  split
  · exact refines_pure ()
  · exact refines_bind (refines_fillOpenClaim _ _ _ _) fun _ => refines_pure ()

/-- The operation of a claimed confirmation has the result they share. -/
theorem Lifecycle.Inv.shared {c : Core} {i : ConfirmationId} {x : ConfView} {r : ResultId}
    {z : ResView} (hI : Inv c) (hx : c.conf i = some x) (hclaimed : x.status.claimed = true)
    (hz : c.res r = some z) (hown : z.operationId = some x.operationId) : x.resultId = some r := by
  obtain ⟨⟨r', z', hxr, hz', hown'⟩, -⟩ := hI.claimed i x hx hclaimed
  rw [hxr, hI.owned_unique r' r z' z x.operationId hz' hz hown' hown]

theorem wp_settleRecoveredClaim {db : Db} {row : PendingConfirmation} {ref : ActionResultRef}
    {α : Type} {rest : Bool → StoreTxn α} (now : Time)
    (hrow : db.confirmations.get? row.id = some row) (hexec : row.status = .executing)
    (hshared : row.actionResultId = some ref.id)
    (hres : db.core.res ref.id = some ⟨some row.operationId, ref.kind⟩)
    (hrest : ∀ settled, Refines π base (rest settled)) (hπ : π.settles) :
    wp (do
        let _ ← updateConfirmationStatus row.id (fun c => c.status == .executing) ref.patch
        let settled ← settleRecoveredOperation row.operationId ref now
        rest settled)
      (fun _ db' => Steps π base db db') (fun _ => True) db := by
  have hx : db.core.conf row.id = some row.view := Db.core_conf hrow
  have hview : (ref.patch.apply row).view = { row.view with status := ref.kind.toPending } := by
    simp [PendingConfirmation.view, ActionResultRef.patch, ConfirmationPatch.apply, hshared]
  rw [wp_bind]
  refine wp_updateConfirmationStatus_core (by simp [ActionResultRef.patch])
    (fun row' db₁ hrow' _ h₁ => ?_) fun hmiss => ?_
  · obtain rfl : row = row' := Option.some.inj (hrow.symm.trans hrow')
    rw [hview] at h₁
    rw [wp_bind, settleRecoveredOperation]
    refine wp_updateOperationStatus_core (fun o db₂ ho hp h₂ => ?_) fun hmiss => ?_
    · have hy : db.core.op row.operationId = some o.view := by
        rw [← Db.core_op ho, h₁]
        rfl
      have hmove : Move π base db.core db₂.core := by
        refine (Move.settle ref.kind hx hexec hshared hres rfl hy (by simpa using hp)
        hπ).of_eq ?_
        rw [h₂, h₁, Core.setRes_self]
        · rfl
        · exact hres
      exact (hrest true).after (Steps.move fun _ => hmove)
    · have hop : ∀ y, db.core.op row.operationId = some y → y.status ≠ .executing := by
        intro y hy
        have hop₁ : db₁.core.op row.operationId = some y := by
          rw [h₁]
          exact hy
        obtain ⟨o, ho, rfl⟩ := Option.map_eq_some_iff.mp hop₁
        simpa using hmiss o ho
      have hmove : Move π base db.core db₁.core :=
        (Move.recoverConf hx hexec hshared hres rfl hop).of_eq h₁
      exact (hrest false).after (Steps.move fun _ => hmove)
  · exact absurd (hmiss row hrow) (by simp [hexec])

theorem wp_recoverConfirmation {db : Db} {row : PendingConfirmation} (now : Time)
    (hrow : db.confirmations.get? row.id = some row) (hexec : row.status = .executing)
    (hπ : π.settles) :
    wp (recoverConfirmation now row) (fun _ db' => Steps π base db db') (fun _ => True) db := by
  refine wp_steps_of_inv (Steps.refl db) fun hI _ => ?_
  have hx : db.core.conf row.id = some row.view := Db.core_conf hrow
  have hclaimed : row.view.status.claimed = true := by simp [hexec, PendingStatus.claimed]
  obtain ⟨⟨r, z, -, hz, hown⟩, -⟩ := hI.claimed _ _ hx hclaimed
  have hanswerable : db.core.answerable row.operationId :=
    .inr fun hunowned => hunowned r z hz hown
  unfold recoverConfirmation
  rw [wp_bind, wp_get]
  refine wp_seq (wp_recoveredResult π base row.scope _ _ now hanswerable) fun ref db₁ h₁ => ?_
  obtain ⟨hsteps, hadds, hres⟩ := h₁
  have hrow₁ : db₁.confirmations.get? row.id = some row := hadds.confirmations ▸ hrow
  have hx₁ : db₁.core.conf row.id = some row.view := Db.core_conf hrow₁
  have hshared : row.view.resultId = some ref.id :=
    (hsteps.inv hI).shared hx₁ hclaimed hres rfl
  refine wp_mono (wp_settleRecoveredClaim now hrow₁ hexec hshared hres (fun settled => ?_) hπ)
    (fun _ _ h => hsteps.trans h) fun _ h => h
  exact refines_bind (refines_fillRecoveredClaim row ref now) fun _ => refines_pure _

theorem wp_recoverConfirmations_within {R : Db → Db → Prop} (hrefl : ∀ db, R db db)
    (htrans : ∀ {db db' db''}, R db db' → R db' db'' → R db db'') (now : Time)
    (hstep : ∀ row db, db.confirmations.get? row.id = some row → row.status = .executing →
      wp (recoverConfirmation now row) (fun _ db' => R db db') (fun _ => True) db) (db : Db) :
    wp (sumRecovered (recoverConfirmation now) db.executingConfirmations)
      (fun _ db' => R db db') (fun _ => True) db :=
  wp_recoverConfirmations (fun _ db' _ => R db db') now db (fun _ row db₁ _ _ hR hget hexec =>
    wp_weaken (hstep row db₁ hget hexec) fun _ _ hR₂ => htrans hR hR₂) (hrefl db)

end Confirmations

section Operations

/-- No confirmation is in flight. -/
def Db.Settled (db : Db) : Prop :=
  ∀ c ∈ db.confirmations.rows, c.status ≠ .executing

theorem Db.Settled.conf {db : Db} (h : db.Settled) {i : ConfirmationId} {x : ConfView}
    (hx : db.core.conf i = some x) : x.status ≠ .executing := by
  obtain ⟨c, hc, rfl⟩ := Option.map_eq_some_iff.mp hx
  exact h c (Table.mem_of_get? hc)

theorem Db.Settled.calm {db db' : Db} (h : db.Settled) {T : BatchId → Prop}
    (hcalm : Calm T db db') : db'.Settled :=
  hcalm.confirmations.none h

theorem Resolves.answerable {db db' : Db} (h : Resolves db db') {row : OperationRun}
    (hrow : db.operations.get? row.id = some row) (hexec : row.status = .executing) :
    db'.core.answerable row.id := by
  rcases h row.id (by simp [hrow, hexec]) with hexec' | ⟨o, r, -, hr, -⟩
  · obtain ⟨o, ho, hs⟩ := (Option.any_eq_true _ _).mp hexec'
    exact .inl ⟨o.view, Db.core_op ho, by simpa using hs⟩
  · refine .inr fun hunowned => ?_
    exact nomatch hr.symm.trans (Db.operationResult_eq_none.mpr hunowned)

variable {α : Type} {db : Db} {row : OperationRun}

/-- An operation without a confirmation in flight is settled with its result. -/
theorem wp_recoverAnswerable {rest : ActionResultRef → Bool → StoreTxn α} (scope : SessionScope)
    (kind : ActionResultKind) (now : Time) (hsettled : db.Settled)
    (ho : db.core.answerable row.id) (hπ : π.settles)
    (hrest : ∀ ref settled, Refines π base (rest ref settled)) :
    wp (do
        let ref ← recoveredResult row.id scope row.actionName kind now
        let settled ← settleRecoveredOperation row.id ref now
        rest ref settled)
      (fun _ db' => Steps π base db db') (fun _ => True) db := by
  refine wp_seq (wp_recoveredResult π base scope row.actionName kind now ho) fun ref db₁ h₁ => ?_
  have hquiet : ∀ i x, db₁.core.conf i = some x → x.status ≠ .executing :=
    fun _ _ hx => (hsettled.calm (h₁.adds.calm (T := nowhere))).conf hx
  refine wp_mono (wp_steps_bind (refines_settleRecoveredOperation now h₁.result hquiet hπ)
    (hrest ref)) (fun _ _ h => h₁.steps.trans h) fun _ h => h

theorem wp_recoverOperation (now : Time) (hsettled : db.Settled)
    (ho : db.core.answerable row.id) (hπ : π.settles) :
    wp (recoverOperation now row) (fun _ db' => Steps π base db db') (fun _ => True) db := by
  unfold recoverOperation
  rw [wp_bind, wp_get]
  exact wp_recoverAnswerable row.scope _ now hsettled ho hπ fun _ _ => refines_pure _

theorem wp_recoverLinkedUndo {row : LinkedUndo} (now : Time) (hsettled : db.Settled)
    (ho : db.core.answerable row.operation.id) (hπ : π.settles) :
    wp (recoverLinkedUndo now row) (fun _ db' => Steps π base db db') (fun _ => True) db := by
  unfold recoverLinkedUndo
  rw [wp_bind, wp_get]
  exact wp_recoverAnswerable row.undo.scope _ now hsettled ho hπ fun _ _ =>
    refines_bind (untouched_settleRecoveredUndo _ _ _ now).refines fun _ => refines_pure _

theorem wp_recoverRows {ι : Type} {recover : ι → StoreTxn RecoverySummary}
    (operation : ι → OperationRun) {rows : List ι} (hsettled : db.Settled)
    (hrows : ∀ x ∈ rows, operation x ∈ db.operations.rows ∧ (operation x).status = .executing)
    (hspec : ∀ x db', wp (recover x) (fun _ db'' => Calm nowhere db' db'' ∧ Resolves db' db'')
      (fun _ => True) db')
    (hmoves : ∀ x db', Db.Settled db' → db'.core.answerable (operation x).id →
      wp (recover x) (fun _ db'' => Steps π base db' db'') (fun _ => True) db') :
    wp (sumRecovered recover rows) (fun _ db' => Steps π base db db') (fun _ => True) db := by
  let J : List ι → Db → Prop := fun _ db' =>
    Steps π base db db' ∧ Calm nowhere db db' ∧ Resolves db db'
  refine wp_mono (wp_sumRecovered J rows (fun done x rest hxs db₁ hJ => ?_) db
    ⟨Steps.refl db, Calm.refl _ db, .refl db⟩) (fun _ _ h => h.1) fun _ h => h
  obtain ⟨hsteps, hcalm, hresolves⟩ := hJ
  obtain ⟨hmem, hexec⟩ := hrows x (by simp [hxs])
  have ho : db₁.core.answerable (operation x).id :=
    hresolves.answerable (Table.get?_of_mem hmem) hexec
  refine wp_mono (wp_both (hmoves x db₁ (hsettled.calm hcalm) ho) (hspec x db₁))
    (fun _ db₂ h₂ => ?_) fun _ h => h
  exact ⟨hsteps.trans h₂.1, hcalm.trans h₂.2.1, hresolves.trans h₂.2.2 h₂.2.1⟩

theorem wp_recoverOperations (now : Time) (hsettled : db.Settled) (hπ : π.settles) :
    wp (sumRecovered (recoverOperation now) db.executingOperations)
      (fun _ db' => Steps π base db db') (fun _ => True) db := by
  refine wp_recoverRows id hsettled (fun x hx => ?_) (fun x db' => ?_)
    fun x db' hdb' ho => wp_recoverOperation now hdb' ho hπ
  · obtain ⟨hmem, hexec⟩ := List.mem_filter.mp hx
    exact ⟨hmem, by simpa using hexec⟩
  · exact wp_mono (recoverOperation_spec x now db') (fun _ _ h => ⟨h.1, h.2.1⟩) fun _ h => h

theorem wp_recoverLinkedUndos (now : Time) (hsettled : db.Settled) (hπ : π.settles) :
    wp (sumRecovered (recoverLinkedUndo now) db.linkedUndos)
      (fun _ db' => Steps π base db db') (fun _ => True) db := by
  refine wp_recoverRows LinkedUndo.operation hsettled (fun x hx => ?_) (fun x db' => ?_)
    fun x db' hdb' ho => wp_recoverLinkedUndo now hdb' ho hπ
  · obtain ⟨u, -, hx⟩ := List.mem_flatMap.mp hx
    obtain ⟨o, ho, rfl⟩ := List.mem_map.mp hx
    obtain ⟨hmem, hreverses⟩ := List.mem_filter.mp ho
    simp only [OperationRun.reverses, Bool.and_eq_true, beq_iff_eq] at hreverses
    exact ⟨hmem, hreverses.1.2⟩
  · exact wp_mono (recoverLinkedUndo_spec x now db') (fun _ _ h => ⟨h.1, h.2.1⟩) fun _ h => h

theorem refines_recoverUndo (now : Time) (row : UndoRecord) :
    Refines π base (recoverUndo now row) := by
  unfold recoverUndo insertRecoveryResult
  refine refines_bind (fun db => ?_) fun ref =>
    refines_bind (untouched_settleRecoveredUndo _ _ _ now).refines fun _ => refines_pure _
  simp only [wp_bind, wp_pure]
  refine wp_mintId_core fun db₁ h₁ => ?_
  refine wp_insertActionResult_core fun db₂ h₂ hfresh _ => ?_
  rw [h₁] at hfresh h₂
  have hmove : Move π base { db.core with nextId := db.nextId + 1 } _ :=
    Move.orphanResult .outcomeUnknown hfresh (Nat.lt_succ_self _)
  exact fun _ => (Chain.single (Move.mint db.core)).trans (Chain.single (hmove.of_eq h₂))

end Operations

section Pass

theorem refines_sumRecovered {ι : Type} {recover : ι → StoreTxn RecoverySummary} (rows : List ι)
    (h : ∀ x ∈ rows, Refines π base (recover x)) : Refines π base (sumRecovered recover rows) := by
  induction rows with
  | nil => exact refines_pure 0
  | cons x rest ih =>
    refine refines_bind (h x List.mem_cons_self) fun _ => refines_bind ?_ fun _ => refines_pure _
    exact ih fun y hy => h y (List.mem_cons_of_mem x hy)

/-- The whole pass is moves, where the policy lets executing batches be resumed or given up. -/
theorem refines_recoverOrphanedRuns (now : Time) (hresume : ∀ b, π.Lets b .executing .pending)
    (habandon : ∀ b, π.Lets b .executing .outcomeUnknown) (hπ : π.settles) :
    Refines π base (recoverOrphanedRuns now) := by
  unfold recoverOrphanedRuns
  refine refines_bind (untouched_recoverTurns now).refines fun _ =>
    refines_bind (untouched_recoverSteps now).refines fun _ => refines_get fun db => ?_
  have hconfirmations : wp (sumRecovered (recoverConfirmation now) db.executingConfirmations)
      (fun _ db' => Steps π base db db' ∧ db'.Settled) (fun _ => True) db := by
    refine wp_mono (wp_both (wp_recoverConfirmations_within Steps.refl Steps.trans now
      (fun row db' hrow hexec => wp_recoverConfirmation now hrow hexec hπ) db) (recoverConfirmations_spec now db))
      (fun _ _ h => ⟨h.1, h.2.2.2.1⟩) fun _ h => h
  refine wp_seq hconfirmations fun _ db₁ h₁ => ?_
  obtain ⟨hsteps₁, hsettled₁⟩ := h₁
  rw [wp_bind, wp_get]
  refine wp_seq (wp_both (@wp_recoverLinkedUndos π base db₁ now hsettled₁ hπ)
    (recoverLinkedUndos_spec now db₁.linkedUndos db₁)) fun _ db₂ h₂ => ?_
  have hsettled₂ : db₂.Settled := hsettled₁.calm h₂.2.1
  rw [wp_bind, wp_get]
  refine wp_seq (@wp_recoverOperations π base db₂ now hsettled₂ hπ) fun _ db₃ h₃ => ?_
  refine (refines_get (f := fun db => _) fun db₄ => ?_).after ((hsteps₁.trans h₂.1).trans h₃)
  refine refines_bind (refines_sumRecovered _ fun row _ => refines_recoverUndo now row)
    (fun _ => refines_get fun db₅ => ?_) db₄
  refine refines_bind (refines_forM _ fun b _ =>
    refines_recoverConfirmationBatch now (hresume b.id) (habandon b.id)) (fun _ => ?_) db₅
  exact refines_bind (untouched_recoverAssistantRuns now).refines fun _ => refines_pure _

end Pass

end ClockifyAssistant
