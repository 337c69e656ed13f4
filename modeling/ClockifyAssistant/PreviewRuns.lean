import ClockifyAssistant.Refinement.UndoPairs
import ClockifyAssistant.Store.Preparation

/-!
Previews that are prepared one at a time, over whole runs of the store. Every call that
writes one is a chain of moves, from its preparation to its settlement or to the recovery
after a crash.
-/
namespace ClockifyAssistant

open Lib Txn Lifecycle

variable {π : Policy} {base : Nat}

section Preparation

variable (s : AssistantRunScope) (budget : RunBudget) (draft : PreviewDraft) (now : Time)

theorem Db.core_insertConfirmation {db : Db} {row : PendingConfirmation}
    {h : db.confirmations.get? (key row) = none} :
    ({ db with confirmations := db.confirmations.insert row h } : Db).core =
      db.core.setConf row.id row.view := by
  simp only [core, Core.setConf]
  rw [get?_insert_map PendingConfirmation.view]
  rfl

theorem refines_insertPreview : Refines π base (insertPreview s draft now) := by
  intro db
  simp only [insertPreview, wp_bind]
  refine wp_mintId_core fun db₁ h₁ => wp_mintId_core fun db₂ h₂ => ?_
  refine wp_prepareOperationRun_core fun db₃ h₃ => ?_
  simp only [savePendingConfirmation, wp_bind, wp_get, wp_require, implies_true, and_true]
  intro _ _
  split
  · have hnext : db₁.nextId = db.nextId + 1 := congrArg Core.nextId h₁
    refine Steps.move fun _ => (Move.preview db.core).of_eq ?_
    rw [Db.core_insertConfirmation, h₃, h₂, h₁, hnext]
    rfl
  · trivial

theorem untouched_startRun : Untouched (startRunWithEvent s now) := by
  refine within_get_bind fun db => ?_
  dsimp only
  split
  · split
    · rw [wp_bind, wp_set]
      exact untouched_bind untouched_allocateAndInsertEvent (fun _ => untouched_pure _) _
    · trivial
  · trivial

theorem untouched_updateRun {p : AssistantRun → Bool} {f : AssistantRun → AssistantRun}
    {hf : ∀ r, key (f r) = key r} : Untouched (updateRun s p f hf) := by
  refine within_get_bind fun db => ?_
  split
  · exact SameCore.refl db
  · exact SameCore.refl db

theorem refines_prepareSingle (tupleHash : List BatchMember → Hash) :
    Refines π base (prepareAssistantWriteBatchWithEvents tupleHash s budget [draft] now) := by
  have hsuspend (next : RunContinuation) : Untouched (suspendRunForConfirmation s next now) :=
    untouched_bind (untouched_updateRun s) fun _ =>
      untouched_bind untouched_allocateAndInsertEvent fun _ => untouched_pure _
  have hwrite : Refines π base (applyPreparedWrite s budget draft now) :=
    refines_bind (untouched_require _ _).refines fun _ =>
      refines_bind (refines_insertPreview s _ now) fun _ => Untouched.refines <|
        untouched_bind (untouched_bind (untouched_updateRun s) fun _ => untouched_pure _) fun _ =>
          untouched_bind untouched_allocateAndInsertEvent fun _ => untouched_pure _
  exact refines_bind (refines_bind hwrite fun _ => refines_pure _) fun _ =>
    refines_bind (refines_pure none) fun _ => Untouched.refines <|
      untouched_bind (hsuspend _) fun _ => untouched_pure _

end Preparation

section Confirmation

variable (id : ConfirmationId) (now : Time)

/-- No write is prepared as a member of a batch. -/
def Unbatched (c : Core) : Prop := ∀ k, c.item k = none

variable (π base) in
theorem wp_claim {db : Db} (hfree : Unbatched db.core) : wp (markConfirmationExecuting id now)
    (fun claimed db' => Steps π base db db' ∧ (claimed = true → db'.core.claimed id ∧
      ∃ x, db.core.conf id = some x ∧ x.status = .pending)) (fun _ => True) db := by
  unfold markConfirmationExecuting
  rw [wp_bind, wp_get]
  split
  · exact ⟨Steps.refl db, Bool.noConfusion⟩
  · rename_i row hrow
    obtain ⟨hget, hpending⟩ := Option.filter_eq_some_iff.mp hrow
    have hx : db.core.conf id = some row.view := Db.core_conf hget
    have hpending : row.view.status = .pending := by simpa using hpending
    simp only [mintId, wp_bind, wp_get, wp_set, wp_pure]
    refine wp_updateConfirmationStatus_core (by simp) (fun old db₁ hold _ h₁ => ?_) fun hmiss => ?_
    · obtain rfl : old = row := Option.some.inj (hold.symm.trans hget)
      refine wp_insertActionResult_core fun db₂ h₂ hfresh _ => ?_
      refine wp_updateOperationStatus_core (fun o db₃ ho hprepared h₃ => ?_) (by simp)
      simp only [wp_require, true_imp_iff, not_true_eq_false, false_imp_iff, and_true]
      have hy : db.core.op old.operationId = some o.view := by
        rw [← Db.core_op ho, h₂, h₁]
        rfl
      rw [h₁] at h₂ hfresh
      rw [h₂] at h₃
      have hmove : Move π base { db.core with nextId := db.nextId + 1 } db₃.core :=
        (Move.claim (c := { db.core with nextId := db.nextId + 1 }) hx hpending hy
          (by simpa using hprepared) hfresh (Nat.lt_succ_self _) fun k t ht =>
            absurd (ht.symm.trans (hfree k)) (Option.some_ne_none t)).of_eq h₃
      have hafter := (congrFun (congrArg Core.conf h₃) id).trans (Function.update_self ..)
      exact ⟨fun _ => (Chain.single (Move.mint db.core)).trans (Chain.single hmove),
        ⟨_, hafter, rfl⟩, _, hx, hpending⟩
    · exact absurd (hmiss row hget) (by simpa using hpending)

theorem refines_settleLedgerClaim (row : PendingConfirmation) (kind : ActionResultKind)
    (resultId : ResultId) : Refines π base (settleLedgerClaim row kind resultId now) := by
  unfold settleLedgerClaim
  split
  · exact refines_pure ()
  · split
    · exact within_modify fun db => Steps.of_core_eq rfl
    · exact refines_bind (refines_fillOpenClaim _ _ _ _) fun _ => (untouched_require _ _).refines

/-- A settlement is the move of a claimed preview with its operation and its result. -/
theorem refines_settleConfirmation (kind : ActionResultKind) (actionName : String)
    (result : CommitResult) (hπ : π.settles) :
    Refines π base (settleConfirmation id kind actionName result now) := by
  intro db
  simp only [settleConfirmation, wp_bind, wp_get, wp_demand, wp_require, wp_modify, implies_true,
    and_true]
  intro row hrow r hr howned
  obtain ⟨hget, hexec⟩ := Option.filter_eq_some_iff.mp hrow
  obtain ⟨stored, hstored, howner⟩ := (Option.any_eq_true _ _).mp howned
  have hres : ({ db with results := db.results.update r fun stored => { stored with
      actionName, kind, result, createdAt := now } } : Db).core =
        db.core.setRes r ⟨stored.operationId, kind⟩ := by
    simp only [Db.core, Core.setRes]
    rw [get?_update_map ActionResult.view hstored]
    rfl
  refine wp_updateConfirmationStatus_core (by cases kind <;> simp [ActionResultKind.toPending])
    (fun old db₁ hold _ h₁ => fun _ => ?_) (by simp)
  obtain rfl : old = row := Option.some.inj (hold.symm.trans hget)
  have hview (patch : ConfirmationPatch) (hpatch : patch.actionResultId = some r) :
      (patch.apply old).view = { old.view with status := patch.status } := by
    simp [PendingConfirmation.view, hpatch, hr]
  rw [hres, hview _ rfl] at h₁
  refine wp_updateOperationStatus_core (fun o db₂ ho hp h₂ => fun _ => ?_) (by simp)
  simp only [Bool.and_eq_true, beq_iff_eq] at hp howner hexec
  have hy : db.core.op old.operationId = some o.view := by
    rw [← Db.core_op ho, h₁]
    rfl
  have hmove : Move π base db.core db₂.core := (Move.settle kind (Db.core_conf hget) hexec hr
    (Db.core_res hstored) howner hy hp.1 hπ).of_eq (by rw [h₂, h₁]; rfl)
  exact (refines_settleLedgerClaim now old kind r).after (Steps.move fun _ => hmove)

theorem untouched_rotate (nonceHash : Hash) :
    Untouched (updateConfirmationNonceHash id nonceHash) := by
  refine within_get_bind fun db => ?_
  split
  · exact SameCore.refl db
  · rename_i hany
    obtain ⟨row, hrow, -⟩ := (Option.any_eq_true _ _).mp (by simpa using hany)
    exact (Db.core_updateConfirmation hrow).trans (congrArg (fun conf => { db.core with conf })
      (Function.update_eq_self_iff.mpr (Db.core_conf hrow).symm))

end Confirmation

section Runs

/-- The calls of the store that write a preview. -/
inductive PreviewCall
  | start (s : AssistantRunScope) (now : Time)
  | prepare (tupleHash : List BatchMember → Hash) (s : AssistantRunScope) (budget : RunBudget)
      (draft : PreviewDraft) (now : Time)
  | read (id : ConfirmationId) (now : Time)
  | rotate (id : ConfirmationId) (nonceHash : Hash)
  | cancel (id : ConfirmationId) (now : Time)
  | expire (id : ConfirmationId) (now : Time)
  | claim (id : ConfirmationId) (now : Time)
  | settle (id : ConfirmationId) (kind : ActionResultKind) (actionName : String)
      (result : CommitResult) (now : Time)
  | recover (now : Time)

def PreviewCall.apply (db : Db) : PreviewCall → Db
  | .start s now => ((startRunWithEvent s now).commit db).2
  | .prepare tupleHash s budget draft now =>
      ((prepareAssistantWriteBatchWithEvents tupleHash s budget [draft] now).commit db).2
  | .read id now => ((getPendingConfirmation id now).commit db).2
  | .rotate id nonceHash => ((updateConfirmationNonceHash id nonceHash).commit db).2
  | .cancel id now => ((cancelConfirmation id now).commit db).2
  | .expire id now => ((expireConfirmation id now).commit db).2
  | .claim id now => ((markConfirmationExecuting id now).commit db).2
  | .settle id kind actionName result now =>
      ((settleConfirmation id kind actionName result now).commit db).2
  | .recover now => ((recoverOrphanedRuns now).commit db).2

def runPreviews (calls : List PreviewCall) : Db := calls.foldl PreviewCall.apply .empty

/-- A chain that ends below its base opens no batch: a member would be a new preview. -/
theorem Lifecycle.Chain.unbatched {c c' : Core} (h : Chain π base c c') (hI : Inv c)
    (hle : c'.nextId ≤ base) (hfree : Unbatched c) : Unbatched c' := by
  induction h with
  | refl => exact hfree
  | @tail c₁ c₂ hchain hmove ih =>
    have hbefore := hmove.nextId_le.trans hle
    have hfree := ih hbefore
    intro k
    cases hmove with
    | @openBatch _ members _ _ _ hmember =>
      have hnone : members = [] := List.eq_nil_iff_forall_not_mem.mpr fun m hm => by
        obtain ⟨hnew, -, x, hx, -⟩ := hmember m hm
        exact absurd ((Chain.inv hI hchain).conf_lt _ _ hx).1 (Nat.not_lt.mpr (hbefore.trans hnew))
      subst hnone
      simp [Core.addBatch, hfree k]
    | forget h => exact (h.item k).elim (fun h => h.trans (hfree k)) id
    | itemStatus _ ht => exact absurd (ht.symm.trans (hfree _)) (Option.some_ne_none _)
    | itemCancelled ht => exact absurd (ht.symm.trans (hfree _)) (Option.some_ne_none _)
    | _ => exact hfree k

structure Single (db : Db) : Prop where
  inv : Inv db.core
  unbatched : Unbatched db.core

variable {db : Db}

theorem Single.commit {α : Type} {m : StoreTxn α} (h : Single db)
    (hm : ∀ base, wp m (fun _ db' => Steps .free base db db') (fun _ => True) db) :
    Single (m.commit db).2 ∧ Later 0 db.core (m.commit db).2.core := by
  cases hrun : m db with
  | error e =>
    rw [commit_error hrun]
    exact ⟨h, Later.refl 0 _⟩
  | ok r =>
    rw [commit_ok (a := r.1) (t := r.2) hrun]
    have hsteps (base : Nat) : Chain .free base db.core r.2.core := wp_ok (hm base) hrun h.inv
    have hfree := (hsteps _).unbatched h.inv le_rfl h.unbatched
    exact ⟨⟨(hsteps 0).inv h.inv, hfree⟩, (hsteps 0).later⟩

theorem Single.step (h : Single db) (call : PreviewCall) :
    Single (call.apply db) ∧ Later 0 db.core (call.apply db).core := by
  cases call with
  | start s now => exact h.commit fun _ => (untouched_startRun s now).refines db
  | prepare tupleHash s budget draft now =>
    exact h.commit fun _ => refines_prepareSingle s budget draft now tupleHash db
  | read id now =>
    refine h.commit fun base => wp_steps_bind (wp_steps_bind (wp_weaken (wp_drop .free base id
      (by simp +contextual) (.inr rfl) rfl db) fun _ _ h => h.steps) fun _ => ?_) fun _ => ?_
    · exact refines_pure ()
    · exact Steps.refl
  | rotate id nonceHash => exact h.commit fun _ => (untouched_rotate id nonceHash).refines db
  | cancel id now =>
    exact h.commit fun base => wp_weaken (wp_drop .free base id (by simp)
      (.inl rfl) rfl db) fun _ _ h => h.steps
  | expire id now =>
    exact h.commit fun base => wp_weaken (wp_drop .free base id
      (by simp +contextual) (.inr rfl) rfl db) fun _ _ h => h.steps
  | claim id now =>
    exact h.commit fun _ => wp_weaken (wp_claim .free _ id now h.unbatched) fun _ _ h => h.1
  | settle id kind actionName result now =>
    exact h.commit fun _ => refines_settleConfirmation id now kind actionName result trivial db
  | recover now =>
    exact h.commit fun _ => refines_recoverOrphanedRuns now (fun _ _ _ _ _ => trivial)
      (fun _ _ _ _ _ => trivial) trivial db

theorem Single.run (h : Single db) (calls : List PreviewCall) :
    Single (calls.foldl PreviewCall.apply db) ∧
      Later 0 db.core (calls.foldl PreviewCall.apply db).core := by
  induction calls generalizing db with
  | nil => exact ⟨h, Later.refl 0 _⟩
  | cons call rest ih =>
    obtain ⟨hnext, hlater⟩ := h.step call
    obtain ⟨hlast, hrest⟩ := ih hnext
    exact ⟨hlast, hlater.trans hrest⟩

theorem single_runPreviews (calls : List PreviewCall) : Single (runPreviews calls) := by
  refine (Single.run ⟨?_, ?_⟩ calls).1
  · constructor <;> simp [Db.core, Db.empty, Core.claimed, Core.before]
  · simp [Unbatched, Db.core, Db.empty]

/-- Whatever became of a preview, its operation has at most one result, and which. -/
structure OneResult (db : Db) (row : PendingConfirmation) : Prop where
  pending : row.status = .pending → row.actionResultId = none ∧
    ∀ r ∈ db.results.rows, r.operationId ≠ some row.operationId
  claimed : row.status.claimed → ∃ r ∈ db.results.rows, row.actionResultId = some r.id ∧
    ∀ r' ∈ db.results.rows, r'.operationId = some row.operationId ↔ r' = r
  dropped : row.status = .cancelled ∨ row.status = .expired →
    ∀ o ∈ db.operations.rows, o.id = row.operationId → o.status = .definitiveFailed

def OneResults (db : Db) : Prop := ∀ row ∈ db.confirmations.rows, OneResult db row

theorem previews_have_one_result (calls : List PreviewCall) : OneResults (runPreviews calls) := by
  intro row hrow
  have hI : Inv (runPreviews calls).core := (single_runPreviews calls).inv
  have hx := Db.core_conf (Table.get?_of_mem hrow)
  have hres {r : ActionResult} (hr : r ∈ (runPreviews calls).results.rows) :=
    Db.core_res (Table.get?_of_mem hr)
  refine ⟨fun hs => ?_, fun hs => ?_, fun hs o ho hid => ?_⟩
  · obtain ⟨hnone, hunowned, -⟩ := hI.pending _ _ hx hs
    exact ⟨hnone, fun r hr => hunowned _ _ (hres hr)⟩
  · obtain ⟨⟨id, z, hid, hz, hown⟩, -⟩ := hI.claimed _ _ hx hs
    obtain ⟨r, hr, rfl⟩ := Option.map_eq_some_iff.mp hz
    obtain rfl : r.id = id := Table.key_of_get? hr
    refine ⟨r, Table.mem_of_get? hr, hid, fun r' hr' => ⟨fun hown' => ?_, fun h => h ▸ hown⟩⟩
    have hsame := hI.owned_unique _ _ _ _ _ (hres hr') hz hown' hown
    exact Option.some.inj ((Table.get?_of_mem hr').symm.trans ((congrArg _ hsame).trans hr))
  · exact hI.dropped _ _ hx hs _ (Db.core_op ((congrArg _ hid.symm).trans (Table.get?_of_mem ho)))

/-- A preview that was taken from its admin is never given back, and a claimed one keeps its
operation and the result it was claimed with. -/
def Forward (db db' : Db) : Prop :=
  ∀ id row row', db.confirmations.get? id = some row → db'.confirmations.get? id = some row' →
    row'.operationId = row.operationId ∧ (row.status ≠ .pending → row'.status ≠ .pending) ∧
      (row.status.claimed → row'.status.claimed ∧ row'.actionResultId = row.actionResultId)

theorem previews_move_forward (before after : List PreviewCall) :
    Forward (runPreviews before) (runPreviews (before ++ after)) := by
  intro id row row' hrow hrow'
  have hx := Db.core_conf hrow
  have hlt := ((single_runPreviews before).inv.conf_lt _ _ hx).1
  unfold runPreviews at hrow'
  rw [List.foldl_append] at hrow'
  obtain ⟨x, hold, hoperation, -, hspent, hclaimed⟩ :=
    ((single_runPreviews before).run after).2.conf _ _ hlt (Db.core_conf hrow')
  obtain rfl := Option.some.inj (hold.symm.trans hx)
  exact ⟨hoperation, hspent, hclaimed⟩

def PreviewCall.grants (db : Db) (id : ConfirmationId) : PreviewCall → Bool
  | .claim i now =>
      match ((markConfirmationExecuting i now).commit db).1 with
      | .ok claimed => i == id && claimed
      | .error _ => false
  | _ => false

/-- How many callers of a run are told to dispatch the preview. -/
def claimsGranted (id : ConfirmationId) (db : Db) : List PreviewCall → Nat
  | [] => 0
  | call :: rest => (call.grants db id).toNat + claimsGranted id (call.apply db) rest

/-- No claim of the preview will be granted any more. -/
def Spent (c : Core) (id : ConfirmationId) : Prop :=
  id < c.nextId ∧ ∀ x, c.conf id = some x → x.status ≠ .pending

theorem Spent.later {c c' : Core} {id : ConfirmationId} (h : Spent c id) (hlater : Later 0 c c') :
    Spent c' id := by
  refine ⟨h.1.trans_le hlater.nextId, fun x' hx' => ?_⟩
  obtain ⟨x, hx, -, -, hspent, -⟩ := hlater.conf id x' h.1 hx'
  exact hspent (h.2 x hx)

theorem Single.grants (h : Single db) {id : ConfirmationId} {call : PreviewCall}
    (hg : call.grants db id = true) : ¬ Spent db.core id ∧ Spent (call.apply db).core id := by
  cases call with
  | claim i now =>
    unfold PreviewCall.grants at hg
    dsimp only at hg
    split at hg
    · rename_i claimed hrun
      simp only [Bool.and_eq_true, beq_iff_eq] at hg
      obtain ⟨rfl, rfl⟩ := hg
      obtain ⟨⟨x', hx', hclaimed⟩, x, hx, hpending⟩ := (wp_ok
        (wp_claim .free 0 i now h.unbatched) (ok_of_commit (Prod.ext hrun rfl))).2 rfl
      refine ⟨fun hs => hs.2 x hx hpending, ?_, fun x₁ hx₁ => ?_⟩
      · exact ((h.inv.conf_lt _ _ hx).1).trans_le (h.step (.claim i now)).2.nextId
      · obtain rfl := Option.some.inj (hx₁.symm.trans hx')
        rintro hs
        simp [hs, PendingStatus.claimed] at hclaimed
    · cases hg
  | _ => cases hg

theorem Single.claimsGranted_le (h : Single db) (id : ConfirmationId) (calls : List PreviewCall) :
    claimsGranted id db calls ≤ 1 ∧ (Spent db.core id → claimsGranted id db calls = 0) := by
  induction calls generalizing db with
  | nil => exact ⟨Nat.zero_le 1, fun _ => rfl⟩
  | cons call rest ih =>
    obtain ⟨hnext, hlater⟩ := h.step call
    obtain ⟨hle, hnone⟩ := ih hnext
    unfold claimsGranted
    cases hg : call.grants db id with
    | true =>
      obtain ⟨hfresh, hspent⟩ := h.grants hg
      simp [hnone hspent, hfresh]
    | false => exact ⟨by simpa using hle, fun hs => by simpa using hnone (hs.later hlater)⟩

/-- The store tells at most one caller of a run to dispatch a preview. -/
theorem preview_claims_granted_once (calls : List PreviewCall) (id : ConfirmationId) :
    claimsGranted id .empty calls ≤ 1 :=
  ((single_runPreviews []).claimsGranted_le id calls).1

end Runs

end ClockifyAssistant
