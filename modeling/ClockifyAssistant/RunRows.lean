import ClockifyAssistant.Store.Preparation
import ClockifyAssistant.Store.Settlement

/-!
What the writes of a settlement keep, its calls keep. The store functions that leave
the run rows as they are: previews, operations, results, batches and run events.
-/
namespace ClockifyAssistant

open Lib Txn

section Frames

variable {α β : Type}

/-- A relation of stores that the append of a run event keeps. -/
structure EventFrame (R : Db → Db → Prop) : Prop where
  refl (db : Db) : R db db
  trans {db db' db'' : Db} (h : R db db') (h' : R db' db'') : R db db''
  event (scope : SessionScope) (runId : RunId) (payload : RunEventPayload) (now : Time) :
    Within R (allocateAndInsertEvent scope runId payload now)

namespace EventFrame

variable {R : Db → Db → Prop} (frame : EventFrame R)

include frame

theorem done (a : α) : Within R (pure a : StoreTxn α) :=
  within_pure frame.refl a

theorem bind {m : StoreTxn α} {f : α → StoreTxn β} (hm : Within R m)
    (hf : ∀ a, Within R (f a)) : Within R (m >>= f) :=
  within_bind (R := R) frame.trans hm hf

theorem insertOperationCompleted (s : AssistantRunScope) (item : SettledItem) (now : Time) :
    Within R (insertOperationCompleted s item now) := by
  unfold ClockifyAssistant.insertOperationCompleted
  split
  · exact frame.done ()
  · exact frame.bind (frame.event _ _ _ _) fun _ => frame.done ()

theorem insertClaimEvents (s : AssistantRunScope) (input : CompletedConfirmation) (now : Time) :
    Within R (insertClaimEvents s input now) := by
  unfold ClockifyAssistant.insertClaimEvents
  split
  · exact frame.done ()
  · refine frame.bind (frame.event _ _ _ _) fun _ => ?_
    exact frame.bind (frame.event _ _ _ _) fun _ => frame.done ()

variable (hrun : ∀ s patch now, Within R (updateRunState s patch now))

include hrun

theorem completeRunAfterConfirmation (s : AssistantRunScope) (budget : RunBudget)
    (input : CompletedConfirmation) (now : Time) :
    Within R (completeRunAfterConfirmationWithEvents s budget input now) := by
  refine frame.bind (frame.insertClaimEvents _ _ _) fun _ => ?_
  refine frame.bind (frame.insertOperationCompleted _ _ _) fun _ => ?_
  refine frame.bind (hrun _ _ _) fun _ => ?_
  exact frame.bind (frame.event _ _ _ _) fun _ => frame.done ()

theorem completeRunAfterBatch (s : AssistantRunScope) (budget : RunBudget)
    (items : List SettledItem) (now : Time) :
    Within R (completeRunAfterBatchWithEvents s budget items now) := by
  refine frame.bind (within_forM frame.refl frame.trans items fun item _ =>
    frame.insertOperationCompleted s item now) fun _ => ?_
  refine frame.bind (hrun _ _ _) fun _ => ?_
  exact frame.bind (frame.event _ _ _ _) fun _ => frame.done ()

end EventFrame

/-- A relation that the writes of a settlement keep, the one of the run's row apart. -/
structure SettlementFrame (R : Db → Db → Prop) : Prop extends EventFrame R where
  mintId : Within R mintId
  result (r : ActionResult) : Within R (insertActionResult r)
  operations (db : Db) (id : OperationId) (f : OperationRun → OperationRun)
    (hf : ∀ o, key (f o) = key o) : R db { db with operations := db.operations.update id f hf }
  patched (db : Db) (id : ConfirmationId) (patch : ConfirmationPatch)
    (h : patch.status ≠ .executing) : R db { db with
      confirmations := db.confirmations.update id patch.apply patch.key_apply }
  adopted (db : Db) (id : ConfirmationId) (operationId : OperationId) :
    R db (db.adoptOperationResult id operationId)
  batches (db : Db) (id : BatchId) (f : ConfirmationBatch → ConfirmationBatch)
    (hf : ∀ b, key (f b) = key b) : R db { db with batches := db.batches.update id f hf }

namespace SettlementFrame

variable {R : Db → Db → Prop} (frame : SettlementFrame R)

include frame

theorem updateOperationStatus (id : OperationId) (p : OperationRun → Bool)
    (status : OperationRunStatus) (f : OperationRun → Option ResultId) (now : Time) :
    Within R (updateOperationStatus id p status f now) := by
  intro db
  rw [wp_updateOperationStatus]
  split
  · exact frame.operations db id _ _
  · exact frame.refl db

theorem updateBatch (id : BatchId) (p : ConfirmationBatch → Bool)
    (f : ConfirmationBatch → ConfirmationBatch) (hf : ∀ b, key (f b) = key b) :
    Within R (updateBatch id p f hf) := by
  refine within_get_bind fun db => ?_
  split
  · exact frame.refl db
  · exact frame.batches db id f hf

theorem failUndispatchedOperation (operationId : OperationId) (status : PendingStatus)
    (now : Time) : Within R (failUndispatchedOperation operationId status now) := by
  refine within_get_bind fun db => ?_
  split
  · exact frame.refl db
  · refine frame.bind frame.mintId (fun _ => ?_) db
    exact frame.bind (frame.result _) fun _ => within_modify fun db => frame.operations db _ _ _

theorem updateConfirmationStatus (id : ConfirmationId) (p : PendingConfirmation → Bool)
    {patch : ConfirmationPatch} (hpatch : patch.status ≠ .executing) :
    Within R (updateConfirmationStatus id p patch) := by
  refine within_get_bind fun db => ?_
  split
  · exact frame.refl db
  · rename_i old _
    have hguard : Within R (preDispatchOperationGuard old (patch.apply old)) :=
      within_get_bind fun db => within_require frame.refl _ _ db
    have hterminal : Within R (preDispatchTerminal old (patch.apply old)) := by
      unfold preDispatchTerminal
      split
      · exact frame.done ()
      · exact frame.bind (frame.failUndispatchedOperation _ _ _) fun _ =>
          within_modify fun db => frame.adopted db _ _
    have hscrub : Within R (settlementScrubsOperation old (patch.apply old)) := by
      unfold settlementScrubsOperation
      split
      · exact frame.done ()
      · exact within_modify fun db => frame.operations db _ _ _
    refine frame.bind (within_require frame.refl _ _) (fun _ => frame.bind hguard fun _ => ?_) db
    refine frame.bind (within_modify fun db => frame.patched db id patch hpatch) fun _ => ?_
    exact frame.bind hterminal fun _ => frame.bind hscrub fun _ => frame.done true

theorem getPendingConfirmation (id : ConfirmationId) (now : Time) :
    Within R (getPendingConfirmation id now) :=
  frame.bind (frame.bind (frame.updateConfirmationStatus id _ nofun) fun _ => frame.done ())
    fun _ => frame.refl

theorem dropPreview (kind : SettlementKind) (id : ConfirmationId) (status : PendingStatus)
    (now : Time) : Within R (dropPreview kind id status now) := by
  have hdrop (p : PendingConfirmation → Bool) (patch : ConfirmationPatch)
      (h : patch.status ≠ .executing) :
      Within R (do let _ ← ClockifyAssistant.updateConfirmationStatus id p patch) :=
    frame.bind (frame.updateConfirmationStatus id p h) fun _ => frame.done ()
  cases kind with
  | confirmed => exact frame.done ()
  | cancelled => exact hdrop _ _ nofun
  | expired =>
    unfold ClockifyAssistant.dropPreview
    dsimp only
    split
    · exact frame.done ()
    · exact hdrop _ _ nofun

theorem settleUnconfirmedOperation (scope : SessionScope) (operationId : OperationId)
    (kind : SettlementKind) (actionName : String) (now : Time) :
    Within R (settleUnconfirmedOperation scope operationId kind actionName now) := by
  have hrecord (input : ActionResultInput) : Within R (recordActionResult input now) :=
    frame.bind frame.mintId fun _ => frame.bind (frame.result _) fun _ => frame.done _
  refine frame.bind (hrecord _) fun _ => frame.bind ?_ fun _ => frame.done _
  exact frame.bind (frame.updateOperationStatus _ _ _ _ _) fun _ => frame.done ()

theorem settleUnconfirmed (record : PendingConfirmation) (kind : SettlementKind)
    (actionResultId : Option ResultId) (now : Time) :
    Within R (settleV2ConfirmationRun.settleUnconfirmed record kind actionResultId now) := by
  unfold settleV2ConfirmationRun.settleUnconfirmed
  split
  · exact frame.done _
  · refine frame.bind (frame.dropPreview _ _ _ _) fun _ => ?_
    exact frame.bind (frame.settleUnconfirmedOperation _ _ _ _ _) fun _ => frame.done _

theorem settleBatchMembers (batch : ConfirmationBatch) (kind : SettlementKind) (now : Time)
    (items : List ConfirmationBatchItem) : Within R (settleBatchMembers batch kind now items) := by
  induction items with
  | nil => exact frame.done []
  | cons item rest ih =>
    refine frame.bind (frame.bind (frame.getPendingConfirmation _ now) fun _ => ?_)
      fun _ => frame.bind ih fun _ => frame.done _
    split
    · refine frame.bind (frame.dropPreview _ _ _ _) fun _ => ?_
      exact frame.bind (frame.settleUnconfirmedOperation _ _ _ _ _) fun _ => frame.done _
    · exact frame.done _

theorem endPendingBatch (batch : ConfirmationBatch) (kind : SettlementKind) (now : Time) :
    Within R (endPendingBatch batch kind now) := by
  unfold ClockifyAssistant.endPendingBatch
  split
  · exact frame.done ()
  · exact frame.bind (frame.updateBatch _ _ _ _) fun _ => frame.done ()

theorem awaitingBatchRun (batch : ConfirmationBatch) (first : ConfirmationBatchItem)
    (now : Time) : Within R (awaitingBatchRun batch first now) :=
  frame.bind (frame.getPendingConfirmation _ now) fun _ => frame.refl

variable (hrun : ∀ s patch now, Within R (updateRunState s patch now))

include hrun

theorem settleV2ConfirmationRun (record : PendingConfirmation) (kind : SettlementKind)
    (actionResultId : Option ResultId) (now : Time) :
    Within R (settleV2ConfirmationRun record kind actionResultId now) := by
  refine within_get_bind fun db => ?_
  split
  · exact frame.refl db
  · refine frame.bind (frame.settleUnconfirmed record kind actionResultId now) (fun _ => ?_) db
    exact frame.bind (frame.completeRunAfterConfirmation hrun _ _ _ _) fun _ => frame.done true

theorem settleV2ConfirmationBatchRun (batchId : BatchId) (kind : SettlementKind) (now : Time) :
    Within R (settleV2ConfirmationBatchRun batchId kind now) := by
  refine within_get_bind fun db => ?_
  split
  · rename_i batch first rest _ _
    refine frame.bind (frame.awaitingBatchRun batch first now) (fun run => ?_) db
    cases run with
    | none => exact frame.done false
    | some found =>
      refine frame.bind (frame.settleBatchMembers _ _ _ _) fun _ => ?_
      refine frame.bind (frame.endPendingBatch _ _ _) fun _ => ?_
      exact frame.bind (frame.completeRunAfterBatch hrun _ _ _ _) fun _ => frame.done true
  · exact frame.refl db

end SettlementFrame

end Frames

def SameRuns (db db' : Db) : Prop := db'.runs = db.runs

theorem SameRuns.refl (db : Db) : SameRuns db db := rfl

theorem SameRuns.trans {db db' db'' : Db} (h : SameRuns db db') (h' : SameRuns db' db'') :
    SameRuns db db'' :=
  Eq.trans h' h

/-- The runs, the turns and the undo records are as they were. -/
def SameAside (db db' : Db) : Prop :=
  (db'.runs, db'.turns, db'.undos) = (db.runs, db.turns, db.undos)

theorem SameAside.refl (db : Db) : SameAside db db := rfl

theorem SameAside.trans {db db' db'' : Db} (h : SameAside db db') (h' : SameAside db' db'') :
    SameAside db db'' :=
  Eq.trans h' h

theorem SameAside.runs (db db' : Db) (h : SameAside db db') : SameRuns db db' :=
  congrArg Prod.fst h

theorem sameAside_frame : SettlementFrame SameAside where
  refl := SameAside.refl
  trans := SameAside.trans
  event scope runId payload now := by
    refine within_get_bind fun db => ?_
    rw [wp_bind, wp_require]
    refine ⟨fun _ => ?_, fun _ => trivial⟩
    split
    · rfl
    · trivial
  mintId _ := rfl
  result _ _ := wp_insertActionResult (fun _ _ => rfl) fun _ => trivial
  operations _ _ _ _ := rfl
  patched _ _ _ _ := rfl
  adopted _ _ _ := rfl
  batches _ _ _ _ := rfl

theorem sameRuns_frame : SettlementFrame SameRuns where
  refl := SameRuns.refl
  trans := SameRuns.trans
  event _ _ _ _ := (sameAside_frame.event _ _ _ _).mono SameAside.runs
  mintId _ := rfl
  result r := (sameAside_frame.result r).mono SameAside.runs
  operations _ _ _ _ := rfl
  patched _ _ _ _ := rfl
  adopted _ _ _ := rfl
  batches _ _ _ _ := rfl

section Rules

variable {α β : Type}

theorem sameRuns_require (p : Prop) [Decidable p] (e : StoreError) :
    Within SameRuns (require p e : StoreTxn PUnit) :=
  within_require SameRuns.refl p e

theorem sameRuns_modify {f : Db → Db} (h : ∀ db, (f db).runs = db.runs) :
    Within SameRuns (modify f : StoreTxn PUnit) :=
  within_modify h

theorem sameRuns_checked {p : Prop} [Decidable p] {e : StoreError} {m : StoreTxn α} {db : Db}
    (hm : wp m (fun _ db' => SameRuns db db') (fun _ => True) db) :
    wp (require p e >>= fun _ => m) (fun _ db' => SameRuns db db') (fun _ => True) db := by
  rw [wp_bind, wp_require]
  exact ⟨fun _ => hm, fun _ => trivial⟩

end Rules

section Confirmations

theorem sameRuns_savePendingConfirmation (record : PendingConfirmation) :
    Within SameRuns (savePendingConfirmation record) := by
  refine within_get_bind fun db => sameRuns_checked (sameRuns_checked ?_)
  split
  · rfl
  · trivial

theorem sameRuns_prepareOperationRun (input : PrepareOperationRunInput) (now : Time) :
    Within SameRuns (prepareOperationRun input now) := by
  refine within_get_bind fun db => sameRuns_checked (sameRuns_checked ?_)
  dsimp only
  split
  · rfl
  · trivial

end Confirmations

section Batches

theorem sameRuns_insertBatch (batch : ConfirmationBatch) : Within SameRuns (insertBatch batch) := by
  refine within_get_bind fun db => sameRuns_checked (sameRuns_checked ?_)
  split
  · rfl
  · trivial

theorem sameRuns_insertBatchItem (item : ConfirmationBatchItem) :
    Within SameRuns (insertBatchItem item) := by
  refine within_get_bind fun db => sameRuns_checked (sameRuns_checked ?_)
  split
  · rfl
  · trivial

theorem sameRuns_insertConfirmationBatch (tupleHash : List BatchMember → Hash)
    (input : CreateConfirmationBatchInput) (now : Time) :
    Within SameRuns (insertConfirmationBatch tupleHash input now) := by
  refine sameRuns_frame.bind sameRuns_frame.mintId fun id => sameRuns_frame.bind (sameRuns_require _ _) fun _ => ?_
  refine sameRuns_frame.bind (sameRuns_insertBatch _) fun _ => ?_
  refine sameRuns_frame.bind (within_forM SameRuns.refl SameRuns.trans _ fun entry _ => ?_) fun _ =>
    sameRuns_frame.done id
  exact sameRuns_frame.bind (sameRuns_insertBatchItem _) fun _ => sameRuns_modify fun _ => rfl

theorem sameRuns_openPreparedBatch (tupleHash : List BatchMember → Hash) (s : AssistantRunScope)
    (drafts : List PreviewDraft) (members : List BatchMember) (now : Time) :
    Within SameRuns (openPreparedBatch tupleHash s drafts members now) := by
  unfold openPreparedBatch
  split
  · exact sameRuns_frame.bind (sameRuns_insertConfirmationBatch _ _ _) fun _ => sameRuns_frame.done _
  · exact sameRuns_frame.done none

end Batches

section Runs

theorem sameRuns_insertPreview (s : AssistantRunScope) (draft : PreviewDraft) (now : Time) :
    Within SameRuns (insertPreview s draft now) := by
  refine sameRuns_frame.bind sameRuns_frame.mintId fun _ => sameRuns_frame.bind sameRuns_frame.mintId fun _ => ?_
  refine sameRuns_frame.bind (sameRuns_prepareOperationRun _ now) fun _ => ?_
  exact sameRuns_frame.bind (sameRuns_savePendingConfirmation _) fun _ => sameRuns_frame.done _

end Runs

end ClockifyAssistant
