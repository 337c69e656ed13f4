import ClockifyAssistant.RecoveryConvergence
import ClockifyAssistant.RunRows
import ClockifyAssistant.Services.ConfirmationService

/-!
Only the claim puts a confirmation in execution: no other call of the service
does, and what startup recovery leaves is not executing. Only a granted claim
sends a write.
-/
namespace ClockifyAssistant

open Lib Txn Server

/-- No confirmation enters execution. -/
def Unclaimed (db db' : Db) : Prop :=
  Table.NoNew (fun c => c.status = .executing) db.confirmations db'.confirmations

namespace Unclaimed

theorem refl (db : Db) : Unclaimed db db := Table.NoNew.refl _ _

theorem of_eq {db db' : Db} (h : db'.confirmations = db.confirmations) : Unclaimed db db' :=
  Table.NoNew.of_eq h

theorem trans {db db' db'' : Db} (h : Unclaimed db db') (h' : Unclaimed db' db'') :
    Unclaimed db db'' :=
  Table.NoNew.trans h h'

end Unclaimed

theorem unclaimed_updateRow {db : Db} {id : ConfirmationId}
    {f : PendingConfirmation → PendingConfirmation} {hf : ∀ c, key (f c) = key c}
    (h : ∀ c, (f c).status = .executing → c.status = .executing) :
    Unclaimed db { db with confirmations := db.confirmations.update id f hf } :=
  @Table.noNew_update _ _ _ _ _ _ _ _ hf fun c _ => h c

theorem unclaimed_frame : SettlementFrame Unclaimed where
  refl := Unclaimed.refl
  trans := Unclaimed.trans
  event scope runId payload now := by
    refine within_get_bind fun db => ?_
    rw [wp_bind, wp_require]
    refine ⟨fun _ => ?_, fun _ => trivial⟩
    split
    · exact .of_eq rfl
    · trivial
  mintId _ := .of_eq rfl
  result _ _ := wp_insertActionResult (fun _ _ => .of_eq rfl) fun _ => trivial
  operations _ _ _ _ := .of_eq rfl
  patched _ _ _ hpatch := unclaimed_updateRow fun _ hexec => absurd hexec hpatch
  adopted _ _ _ := unclaimed_updateRow fun _ hexec => hexec
  batches _ _ _ _ := .of_eq rfl

section Rules

variable {α β : Type}

theorem unclaimed_read (f : Db → α) : Within Unclaimed (do return f (← get) : StoreTxn α) :=
  fun db => Unclaimed.refl db

theorem unclaimed_require (p : Prop) [Decidable p] (e : StoreError) :
    Within Unclaimed (require p e : StoreTxn PUnit) :=
  within_require Unclaimed.refl p e

theorem unclaimed_demand (o : Option α) (e : StoreError) :
    Within Unclaimed (demand o e : StoreTxn α) :=
  within_demand Unclaimed.refl o e

theorem unclaimed_modify {f : Db → Db} (h : ∀ db, (f db).confirmations = db.confirmations) :
    Within Unclaimed (modify f : StoreTxn PUnit) :=
  within_modify fun db => Unclaimed.of_eq (h db)

end Rules

section Confirmations

theorem unclaimed_cancelConfirmation (id : ConfirmationId) (now : Time) :
    Within Unclaimed (cancelConfirmation id now) :=
  unclaimed_frame.updateConfirmationStatus id _ nofun

theorem unclaimed_expireConfirmation (id : ConfirmationId) (now : Time) :
    Within Unclaimed (expireConfirmation id now) :=
  unclaimed_frame.updateConfirmationStatus id _ nofun

theorem unclaimed_updateConfirmationNonceHash (id : ConfirmationId) (nonceHash : Hash) :
    Within Unclaimed (updateConfirmationNonceHash id nonceHash) := by
  refine within_get_bind fun db => ?_
  split
  · exact .refl db
  · exact unclaimed_updateRow fun _ hexec => hexec

theorem unclaimed_settleLedgerClaim (row : PendingConfirmation) (status : ActionResultKind)
    (actionResultId : ResultId) (now : Time) :
    Within Unclaimed (settleLedgerClaim row status actionResultId now) := by
  unfold settleLedgerClaim
  split
  · exact unclaimed_frame.done ()
  · split
    · exact unclaimed_modify fun _ => rfl
    · refine unclaimed_frame.bind (within_get_bind fun db => ?_) fun _ => unclaimed_require _ _
      split
      · exact .refl db
      · exact .of_eq rfl

theorem unclaimed_settleConfirmation (id : ConfirmationId) (status : ActionResultKind)
    (actionName : String) (result : CommitResult) (now : Time) :
    Within Unclaimed (settleConfirmation id status actionName result now) := by
  have hstatus : status.toPending ≠ .executing := by cases status <;> nofun
  refine within_get_bind fun db => ?_
  refine unclaimed_frame.bind (unclaimed_demand _ _) (fun row => ?_) db
  refine unclaimed_frame.bind (unclaimed_demand _ _) fun resultId => ?_
  refine unclaimed_frame.bind (unclaimed_require _ _) fun _ => unclaimed_frame.bind (unclaimed_modify fun _ => rfl) fun _ => ?_
  refine unclaimed_frame.bind (unclaimed_frame.updateConfirmationStatus id _ hstatus) fun _ => ?_
  refine unclaimed_frame.bind (unclaimed_require _ _) fun _ => ?_
  refine unclaimed_frame.bind (unclaimed_frame.updateOperationStatus _ _ _ _ _) fun _ => ?_
  refine unclaimed_frame.bind (unclaimed_require _ _) fun _ => ?_
  exact unclaimed_frame.bind (unclaimed_settleLedgerClaim row status resultId now) fun _ => unclaimed_frame.done resultId

end Confirmations

section Runs

theorem unclaimed_updateRunState (s : AssistantRunScope) (patch : RunStatePatch) (now : Time) :
    Within Unclaimed (updateRunState s patch now) := by
  refine unclaimed_frame.bind (within_get_bind fun db => ?_) fun _ => unclaimed_require _ _
  split
  · exact .refl db
  · exact .of_eq rfl

end Runs

section Batches

theorem unclaimed_updateConfirmationBatchItemStatus (batchId : BatchId) (index : Nat)
    (p : ConfirmationBatchItem → Bool) (status : ConfirmationBatchItemStatus) (patch : ItemPatch) :
    Within Unclaimed (updateConfirmationBatchItemStatus batchId index p status patch) := by
  refine within_get_bind fun db => ?_
  split
  · exact .refl db
  · simp only [wp_bind, wp_require]
    exact ⟨fun _ => .of_eq rfl, fun _ => trivial⟩

theorem unclaimed_cancelUndispatchedBatchItems (batchId : BatchId) (fromIndex : Nat)
    (now : Time) : Within Unclaimed (cancelUndispatchedBatchItems batchId fromIndex now) := by
  have hitem (item : ConfirmationBatchItem) :
      Within Unclaimed (cancelUndispatchedBatchItem now item) := by
    refine unclaimed_frame.bind ?_ fun _ => unclaimed_frame.bind (unclaimed_frame.updateOperationStatus _ _ _ _ _) fun _ => unclaimed_frame.done ()
    refine unclaimed_frame.bind (unclaimed_updateConfirmationBatchItemStatus _ _ _ _ _) fun _ => ?_
    exact unclaimed_frame.bind (unclaimed_cancelConfirmation _ now) fun _ => unclaimed_frame.done ()
  refine within_get_bind fun db => ?_
  exact unclaimed_frame.bind (within_forM Unclaimed.refl Unclaimed.trans _ fun item _ => hitem item)
    (fun _ => unclaimed_frame.done _) db

theorem unclaimed_recoverConfirmationBatch (batchId : BatchId) (now : Time) :
    Within Unclaimed (recoverConfirmationBatch batchId now) :=
  fun db => wp_weaken (recoverConfirmationBatch_spec batchId now db) fun _ _ h =>
    h.1.confirmations

end Batches

section Operations

theorem unclaimed_transact {α : Type} {m : StoreTxn α} (hm : Within Unclaimed m)
    (env : ServiceEnv) (w : ServiceWorld) : Unclaimed w.db (env.transact m w).2.db := by
  unfold ServiceEnv.transact
  split
  · exact .refl w.db
  · exact commit_inv (P := Unclaimed w.db) (.refl w.db) (hm w.db)

def ServiceOp.claims : ServiceOp → Bool
  | markConfirmationExecuting _ _ => true
  | _ => false

theorem ServiceOp.unclaimed {o : ServiceOp} (ho : o.claims = false) (env : ServiceEnv)
    (w : ServiceWorld) : Unclaimed w.db (o.exec env w).2.db := by
  cases o with
  | markConfirmationExecuting record nonce => cases ho
  | getPendingConfirmation id =>
    exact unclaimed_transact (unclaimed_frame.getPendingConfirmation id env.now) env w
  | expireConfirmation id =>
    exact unclaimed_transact (unclaimed_expireConfirmation id env.now) env w
  | cancelConfirmation id =>
    exact unclaimed_transact (unclaimed_cancelConfirmation id env.now) env w
  | updateConfirmationNonceHash id nonceHash =>
    exact unclaimed_transact (unclaimed_updateConfirmationNonceHash id nonceHash) env w
  | settleConfirmedOperation id status actionName result =>
    exact unclaimed_transact (unclaimed_settleConfirmation id status actionName result _) env w
  | settleV2ConfirmationRun record kind actionResultId =>
    exact unclaimed_transact
      (unclaimed_frame.settleV2ConfirmationRun unclaimed_updateRunState record kind _ _) env w
  | recoverConfirmationBatch id nowIso =>
    exact unclaimed_transact (unclaimed_recoverConfirmationBatch id nowIso) env w
  | updateConfirmationBatchStatus id status completedAt =>
    exact unclaimed_transact (unclaimed_frame.updateBatch id _ _ _) env w
  | markConfirmationBatchExecuting id =>
    exact unclaimed_transact (unclaimed_frame.updateBatch id _ _ _) env w
  | updateConfirmationBatchItemStatus id index status patch =>
    exact unclaimed_transact
      (unclaimed_updateConfirmationBatchItemStatus id index _ status patch) env w
  | advanceConfirmationBatchProgress id nextIndex =>
    exact unclaimed_transact (unclaimed_frame.updateBatch id _ _ _) env w
  | cancelUndispatchedBatchItems id fromIndex nowIso =>
    exact unclaimed_transact (unclaimed_cancelUndispatchedBatchItems id fromIndex nowIso) env w
  | settleV2ConfirmationBatchRun id kind =>
    exact unclaimed_transact
      (unclaimed_frame.settleV2ConfirmationBatchRun unclaimed_updateRunState id kind _) env w
  | other change => exact change.unclaimed w.db
  | getOperationRun _ => exact unclaimed_transact (unclaimed_read _) env w
  | getActionResult _ => exact unclaimed_transact (unclaimed_read _) env w
  | getScopedConfirmationBatch _ _ => exact unclaimed_transact (unclaimed_read _) env w
  | getConfirmationBatch _ => exact unclaimed_transact (unclaimed_read _) env w
  | listConfirmationBatchItems _ => exact unclaimed_transact (unclaimed_read _) env w
  | now => exact .refl w.db
  | getInstallation _ => exact .refl w.db
  | loadPolicy _ => exact .refl w.db
  | verifyWriteAuthority _ _ => exact .refl w.db
  | acquire _ _ => exact .refl w.db
  | executeStoredV2Write _ => exact .refl w.db
  | recordUndoIfReversible _ _ _ => exact .refl w.db

end Operations

variable {service : ConfirmationService}

section Lenient

open Fallible

def ServiceOp.privileged : ServiceOp → Bool
  | markConfirmationExecuting _ _ => true
  | executeStoredV2Write _ => true
  | _ => false

/-- The readings of a member's checks. -/
def ServiceOp.reads : ServiceOp → Bool
  | getOperationRun _ => true
  | loadPolicy _ => true
  | _ => false

variable {M : Server ServiceOp fun o => Except ServiceError o.Val} {S : Spec M}

/-- A specification that asks something of claims and of dispatches only. -/
class Lenient (S : Spec M) : Prop where
  pre : ∀ {o : ServiceOp}, o.privileged = false → ∀ w, S.Pre o w

theorem free_bestEffort {α : Type} {m : Service α} (hm : Free S m) : Free S (bestEffort m) :=
  free_tryCatch (free_map hm) fun _ => free_pure _

variable [Lenient S]

theorem free_op {o : ServiceOp} (ho : o.privileged = false) : Free S (perform o) :=
  free_perform (Lenient.pre ho)

theorem free_checkPolicy (claims : SessionScope) (operation : ConfirmableOperation) :
    Free S (checkPolicy claims operation) := by
  unfold checkPolicy
  split
  · exact free_pure _
  · refine free_bind (free_op rfl) fun canWrite => ?_
    split
    · exact free_pure _
    · exact free_pure _

/-- Once its write may be sent, a preview is dispatched without asking for more. -/
theorem safe_dispatchConfirmedPreview (claims : SessionScope) {record : PendingConfirmation}
    (installation : Installation) {w : M.World} (hsend : SafeE S
      (perform (.executeStoredV2Write record)) (fun _ _ => True) (fun _ _ => True) w) :
    SafeE S (dispatchConfirmedPreview claims record installation) (fun _ _ => True)
      (fun _ _ => True) w := by
  refine safeE_bind hsend fun commitResult w _ => ?_
  have hsettle : Free S (settleDispatched record commitResult) := by
    refine free_bind (free_bestEffort (free_op rfl)) fun first => ?_
    cases first with
    | some resultRef => exact free_pure _
    | none => exact free_bestEffort (free_op rfl)
  refine free_bind hsettle (fun resultRef => ?_) w
  have hundo : Free S (recordUndo claims installation commitResult resultRef) := by
    cases resultRef with
    | some resultRef => exact free_op rfl
    | none => exact free_pure _
  exact free_bind hundo fun _ => free_pure _

theorem free_terminalItemOutcome (item : ConfirmationBatchItem)
    (record : Option PendingConfirmation) : Free S (terminalItemOutcome item record) := by
  unfold terminalItemOutcome
  split
  · exact free_pure _
  · exact free_throw _
  · split
    · exact free_pure _
    · refine free_bind (free_op rfl) fun stored => ?_
      split
      · exact free_pure _
      · exact free_pure _

theorem free_settleBatchRunBestEffort (batchId : BatchId) (kind : SettlementKind) :
    Free S (settleBatchRunBestEffort batchId kind) :=
  free_bind (free_bestEffort (free_op rfl)) fun _ => free_pure _

theorem free_acquireLease (claims : SessionScope) (installation : Installation) :
    Free S (acquireLease claims installation) := by
  refine free_bind (free_op rfl) fun lease => ?_
  cases lease <;> exact free_pure _

theorem free_replayMembers (items : List ConfirmationBatchItem) : Free S (replayMembers items) := by
  induction items with
  | nil => exact free_pure _
  | cons item items ih =>
    refine free_bind (free_op rfl) fun record => ?_
    cases record with
    | none => exact free_pure _
    | some record =>
      refine free_bind (free_terminalItemOutcome item _) fun outcome => ?_
      cases outcome with
      | none => exact free_pure _
      | some outcome =>
        refine free_bind ih fun outcomes => ?_
        cases outcomes <;> exact free_pure _

theorem free_validateMembers (batchId : BatchId) (entries : List BatchEntry) :
    Free S (validateMembers batchId entries) := by
  induction entries with
  | nil => exact free_pure _
  | cons entry entries ih =>
    refine free_bind (free_op rfl) fun record => ?_
    split
    · exact free_pure _
    · split
      · refine free_bind (free_terminalItemOutcome entry.item _) fun outcome => ?_
        cases outcome with
        | none => exact free_pure _
        | some outcome => exact ih
      · split
        · exact free_pure _
        · exact ih

theorem free_priorOutcomes (items : List ConfirmationBatchItem) : Free S (priorOutcomes items) := by
  induction items with
  | nil => exact free_pure _
  | cons item items ih =>
    refine free_bind (free_op rfl) fun record => ?_
    refine free_bind (free_terminalItemOutcome item _) fun replay => ?_
    exact free_bind ih fun _ => free_pure _

theorem free_finalOutcomes (outcomes : List ConfirmBatchItemOutcome)
    (items : List ConfirmationBatchItem) : Free S (finalOutcomes outcomes items) := by
  induction items with
  | nil => exact free_pure _
  | cons item items ih =>
    refine free_bind (free_op rfl) fun record => ?_
    refine free_bind (free_terminalItemOutcome item _) fun stored => ?_
    exact free_bind ih fun _ => free_pure _

theorem free_cancelBatch (claims : SessionScope) (batchId : BatchId) :
    Free S (cancelBatch claims batchId) := by
  have hmembers (items : List ConfirmationBatchItem) :
      Free S (cancelMembers items) := by
    induction items with
    | nil => exact free_pure _
    | cons item items ih =>
      refine free_bind (free_op rfl) fun record => ?_
      split
      · exact free_bind (free_op rfl) fun _ => ih
      · exact ih
  refine free_bind (free_op rfl) fun batch => ?_
  cases batch with
  | none => exact free_pure _
  | some batch =>
    refine free_bind (free_op rfl) fun settled => ?_
    dsimp only
    split
    · refine free_bind (free_op rfl) fun items => free_bind (hmembers items) fun _ => ?_
      refine free_bind (free_op rfl) fun current => ?_
      split
      · refine free_bind (free_op rfl) fun now => ?_
        exact free_bind (free_op rfl) fun _ => free_pure _
      · exact free_pure _
    · exact free_pure _

theorem free_reissueNonce (claims : SessionScope) (id : ConfirmationId) (nonce : Nonce) :
    Free S (reissueNonce service claims id nonce) := by
  refine free_bind (free_op rfl) fun record => ?_
  cases record with
  | none => exact free_pure _
  | some record =>
    refine free_bind (free_op rfl) fun now => ?_
    split
    · exact free_pure _
    · refine free_bind (free_op rfl) fun rotated => ?_
      split
      · exact free_pure _
      · exact free_pure _

/-- The checks of a single confirmation leave the nonce compared with the record. -/
theorem safe_checkSingle (claims : SessionScope) (record : PendingConfirmation) (nonce : Nonce)
    (w : M.World) : SafeE S (checkSingle service claims record nonce)
      (fun r _ => ∀ installation, r = .ok installation →
        record.nonceHash = some (service.hashes.nonceHashOf record nonce)) (fun _ _ => True) w := by
  unfold checkSingle
  split
  · exact safeE_pure nofun
  · split
    · exact safeE_pure nofun
    · refine safeE_bind (free_op rfl w) fun now w _ => ?_
      split
      · split
        · exact safeE_bind (free_op rfl w) fun _ _ _ => safeE_pure nofun
        · exact safeE_pure nofun
      · rename_i hconfirm
        have hnonce := (confirmPending_ok hconfirm).2.2.2
        refine SafeE.mono (Q := fun _ _ => True) ?_ (fun _ _ _ _ _ => hnonce) fun _ _ h => h
        split
        · exact safeE_pure trivial
        · rename_i operation _
          split
          · exact safeE_pure trivial
          · refine safeE_bind (free_op rfl w) fun run w _ => ?_
            split
            · exact safeE_pure trivial
            · refine safeE_bind (free_op rfl w) fun installation w _ => ?_
              split
              · exact safeE_pure trivial
              · split
                · exact safeE_pure trivial
                · refine safeE_bind (free_checkPolicy claims operation w) fun allowed w _ => ?_
                  cases allowed with
                  | error failed => exact safeE_pure trivial
                  | ok _ => exact safeE_pure trivial

/-- What the clock's reading gives a member that passes `confirmPending` survives its other
checks, which only read. -/
theorem safe_checkMember {claims : SessionScope} {installation : Installation}
    {record : PendingConfirmation} {nonce : Nonce} {P : M.World → Prop} {w : M.World}
    (hnow : SafeE S (perform .now) (fun now w =>
      confirmPending service.hashes record claims nonce now = .ok () → P w) (fun _ _ => True) w)
    (hread : ∀ (o : ServiceOp) (w : M.World), o.reads = true → P w →
      SafeE S (perform o) (fun _ w => P w) (fun _ _ => True) w) :
    SafeE S (checkMember service claims installation record nonce)
      (fun r w => r = .ok () → P w) (fun _ _ => True) w := by
  unfold checkMember
  split
  · exact safeE_pure nofun
  · refine safeE_bind hnow fun now w hconfirmed => ?_
    split
    · split
      · exact safeE_bind (free_op rfl w) fun _ _ _ => safeE_pure nofun
      · exact safeE_pure nofun
    · rename_i hconfirm
      have hP := hconfirmed hconfirm
      split
      · exact safeE_pure nofun
      · rename_i operation _
        split
        · exact safeE_pure nofun
        · refine safeE_bind (hread _ w rfl hP) fun run w hP => ?_
          split
          · exact safeE_pure nofun
          · unfold checkPolicy
            split
            · exact safeE_pure fun _ => hP
            · refine safeE_bind (hread _ w rfl hP) fun canWrite w hP => ?_
              split
              · exact safeE_pure fun _ => hP
              · exact safeE_pure fun _ => hP

/-- The specification grants what a confirmation and a member of a batch ask of it. -/
structure Admits (service : ConfirmationService) (S : Spec M) : Prop where
  single : ∀ claims record nonce, Free S (confirmSingle service claims record nonce)
  member : ∀ claims installation batchId nowIso (entry : BatchEntry) w,
    SafeE S (perform (.getPendingConfirmation entry.item.confirmationId))
      (fun record w => ∀ row nonce, record = some row → SafeE S
        (dispatchMember service claims installation batchId nowIso entry row nonce)
        (fun _ _ => True) (fun _ _ => True) w) (fun _ _ => True) w

variable (hadmits : Admits service S)

include hadmits in
theorem free_dispatchMembers (claims : SessionScope) (installation : Installation)
    (batchId : BatchId) (nowIso : Time) (entries : List BatchEntry) (progress : BatchProgress) :
    Free S (dispatchMembers service claims installation batchId nowIso entries progress) := by
  induction entries generalizing progress with
  | nil => exact free_pure _
  | cons entry entries ih =>
    intro w
    refine safeE_bind (hadmits.member claims installation batchId nowIso entry w)
      fun record w hrecord => ?_
    split
    · exact free_bind (free_terminalItemOutcome entry.item record) (fun _ => ih _) w
    · split
      · rename_i _ record nonce _
        refine safeE_bind (hrecord record nonce rfl) fun dispatched w _ => ?_
        split
        · exact safeE_pure trivial
        · split
          · refine free_bind (free_op rfl) (fun _ => ?_) w
            exact free_bind (free_op rfl) fun _ => free_pure _
          · exact ih _ w
      · exact free_throw _ w

theorem free_finishBatch (batch : ConfirmationBatch) (items : List ConfirmationBatchItem)
    (nowIso : Time) (progress : BatchProgress) :
    Free S (finishBatch batch items nowIso progress) := by
  have hstatus : Free S (finalStatus batch items nowIso progress) := by
    unfold finalStatus
    split
    · refine free_bind (free_op rfl) fun current => ?_
      cases current with
      | none => exact free_throw _
      | some current => exact free_pure _
    · refine free_bind (free_priorOutcomes _) fun prior => ?_
      exact free_bind (free_op rfl) fun _ => free_pure _
  refine free_bind hstatus fun status => ?_
  refine free_bind (free_settleBatchRunBestEffort _ _) fun _ => free_bind (free_op rfl) fun _ => ?_
  exact free_bind (free_finalOutcomes _ _) fun _ => free_pure _

include hadmits in
theorem free_commitBatch (claims : SessionScope) (installation : Installation)
    (batch : ConfirmationBatch) (items : List ConfirmationBatchItem) (entries : List BatchEntry)
    (nowIso : Time) :
    Free S (commitBatch service claims installation batch items entries nowIso) := by
  have hfinished (f : Except ServiceRejection BatchProgress → Service ConfirmBatchOutcome)
      (herror : ∀ failed, Free S (f (.error failed)))
      (hok : ∀ progress, Free S (f (.ok progress))) :
      Free S (dispatchMembers service claims installation batch.id nowIso entries
        ⟨[], false, false⟩ >>= f) := by
    refine free_bind (free_dispatchMembers hadmits claims installation batch.id nowIso entries _)
      fun dispatched => ?_
    cases dispatched with
    | error failed => exact herror failed
    | ok progress => exact hok progress
  unfold commitBatch
  split
  · refine free_bind (free_op rfl) fun marked => ?_
    split
    · exact free_pure _
    · exact hfinished _ (fun _ => free_pure _) (free_finishBatch batch items nowIso)
  · exact hfinished _ (fun _ => free_pure _) (free_finishBatch batch items nowIso)

include hadmits in
theorem free_confirmLiveBatch (claims : SessionScope) (batch : ConfirmationBatch)
    (items : List ConfirmationBatchItem) (bodyItems : List ConfirmBatchItemInput) (nowIso : Time) :
    Free S (confirmLiveBatch service claims batch items bodyItems nowIso) := by
  refine free_bind (free_validateMembers _ _) fun valid => ?_
  cases valid with
  | error failed => exact free_pure _
  | ok _ =>
    refine free_bind (free_op rfl) fun installation => ?_
    split
    · exact free_pure _
    · refine free_bind (free_op rfl) fun denied => ?_
      cases denied with
      | some denied => exact free_pure _
      | none =>
        refine free_bind (free_acquireLease _ _) fun lease => ?_
        cases lease with
        | error failed => exact free_pure _
        | ok _ => exact free_commitBatch hadmits claims _ batch items _ nowIso

include hadmits in
theorem free_confirmBatch (claims : SessionScope) (batchId : BatchId)
    (bodyItems : List ConfirmBatchItemInput) :
    Free S (confirmBatch service claims batchId bodyItems) := by
  refine free_bind (free_op rfl) fun nowIso => free_bind (free_op rfl) fun owned => ?_
  cases owned with
  | none => exact free_pure _
  | some _ =>
    refine free_bind (free_op rfl) fun _ => free_bind (free_op rfl) fun batch => ?_
    cases batch with
    | none => exact free_throw _
    | some batch =>
      refine free_bind (free_op rfl) fun items => ?_
      split
      · exact free_pure _
      · split
        · exact free_pure _
        · refine free_bind (free_op rfl) fun now => ?_
          split
          · refine free_bind (free_op rfl) fun _ => ?_
            exact free_bind (free_settleBatchRunBestEffort _ _) fun _ => free_pure _
          · split
            · refine free_bind (free_replayMembers _) fun outcomes => ?_
              cases outcomes <;> exact free_pure _
            · exact free_confirmLiveBatch hadmits claims batch items bodyItems nowIso

include hadmits in
theorem free_handler (request : ServiceRequest) : Free S (request.handler service) := by
  cases request with
  | confirmSingle claims record nonce => exact free_map (hadmits.single claims record nonce)
  | confirmBatch claims batchId bodyItems =>
    exact free_map (free_confirmBatch hadmits claims batchId bodyItems)
  | cancelBatch claims batchId => exact free_map (free_cancelBatch claims batchId)
  | cancelConfirmation id => exact free_map (free_op rfl)
  | reissueNonce claims id nonce => exact free_map (free_reissueNonce claims id nonce)
  | other change => exact free_map (free_op rfl)

end Lenient

/-- A preview that enters execution was claimed by the event that took it there. -/
theorem claimed_by_claim {c c' : (confirmationServer service).Config}
    {e : (confirmationServer service).Event} {id : ConfirmationId} {row row' : PendingConfirmation}
    (hstep : step c e = some c') (hrow : c.world.db.confirmations.get? id = some row)
    (hpending : row.status = .pending) (hrow' : c'.world.db.confirmations.get? id = some row')
    (hexec : row'.status = .executing) :
    ∃ record nonce env, operation? c e = some (.markConfirmationExecuting record nonce, env) := by
  have hclaimed : ¬ Unclaimed c.world.db c'.world.db := by
    intro h
    obtain ⟨row₀, hrow₀, hexec₀⟩ := Table.NoNew.get? h hrow' hexec
    obtain rfl : row = row₀ := Option.some.inj (hrow.symm.trans hrow₀)
    rw [hpending] at hexec₀
    cases hexec₀
  rcases world_step hstep with hsame | ⟨o, env, ho, hworld⟩ | ⟨env, _, hboot⟩
  · exact absurd (.of_eq (by rw [hsame])) hclaimed
  · cases o with
    | markConfirmationExecuting record nonce => exact ⟨record, nonce, env, ho⟩
    | _ =>
      refine absurd ?_ hclaimed
      rw [hworld]
      exact ServiceOp.unclaimed rfl env c.world
  · refine absurd ?_ hclaimed
    have hrecovered : ∃ summary db, recoverOrphanedRuns env.now c.world.db = .ok (summary, db) ∧
        c'.world = ⟨db, env.now⟩ := by
      simp only [confirmationServer] at hboot
      split at hboot
      · rename_i summary db hok
        exact ⟨summary, db, hok, (Option.some.inj hboot).symm⟩
      · cases hboot
    obtain ⟨summary, db, hok, hworld⟩ := hrecovered
    have hquiescent := (wp_ok (recoverOrphanedRuns_spec env.now c.world.db) hok).1
    rw [hworld]
    exact fun row hmem hexec => absurd hexec (hquiescent.confirmations row hmem)

section Dispatch

open Fallible

/-- A claim of the preview that is granted. -/
def ServiceOp.grants (id : ConfirmationId) : (o : ServiceOp) → Except ServiceError o.Val → Nat
  | markConfirmationExecuting record _, .ok true => if record.id = id then 1 else 0
  | _, _ => 0

/-- A dispatch of the preview's write. -/
def ServiceOp.sends (id : ConfirmationId) : ServiceOp → Nat
  | executeStoredV2Write record => if record.id = id then 1 else 0
  | _ => 0

variable (service) in
abbrev claimsPay (id : ConfirmationId) :
    Spec ((confirmationServer service).purse (ServiceOp.grants id) (ServiceOp.sends id)) :=
  Spec.solvent _ (ServiceOp.grants id) (ServiceOp.sends id)

variable {id : ConfirmationId} {record : PendingConfirmation} {n : Nat}

theorem ServiceOp.sends_eq_zero {o : ServiceOp} (ho : o.privileged = false) : o.sends id = 0 := by
  cases o with
  | executeStoredV2Write record => cases ho
  | _ => rfl

instance lenient_claimsPay : Lenient (claimsPay service id) where
  pre ho n := (ServiceOp.sends_eq_zero ho).trans_le (Nat.zero_le n)

/-- Whoever is granted the claim of a preview may send its write. -/
theorem safe_claim (nonce : Nonce) : SafeE (claimsPay service id)
    (perform (.markConfirmationExecuting record nonce))
    (fun claimed n => claimed = true → (ServiceOp.executeStoredV2Write record).sends id ≤ n)
    (fun _ _ => True) n := by
  let claim := ServiceOp.markConfirmationExecuting record nonce
  refine safeE_perform rfl (Nat.zero_le n) fun env _ => ?_
  change Meets _ _ (claim.exec env.1 env.2).1
    (n - 0 + ServiceOp.grants id claim (claim.exec env.1 env.2).1)
  cases (claim.exec env.1 env.2).1 with
  | error e => trivial
  | ok claimed =>
    rintro rfl
    exact Nat.le_add_left _ _

theorem safe_kept {o : ServiceOp} (ho : o.privileged = false) :
    SafeE (claimsPay service id) (perform o) (fun _ n' => n ≤ n') (fun _ _ => True) n := by
  refine safeE_perform rfl (lenient_claimsPay.pre ho n) fun env _ => ?_
  change Meets (M := (confirmationServer service).purse _ _) _ _ (o.exec env.1 env.2).1
    (n - o.sends id + ServiceOp.grants id o (o.exec env.1 env.2).1)
  cases (o.exec env.1 env.2).1 with
  | error e => trivial
  | ok a =>
    rw [ServiceOp.sends_eq_zero ho]
    exact Nat.le_add_right _ _

theorem admits_claimsPay : Admits service (claimsPay service id) where
  single claims record nonce n := by
    refine safeE_bind (safe_checkSingle claims record nonce n) fun checked n _ => ?_
    cases checked with
    | error failed => exact safeE_pure trivial
    | ok installation =>
      refine free_bind (free_op rfl) (fun denied => ?_) n
      cases denied with
      | some denied => exact free_pure _
      | none =>
        refine free_bind (free_acquireLease claims installation) fun lease => ?_
        cases lease with
        | error failed => exact free_pure _
        | ok _ =>
          intro n
          refine safeE_bind (safe_claim nonce) fun claimed n hpaid => ?_
          split
          · exact safeE_pure trivial
          · rename_i hclaimed
            refine safeE_bind (safe_dispatchConfirmedPreview claims installation
              (safeE_perform_any rfl (hpaid (by simpa using hclaimed)))) fun dispatched n _ => ?_
            exact free_bind (free_bestEffort (free_op rfl)) (fun _ => free_pure _) n
  member claims installation batchId nowIso entry n := by
    refine (free_op rfl n).weaken fun _ n _ row nonce _ => ?_
    refine safeE_bind (safe_checkMember (P := fun _ => True)
      ((free_op rfl n).weaken fun _ _ _ _ => trivial) fun o n ho _ => ?_) fun checked n _ => ?_
    · exact free_op (by cases o <;> first | rfl | cases ho) n
    · cases checked with
      | error failed => exact safeE_pure trivial
      | ok _ =>
        refine safeE_bind (safe_claim nonce) fun claimed n hpaid => ?_
        split
        · exact safeE_pure trivial
        · rename_i hclaimed
          refine safeE_bind (safe_kept rfl) fun _ n' hle => ?_
          refine safeE_bind (safe_dispatchConfirmedPreview claims installation
            (safeE_perform_any rfl ((hpaid (by simpa using hclaimed)).trans hle)))
            fun dispatched n _ => ?_
          refine free_bind (free_op rfl) (fun _ => free_bind (free_op rfl) fun _ => ?_) n
          exact free_bind (free_op rfl) fun _ => free_pure _

def Db.previewStatus (db : Db) (id : ConfirmationId) : Option PendingStatus :=
  (db.confirmations.get? id).map PendingConfirmation.status

/-- The event makes the preview available: it was not pending before. -/
def offers (id : ConfirmationId) (c : (confirmationServer service).Config)
    (e : (confirmationServer service).Event) : Nat :=
  (step c e).elim 0 fun c' =>
    if c.world.db.previewStatus id ≠ some .pending ∧ c'.world.db.previewStatus id = some .pending
    then 1 else 0

theorem wp_markConfirmationExecuting (id : ConfirmationId) (now : Time) (db : Db) :
    wp (markConfirmationExecuting id now) (fun claimed db' =>
      (∀ id', id' ≠ id → db'.confirmations.get? id' = db.confirmations.get? id') ∧
        (claimed = true →
          db.previewStatus id = some .pending ∧ db'.previewStatus id = some .executing))
      (fun _ => True) db := by
  unfold markConfirmationExecuting
  rw [wp_bind, wp_get]
  cases hold : (db.confirmations.get? id).filter fun c => c.status == .pending with
  | none => exact ⟨fun _ _ => rfl, Bool.noConfusion⟩
  | some row =>
    obtain ⟨hget, hp⟩ := Option.filter_eq_some_iff.mp hold
    obtain rfl : row.id = id := Table.key_of_get? hget
    simp only [mintId, wp_bind, wp_get, wp_set, wp_pure]
    let patch : ConfirmationPatch :=
      { status := .executing, usedAt := some now, actionResultId := some db.nextId }
    have hpre : ¬ preDispatch row (patch.apply row) := by
      rintro ⟨-, hdropped⟩
      cases hdropped
    let db₁ : Db := { db with nextId := db.nextId + 1 }
    have hold₁ : (db₁.confirmations.get? row.id).filter (fun c => c.status == .pending) =
        some row := hold
    rw [updateConfirmationStatus_direct hold₁ hpre (by simp [patch])]
    have hrows : (∀ id', id' ≠ row.id → (db₁.patchConfirmation row patch).confirmations.get? id' =
        db.confirmations.get? id') ∧ (db₁.patchConfirmation row patch).previewStatus row.id =
          some .executing := by
      refine ⟨fun id' hid' => by simp [Db.patchConfirmation, db₁, hid'], ?_⟩
      simp [Db.previewStatus, Db.patchConfirmation, db₁, hget, patch, ConfirmationPatch.apply]
    have hpending : db.previewStatus row.id = some .pending := by
      simpa [Db.previewStatus, hget] using hp
    refine wp_insertActionResult (fun _ _ => ?_) fun _ => trivial
    rw [wp_updateOperationStatus]
    split
    all_goals
      rw [wp_require]
      exact ⟨fun _ => ⟨hrows.1, fun _ => ⟨hpending, hrows.2⟩⟩, fun _ => trivial⟩

theorem grants_taken (env : ServiceEnv) (w : ServiceWorld) (record : PendingConfirmation)
    (nonce : Nonce) {r : Except ServiceError Bool × ServiceWorld}
    (hr : r = (ServiceOp.markConfirmationExecuting record nonce).exec env w) :
    ServiceOp.grants id (.markConfirmationExecuting record nonce) r.1 = 0 ∨
      ServiceOp.grants id (.markConfirmationExecuting record nonce) r.1 = 1 ∧
        w.db.previewStatus id = some .pending ∧ r.2.db.previewStatus id = some .executing := by
  subst hr
  simp only [ServiceOp.exec, ServiceEnv.transact]
  split
  · exact Or.inl rfl
  · cases hrun : ClockifyAssistant.markConfirmationExecuting record.id env.now w.db with
    | error e =>
      rw [commit_error hrun]
      exact Or.inl rfl
    | ok answer =>
      obtain ⟨claimed, db⟩ := answer
      rw [commit_ok hrun]
      have htaken := (wp_ok (wp_markConfirmationExecuting record.id env.now w.db) hrun).2
      cases claimed with
      | false => exact Or.inl rfl
      | true =>
        by_cases hid : record.id = id
        · exact Or.inr ⟨if_pos hid, hid ▸ htaken rfl⟩
        · exact Or.inl (if_neg hid)

/-- Each granted claim uses up one pending preview, and each pending preview was offered. -/
theorem grants_le_offers (w : ServiceWorld) (events : List (confirmationServer service).Event) :
    tally (earned (ServiceOp.grants id)) (initial w) events ≤
      (if w.db.previewStatus id = some .pending then 1 else 0) +
        tally (offers id) (initial w) events := by
  let pending (c : (confirmationServer service).Config) : Nat :=
    if c.world.db.previewStatus id = some .pending then 1 else 0
  refine tally_le (φ := pending) (fun {c e c'} hstep => ?_) (initial w) events
  have hidle : pending c' ≤ pending c + offers id c e := by
    simp only [offers, hstep, Option.elim, pending]
    split_ifs <;> simp_all
  cases ho : operation? c e with
  | none => simpa [earned, ho] using hidle
  | some op =>
    obtain ⟨o, env⟩ := op
    have hworld := world_of_operation hstep ho
    simp only [earned, ho, Option.elim]
    cases o with
    | markConfirmationExecuting record nonce =>
      rcases grants_taken env c.world record nonce rfl with hnone | ⟨hone, hbefore, hafter⟩
      · exact (Nat.add_comm _ _).trans_le ((Nat.add_le_add_left hnone.le _).trans hidle)
      · have htaken : pending c' = 0 := by
          change (confirmationServer service).exec _ _ _ |>.2.db.previewStatus id = _ at hafter
          simp [pending, hworld, hafter]
        have havailable : pending c = 1 := if_pos hbefore
        calc _ = 1 + 0 := congrArg₂ (· + ·) hone htaken
          _ ≤ pending c + offers id c e := havailable ▸ Nat.le_add_right _ _
    | _ => simpa [ServiceOp.grants] using hidle

/-- A preview's write is sent no more often than the preview was made available, whatever
the requests, however they interleave, and wherever the store fails or the program crashes. -/
theorem sends_le_offers (w : ServiceWorld) (events : List (confirmationServer service).Event)
    (id : ConfirmationId) :
    tally (spent (ServiceOp.sends id)) (initial w) events ≤
      (if w.db.previewStatus id = some .pending then 1 else 0) +
        tally (offers id) (initial w) events := by
  refine (tally_spent_le (fun request => ?_) w events).trans (grants_le_offers w events)
  exact Safe.mono (fun _ _ _ => trivial) (free_handler (S := claimsPay service id) admits_claimsPay
    request (0 : Nat))

end Dispatch

end ClockifyAssistant
