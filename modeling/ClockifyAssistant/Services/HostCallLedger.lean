import ClockifyAssistant.Lib.FallibleProcess
import ClockifyAssistant.Store.Preparation
import ClockifyAssistant.Store.Settlement

/-!
The processes that move the host-call ledger of a run: charged reads, the
preparation of writes, state writes from a copy of the run, calls of a confirmed
write, and settlements. A process suspends while it waits for the host or the
model; what it read before the wait it still holds after it.
-/
namespace ClockifyAssistant

open Lib Txn

def Db.budgetOf (db : Db) (k : SessionId × RunId) : Option RunBudget :=
  (db.runs.get? k).map AssistantRun.budget

/-- What the rest of the program does to the database; it writes no budget. -/
structure OtherRunChange where
  apply : Db → Db
  keepsBudgets : ∀ db k budget, (apply db).budgetOf k = some budget → db.budgetOf k = some budget

inductive LedgerOp
  | getRun (s : AssistantRunScope)
  | awaitCall
  | startRun (s : AssistantRunScope)
  | chargeRunHostCall (s : AssistantRunScope)
  | refundRunHostCall (s : AssistantRunScope)
  | convertReservedRunHostCall (s : AssistantRunScope)
  | prepareAssistantWriteBatch (s : AssistantRunScope) (budget : RunBudget)
      (drafts : List PreviewDraft)
  | saveRun (s : AssistantRunScope) (patch : RunStatePatch)
  | commitStateEvent (s : AssistantRunScope) (patch : RunStatePatch) (payload : RunEventPayload)
  | settleV2ConfirmationRun (record : PendingConfirmation) (kind : SettlementKind)
      (actionResultId : Option ResultId)
  | settleV2ConfirmationBatchRun (batchId : BatchId) (kind : SettlementKind)
  | other (change : OtherRunChange)

abbrev LedgerOp.Val : LedgerOp → Type
  | getRun _ => Option AssistantRun
  | awaitCall => Bool
  | chargeRunHostCall _ => Bool
  | convertReservedRunHostCall _ => Bool
  | prepareAssistantWriteBatch _ _ _ => PreparedBatch
  | commitStateEvent _ _ _ => Nat
  | settleV2ConfirmationRun _ _ _ => Bool
  | settleV2ConfirmationBatchRun _ _ => Bool
  | _ => Unit

structure LedgerEnv where
  now : Time
  sent : Bool := true

def LedgerOp.exec (tupleHash : List BatchMember → Hash) (env : LedgerEnv) (db : Db) :
    (o : LedgerOp) → Except StoreError o.Val × Db
  | getRun s => (.ok (db.getRun s), db)
  | awaitCall => (.ok env.sent, db)
  | startRun s => (startRunWithEvent s env.now).commit db
  | chargeRunHostCall s => (ClockifyAssistant.chargeRunHostCall s env.now).commit db
  | refundRunHostCall s => (ClockifyAssistant.refundRunHostCall s env.now).commit db
  | convertReservedRunHostCall s =>
      (ClockifyAssistant.convertReservedRunHostCall s env.now).commit db
  | prepareAssistantWriteBatch s budget drafts =>
      (prepareAssistantWriteBatchWithEvents tupleHash s budget drafts env.now).commit db
  | saveRun s patch => (ClockifyAssistant.saveRun s patch env.now).commit db
  | commitStateEvent s patch payload =>
      (ClockifyAssistant.commitStateEvent s patch payload env.now).commit db
  | settleV2ConfirmationRun record kind actionResultId =>
      (ClockifyAssistant.settleV2ConfirmationRun record kind actionResultId env.now).commit db
  | settleV2ConfirmationBatchRun batchId kind =>
      (ClockifyAssistant.settleV2ConfirmationBatchRun batchId kind env.now).commit db
  | other change => (.ok (), change.apply db)

def LedgerOp.suspends : LedgerOp → Bool
  | awaitCall => true
  | _ => false

abbrev LedgerProcess (α : Type) : Type := Fallible LedgerOp LedgerOp.Val StoreError α

namespace LedgerProcess

abbrev perform (o : LedgerOp) : LedgerProcess o.Val := Fallible.perform o

/-- One call of the host under a run's ledger; a call that was never sent is refunded. -/
def hostCall (s : AssistantRunScope) (charge : LedgerProcess Bool) : LedgerProcess Unit := do
  if !(← charge) then throw (.thrown "host_call_budget_exceeded")
  if !(← perform .awaitCall) then perform (.refundRunHostCall s)

def runRead (s : AssistantRunScope) : LedgerProcess Unit :=
  hostCall s (perform (.chargeRunHostCall s))

def confirmedCall (s : AssistantRunScope) : LedgerProcess Unit :=
  hostCall s (perform (.convertReservedRunHostCall s))

def previewReads (s : AssistantRunScope) : Nat → LedgerProcess Unit
  | 0 => return ()
  | n + 1 => do
      runRead s
      previewReads s n

def getRun (s : AssistantRunScope) : LedgerProcess AssistantRun := do
  match ← perform (.getRun s) with
  | some state => return state
  | none => throw (.thrown "assistant_run_not_found")

/-- `state` is read before the previews are built and written back after. -/
def prepareBatch (s : AssistantRunScope) (drafts : List PreviewDraft) (reads : Nat) :
    LedgerProcess PreparedBatch := do
  if drafts.isEmpty then throw (.thrown "empty_prepare_batch")
  let state ← getRun s
  previewReads s reads
  perform (.prepareAssistantWriteBatch s state.budget drafts)

def awaitCalls : Nat → LedgerProcess Unit
  | 0 => return ()
  | n + 1 => do
      let _ ← perform .awaitCall
      awaitCalls n

/-- A state write from a copy of the run that is as old as `awaits` calls. -/
def updateRun (s : AssistantRunScope) (awaits : Nat) (phase : RunPhase)
    (continuation : RunContinuation) (payload : Option RunEventPayload) : LedgerProcess Unit := do
  let state ← getRun s
  awaitCalls awaits
  let patch : RunStatePatch := { phase, continuation, budget := state.budget }
  match payload with
  | none => perform (.saveRun s patch)
  | some payload => let _ ← perform (.commitStateEvent s patch payload)

end LedgerProcess

inductive LedgerRequest
  | startRun (s : AssistantRunScope)
  | runRead (s : AssistantRunScope)
  | prepareBatch (s : AssistantRunScope) (drafts : List PreviewDraft) (reads : Nat)
  | updateRun (s : AssistantRunScope) (awaits : Nat) (phase : RunPhase)
      (continuation : RunContinuation) (payload : Option RunEventPayload)
  | confirmedCall (s : AssistantRunScope)
  | settleV2ConfirmationRun (record : PendingConfirmation) (kind : SettlementKind)
      (actionResultId : Option ResultId)
  | settleV2ConfirmationBatchRun (batchId : BatchId) (kind : SettlementKind)
  | other (change : OtherRunChange)

open LedgerProcess in
def LedgerRequest.handler : LedgerRequest → LedgerProcess Unit
  | startRun s => perform (.startRun s)
  | runRead s => LedgerProcess.runRead s
  | prepareBatch s drafts reads => do let _ ← LedgerProcess.prepareBatch s drafts reads
  | updateRun s awaits phase continuation payload =>
      LedgerProcess.updateRun s awaits phase continuation payload
  | confirmedCall s => LedgerProcess.confirmedCall s
  | settleV2ConfirmationRun record kind actionResultId => do
      let _ ← perform (.settleV2ConfirmationRun record kind actionResultId)
  | settleV2ConfirmationBatchRun batchId kind => do
      let _ ← perform (.settleV2ConfirmationBatchRun batchId kind)
  | other change => perform (.other change)

/-- The ledger's processes in any interleaving; a restart keeps the budgets. -/
def ledgerServer (tupleHash : List BatchMember → Hash) :
    Server LedgerOp fun o => Except StoreError o.Val where
  World := Db
  Env := LedgerEnv
  exec o env db := o.exec tupleHash env db
  suspends := LedgerOp.suspends
  Request := LedgerRequest
  Response := Except StoreError Unit
  handler request := request.handler.run
  restart _ db := some db

end ClockifyAssistant
