import ClockifyAssistant.Store.Confirmations

/-!
The idempotency ledger of confirmed writes. A key is claimed before its commit,
filled or released by the settlement of the confirmation it is bound to, and
answers a second claim from what the first one left.
-/
namespace ClockifyAssistant

open Lib Txn

inductive ClaimState
  | won | replay | inFlight | staleUnknown
  deriving DecidableEq

def CommitResult.succeeded : CommitResult → Bool
  | .receipt (.success _) => true
  | .partially (.success _) _ _ => true
  | _ => false

/-- `claimIdempotencyReceipt`: the stored result of a completed claim, when it is a success. -/
def Db.claimIdempotencyReceipt (db : Db) (ledgerKey : LedgerKey) (scope : SessionScope) :
    Option CommitResult :=
  ((db.ledger.get? (ledgerKeyOf ledgerKey scope)).bind IdempotencyRow.actionResultId).bind
    fun id => (db.getActionResult id).filter CommitResult.succeeded

def lapsedClaim (ledgerKey : LedgerKey) (scope : SessionScope) (notBefore : Time)
    (row : IdempotencyRow) : Bool :=
  key row == ledgerKeyOf ledgerKey scope &&
    match row.actionResultId with
    | some _ => row.committedAt.any fun committedAt => decide (committedAt < notBefore)
    | none => decide (row.claimedAt < notBefore)

def IdempotencyRow.claimState (row : IdempotencyRow) (db : Db) (claimNotBefore : Time) :
    ClaimState :=
  match row.actionResultId with
  | some id =>
      if (db.results.get? id).any fun r => r.kind == .outcomeUnknown then .staleUnknown
      else .replay
  | none => if row.claimedAt < claimNotBefore then .staleUnknown else .inFlight

def claimIdempotency (ledgerKey : LedgerKey) (scope : SessionScope)
    (claimedAt completedNotBefore claimNotBefore : Time) : StoreTxn ClaimState := do
  modify fun db => { db with
    ledger := db.ledger.deleteWhere (lapsedClaim ledgerKey scope completedNotBefore) }
  let db ← get
  let row : IdempotencyRow := {
    ledgerKey
    workspaceId := scope.workspaceId
    adminUserId := scope.adminUserId
    actionResultId := none
    committedAt := none
    claimedAt }
  if h : db.ledger.get? (key row) = none then
    set { db with ledger := db.ledger.insert row h }
    return .won
  else
    match db.ledger.get? (key row) with
    | none => return .won
    | some existing => return existing.claimState db claimNotBefore

def fillIdempotency (ledgerKey : LedgerKey) (scope : SessionScope) (ref : ResultId)
    (committedAt : Time) : StoreTxn Unit :=
  modify fun db => { db with
    ledger := db.ledger.updateWhere
      (fun row => key row == ledgerKeyOf ledgerKey scope && row.actionResultId.isNone)
      fun row => { row with actionResultId := some ref, committedAt := some committedAt } }

def releaseIdempotency (ledgerKey : LedgerKey) (scope : SessionScope) : StoreTxn Unit :=
  deleteOpenClaim ledgerKey scope

def touchIdempotencyClaim (ledgerKey : LedgerKey) (scope : SessionScope) (claimedAt : Time) :
    StoreTxn Unit :=
  modify fun db => { db with
    ledger := db.ledger.updateWhere
      (fun row => key row == ledgerKeyOf ledgerKey scope && row.actionResultId.isNone)
      fun row => { row with claimedAt } }

end ClockifyAssistant
