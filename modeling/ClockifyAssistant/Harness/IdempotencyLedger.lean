import ClockifyAssistant.Store.Idempotency

/-!
Commits that share one idempotency key. Each call claims the key before its commit
and fills or releases the claim after it; while the commit is awaited its heartbeat
touches the claim. Which call won the open claim, and what was done to the claims by
whom, is kept for the theorems.
-/
namespace ClockifyAssistant

open Lib Txn

def idempotencyWindowMs : Nat := 600000

def claimTtlMs : Nat := 300000

def idempotentReplay : String × String :=
  ("idempotent_replay",
    "This request was already completed a moment ago — no duplicate was created.")

def SuccessReceipt.markReplayed (prior : SuccessReceipt) : SuccessReceipt :=
  { prior with warnings := prior.warnings ++ [idempotentReplay] }

def CommitResult.markReplayed : CommitResult → CommitResult
  | partially (.success prior) message hint => partially (.success prior.markReplayed) message hint
  | receipt (.success prior) => receipt (.success prior.markReplayed)
  | prior => prior

def ledgerUnavailable (actionName : String) : CommitResult :=
  .receipt (.error {
    action := actionName
    code := "commit_unavailable"
    message := "The change could not be started due to a temporary storage issue — nothing was applied. Please try again in a moment."
    hint := some "Try again in a moment."
    retryable := some true })

def commitInProgress (actionName : String) : CommitResult :=
  .receipt (.error {
    action := actionName
    code := "commit_in_progress"
    message := "This change is currently being applied in another request; nothing was duplicated — re-check in a moment or run a fresh preview."
    hint := some "Wait a moment, then re-check or run a fresh preview."
    retryable := some true })

def commitOutcomeUnknown (actionName : String) : CommitResult :=
  .receipt (.error {
    action := actionName
    code := "commit_outcome_unknown"
    message := "A previous attempt to apply this change was interrupted, so its result is unknown — it may or may not have gone through. Please check Clockify before retrying; I won't re-run it automatically, to avoid creating a duplicate."
    hint := some "Check Clockify to see whether the change applied; if it didn't, try again in a few minutes."
    retryable := some true })

inductive WriteFailure
  | hostCallBudgetExceeded (message : String)
  | ambiguousWriteOutcome
  | definitiveWriteFailure (message : String)
  | other (message : String)

def writeFailureReceipt (actionName : String) : WriteFailure → CommitResult
  | .hostCallBudgetExceeded message => .receipt (.error {
      action := actionName
      code := "host_call_budget_exceeded"
      message
      hint := some "Start a fresh request with a smaller batch."
      retryable := some true })
  | .ambiguousWriteOutcome => .receipt (.error {
      action := actionName
      code := "commit_outcome_unknown"
      message := "Clockify did not provide a definitive response, so this change may or may not have been applied. I will not retry it automatically."
      hint := some "Check Clockify for the intended change before deciding whether to try again."
      retryable := some false })
  | .definitiveWriteFailure message => .receipt (.error {
      action := actionName
      code := "definitive_write_failure"
      message
      hint := some "Correct the request or permissions, then run a fresh attempt."
      retryable := some false })
  | .other message => .receipt (.error {
      action := actionName
      code := "execution_error"
      message
      hint := some "The action failed during execution."
      retryable := some true })

def runCommit (actionName : String) : Except WriteFailure CommitResult → CommitResult
  | .ok result => result
  | .error failure => writeFailureReceipt actionName failure

/-- The clock as one call of `claim` reads it. -/
structure ClaimReadings where
  claimedAt : Time
  completedNotBefore : Time
  claimNotBefore : Time

def ClaimReadings.at_ (now : Time) : ClaimReadings :=
  ⟨now, now - idempotencyWindowMs, now - claimTtlMs⟩

/-- Where one call of `commitViaAtomicLedger` stands. -/
inductive LedgerCall
  | idle
  | committing
  | returned (result : CommitResult)

/-- A change of the open claim: the call that made it, and the call that had won the claim. -/
structure ClaimChange where
  caller : Nat
  holder : Option Nat
  deriving DecidableEq

structure LedgerCalls where
  db : Db
  call : Nat → LedgerCall
  holder : Option Nat
  changes : List ClaimChange

structure LedgerOperation where
  ledgerKey : LedgerKey
  scope : SessionScope
  actionName : String

namespace LedgerCalls

variable (o : LedgerOperation) (s : LedgerCalls)

def openClaim : Option IdempotencyRow :=
  (s.db.ledger.get? (ledgerKeyOf o.ledgerKey o.scope)).filter fun row => row.actionResultId.isNone

def answer (caller : Nat) (result : CommitResult) : LedgerCalls :=
  { s with call := Function.update s.call caller (.returned result) }

/-- The claim of a call; one that is won is followed by the commit. The stored result of a
completed claim may turn out unreadable. -/
def claim (caller : Nat) (readings : ClaimReadings) (unreadable : Bool) : LedgerCalls :=
  match (claimIdempotency o.ledgerKey o.scope readings.claimedAt readings.completedNotBefore
      readings.claimNotBefore).commit s.db with
  | (.error _, db) => { s with db }.answer caller (ledgerUnavailable o.actionName)
  | (.ok .won, db) =>
      { s with
        db
        call := Function.update s.call caller .committing
        holder := some caller }
  | (.ok .replay, db) =>
      { s with db }.answer caller (if unreadable then commitInProgress o.actionName
        else ((db.claimIdempotencyReceipt o.ledgerKey o.scope).map CommitResult.markReplayed).getD
          (commitInProgress o.actionName))
  | (.ok .inFlight, db) => { s with db }.answer caller (commitInProgress o.actionName)
  | (.ok .staleUnknown, db) => { s with db }.answer caller (commitOutcomeUnknown o.actionName)

def change (caller : Nat) (m : StoreTxn Unit) : LedgerCalls :=
  { s with
    db := (m.commit s.db).2
    changes := if (s.openClaim o).isSome then s.changes ++ [⟨caller, s.holder⟩] else s.changes }

def touch (caller : Nat) (now : Time) : LedgerCalls :=
  match s.call caller with
  | .committing => s.change o caller (touchIdempotencyClaim o.ledgerKey o.scope now)
  | _ => s

def finish (caller : Nat) (result : CommitResult) (ref : ResultId) (now : Time) : LedgerCalls :=
  match result with
  | .partially _ _ _ | .receipt (.success _) =>
      (s.change o caller (fillIdempotency o.ledgerKey o.scope ref now)).answer caller result
  | .receipt (.error e) =>
      if e.code = "commit_outcome_unknown" then s.answer caller result
      else (s.change o caller (releaseIdempotency o.ledgerKey o.scope)).answer caller result

end LedgerCalls

/-- What happens to the calls. A ledger call may throw: before the commit the call is
answered, after it the failure is logged and the claim stays as it is. -/
inductive LedgerStep
  | claim (caller : Nat) (readings : ClaimReadings) (unreadable : Bool)
  | claimThrows (caller : Nat)
  | touch (caller : Nat) (now : Time)
  | commitReturns (caller : Nat) (outcome : Except WriteFailure CommitResult) (ref : ResultId)
      (now : Time)
  | commitReturnsUnrecorded (caller : Nat) (outcome : Except WriteFailure CommitResult)

def LedgerCalls.step (o : LedgerOperation) (s : LedgerCalls) : LedgerStep → LedgerCalls
  | .claim caller readings unreadable =>
      match s.call caller with
      | .idle => s.claim o caller readings unreadable
      | _ => s
  | .claimThrows caller =>
      match s.call caller with
      | .idle => s.answer caller (ledgerUnavailable o.actionName)
      | _ => s
  | .touch caller now => s.touch o caller now
  | .commitReturns caller outcome ref now =>
      match s.call caller with
      | .committing => s.finish o caller (runCommit o.actionName outcome) ref now
      | _ => s
  | .commitReturnsUnrecorded caller outcome =>
      match s.call caller with
      | .committing => s.answer caller (runCommit o.actionName outcome)
      | _ => s

def startLedgerCalls (db : Db) : LedgerCalls := ⟨db, fun _ => .idle, none, []⟩

def runLedgerCalls (o : LedgerOperation) (db : Db) (steps : List LedgerStep) : LedgerCalls :=
  steps.foldl (LedgerCalls.step o) (startLedgerCalls db)

theorem runLedgerCalls_concat (o : LedgerOperation) (db : Db) (steps : List LedgerStep)
    (step : LedgerStep) :
    runLedgerCalls o db (steps ++ [step]) = (runLedgerCalls o db steps).step o step := by
  simp [runLedgerCalls]

end ClockifyAssistant
