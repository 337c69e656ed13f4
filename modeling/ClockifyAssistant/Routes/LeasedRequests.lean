import ClockifyAssistant.Routes.ModelTurn

/-!
The requests that act under workspace leases: the chat turns, the confirmation of a preview
with the resume of its conversation, and the undo of a change.
-/
namespace ClockifyAssistant

open Lib Fallible

namespace TurnMachinery

/-! A confirmation. -/

inductive RequestEnd
  | rejected (status : Nat) (code : String)
  | answered (status : Nat) (ok : Bool) (persistenceDegraded : Bool)

def settleCommitted (lease : Nat) (status : ActionResultKind) : Turn (Option ResultId) :=
  storedOrGivenUp (perform (.settleConfirmedOperation lease status))
    (perform (.reportConfirmationDegraded lease))

/-- `commitConfirmedOperation`: the authority may refuse, the commit itself never throws. -/
def commitConfirmedOperation (lease : Nat) : Turn CommitResult := do
  match ← perform (.authorizeWrite "confirmed") with
  | some denial => return .receipt (.error denial)
  | none =>
      match ← caught (perform (.commit lease)) with
      | .ok result => return result
      | .error e => return .receipt (.error (writeFailureReceipt "confirmed" e))

def shownReceipt : CommitResult → Receipt
  | .receipt r => r
  | .partially r _ _ => r

def commitStatus : CommitResult → ActionResultKind
  | .partially _ _ _ => .partially
  | .receipt (.success _) => .succeeded
  | .receipt (.error e) =>
      if e.code = "commit_outcome_unknown" then .outcomeUnknown else .definitiveFailed

def intentCapabilityDenied : ErrorReceipt where
  action := "confirmed"
  code := "intent_capability_denied"
  message := "This write exceeds the exact admin-authored intent capability."
  hint := some "Create a fresh request and preview."
  retryable := some false

def capabilityDenies (config : TurnConfig) : Turn Bool :=
  if config.intentCapabilitiesEnforced then perform .consumeIntentCapability else return false

def commitUnlessDenied (lease : Nat) (denied : Bool) : Turn CommitResult :=
  if denied then return .receipt (.error intentCapabilityDenied)
  else commitConfirmedOperation lease

def auditResult : Option ResultId → Turn Unit
  | some ref => do let _ ← bestEffort (perform (.addAuditEvent ref))
  | none => return

def commitClaimed (config : TurnConfig) (lease : Nat) : Turn (CommitResult × Option ResultId) :=
  ensuring (do
    let denied ← capabilityDenies config
    let result ← commitUnlessDenied lease denied
    let resultRef ← settleCommitted lease (commitStatus result)
    auditResult resultRef
    let _ ← bestEffort (perform (.recordUndoIfReversible { receipt := shownReceipt result }))
    return (result, resultRef))
    (perform (.release lease))

/-- The claim of the preview stands between the lease and the block that releases it. -/
def commitConfirmation (config : TurnConfig) :
    Turn (Except RequestEnd (CommitResult × Option ResultId)) := do
  match ← perform .checkConfirmation with
  | some (status, code) => return .error (.rejected status code)
  | none =>
      match ← caught (perform .acquire) with
      | .error e =>
          if e.kind = .revoked then return .error (.rejected 409 "installation_changed")
          else throw e
      | .ok lease => do
          if ← perform (.leaseAborted lease) then
            perform (.release lease)
            return .error (.rejected 409 "request_cancelled")
          if ← perform .markConfirmationExecuting then
            return .ok (← commitClaimed config lease)
          else
            perform (.release lease)
            return .error (.rejected 409 "already_used")

def CommitResult.resumes : CommitResult → Bool
  | .receipt (.success _) => true
  | _ => false

def confirmPreview (config : TurnConfig) (messages : List ModelMessage) : Turn RequestEnd := do
  match ← commitConfirmation config with
  | .error rejected => return rejected
  | .ok (result, resultRef) => do
      if CommitResult.resumes result then
        let _ ← runResume config messages
      let ok := commitStatus result == .succeeded
      return .answered (if ok then 200 else 400) ok resultRef.isNone

/-! The undo of a change. -/

def undoPlanSteps (refs : List EntityRef) : List UndoPlanStep :=
  refs.reverse.flatMap fun ref =>
    if ["project", "client", "task"].contains ref.type then [⟨ref, true⟩, ⟨ref, false⟩]
    else [⟨ref, false⟩]

structure UndoProgress where
  deleted : List EntityRef := []
  transitioned : List EntityRef := []
  terminal : Option UndoStep := none
  preparationFailure : Option String := none

def UndoProgress.reached (p : UndoProgress) (spec : UndoPlanStep) (step : UndoStep) :
    UndoProgress :=
  if step.status = .succeeded then
    if spec.transition then
      { p with terminal := some step, transitioned := p.transitioned ++ [spec.ref] }
    else { p with terminal := some step, deleted := p.deleted ++ [spec.ref] }
  else { p with terminal := some step }

def prepareUndoStep (spec : UndoPlanStep) : Turn Bool := do
  if spec.transition then
    return (← bestEffort (perform (.prepareTransition spec.ref))).isSome
  return true

def reverseSteps (lease : Nat) : List UndoPlanStep → UndoProgress → Turn UndoProgress
  | [], p => return p
  | spec :: rest, p => do
      if ← prepareUndoStep spec then
        let step ← perform (.undoStep lease spec)
        let p := p.reached spec step
        if step.status = .succeeded && !step.journalDegraded then reverseSteps lease rest p
        else return p
      else return { p with preparationFailure := some ("Couldn't prepare " ++ spec.ref.type ++
        " " ++ spec.ref.name.getD spec.ref.id ++ " for removal.") }

inductive UndoReceipt
  | success (deleted updated : List EntityRef) (warnings : List (String × String))
  | error (receipt : ErrorReceipt)

structure DurableUndoResult where
  receipt : UndoReceipt
  status : UndoOutcome
  remaining : List EntityRef

def undoOutcomeUnknown : ErrorReceipt where
  action := "undo"
  code := "commit_outcome_unknown"
  message := "A Clockify undo step had an unknown outcome. No later removal was dispatched."
  hint := some "Verify the affected item in Clockify before taking further action."
  retryable := some false

def failedUndoReceipt (refs : List EntityRef) (detail : String) : ErrorReceipt where
  action := "undo"
  code := "undo_failed"
  message := if refs.length = 1 then
      "Couldn't undo — the change could not be reversed. " ++ detail
    else "Couldn't undo — none of the " ++ toString refs.length ++
      " created items could be removed. " ++ detail
  hint := some "Nothing was removed; remove them manually if needed."
  retryable := some false

def notUndoable : DurableUndoResult where
  receipt := .error { action := "undo", code := "not_undoable", message := "There is nothing to undo." }
  status := .failed
  remaining := []

def EntityRef.among (ref : EntityRef) (refs : List EntityRef) : Bool :=
  refs.any fun other => other.type == ref.type && other.id == ref.id

def UndoProgress.remaining (p : UndoProgress) (refs : List EntityRef) : List EntityRef :=
  refs.filter fun ref => !ref.among p.deleted

def UndoProgress.updated (p : UndoProgress) (refs : List EntityRef) : List EntityRef :=
  refs.filter fun ref => ref.among p.transitioned

def UndoProgress.knownEffects (p : UndoProgress) : Nat := p.deleted.length + p.transitioned.length

def UndoProgress.unknown (p : UndoProgress) (refs : List EntityRef) : DurableUndoResult where
  receipt := if 0 < p.knownEffects then
      .success p.deleted (p.updated refs) [("undo_outcome_unknown", undoOutcomeUnknown.message)]
    else .error undoOutcomeUnknown
  status := .outcomeUnknown
  remaining := p.remaining refs

def UndoProgress.stopped (p : UndoProgress) (refs : List EntityRef) (message : String) :
    DurableUndoResult where
  receipt := if p.knownEffects = 0 then .error (failedUndoReceipt refs message)
    else .success p.deleted (p.updated refs) [("undo_failed", message)]
  status := if p.knownEffects = 0 then .failed else .partiallyUndone
  remaining := p.remaining refs

def undoStepRejected : String :=
  "Clockify definitively rejected an undo step. No later removal was dispatched."

def undoStepDegraded : String :=
  "Clockify confirmed the undo step, but its full local journal settlement degraded. No later removal was dispatched."

def UndoProgress.result (p : UndoProgress) (refs : List EntityRef) : DurableUndoResult :=
  if p.terminal.any fun step => step.status == .outcomeUnknown then p.unknown refs
  else match p.preparationFailure with
  | some message => p.stopped refs message
  | none =>
      match p.terminal with
      | none => ⟨.success p.deleted [] [], .undone, []⟩
      | some step =>
          if step.status ≠ .succeeded then p.stopped refs undoStepRejected
          else if step.journalDegraded then
            ⟨.success p.deleted [] [("operation_journal_degraded", undoStepDegraded)],
              if (p.remaining refs).isEmpty then .undone else .partiallyUndone,
              p.remaining refs⟩
          else ⟨.success p.deleted [] [], .undone, []⟩

def UndoProgress.succeeded (p : UndoProgress) : Bool :=
  p.terminal.any fun step => step.status == .succeeded && !step.journalDegraded

/-- The reversal under its plan. A scope whose last step succeeded counts the rows of the
journal before it closes. -/
def reverseCreationDurably (lease : Nat) (refs : List EntityRef) : Turn DurableUndoResult := do
  if refs.isEmpty then return notUndoable
  match ← perform .checkUndoPolicy with
  | some denial => return ⟨.error denial, .failed, refs⟩
  | none => do
      perform .openUndoScope
      let p ← reverseSteps lease (undoPlanSteps refs) {}
      if p.succeeded then let _ ← perform (.listUndoSteps lease)
      return p.result refs

def settleUndo (lease : Nat) (status : UndoOutcome) : Turn (Option ResultId) :=
  storedOrGivenUp (perform (.settleUndoOperation lease status))
    (perform (.reportUndoDegraded lease))

def executeUndoCommit (lease : Nat) (refs : List EntityRef) :
    Turn (Option (DurableUndoResult × Option ResultId)) := do
  match ← perform .startUndoOperation with
  | none => return none
  | some _ => do
      let undo ← reverseCreationDurably lease refs
      let resultRef ← settleUndo lease undo.status
      return some (undo, resultRef)

def UndoReceipt.ok : UndoReceipt → Bool
  | success _ _ _ => true
  | error _ => false

def undoLeased (lease : Nat) (refs : List EntityRef) : Turn RequestEnd :=
  ensuring (do
    match ← executeUndoCommit lease refs with
    | none => return .rejected 409 "undo_not_available"
    | some (undo, resultRef) => do
        auditResult resultRef
        return .answered (if undo.receipt.ok then 200 else 400) undo.receipt.ok resultRef.isNone)
    (perform (.release lease))

def executeUndo (refs : List EntityRef) : Turn RequestEnd := do
  match ← perform .checkUndo with
  | some (status, code) => return .rejected status code
  | none =>
      match ← caught (perform .acquire) with
      | .error e =>
          if e.kind = .revoked then return .rejected 409 "installation_changed" else throw e
      | .ok lease => do
          if ← perform (.leaseAborted lease) then
            perform (.release lease)
            return .rejected 409 "request_cancelled"
          undoLeased lease refs

/-! The requests. -/

inductive TurnRequest
  | agentic (messages : List ModelMessage) (narrowed : Bool)
  | planned (narrowed : Bool)
  | resume (messages : List ModelMessage)
  | confirm (messages : List ModelMessage)
  | undo (reversal : List EntityRef)

def handle (config : TurnConfig) : TurnRequest → Turn Unit
  | .agentic messages narrowed => do let _ ← runAgenticTurn config messages narrowed
  | .planned narrowed => do let _ ← runPlannedTurn config narrowed
  | .resume messages => do let _ ← runResume config messages
  | .confirm messages => do let _ ← confirmPreview config messages
  | .undo reversal => do let _ ← executeUndo reversal

def turnServer (config : TurnConfig) : Server TurnOp fun o => Except TurnError o.Val where
  World := TurnWorld
  Env := TurnEnv
  exec := fun o env w => o.exec config env w
  suspends _ := false
  Request := TurnRequest
  Response := Except TurnError Unit
  handler := fun request => (handle config request).run
  restart _ w := some { w with memory := .fresh }

end TurnMachinery

end ClockifyAssistant
