import ClockifyAssistant.Assistant.TextSafety

/-!
The text that a turn replies with. The prose of the provider is replaced wherever the results
of the turn, or the declaration of its writes, say more than it.
-/
namespace ClockifyAssistant

open Lib IntentDeclaration TextSafety

namespace ChatResults

structure EntityRef where
  type : String
  id : String
  name : Option String
  projectId : Option String

structure ChangeSet where
  created : Option (List EntityRef)
  updated : Option (List EntityRef)
  deleted : Option (List EntityRef)
  reused : Option (List EntityRef)

def ChangeSet.buckets (changed : ChangeSet) : List (Option (List EntityRef)) :=
  [changed.created, changed.updated, changed.deleted, changed.reused]

def hasChanges : Option ChangeSet → Bool
  | none => false
  | some changed => changed.buckets.any fun refs => refs.any fun refs => !refs.isEmpty

inductive Receipt
  | success (changed : Option ChangeSet)
  | error (code : String)

namespace Receipt

def ok : Receipt → Bool
  | success _ => true
  | error _ => false

def applied : Receipt → Bool
  | success changed => hasChanges changed
  | error _ => false

def read : Receipt → Bool
  | success changed => !hasChanges changed
  | error _ => false

def failedWith (codes : String → Bool) : Receipt → Bool
  | success _ => false
  | error code => codes code

end Receipt

inductive TurnResult
  | receipt (receipt : Receipt)
  | preview
  | clarify (message : Option AuthoredText)
  | partially (message : Option AuthoredText)
  | other

namespace TurnResult

def receipt? : TurnResult → Option Receipt
  | receipt r => some r
  | _ => none

def isPreview : TurnResult → Bool
  | preview => true
  | _ => false

def partialMessage? : TurnResult → Option (Option AuthoredText)
  | partially message => some message
  | _ => none

def isReceiptThat (p : Receipt → Bool) (result : TurnResult) : Bool := result.receipt?.any p

end TurnResult

inductive ReplyKind
  | actions
  | answer
  | clarify
  | partially
  | aborted
  deriving DecidableEq

structure ReplyOptions where
  writeIntentDeclared : Bool
  writeAuthorityUnresolved : Bool

/-! The texts. -/

def shown (n : Nat) : AuthoredText := codePoints (toString n)

def partWayReply : AuthoredText := codePoints
  "The request stopped part-way through. Review the recorded changes before continuing."

def authorityFailureReply : AuthoredText := codePoints
  "I could not validate write authority for this request, so no change was made. Please restate the requested change in one fresh message."

def mixedReadAuthorityFailureReply : AuthoredText := codePoints
  "The requested read results are shown above. I could not validate write authority, so no change was made. Please restate the requested change in one fresh message."

def previewReplyText (count : Nat) : AuthoredText :=
  (if 1 < count then
    codePoints "I've prepared " ++ shown count ++
      codePoints " changes — review them below and click \"Confirm all\" to apply."
  else codePoints "Review the change below and click \"Confirm\" to apply it.") ++
    codePoints " Nothing has been changed yet."

def failedAttemptNote (failed : Nat) : AuthoredText :=
  codePoints " (" ++ shown failed ++ codePoints " earlier " ++
    codePoints (if failed = 1 then "attempt" else "attempts") ++
    codePoints " failed — see the receipts below.)"

def failureReplyText (failed total : Nat) : AuthoredText :=
  shown failed ++ codePoints " of " ++ shown total ++ codePoints " " ++
    codePoints (if failed = 1 then "action" else "actions") ++
    codePoints " failed and nothing was changed — see the receipt below for the reason."

def partialOutcomeReplyText (succeeded total failed : Nat) : AuthoredText :=
  shown succeeded ++ codePoints " of " ++ shown total ++ codePoints " actions completed; " ++
    shown failed ++ codePoints " failed — see the receipts below."

def correctedReply : AuthoredText := codePoints
  "The completed change is recorded above. No other change was made."

def policyDeniedReply : AuthoredText := codePoints
  "Your saved assistant permissions do not allow this request. No change was made."

def recordedAboveNote : AuthoredText := codePoints " The completed change is recorded above."

def noAdditionalChangeReply : AuthoredText := codePoints
  "The completed change is recorded above. No additional change was made."

def noAdditionalPreparedReply : AuthoredText := codePoints
  "The completed change is recorded above. No additional change was prepared."

def noTextApprovalReply : AuthoredText := codePoints
  "No change has been prepared. State the change you want in one fresh message."

def noVerifiedToolResultReply : AuthoredText := codePoints
  "I could not produce a verified Clockify result for that request. Please restate it in one fresh message."

def noChangeMadeReply : AuthoredText := codePoints
  "I didn't actually make any changes there — nothing ran. Could you tell me again exactly what you'd like me to do?"

/-- What a turn replies, as the source chooses between its sentences. -/
inductive Reply
  | stopped (message : Option AuthoredText)
  | authorityFailure
  | mixedReadAuthorityFailure
  | previews (count failed : Nat)
  | corrected
  | policyDenied
  | partialOutcome (succeeded total failed : Nat) (recordedAbove : Bool)
  | noAdditionalChange
  | noAdditionalPrepared
  | noTextApproval
  | noVerifiedToolResult
  | failures (failed total : Nat)
  | noChangeMade
  | prose

/-- `message?.trim() || partWayReply` -/
def stoppedText (message : Option AuthoredText) : AuthoredText :=
  match message.map fun text => trimEnd (trimStart text) with
  | some (c :: rest) => c :: rest
  | _ => partWayReply

def Reply.text (baseText : AuthoredText) : Reply → AuthoredText
  | stopped message => stoppedText message
  | authorityFailure => authorityFailureReply
  | mixedReadAuthorityFailure => mixedReadAuthorityFailureReply
  | previews count failed =>
      if 0 < failed then previewReplyText count ++ failedAttemptNote failed
      else previewReplyText count
  | corrected => correctedReply
  | policyDenied => policyDeniedReply
  | partialOutcome succeeded total failed recordedAbove =>
      partialOutcomeReplyText succeeded total failed ++
        if recordedAbove then recordedAboveNote else []
  | noAdditionalChange => noAdditionalChangeReply
  | noAdditionalPrepared => noAdditionalPreparedReply
  | noTextApproval => noTextApprovalReply
  | noVerifiedToolResult => noVerifiedToolResultReply
  | failures failed total => failureReplyText failed total
  | noChangeMade => noChangeMadeReply
  | prose => baseText

/-! The choice. -/

def intentCapability (code : String) : Bool := code.startsWith "intent_capability_"

def appliedAnyChange (results : List TurnResult) : Bool :=
  results.any (TurnResult.isReceiptThat Receipt.applied)

def successfulRead (results : List TurnResult) : Bool :=
  results.any (TurnResult.isReceiptThat Receipt.read)

def failedWith (codes : String → Bool) (results : List TurnResult) : Bool :=
  results.any (TurnResult.isReceiptThat (Receipt.failedWith codes))

def receiptCount (results : List TurnResult) : Nat :=
  results.countP (TurnResult.isReceiptThat fun _ => true)

def failedReceiptCount (results : List TurnResult) : Nat :=
  results.countP (TurnResult.isReceiptThat fun receipt => !receipt.ok)

def pendingPreviews (results : List TurnResult) : Nat := results.countP TurnResult.isPreview

/-- The reply that the results and the declaration settle, without a look at the prose. -/
def resultReply (results : List TurnResult) (options : ReplyOptions) : Option Reply :=
  match results.findSome? TurnResult.partialMessage? with
  | some message => some (.stopped message)
  | none =>
      let applied := appliedAnyChange results
      let failed := failedReceiptCount results
      let total := receiptCount results
      if options.writeAuthorityUnresolved && !applied then
        some (if successfulRead results then .mixedReadAuthorityFailure else .authorityFailure)
      else if failedWith (· == "intent_capability_denied") results && !applied then
        some .authorityFailure
      else if 0 < pendingPreviews results then some (.previews (pendingPreviews results) failed)
      else if !applied && failedWith intentCapability results then some .authorityFailure
      else if applied && failedWith intentCapability results then some .corrected
      else if !applied && failedWith (· == "policy_denied") results then some .policyDenied
      else if applied && 0 < failed then some (.partialOutcome (total - failed) total failed true)
      else if options.writeIntentDeclared then
        some (if applied then .noAdditionalChange else .noTextApproval)
      else none

def proseReply (forms : UnicodeForms) (results : List TurnResult) (baseText : AuthoredText)
    (replyKind : ReplyKind) : Reply :=
  let applied := appliedAnyChange results
  let failed := failedReceiptCount results
  let total := receiptCount results
  if claimsUnsupportedToolAbsence forms baseText then
    if applied then .noAdditionalChange else .noVerifiedToolResult
  else if requestsTextApproval forms baseText then
    if applied then .noAdditionalPrepared else .noTextApproval
  else if replyKind = .actions && 0 < total && 0 < failed then
    if failed = total then .failures failed total
    else .partialOutcome (total - failed) total failed false
  else if !applied && !failedWith (fun _ => true) results && claimsCompletedMutation baseText then
    .noChangeMade
  else .prose

def truthfulReply (forms : UnicodeForms) (results : List TurnResult) (baseText : AuthoredText)
    (replyKind : ReplyKind) (options : ReplyOptions) : Reply :=
  (resultReply results options).getD (proseReply forms results baseText replyKind)

def truthfulReplyText (forms : UnicodeForms) (results : List TurnResult) (baseText : AuthoredText)
    (replyKind : ReplyKind) (options : ReplyOptions) : AuthoredText :=
  (truthfulReply forms results baseText replyKind options).text baseText

end ChatResults

end ClockifyAssistant
