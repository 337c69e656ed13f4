import ClockifyAssistant.Routes.ChatResults

/-!
What the reply of a turn may say of it. A sentence of the server is backed by the results; the
prose of the provider is let through only without a preview and without a declared write.
-/
namespace ClockifyAssistant

open Lib IntentDeclaration TextSafety

namespace ChatResults

/-- The reply is a sentence of the server which says that nothing was changed. -/
def Reply.deniesChanges : Reply → Bool
  | authorityFailure | mixedReadAuthorityFailure | previews _ _ | policyDenied | noTextApproval
  | failures _ _ | noChangeMade => true
  | stopped _ | corrected | partialOutcome _ _ _ _ | noAdditionalChange | noAdditionalPrepared
  | noVerifiedToolResult | prose => false

/-- The reply is a sentence of the server which says that a change is complete. -/
def Reply.claimsChange : Reply → Bool
  | corrected | noAdditionalChange | noAdditionalPrepared => true
  | partialOutcome _ _ _ recordedAbove => recordedAbove
  | stopped _ | authorityFailure | mixedReadAuthorityFailure | previews _ _ | policyDenied
  | noTextApproval | failures _ _ | noChangeMade | noVerifiedToolResult | prose => false

def Reply.isPreviews : Reply → Bool
  | previews _ _ => true
  | _ => false

def hasPartial (results : List TurnResult) : Bool :=
  results.any fun result => result.partialMessage?.isSome

section Facts

variable {results : List TurnResult} {forms : UnicodeForms} {baseText baseText' : AuthoredText}
  {replyKind : ReplyKind} {options : ReplyOptions}

theorem hasPartial_eq_false (h : results.findSome? TurnResult.partialMessage? = none) :
    hasPartial results = false := by
  refine List.any_eq_false.mpr fun result hresult => ?_
  rw [List.findSome?_eq_none_iff.mp h result hresult]
  exact Bool.false_ne_true

/-- What the prose is replaced by denies a change only if there is none. -/
theorem not_applied_of_proseReply (hfailed : appliedAnyChange results = true →
      failedReceiptCount results = 0)
    (h : (proseReply forms results baseText replyKind).deniesChanges = true) :
    appliedAnyChange results = false := by
  by_contra happlied
  rw [Bool.not_eq_false] at happlied
  have hnone := hfailed happlied
  simp only [proseReply, happlied, hnone] at h
  split at h
  · cases h
  split at h
  · cases h
  split at h
  · next hcount => simp at hcount
  split at h
  · next hclaim => simp at hclaim
  · cases h

theorem applied_of_proseReply
    (h : (proseReply forms results baseText replyKind).claimsChange = true) :
    appliedAnyChange results = true := by
  by_contra happlied
  rw [Bool.not_eq_true] at happlied
  simp only [proseReply, happlied] at h
  split at h
  · cases h
  split at h
  · cases h
  split at h
  · split at h <;> cases h
  split at h <;> cases h

/-- Prose that claims a completed change stands only beside a change or a failure. -/
theorem backed_of_proseReply (h : proseReply forms results baseText replyKind = .prose)
    (hclaims : claimsCompletedMutation baseText = true) :
    appliedAnyChange results = true ∨ failedWith (fun _ => true) results = true := by
  by_contra hneither
  rw [not_or, Bool.not_eq_true, Bool.not_eq_true] at hneither
  simp only [proseReply, hneither.1, hneither.2, hclaims] at h
  split at h
  · cases h
  split at h
  · cases h
  split at h
  · split at h <;> cases h
  · cases h

end Facts

section Settled

variable {results : List TurnResult} {options : ReplyOptions} {reply : Reply}

theorem resultReply_of_incomplete {message : Option AuthoredText}
    (h : results.findSome? TurnResult.partialMessage? = some message) :
    resultReply results options = some (.stopped message) := by
  unfold resultReply
  rw [h]

/-- With an applied change only the preview sentence denies changes. -/
theorem not_applied_of_resultReply (h : resultReply results options = some reply)
    (hdenies : reply.deniesChanges = true) (hpreviews : reply.isPreviews = false) :
    appliedAnyChange results = false ∧ hasPartial results = false := by
  cases hpartial : results.findSome? TurnResult.partialMessage? with
  | some message =>
    rw [resultReply_of_incomplete hpartial] at h
    cases h
    cases hdenies
  | none =>
    refine ⟨?_, hasPartial_eq_false hpartial⟩
    by_contra happlied
    rw [Bool.not_eq_false] at happlied
    simp only [resultReply, hpartial, happlied, Bool.not_true, Bool.and_false, Bool.false_and,
      Bool.true_and, Bool.false_eq_true, if_false, if_true] at h
    split at h
    · cases h
      cases hpreviews
    split at h
    · cases h
      cases hdenies
    split at h
    · cases h
      cases hdenies
    split at h
    · cases h
      cases hdenies
    · cases h

theorem applied_of_resultReply (h : resultReply results options = some reply)
    (hclaims : reply.claimsChange = true) : appliedAnyChange results = true := by
  by_contra happlied
  rw [Bool.not_eq_true] at happlied
  unfold resultReply at h
  split at h
  · cases h
    cases hclaims
  simp only [happlied, Bool.not_false, Bool.and_true, Bool.false_and, Bool.true_and,
    Bool.false_eq_true, if_false] at h
  split at h
  · cases h
    split at hclaims <;> cases hclaims
  split at h
  · cases h
    cases hclaims
  split at h
  · cases h
    cases hclaims
  split at h
  · cases h
    cases hclaims
  split at h
  · cases h
    cases hclaims
  split at h
  · cases h
    cases hclaims
  · cases h

theorem resultReply_ne_prose : resultReply results options ≠ some .prose := by
  intro h
  unfold resultReply at h
  split at h
  · cases h
  dsimp only at h
  split at h
  · split at h <;> cases h
  iterate 6
    split at h
    · cases h
  split at h
  · split at h <;> cases h
  · cases h

theorem resultReply_isSome (h : 0 < pendingPreviews results ∨ options.writeIntentDeclared = true) :
    (resultReply results options).isSome = true := by
  by_contra hnone
  rw [Bool.not_eq_true, Option.isSome_eq_false_iff, Option.isNone_iff_eq_none] at hnone
  unfold resultReply at hnone
  split at hnone
  · cases hnone
  dsimp only at hnone
  split at hnone
  · cases hnone
  split at hnone
  · cases hnone
  split at hnone
  · cases hnone
  next hpreviews =>
  iterate 4
    split at hnone
    · cases hnone
  split at hnone
  · cases hnone
  next hdeclared => exact h.elim hpreviews hdeclared

theorem failedReceiptCount_of_resultReply (h : resultReply results options = none)
    (happlied : appliedAnyChange results = true) : failedReceiptCount results = 0 := by
  by_contra hfailed
  have hpos : 0 < failedReceiptCount results := Nat.pos_of_ne_zero hfailed
  unfold resultReply at h
  split at h
  · cases h
  simp only [happlied, hpos, Bool.not_true, Bool.and_false, Bool.false_and, Bool.true_and,
    Bool.false_eq_true, if_false, decide_true, if_true] at h
  split at h
  · cases h
  split at h <;> cases h

end Settled

/-- The reply of a turn, beside its results. -/
structure ReplyLaw (forms : UnicodeForms) (results : List TurnResult) (baseText : AuthoredText)
    (replyKind : ReplyKind) (options : ReplyOptions) : Prop where
  /-- A partial result speaks for itself. -/
  stopped : ∀ message, results.findSome? TurnResult.partialMessage? = some message →
    truthfulReplyText forms results baseText replyKind options = stoppedText message
  denies : (truthfulReply forms results baseText replyKind options).deniesChanges = true →
    (truthfulReply forms results baseText replyKind options).isPreviews = false →
    appliedAnyChange results = false ∧ hasPartial results = false
  claims : (truthfulReply forms results baseText replyKind options).claimsChange = true →
    appliedAnyChange results = true
  prose : truthfulReply forms results baseText replyKind options = .prose →
    claimsCompletedMutation baseText = true →
    appliedAnyChange results = true ∨ failedWith (fun _ => true) results = true
  withheld : 0 < pendingPreviews results ∨ options.writeIntentDeclared = true →
    truthfulReply forms results baseText replyKind options ≠ .prose ∧
      ∀ otherText, truthfulReplyText forms results otherText replyKind options =
        truthfulReplyText forms results baseText replyKind options

section Law

variable {results : List TurnResult} {forms : UnicodeForms} {baseText : AuthoredText}
  {replyKind : ReplyKind} {options : ReplyOptions} {reply : Reply}

theorem truthfulReply_of_some (h : resultReply results options = some reply) :
    truthfulReply forms results baseText replyKind options = reply := by
  rw [truthfulReply, h, Option.getD_some]

theorem truthfulReply_of_none (h : resultReply results options = none) :
    truthfulReply forms results baseText replyKind options =
      proseReply forms results baseText replyKind := by
  rw [truthfulReply, h, Option.getD_none]

theorem Reply.text_eq (h : reply ≠ .prose) (baseText otherText : AuthoredText) :
    reply.text otherText = reply.text baseText := by
  cases reply with
  | prose => exact absurd rfl h
  | _ => rfl

theorem truthfulReplyText_law (forms : UnicodeForms) (results : List TurnResult)
    (baseText : AuthoredText) (replyKind : ReplyKind) (options : ReplyOptions) :
    ReplyLaw forms results baseText replyKind options where
  stopped := by
    intro message hmessage
    rw [truthfulReplyText, truthfulReply_of_some (resultReply_of_incomplete hmessage)]
    rfl
  denies := by
    intro hdenies hpreviews
    cases hreply : resultReply results options with
    | some reply =>
      rw [truthfulReply_of_some hreply] at hdenies hpreviews
      exact not_applied_of_resultReply hreply hdenies hpreviews
    | none =>
      rw [truthfulReply_of_none hreply] at hdenies
      refine ⟨not_applied_of_proseReply (failedReceiptCount_of_resultReply hreply) hdenies,
        hasPartial_eq_false ?_⟩
      by_contra hpartial
      obtain ⟨message, hmessage⟩ := Option.ne_none_iff_exists'.mp hpartial
      rw [resultReply_of_incomplete hmessage] at hreply
      cases hreply
  claims := by
    intro hclaims
    cases hreply : resultReply results options with
    | some reply =>
      rw [truthfulReply_of_some hreply] at hclaims
      exact applied_of_resultReply hreply hclaims
    | none =>
      rw [truthfulReply_of_none hreply] at hclaims
      exact applied_of_proseReply hclaims
  prose := by
    intro hprose hclaims
    cases hreply : resultReply results options with
    | some reply =>
      rw [truthfulReply_of_some hreply] at hprose
      rw [hprose] at hreply
      exact absurd hreply resultReply_ne_prose
    | none =>
      rw [truthfulReply_of_none hreply] at hprose
      exact backed_of_proseReply hprose hclaims
  withheld := by
    intro h
    obtain ⟨reply, hreply⟩ := Option.isSome_iff_exists.mp (resultReply_isSome h)
    have hprose : reply ≠ .prose := by
      rintro rfl
      exact resultReply_ne_prose hreply
    rw [truthfulReply_of_some hreply]
    refine ⟨hprose, fun otherText => ?_⟩
    rw [truthfulReplyText, truthfulReplyText, truthfulReply_of_some hreply,
      truthfulReply_of_some hreply]
    exact Reply.text_eq hprose baseText otherText

end Law

namespace Example

/-- The normal forms of a text of ASCII are the text. -/
def asciiForms : UnicodeForms := ⟨id, id⟩

def claimedAnyway : AuthoredText := codePoints "I've created the tag."

/-- Behind a failed action the claim of a completed change is let through. -/
theorem claimed_behind_failure :
    truthfulReplyText asciiForms [.receipt (.error "write_failed")] claimedAnyway .answer
        ⟨false, false⟩ = claimedAnyway ∧ claimsCompletedMutation claimedAnyway = true ∧
      appliedAnyChange [.receipt (.error "write_failed")] = false := by
  decide +kernel

end Example

end ChatResults

end ClockifyAssistant
