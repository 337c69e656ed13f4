import ClockifyAssistant.Assistant.IntentDeclaration

/-!
Commands that the admin takes back. A cancellation in the current turn revokes the commands of
that turn before it, and one that is the whole turn revokes the retained command; between the two
lies a turn that cancels and goes on.
-/
namespace ClockifyAssistant

open Lib Lib.Regex

namespace IntentDeclaration

section Clauses

variable {segment clause : AuthoredWindow}

theorem byteLength_take_le (text : AuthoredText) (n : Nat) :
    byteLength (text.take n) ≤ byteLength text := by
  have hsplit := congrArg byteLength (List.take_append_drop n text)
  simp only [byteLength, List.map_append, List.sum_append] at hsplit ⊢
  omega

theorem authoredClauses_within (h : clause ∈ authoredClauses segment) :
    clause.source = segment.source ∧
      clause.startByte ≤ segment.startByte + byteLength segment.text := by
  obtain ⟨found, -, hclause⟩ := List.mem_filterMap.mp h
  unfold authoredClause at hclause
  dsimp only at hclause
  split at hclause
  · exact absurd hclause nofun
  · obtain rfl := Option.some.inj hclause
    exact ⟨rfl, Nat.add_le_add_left (byteLength_take_le _ _) _⟩

end Clauses

section Segments

variable {prior current : AuthoredText} {start : Nat} {segments : List AuthoredSegment}

theorem currentSegment_authored (prior : Option AuthoredText) (current : AuthoredText) :
    ∃ segment, currentSegment (authoredSegments prior current) = some segment ∧
      segment.source = .current ∧ ∀ text, prior = some text →
        byteLength text < segment.startByte := by
  cases prior with
  | none => exact ⟨_, rfl, rfl, nofun⟩
  | some prior =>
    refine ⟨_, rfl, rfl, fun text heq => ?_⟩
    obtain rfl := Option.some.inj heq
    exact Nat.lt_succ_self _

theorem currentTurnCancellationStarts_within {segment : AuthoredSegment}
    (hcurrent : currentSegment segments = some segment)
    (h : start ∈ currentTurnCancellationStarts segments) : segment.startByte ≤ start := by
  rw [currentTurnCancellationStarts, hcurrent] at h
  obtain ⟨found, -, hcaptured⟩ := List.mem_filterMap.mp h
  obtain ⟨cancellation, -, rfl⟩ := Option.map_eq_some_iff.mp hcaptured
  exact Nat.le_add_right _ _

/-- The clauses of the retained segment. -/
def priorClauses (prior : Option AuthoredText) : List AuthoredWindow :=
  prior.toList.flatMap fun text => authoredClauses ⟨.unresolvedPrior, 0, byteLength text, text⟩

theorem mem_clauses_authored {prior : Option AuthoredText} {clause : AuthoredWindow} :
    clause ∈ (authoredSegments prior current).flatMap authoredClauses ↔
      clause ∈ priorClauses prior ∨
        ∃ segment, currentSegment (authoredSegments prior current) = some segment ∧
          clause ∈ authoredClauses segment := by
  cases prior with
  | none => simp [authoredSegments, priorClauses, currentSegment]
  | some prior => simp [authoredSegments, priorClauses, currentSegment]

theorem priorClauses_before {prior : Option AuthoredText} {clause : AuthoredWindow}
    (hclause : clause ∈ priorClauses prior)
    (hstart : start ∈ currentTurnCancellationStarts (authoredSegments prior current)) :
    clause.source = .unresolvedPrior ∧ clause.startByte < start := by
  obtain ⟨text, hprior, hmem⟩ := List.mem_flatMap.mp hclause
  obtain ⟨hsource, hle⟩ := authoredClauses_within hmem
  obtain ⟨segment, hcurrent, -, hafter⟩ := currentSegment_authored prior current
  have hlt := hafter text (Option.mem_toList.mp hprior)
  have hge := currentTurnCancellationStarts_within hcurrent hstart
  refine ⟨hsource, ?_⟩
  dsimp only at hle
  omega

end Segments

variable (forms : UnicodeForms)

/-- A clause that an utterance of the current turn takes back: the turn is a cancellation, or it
cancels behind the clause. -/
def Cancelled (segments : List AuthoredSegment) (clause : AuthoredWindow) : Prop :=
  (clause.source = .unresolvedPrior ∧ currentTurnCancelsPriorWrite forms segments = true) ∨
    ∃ start ∈ currentTurnCancellationStarts segments, clause.startByte < start

/-- The clauses in which a write of the action can be grounded. -/
def grantingClauses (metadata : Option AuthoredIntentMetadata) (segments : List AuthoredSegment) :
    List AuthoredWindow :=
  match metadata with
  | none => carriedProjectClauses forms segments
  | some metadata => commandWindows forms metadata segments

def CancelledNeverGrant (metadata : Option AuthoredIntentMetadata)
    (segments : List AuthoredSegment) : Prop :=
  ∀ clause ∈ grantingClauses forms metadata segments, ¬ Cancelled forms segments clause

section Grants

variable {forms} {metadata : AuthoredIntentMetadata} {segments : List AuthoredSegment}
  {clause : AuthoredWindow}

theorem mem_commandWindows (hwhole : currentTurnCancelsPriorWrite forms segments = false) :
    clause ∈ commandWindows forms metadata segments ↔
      clause ∈ segments.flatMap authoredClauses ∧ isCommandClause forms metadata clause = true ∧
        (clause.source = .current →
          ∀ start ∈ currentTurnCancellationStarts segments, start ≤ clause.startByte) := by
  simp [commandWindows, hwhole, List.mem_filter, imp_iff_not_or]

theorem carriedProjectClauses_standing (h : clause ∈ carriedProjectClauses forms segments) :
    ¬ Cancelled forms segments clause := by
  unfold carriedProjectClauses at h
  split at h
  · exact absurd h List.not_mem_nil
  · rename_i hwhole
    rintro (⟨-, hcancels⟩ | ⟨start, hstart, hlt⟩)
    · exact hwhole hcancels
    · have hkept := (List.mem_filter.mp h).2
      simp only [Bool.and_eq_true, Bool.not_eq_true', List.any_eq_false, decide_eq_true_eq] at hkept
      exact hkept.2 start hstart hlt

end Grants

section Example

/-- Normal forms of texts that are ASCII. -/
def asciiForms : UnicodeForms where
  nfkc := id
  nfc := id

/-- The command words of `clockify_stop_timer`. -/
def stopTimerIntent : AuthoredIntentMetadata where
  commandPatterns := [
    sequence [wordEdge, letters "clock", someSpace, opt (.seq (letters "me") someSpace),
      letters "out", wordEdge],
    sequence [wordEdge, oneWordOf ["stop", "end"],
      opt (.seq someSpace (oneWordOf ["the", "my", "a", "running"])), someSpace,
      opt (.seq (letters "work") someSpace), letters "timer", wordEdge]]
  commandGerundPatterns := [
    sequence [wordEdge, letters "clocking", someSpace, opt (.seq (letters "me") someSpace),
      letters "out", wordEdge],
    sequence [wordEdge, oneWordOf ["stopping", "ending"],
      opt (.seq someSpace (oneWordOf ["the", "my", "a", "running"])), someSpace,
      opt (.seq (letters "work") someSpace), letters "timer", wordEdge]]
  forbiddenPatterns := []
  literalObligations := []

/-- The retained command, and a turn that cancels it and asks something else. -/
def cancelAndAsk : List AuthoredSegment :=
  authoredSegments (some (codePoints "Stop the timer."))
    (codePoints "Cancel that. Show my projects.")

def retainedCommand : AuthoredWindow := ⟨.unresolvedPrior, 0, 15, codePoints "Stop the timer."⟩

def stopTimerWrite : DeclaredWrite where
  actionName := "clockify_stop_timer"
  actionSpans := [⟨0, 15, codePoints "Stop the timer."⟩]
  constraints := []
  semanticLiteralAliases := []

end Example

end IntentDeclaration

end ClockifyAssistant
