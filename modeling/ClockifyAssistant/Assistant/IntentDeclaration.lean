import ClockifyAssistant.Lib.Regex

/-!
The grounding of declared writes in what an admin has authored: the clauses of the retained
prior segment and of the current turn that read as commands of an action, without those that
the current turn cancels.
-/
namespace ClockifyAssistant

open Lib Lib.Regex

/-- A code point of a text, which may be half of a surrogate pair. -/
abbrev CodePoint := Nat

abbrev AuthoredText := List CodePoint

namespace IntentDeclaration

def codePoints (text : String) : AuthoredText := text.toList.map Char.toNat

/-- The bytes of a code point in UTF-8; a lone surrogate is replaced by U+FFFD. -/
def codePointBytes (c : CodePoint) : Nat :=
  if c < 0x80 then 1 else if c < 0x800 then 2 else if c < 0x10000 then 3 else 4

/-- `Buffer.byteLength(text, "utf8")` -/
def byteLength (text : AuthoredText) : Nat := (text.map codePointBytes).sum

/-- `\s` -/
def isSpace (c : CodePoint) : Bool :=
  [9, 10, 11, 12, 13, 32, 160, 0x1680, 0x2028, 0x2029, 0x202f, 0x205f, 0x3000, 0xfeff].contains c ||
    (0x2000 ≤ c && c ≤ 0x200a)

def foldCase (c : CodePoint) : CodePoint :=
  if 65 ≤ c && c ≤ 90 then c + 32 else if c = 0x17f then 115 else if c = 0x212a then 107 else c

/-- `\w` without regard to case -/
def isWordPoint (c : CodePoint) : Bool :=
  let folded := foldCase c
  (97 ≤ folded && folded ≤ 122) || (48 ≤ folded && folded ≤ 57) || folded = 95

def trimStart (text : AuthoredText) : AuthoredText := text.dropWhile isSpace

def trimEnd (text : AuthoredText) : AuthoredText := (text.reverse.dropWhile isSpace).reverse

abbrev Pattern := Regex CodePoint

def letters (text : String) : Pattern :=
  sequence ((codePoints text).map fun letter => .symbol fun c => foldCase c == foldCase letter)

def oneIn (text : String) : Pattern := .symbol (codePoints text).contains

def noneIn (text : String) : Pattern := .symbol fun c => !(codePoints text).contains c

def space : Pattern := .symbol isSpace

def spaces : Pattern := .star space

def someSpace : Pattern := plus space

def wordEdge : Pattern := .boundary isWordPoint

def words (texts : List String) : Pattern :=
  sequence ((texts.map letters).intersperse someSpace)

def oneWordOf (texts : List String) : Pattern := oneOf (texts.map letters)

inductive SegmentSource
  | unresolvedPrior
  | current
  deriving DecidableEq

structure AuthoredWindow where
  source : SegmentSource
  startByte : Nat
  endByte : Nat
  text : AuthoredText
  deriving DecidableEq

abbrev AuthoredSegment := AuthoredWindow

/-- The segments of a request; one byte separates the prior segment from the current turn. -/
def authoredSegments (unresolvedPriorText : Option AuthoredText) (currentText : AuthoredText) :
    List AuthoredSegment :=
  match unresolvedPriorText with
  | none => [⟨.current, 0, byteLength currentText, currentText⟩]
  | some prior =>
      let nextStartByte := byteLength prior + 1
      [⟨.unresolvedPrior, 0, byteLength prior, prior⟩,
        ⟨.current, nextStartByte, nextStartByte + byteLength currentText, currentText⟩]

def currentSegment (segments : List AuthoredSegment) : Option AuthoredSegment :=
  segments.find? fun segment => segment.source = .current

def maxAuthoredCommandClauseBytes : Nat := 512

/-- `/[^.!?;\n]+(?:[.!?;]|$)/gu` -/
def clausePattern : Pattern := .seq (plus (noneIn ".!?;\n")) (.alt (oneIn ".!?;") .atEnd)

def textBetween (text : AuthoredText) (start stop : Nat) : AuthoredText :=
  (text.take stop).drop start

def authoredClause (segment : AuthoredSegment) (found : Match) : Option AuthoredWindow :=
  let raw := textBetween segment.text found.start found.stop
  let text := trimEnd (trimStart raw)
  if text.isEmpty || maxAuthoredCommandClauseBytes < byteLength text then none
  else
    let characterStart := found.start + (raw.length - (trimStart raw).length)
    let startByte := segment.startByte + byteLength (segment.text.take characterStart)
    some { source := segment.source, startByte, endByte := startByte + byteLength text, text }

def authoredClauses (segment : AuthoredSegment) : List AuthoredWindow :=
  (matchAll clausePattern segment.text).filterMap (authoredClause segment)

structure UnicodeForms where
  nfkc : AuthoredText → AuthoredText
  nfc : AuthoredText → AuthoredText

section Patterns

/-- `(?:please[\s,:;-]+)?` -/
def politely : Pattern :=
  opt (.seq (letters "please") (plus (.alt space (oneIn ",:;-"))))

/-- `(?:do\s+not|don't|never)` -/
def doNot : Pattern := oneOf [words ["do", "not"], letters "don't", letters "never"]

def prohibitions : List Pattern :=
  [sequence [.atStart, politely, doNot, wordEdge],
    sequence [.atStart, oneWordOf ["can", "could", "would", "will"], someSpace,
      words ["you", "not"], wordEdge],
    sequence [.atStart, letters "i", someSpace, oneOf [words ["do", "not"], letters "don't"],
      someSpace, oneOf [letters "want", letters "need", words ["would", "like"]], wordEdge]]

def commandFormPatterns (actionPattern : Pattern) : List Pattern :=
  let toDo := sequence [opt (.seq (letters "you") someSpace), letters "to", someSpace,
    actionPattern]
  [sequence [.atStart, spaces, politely, actionPattern],
    sequence [.atStart, spaces, oneWordOf ["can", "could", "would", "will"], someSpace,
      letters "you", someSpace, politely, actionPattern],
    sequence [.atStart, spaces, opt (.seq (letters "i") someSpace),
      oneOf [letters "want", letters "need", words ["would", "like"]], someSpace, toDo],
    sequence [.atStart, spaces, letters "i",
      .alt (.seq (oneIn "'’") (letters "d")) (.seq someSpace (letters "would")), someSpace,
      letters "like", someSpace, toDo],
    sequence [.alt .atStart (sequence [wordEdge, oneWordOf ["and", "then"],
      plus (.alt space (oneIn ",:;-"))]), politely, actionPattern]]

def gerundCommandFormPattern (actionPattern : Pattern) : Pattern :=
  sequence [.atStart, spaces, words ["would", "you", "mind"], someSpace, politely, actionPattern]

/-- `cancel(?:\s+(?:that|it|the\s+request))?` -/
def cancelRequest : Pattern :=
  .seq (letters "cancel") (opt (.seq someSpace
    (oneOf [letters "that", letters "it", words ["the", "request"]])))

def neverMind : Pattern := sequence [letters "never", spaces, letters "mind"]

def forgetThat : List Pattern :=
  [sequence [letters "forget", someSpace, oneWordOf ["that", "it"]],
    words ["do", "not", "do", "that"], words ["don't", "do", "that"]]

def wholeCancellation : Pattern :=
  sequence [.atStart,
    opt (.seq (oneOf [letters "actually", letters "no", words ["no", "thanks"], letters "wait"])
      (plus (.alt space (oneIn ",:;-")))),
    politely, oneOf (cancelRequest :: neverMind :: forgetThat),
    .star (.alt space (oneIn ".!?")), .atEnd]

/-- What cancels in the midst of a turn: also a "no" of its own. -/
def cancelPart : Pattern :=
  sequence [
    opt (sequence [oneWordOf ["actually", "wait"], spaces, opt (oneIn ",;:"), spaces]),
    opt (sequence [letters "please", spaces, opt (oneIn ",;:"), spaces]),
    oneOf (.seq (letters "no") (opt (.seq someSpace (letters "thanks"))) ::
      neverMind :: cancelRequest :: forgetThat)]

def partCancellation : Pattern :=
  sequence [.alt .atStart (.seq (oneIn ".!?;,") spaces), .capture cancelPart,
    .ahead (.seq (.star (.alt (oneIn ".!?;") space)) (.alt .atEnd (oneIn ".!?;")))]

end Patterns

section Windows

variable (forms : UnicodeForms)

def isProhibitedCommandClause (text : AuthoredText) : Bool :=
  let normalized := trimEnd (trimStart (forms.nfkc text))
  prohibitions.any fun pattern => test pattern normalized

def currentTurnCancelsPriorWrite (segments : List AuthoredSegment) : Bool :=
  (segments.any fun segment => segment.source = .unresolvedPrior) &&
    (currentSegment segments).any fun current =>
      test wholeCancellation (trimEnd (trimStart (forms.nfkc current.text)))

def currentTurnCancellationStarts (segments : List AuthoredSegment) : List Nat :=
  match currentSegment segments with
  | none => []
  | some current => (matchAll partCancellation current.text).filterMap fun found =>
      found.captured.map fun cancellation =>
        current.startByte + byteLength (current.text.take cancellation.1)

structure LiteralObligation where
  anyOfPaths : List String
  cuePatterns : List Pattern
  sourceRolePatterns : Option (List Pattern)

structure AuthoredIntentMetadata where
  commandPatterns : List Pattern
  commandGerundPatterns : List Pattern
  forbiddenPatterns : List Pattern
  literalObligations : List LiteralObligation

def isCommandClause (metadata : AuthoredIntentMetadata) (clause : AuthoredWindow) : Bool :=
  !(isProhibitedCommandClause forms clause.text ||
      metadata.forbiddenPatterns.any fun pattern => test pattern clause.text) &&
    ((metadata.commandPatterns.any fun action =>
        (commandFormPatterns action).any fun pattern => test pattern clause.text) ||
      metadata.commandGerundPatterns.any fun action =>
        test (gerundCommandFormPattern action) clause.text)

/-- The clauses that command the action. A later cancellation revokes those of the current
turn. -/
def commandWindows (metadata : AuthoredIntentMetadata) (segments : List AuthoredSegment) :
    List AuthoredWindow :=
  if currentTurnCancelsPriorWrite forms segments then []
  else
    let cancellationStarts := currentTurnCancellationStarts segments
    (segments.flatMap authoredClauses).filter fun clause =>
      isCommandClause forms metadata clause &&
        !(clause.source = .current && cancellationStarts.any fun start => clause.startByte < start)

/-- `\b(?:the|that|this)\s+project\b` -/
def projectReferent : Pattern :=
  sequence [wordEdge, oneWordOf ["the", "that", "this"], someSpace, letters "project", wordEdge]

/-- The clauses of the current turn that command a change of the project which the conversation
carries. -/
def carriedProjectClauses (segments : List AuthoredSegment) : List AuthoredWindow :=
  if currentTurnCancelsPriorWrite forms segments then []
  else
    let cancellationStarts := currentTurnCancellationStarts segments
    ((currentSegment segments).toList.flatMap authoredClauses).filter fun clause =>
      test projectReferent clause.text && !isProhibitedCommandClause forms clause.text &&
        !(cancellationStarts.any fun start => clause.startByte < start)

structure SourceSpan where
  startByte : Nat
  endByte : Nat
  text : AuthoredText
  deriving DecidableEq

structure LiteralConstraint where
  path : String
  sourceSpan : SourceSpan
  deriving DecidableEq

structure SemanticLiteralAlias where
  path : String
  phrasePatterns : List Pattern

def spansOverlap (left : SourceSpan) (right : AuthoredWindow) : Bool :=
  left.startByte < right.endByte && right.startByte < left.endByte

def segmentForSpan (span : SourceSpan) (segments : List AuthoredSegment) : Option AuthoredSegment :=
  if span.endByte ≤ span.startByte then none
  else segments.find? fun segment =>
    segment.startByte ≤ span.startByte && span.endByte ≤ segment.endByte

def cueOccursOutsideOtherLiteral (pattern : Pattern) (windows : List AuthoredWindow) : Bool :=
  windows.any fun window =>
    (matchAll pattern window.text).any fun found => found.start < found.stop

def withoutIndices : List Char → List Char
  | [] => []
  | '[' :: rest =>
      let digits := rest.takeWhile Char.isDigit
      if !digits.isEmpty && (rest.drop digits.length).head? = some ']' then
        '[' :: withoutIndices (rest.drop digits.length)
      else '[' :: withoutIndices rest
  | c :: rest => c :: withoutIndices rest
termination_by path => path.length
decreasing_by
  · simp only [List.length_drop, List.length_cons]
    omega
  · exact Nat.lt_succ_self _
  · exact Nat.lt_succ_self _

def normalizedConstraintPath (path : String) : String :=
  String.ofList (withoutIndices path.toList)

def hasConstraintForPath (constraints : List LiteralConstraint) (path : String) : Bool :=
  constraints.any fun constraint => normalizedConstraintPath constraint.path = path

def roleValueRanges (pattern : Pattern) (windows : List AuthoredWindow) : List (Nat × Nat) :=
  windows.flatMap fun window => (matchAll pattern window.text).filterMap fun found =>
    found.captured.map fun value =>
      let startByte := window.startByte + byteLength (window.text.take value.1)
      (startByte, startByte + byteLength (textBetween window.text value.1 value.2))

def constraintIsBoundToRole (constraint : LiteralConstraint) (ranges : List (Nat × Nat)) : Bool :=
  ranges.any fun range =>
    range.1 ≤ constraint.sourceSpan.startByte && constraint.sourceSpan.endByte ≤ range.2

def unquote (text : AuthoredText) : AuthoredText :=
  match text.head?, text.getLast? with
  | some first, some last =>
      if 2 ≤ text.length && first = last && (codePoints "\"'`").contains first then
        (text.drop 1).dropLast
      else text
  | _, _ => text

def normalizeString (text : AuthoredText) : AuthoredText :=
  forms.nfc (unquote (trimEnd (trimStart text)))

def literalOfTurn (text : AuthoredText) : AuthoredText :=
  let trimmed := trimEnd (trimStart text)
  trimEnd (trimStart (trimmed.reverse.dropWhile (codePoints ".!?").contains).reverse)

/-- `/^(?:create|make)\s+(?:it|that)[.!?\s]*$/iu` -/
def createIt : Pattern :=
  sequence [.atStart, oneWordOf ["create", "make"], someSpace, oneWordOf ["it", "that"],
    .star (.alt (oneIn ".!?") space), .atEnd]

structure DeclaredWrite where
  actionName : String
  actionSpans : List SourceSpan
  constraints : List LiteralConstraint
  semanticLiteralAliases : List SemanticLiteralAlias

/-- A short answer in the current turn supplies the only literal that the prior command asks
for. -/
def isTerseClarification (constraints roleConstraints : List LiteralConstraint)
    (current : AuthoredSegment) (segments : List AuthoredSegment) : Bool :=
  match constraints, roleConstraints with
  | [_], [constraint] =>
      (segmentForSpan constraint.sourceSpan segments).any (fun segment =>
        segment.source = .current) &&
      normalizeString forms (literalOfTurn current.text) =
        normalizeString forms constraint.sourceSpan.text &&
      byteLength (literalOfTurn current.text) ≤ 160
  | _, _ => false

def obligationsMet (metadata : AuthoredIntentMetadata) (write : DeclaredWrite)
    (segments : List AuthoredSegment) (commands windows : List AuthoredWindow) : Bool :=
  let cued := fun (obligation : LiteralObligation) (windows : List AuthoredWindow) =>
    obligation.cuePatterns.any fun pattern => cueOccursOutsideOtherLiteral pattern windows
  let obligations := metadata.literalObligations.zipIdx
  let priorCuedRoleObligations :=
    if commands.all fun command => command.source = .unresolvedPrior then
      (obligations.filter fun entry =>
        entry.1.sourceRolePatterns.isSome && cued entry.1 commands).map Prod.snd
    else []
  obligations.all fun (obligation, index) =>
    let cuePresent := cued obligation windows
    (!cuePresent || obligation.anyOfPaths.any (hasConstraintForPath write.constraints)) &&
      match obligation.sourceRolePatterns with
      | none => true
      | some rolePatterns =>
          let ranges := rolePatterns.flatMap fun pattern => roleValueRanges pattern windows
          let roleConstraints := write.constraints.filter fun constraint =>
            obligation.anyOfPaths.contains (normalizedConstraintPath constraint.path)
          let terse := priorCuedRoleObligations = [index] &&
            (currentSegment segments).any fun current =>
              isTerseClarification forms write.constraints roleConstraints current segments
          (terse || roleConstraints.all fun constraint =>
            constraintIsBoundToRole constraint ranges) &&
          (!cuePresent || terse || roleConstraints.any fun constraint =>
            constraintIsBoundToRole constraint ranges)

def aliasesMet (write : DeclaredWrite) (windows : List AuthoredWindow) : Bool :=
  write.semanticLiteralAliases.all fun entry =>
    !(entry.phrasePatterns.any fun pattern => cueOccursOutsideOtherLiteral pattern windows) ||
      hasConstraintForPath write.constraints entry.path

/-- Whether a declared write is grounded in a command. An action without such metadata has no
command clauses; where the current turn has to express it, `carried` is the test of a clause
about the carried project. -/
def satisfiesAuthoredIntent (carried : DeclaredWrite → AuthoredWindow → Bool)
    (metadata : Option AuthoredIntentMetadata) (write : DeclaredWrite)
    (segments : List AuthoredSegment) (requireCurrentActionSpan : Bool) : Bool :=
  match metadata with
  | none => !requireCurrentActionSpan || (carriedProjectClauses forms segments).any (carried write)
  | some metadata =>
      let current := currentSegment segments
      let commands := commandWindows forms metadata segments
      let cites := fun command => write.actionSpans.any fun span => spansOverlap span command
      let currentCommand := commands.any fun command => command.source = .current && cites command
      let explicitContinuation :=
        requireCurrentActionSpan && write.actionName = "clockify_projects_create" &&
          current.any (fun current => test createIt current.text && cites current) &&
          commands.any fun command => command.source = .unresolvedPrior
      let grounded :=
        if requireCurrentActionSpan then currentCommand || explicitContinuation
        else commands.any cites
      let windows := if commands.any fun command => command.source = .current then commands
        else commands ++ current.toList
      let lengthy := commands.all (fun command => command.source ≠ .current) &&
        current.any fun current => maxAuthoredCommandClauseBytes < byteLength current.text
      !commands.isEmpty && grounded && !lengthy &&
        obligationsMet forms metadata write segments commands windows && aliasesMet write windows

end Windows

end IntentDeclaration

end ClockifyAssistant
