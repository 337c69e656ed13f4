import ClockifyAssistant.Assistant.IntentDeclaration

/-!
What the server recognises in the prose of a provider: a request for approval in the chat,
the claim that a supported tool is absent, and the claim of a completed change.
-/
namespace ClockifyAssistant

open Lib Lib.Regex IntentDeclaration

namespace TextSafety

/-- `text.replace(/\s+/g, " ")`; `inSpace` is whether a space has just been left. -/
def collapsedFrom (inSpace : Bool) : AuthoredText → AuthoredText
  | [] => []
  | c :: rest =>
      if isSpace c then
        if inSpace then collapsedFrom true rest else 32 :: collapsedFrom true rest
      else c :: collapsedFrom false rest

def normalized (forms : UnicodeForms) (text : AuthoredText) : AuthoredText :=
  trimEnd (trimStart (collapsedFrom false (forms.nfkc text)))

section Pieces

/-- `r{0,n}` -/
def upTo (r : Pattern) : Nat → Pattern
  | 0 => .empty
  | n + 1 => opt (.seq r (upTo r n))

/-- `.{0,n}` -/
def gap (n : Nat) : Pattern := upTo (.symbol fun c => !([10, 13, 0x2028, 0x2029].contains c)) n

/-- `\br\b` -/
def whole (r : Pattern) : Pattern := sequence [wordEdge, r, wordEdge]

def wholeWordOf (texts : List String) : Pattern := whole (oneWordOf texts)

/-- `go[- ]?ahead` -/
def goAhead : Pattern := sequence [letters "go", opt (oneIn "- "), letters "ahead"]

def greenLight : Pattern := words ["green", "light"]

def changeVerbs : List String :=
  ["approve", "apply", "execute", "create", "delete", "update", "change", "submit", "send",
    "publish", "proceed"]

def wholeOrGoAhead (texts : List String) : Pattern := whole (.alt (oneWordOf texts) goAhead)

end Pieces

/-! Approval in the chat. -/

/-- `/\b(?:confirm|clarify|specify)\s+(?:which|what|who|where|when|whether)\b/iu` -/
def targetClarification : Pattern :=
  sequence [wordEdge, oneWordOf ["confirm", "clarify", "specify"], someSpace,
    oneWordOf ["which", "what", "who", "where", "when", "whether"], wordEdge]

def informationalConfirmation : Pattern :=
  sequence [wordEdge, oneWordOf ["would", "could", "can"], someSpace, words ["you", "confirm"],
    someSpace,
    .alt
      (sequence [letters "the", someSpace, .notAhead (.seq
        (oneWordOf ["change", "action", "request", "approval", "operation"]) wordEdge)])
      (.seq (oneWordOf ["a", "an", "your"]) someSpace)]

def approvalPatterns : List Pattern :=
  [sequence [.atStart, spaces, letters "proceed", spaces, .star (oneIn "?!."), spaces, .atEnd],
    sequence [wholeWordOf ["type", "enter", "reply", "respond", "say", "send", "write"], gap 48,
      wholeWordOf ["yes", "confirm", "approve", "approved", "proceed", "do it"]],
    sequence [wordEdge, opt (.seq (letters "please") someSpace), oneWordOf ["confirm", "approve"],
      spaces, oneOf [oneIn ".!?", .atEnd, .seq (letters "this") wordEdge,
        .seq (letters "that") wordEdge, .seq (letters "it") wordEdge,
        sequence [letters "the", someSpace, oneWordOf ["change", "action", "request"], wordEdge],
        sequence [letters "to", someSpace, oneWordOf ["continue", "proceed", "apply", "execute"],
          wordEdge],
        .seq (letters "by") wordEdge]],
    sequence [wordEdge, oneWordOf ["would", "could", "can", "will", "should"], someSpace,
      letters "you", wordEdge, gap 64,
      wholeOrGoAhead ["confirm", "approve", "proceed", "permission"]],
    sequence [whole (words ["shall", "i"]), gap 48,
      wholeOrGoAhead ["confirm", "approve", "proceed", "apply", "execute"]],
    sequence [whole (words ["should", "i"]), gap 48,
      wholeOrGoAhead ["confirm", "approve", "proceed", "apply", "execute", "create", "delete",
        "update"]],
    sequence [whole (words ["do", "i", "have", "your"]), gap 32,
      wholeOrGoAhead ["permission", "approval"]],
    sequence [whole (oneOf [letters "i", letters "we", words ["the", "system"], letters "this",
        letters "it", sequence [letters "the", someSpace,
          oneWordOf ["change", "action", "request", "approval"]]]), gap 24,
      wholeWordOf ["need", "needs", "require", "requires", "await", "awaits"], gap 32,
      wholeOrGoAhead ["confirmation", "approval", "permission"]],
    sequence [whole (oneOf [words ["would", "you", "like", "me", "to"], words ["shall", "i"],
        words ["can", "i"], words ["may", "i"]]), gap 64, wholeOrGoAhead changeVerbs],
    sequence [whole (words ["do", "you", "want", "me", "to"]), gap 64, wholeOrGoAhead changeVerbs],
    sequence [whole (words ["let", "me", "know", "if", "you", "want", "me", "to"]), gap 64,
      wholeOrGoAhead changeVerbs],
    sequence [wordEdge, words ["if", "you"], someSpace, oneWordOf ["confirm", "approve"], wordEdge,
      gap 48, wordEdge, oneWordOf ["i", "we"], someSpace,
      oneWordOf ["can", "will", "could", "would"], wordEdge, gap 48, wholeWordOf changeVerbs],
    sequence [wordEdge, oneOf [words ["is", "it"], words ["would", "it", "be"]], someSpace,
      oneWordOf ["ok", "okay"], wordEdge, gap 48, wholeWordOf (changeVerbs ++ ["run"])],
    sequence [wordEdge, oneWordOf ["ok", "okay"], someSpace, letters "to", someSpace,
      oneWordOf (changeVerbs ++ ["run", "continue"]), wordEdge],
    sequence [wholeWordOf ["authorization", "permission", "approval"], gap 32,
      wholeWordOf ["required", "needed", "necessary"], gap 48,
      wholeWordOf ["run", "continue", "proceed", "execute", "apply", "create", "delete", "update",
        "approve"]],
    sequence [whole (oneOf [greenLight, letters "authorization", letters "permission", goAhead]),
      gap 48, wholeWordOf (changeVerbs ++ ["run", "continue"])],
    sequence [wholeWordOf (changeVerbs ++ ["run", "continue"]), gap 64,
      whole (oneOf [greenLight, letters "authorization", letters "permission", goAhead])],
    sequence [wholeWordOf ["authorize"], gap 48,
      wholeWordOf ["action", "change", "request", "continue", "proceed", "run", "execute", "apply",
        "create", "delete", "update", "approve"]],
    sequence [wordEdge, words ["please", "give", "me", "the"], someSpace,
      oneOf [goAhead, greenLight, letters "authorization", letters "permission"], wordEdge],
    sequence [wordEdge, words ["once", "you"], someSpace,
      oneWordOf ["approve", "confirm", "authorize"], wordEdge, gap 48, wordEdge,
      oneWordOf ["i", "we"], someSpace, oneWordOf ["will", "can", "could", "would"], wordEdge,
      gap 48, wholeWordOf (changeVerbs ++ ["run"])],
    sequence [wordEdge, letters "awaiting", someSpace, opt (.seq (letters "your") someSpace),
      .alt (oneWordOf ["confirmation", "approval", "authorization", "permission"]) goAhead,
      wordEdge]]

def requestsTextApproval (forms : UnicodeForms) (text : AuthoredText) : Bool :=
  let normalized := normalized forms text
  !normalized.isEmpty && !test targetClarification normalized &&
    !test informationalConfirmation normalized &&
    approvalPatterns.any fun pattern => test pattern normalized

/-! Absent tools. -/

def surface : Pattern :=
  oneOf [letters "tool", letters "action", letters "ability", letters "abilities",
    letters "capability", letters "capabilities",
    .seq (letters "operation") (opt (.seq someSpace (letters "surface"))),
    .seq (letters "function") (opt (letters "ality")), letters "feature", letters "endpoint",
    letters "interface"]

def absent : Pattern :=
  .alt (oneWordOf ["absent", "unavailable", "unsupported", "unable", "impossible", "missing",
      "omitted"])
    (sequence [letters "not", someSpace,
      oneWordOf ["available", "supported", "exposed", "provided", "included"]])

def absencePatterns : List Pattern :=
  [sequence [wholeWordOf ["no", "without"], gap 48, whole surface],
    sequence [wordEdge, oneOf [words ["do", "not"], letters "don't", letters "cannot",
        letters "can't"], someSpace, oneWordOf ["have", "access", "use", "find", "see"], wordEdge,
      gap 64, whole surface],
    sequence [whole surface, gap 64, whole absent],
    sequence [whole absent, gap 64, whole surface],
    sequence [wholeWordOf ["creation", "deletion", "update", "assignment", "scheduling",
        "approval", "export", "timer"], gap 48,
      whole (.alt (oneWordOf ["unavailable", "unsupported"]) (words ["not", "supported"]))],
    sequence [wholeWordOf ["outside"], gap 32, wordEdge, oneWordOf ["my", "the"], someSpace,
      oneWordOf ["capability", "capabilities"], wordEdge],
    sequence [whole (words ["not", "supported", "by"]), gap 40, wordEdge,
      oneOf [.seq (letters "action") (opt (letters "s")), .seq (letters "tool") (opt (letters "s")),
        letters "capability", letters "capabilities"], wordEdge],
    sequence [wordEdge, letters "i", someSpace, .alt (letters "am") (letters "'m"), someSpace,
      words ["unable", "to"], wordEdge, gap 64,
      wholeWordOf ["create", "update", "delete", "start", "stop", "log", "schedule", "assign"]]]

def claimsUnsupportedToolAbsence (forms : UnicodeForms) (text : AuthoredText) : Bool :=
  let normalized := normalized forms text
  !normalized.isEmpty && absencePatterns.any fun pattern => test pattern normalized

/-! Completed changes. These patterns read code units and fold the case of ASCII letters. -/

def unitsOf (text : AuthoredText) : List Nat :=
  text.flatMap fun c =>
    if c < 0x10000 then [c] else [0xd800 + (c - 0x10000) / 0x400, 0xdc00 + (c - 0x10000) % 0x400]

def foldAscii (u : Nat) : Nat := if 65 ≤ u && u ≤ 90 then u + 32 else u

def unitLetters (text : String) : Pattern :=
  sequence ((codePoints text).map fun letter => .symbol fun u => foldAscii u == foldAscii letter)

def unitEdge : Pattern := .boundary fun u =>
  (97 ≤ foldAscii u && foldAscii u ≤ 122) || (48 ≤ u && u ≤ 57) || u == 95

def completedWriteVerb : Pattern :=
  oneOf (["renamed", "deleted", "removed", "created", "added", "updated", "changed", "modified",
    "edited", "archived", "unarchived", "logged", "started", "stopped", "set", "assigned",
    "unassigned", "granted", "revoked", "scheduled", "unscheduled", "submitted", "resubmitted",
    "approved", "denied", "cancelled", "canceled", "applied", "moved", "merged", "saved",
    "recorded", "imported", "exported", "generated", "sent", "marked", "completed", "reverted",
    "restored", "enabled", "disabled"].map unitLetters)

def adverbs (texts : List String) : Pattern :=
  .star (.seq (oneOf (texts.map unitLetters)) someSpace)

def completedMutationClaim : Pattern :=
  oneOf [
    sequence [.atStart, spaces,
      oneOf [unitLetters "done", unitLetters "all set", unitLetters "all done"], unitEdge],
    sequence [unitEdge, unitLetters "successfully", someSpace, adverbs ["just", "now"],
      completedWriteVerb, unitEdge],
    sequence [unitEdge, oneOf (["has", "have", "had", "was", "were", "been", "is now",
        "are now"].map unitLetters), unitEdge, upTo (noneIn ".!?\n") 40, unitEdge,
      completedWriteVerb, unitEdge],
    sequence [unitEdge, oneOf (["i", "i've", "i have", "we", "we've", "we have"].map unitLetters),
      unitEdge, someSpace, adverbs ["just", "now", "successfully"], completedWriteVerb, unitEdge]]

def claimsCompletedMutation (text : AuthoredText) : Bool := test completedMutationClaim (unitsOf text)

end TextSafety

end ClockifyAssistant
