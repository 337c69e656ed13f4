import ClockifyAssistant.RunEventLog
import ClockifyAssistant.Ui.Protocol

/-!
The cursor of the client over the events of one run, and the restore that reads the
log of the run page by page. An event is applied where the cursor accepts it.
-/
namespace ClockifyAssistant

open Lib Protocol

structure RunEventCursor where
  runId : RunId
  seen : List (RunId × Nat)
  highest : Nat

namespace RunEventCursor

def new (runId : RunId) : RunEventCursor := ⟨runId, [], 0⟩

def accept (c : RunEventCursor) (sequence : Nat) : Bool × RunEventCursor :=
  let key := (c.runId, sequence)
  if key ∈ c.seen then (false, c)
  else if sequence ≠ c.highest + 1 then (false, c)
  else (true, { c with seen := key :: c.seen, highest := sequence })

def highestSequence (c : RunEventCursor) : Nat := c.highest

end RunEventCursor

def positiveInteger (value : Nat) (name : String) : Decode Nat :=
  if value = 0 then protocolError (name ++ " must be positive") else .ok value

def decodePageEvents (name : String) : Nat → List RunEvent → Decode (List RunEvent)
  | _, [] => .ok []
  | index, entry :: rest => do
      let entryName := name ++ "[" ++ toString index ++ "]"
      let sequence ← positiveInteger entry.sequence (entryName ++ ".sequence")
      return { entry with sequence } :: (← decodePageEvents name (index + 1) rest)

/-- The other fields of a page have the shapes that the server writes. -/
def decodeRunEventsPage (source : RunEventPage) (name : String) : Decode RunEventPage := do
  let events ← decodePageEvents (name ++ ".events") 0 source.events
  return {
    runId := source.runId
    events
    nextAfter := ← positiveInteger source.nextAfter (name ++ ".nextAfter")
    hasMore := source.hasMore
    lastSequence := ← positiveInteger source.lastSequence (name ++ ".lastSequence") }

def eventsPageLimit : Nat := 200

/-- The route answers a run that it does not find with a failure. -/
def getRunEvents (db : Db) (s : AssistantRunScope) (after : Nat) : Option RunEventPage :=
  match db.listEvents s after eventsPageLimit with
  | .error _ => none
  | .ok page =>
      match decodeRunEventsPage page "API response" with
      | .error _ => none
      | .ok page => some page

/-- Where a call of `restoreRunEvents` stands: before the server reads a page, before
the client has it, and behind the loop. -/
inductive Restore
  | asking (after : Nat)
  | answered (page : RunEventPage)
  | ended (highest : Nat)
  | failed

/-- One client of the run and the server behind it. -/
structure Restoration where
  db : Db
  cursor : RunEventCursor
  applied : List RunEvent
  restores : List Restore

namespace Restoration

def initial (s : AssistantRunScope) : Restoration := ⟨.empty, .new s.runId, [], []⟩

/-- What the cursor accepts is handed to `applyRunEventAttachment`. -/
def offer (w : Restoration) (event : RunEvent) : Restoration :=
  match w.cursor.accept event.sequence with
  | (false, _) => w
  | (true, cursor) => { w with cursor, applied := w.applied ++ [event] }

def offerAll (w : Restoration) (events : List RunEvent) : Restoration := events.foldl offer w

def setRestore (w : Restoration) (i : Nat) (r : Restore) : Restoration :=
  { w with restores := w.restores.set i r }

/-- The loop of `restoreRunEvents` from one wait to the next. -/
def restoreTurn (s : AssistantRunScope) (w : Restoration) (i : Nat) : Restoration :=
  match w.restores[i]? with
  | some (.asking after) =>
      match getRunEvents w.db s after with
      | none => w.setRestore i .failed
      | some page => w.setRestore i (.answered page)
  | some (.answered page) =>
      let applied := w.offerAll page.events
      if page.hasMore then applied.setRestore i (.asking page.nextAfter)
      else applied.setRestore i (.ended applied.cursor.highestSequence)
  | _ => w

def loseRequest (w : Restoration) (i : Nat) : Restoration :=
  match w.restores[i]? with
  | some (.asking _) | some (.answered _) => w.setRestore i .failed
  | _ => w

end Restoration

inductive RestorationStep
  | log (e : EventLogStep)
  | streamed (event : RunEvent)
  | restoreRunEvents (startAfter : Nat)
  | turn (i : Nat)
  | lost (i : Nat)

def RestorationStep.isTurn (i : Nat) : RestorationStep → Bool
  | .turn j => i == j
  | _ => false

def RestorationStep.isLost (i : Nat) : RestorationStep → Bool
  | .lost j => i == j
  | _ => false

/-- A restore starts at or below the cursor. -/
def Restoration.step (s : AssistantRunScope) (w : Restoration) : RestorationStep → Restoration
  | .log e => { w with db := (EventReader.step s ⟨w.db, [], 0⟩ e).db }
  | .streamed event => w.offer event
  | .restoreRunEvents startAfter =>
      if startAfter ≤ w.cursor.highest then
        { w with restores := w.restores ++ [.asking startAfter] }
      else w
  | .turn i => w.restoreTurn s i
  | .lost i => w.loseRequest i

def restoration (s : AssistantRunScope) (steps : List RestorationStep) : Restoration :=
  steps.foldl (Restoration.step s) (.initial s)

end ClockifyAssistant
