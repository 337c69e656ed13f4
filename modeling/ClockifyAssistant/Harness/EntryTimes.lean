import ClockifyAssistant.Harness.ResolveDates

/-!
The times of entries: when a logged entry starts and ends, and which entries a review of a day
or of a week asks for.
-/
namespace ClockifyAssistant.EntryTimes

open Lib ResolveDates

/-- What an action knows about time. Without a verified zone a day is a day of UTC. -/
structure DateContext where
  now : Instant
  timeZone : Option TimeZone

def DateContext.zone (ctx : DateContext) : TimeZone := ctx.timeZone.getD (.fixed 0)

def dateClarify (raw : List Char) : String :=
  "I couldn't make sense of the date \"" ++ String.ofList raw ++
    "\" — give me a calendar date (YYYY-MM-DD) or something like today, yesterday, or last monday."

def resolveDay (ctx : DateContext) (args : DayArgs) : Option PlainDate :=
  resolveRelativeDay ctx.now args ctx.zone

structure LogTimesArgs where
  start : Option (List Char) := none
  finish : Option (List Char) := none
  date : Option (List Char) := none
  dayOffset : Option Int := none
  durationMinutes : Option Rat := none
  durationHours : Option Rat := none

/-- An end that was worked out, or one that is handed on as it was given. -/
inductive EntryEnd
  | instant (finish : Instant)
  | given (text : List Char)

inductive LogTimes
  | ok (start : Instant) (finish : Option EntryEnd)
  | clarify (message : String)

def startClarify : String :=
  "The start must be a full ISO datetime with a Z or numeric offset."

def endClarify : String := "The end must be a full ISO datetime with a Z or numeric offset."

def durationClarify : String :=
  "How long was it (e.g. 2 hours), or what start and end times should I use?"

def timeZoneClarify : String :=
  "I couldn't verify your Clockify timezone, so I won't guess which instant 09:00 means. Refresh the add-on and try again."

def negativeClarify : String :=
  "The end time is at or before the start, which would be a negative-length entry. For an overnight entry, give the end as the next day (a full date/time); otherwise double-check the start and end."

section Parsers

/-! `instantFrom` parses a date-time that has an offset, `dateParse` whatever a date is
constructed from. -/
variable (instantFrom dateParse : List Char → Option Instant)

def EntryEnd.parsed : EntryEnd → Option Instant
  | .instant finish => some finish
  | .given text => dateParse text

/-- A negative length is asked about; an end that is no date is not compared. -/
def checkLength (start : Instant) (finish : Option EntryEnd) : LogTimes :=
  match finish.bind (EntryEnd.parsed dateParse) with
  | some parsed => if parsed ≤ start then .clarify negativeClarify else .ok start finish
  | none => .ok start finish

def addMinutes (start : Instant) (minutes : Rat) : Instant :=
  let moved : Rat := start + minutes * 60000
  moved.num.tdiv moved.den

def resolveLogTimes (ctx : DateContext) (args : LogTimesArgs) : LogTimes :=
  let durationMinutes := args.durationMinutes.or (args.durationHours.map (· * 60))
  match args.start with
  | some (c :: rest) =>
      let raw := c :: rest
      if 'T' ∉ raw then .clarify startClarify
      else
        match resolveInstant instantFrom ctx.now raw .start ctx.zone with
        | none => .clarify startClarify
        | some start =>
            match args.finish with
            | some rawEnd =>
                if 'T' ∉ rawEnd then .clarify endClarify
                else
                  match resolveInstant instantFrom ctx.now rawEnd .finish ctx.zone with
                  | none => .clarify endClarify
                  | some finish => checkLength dateParse start (some (.instant finish))
            | none =>
                checkLength dateParse start
                  (durationMinutes.map fun minutes => .instant (addMinutes start minutes))
  | _ =>
      match durationMinutes, ctx.timeZone with
      | none, _ => .clarify durationClarify
      | some _, none => .clarify timeZoneClarify
      | some minutes, some zone =>
          match resolveDay ctx { date := args.date, dayOffset := args.dayOffset } with
          | none => .clarify (dateClarify (args.date.getD []))
          | some day =>
              let start := zonedDayTimeInstant day 9 0 zone
              checkLength dateParse start
                (some ((args.finish.map EntryEnd.given).getD (.instant (addMinutes start minutes))))

end Parsers

/-- The entries that are asked for: those of a user from a start to before an end. -/
structure EntriesQuery where
  userId : String
  start : Instant
  finish : Instant

def EntriesQuery.range (query : EntriesQuery) : Set Int := Set.Ico query.start query.finish

inductive Review
  | clarify (message : String)
  | entries (query : EntriesQuery)

/-- A review of some days from the one that the text names. `user` is who the filter names. -/
def reviewDays (days : Int) (ctx : DateContext) (date : Option (List Char))
    (user : Except String String) : Review :=
  match resolveDay ctx { date := date } with
  | none => .clarify (dateClarify (date.getD []))
  | some day =>
      match user with
      | .error message => .clarify message
      | .ok userId =>
          let start := midnight day
          .entries ⟨userId, start, start + days * msPerDay⟩

/-- `clockify_review_day` -/
def reviewDay : DateContext → Option (List Char) → Except String String → Review := reviewDays 1

/-- `clockify_review_week` -/
def reviewWeek : DateContext → Option (List Char) → Except String String → Review := reviewDays 7

end ClockifyAssistant.EntryTimes
