import Mathlib.Data.Rat.Floor
import ClockifyAssistant.Harness.ResolveDates

/-!
The request for days off, as its preview states it and as it is sent. A day is its number, and a
number of days a rational.
-/
namespace ClockifyAssistant

open Lib ResolveDates

namespace TimeOff

/-- Sat/Sun are not workdays. -/
def isWorkday (day : Int) : Bool :=
  PlainDate.dayOfWeek day % 7 != 0 && PlainDate.dayOfWeek day % 7 != 6

/-- The loop of `nextWorkday`, for as many turns as a weekend has days. -/
def nextWorkdayIn : Nat → Int → Int
  | 0, day => day
  | turns + 1, day => if isWorkday day then day else nextWorkdayIn turns (day + 1)

def nextWorkday (day : Int) : Int := nextWorkdayIn 2 day

def addWorkdays (day : Int) : Nat → Int
  | 0 => day
  | extra + 1 => nextWorkday (addWorkdays day extra + 1)

inductive RequestWeek
  | thisWeek
  | nextWeek
  deriving DecidableEq

def RequestWeek.period : RequestWeek → ReportPeriod
  | .thisWeek => .thisWeek
  | .nextWeek => .nextWeek

structure TimeOffRequestArgs where
  start : Option (List Char) := none
  finish : Option (List Char) := none
  week : Option RequestWeek := none
  days : Option Rat := none
  halfDay : Option Bool := none

inductive DayRef
  | text (date : Option (List Char))
  | exact (day : Int)

structure TimeOffInput where
  start : Int
  finish : Int
  days : Option Rat
  halfDay : Option Bool

inductive TimeOffClarification
  | noWorkdaysLeft
  | unresolvedDate
  | startAfterEnd

structure DayCount where
  days : Option Rat
  halfDay : Bool
  deriving DecidableEq

structure TimeOffPreview where
  input : TimeOffInput
  requestedDays : Rat

section Requests

variable (now : Instant) (timeZone : TimeZone) (weekStartsOn : Int) (args : TimeOffRequestArgs)

/-- `Math.max(1, Math.round(args.days ?? 1))` -/
def dayCount : Nat :=
  let rounded := Rat.floor (args.days.getD 1 + 1 / 2)
  if rounded < 1 then 1 else rounded.toNat

def monday (week : RequestWeek) : Int :=
  dayOf (resolvePeriod now week.period timeZone weekStartsOn).dateRangeStart

def searchedFrom (week : RequestWeek) : Int :=
  let monday := monday now timeZone weekStartsOn week
  let today : Int := dayOf (timeZone.wall now)
  if week = .thisWeek ∧ today > monday then today else monday

def weekRefs (week : RequestWeek) : Except TimeOffClarification (DayRef × DayRef) :=
  let anchor := nextWorkday (searchedFrom now timeZone weekStartsOn week)
  if week = .thisWeek ∧ anchor > monday now timeZone weekStartsOn week + 6 then .error .noWorkdaysLeft
  else .ok (.exact anchor, .exact (addWorkdays anchor (dayCount args - 1)))

def requestRefs : Except TimeOffClarification (DayRef × DayRef) :=
  match args.week with
  | some week =>
      if args.start = none ∨ args.finish = none then weekRefs now timeZone weekStartsOn args week
      else .ok (.text args.start, .text args.finish)
  | none => .ok (.text args.start, .text args.finish)

def DayRef.resolve : DayRef → Option Int
  | .text date => resolveRelativeDay now { date } timeZone
  | .exact day => some day

def previewRequest : Except TimeOffClarification TimeOffPreview := do
  let (startRef, endRef) ← requestRefs now timeZone weekStartsOn args
  match startRef.resolve now timeZone, endRef.resolve now timeZone with
  | some start, some finish =>
      if start > finish then .error .startAfterEnd
      else return {
        input := { start, finish, days := args.days, halfDay := args.halfDay }
        requestedDays :=
          args.days.getD (if args.halfDay = some true then 1 / 2 else ((finish - start + 1 : Int) : Rat)) }
  | _, _ => .error .unresolvedDate

end Requests

/-- `dayCountLabel`: a half day, or the number of days. -/
def TimeOffPreview.shown (preview : TimeOffPreview) : DayCount :=
  if preview.input.halfDay = some true then ⟨some (1 / 2), true⟩
  else ⟨some preview.requestedDays, false⟩

def inclusiveDays (start finish : Int) : Option Rat :=
  if finish < start then none else some ((finish - start + 1 : Int) : Rat)

/-- The period's days and the half day of the body that `createRequestAtomic` sends. -/
def createRequestAtomic (input : TimeOffInput) : DayCount where
  days := input.days.or (inclusiveDays input.start input.finish)
  halfDay := input.halfDay.getD false

end TimeOff

end ClockifyAssistant
