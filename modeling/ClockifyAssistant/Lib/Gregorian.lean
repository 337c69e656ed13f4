import ClockifyAssistant.Lib.LocalTime

/-!
The proleptic Gregorian calendar: years, months and days of a day number, and the arithmetic
of months that keeps within the month it arrives in.
-/
namespace ClockifyAssistant.Lib

structure CivilDate where
  year : Int
  month : Int
  day : Int
  deriving DecidableEq, Repr

namespace PlainDate

/-- The day number of a civil date. -/
def ofCivil (year month day : Int) : PlainDate :=
  -- a year from March to February, so that a leap day is the last day of one
  let marchYear := if month ≤ 2 then year - 1 else year
  let era := marchYear / 400
  let yearOfEra := marchYear - era * 400
  let dayOfYear := (153 * (if month ≤ 2 then month + 9 else month - 3) + 2) / 5 + day - 1
  let dayOfEra := yearOfEra * 365 + yearOfEra / 4 - yearOfEra / 100 + dayOfYear
  era * 146097 + dayOfEra - 719468

def civil (date : PlainDate) : CivilDate :=
  let shifted := date + 719468
  let era := shifted / 146097
  let dayOfEra := shifted - era * 146097
  let yearOfEra := (dayOfEra - dayOfEra / 1460 + dayOfEra / 36524 - dayOfEra / 146096) / 365
  let dayOfYear := dayOfEra - (365 * yearOfEra + yearOfEra / 4 - yearOfEra / 100)
  let marchMonth := (5 * dayOfYear + 2) / 153
  let month := if marchMonth < 10 then marchMonth + 3 else marchMonth - 9
  { year := yearOfEra + era * 400 + (if month ≤ 2 then 1 else 0)
    month := month
    day := dayOfYear - (153 * marchMonth + 2) / 5 + 1 }

def year (date : PlainDate) : Int := (civil date).year

def month (date : PlainDate) : Int := (civil date).month

/-- Monday is the first day of a week, and it is 1. -/
def dayOfWeek (date : PlainDate) : Int := (date + 3) % 7 + 1

def isLeap (year : Int) : Bool := year % 4 == 0 && (year % 100 != 0 || year % 400 == 0)

def daysInMonth (year month : Int) : Int :=
  if month = 2 then (if isLeap year then 29 else 28)
  else if month = 4 ∨ month = 6 ∨ month = 9 ∨ month = 11 then 30
  else 31

def isCivil (year month day : Int) : Bool :=
  1 ≤ month && month ≤ 12 && 1 ≤ day && day ≤ daysInMonth year month

def addMonths (months : Int) (date : PlainDate) : PlainDate :=
  let start := civil date
  let count := start.year * 12 + (start.month - 1) + months
  let year := count / 12
  let month := count % 12 + 1
  ofCivil year month (min start.day (daysInMonth year month))

def addYears (years : Int) (date : PlainDate) : PlainDate := addMonths (years * 12) date

def monthStart (date : PlainDate) : PlainDate := ofCivil (year date) (month date) 1

def monthEnd (date : PlainDate) : PlainDate :=
  ofCivil (year date) (month date) (daysInMonth (year date) (month date))

def yearStart (date : PlainDate) : PlainDate := ofCivil (year date) 1 1

def yearEnd (date : PlainDate) : PlainDate := ofCivil (year date) 12 31

end PlainDate

end ClockifyAssistant.Lib
