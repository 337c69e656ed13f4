import ClockifyAssistant.Lib.Gregorian
import ClockifyAssistant.Lib.JsonText

/-!
Dates and periods that a model names in words, resolved against the clock of the server. A
day is the date that its text names, an instant the millisecond that its text names.
-/
namespace ClockifyAssistant

open Lib

abbrev Instant := Int

namespace ResolveDates

/-- `text.toLowerCase()`, as far as it makes ASCII letters. -/
def lowerChar (c : Char) : Char := if c.toNat = 0x212a then 'k' else c.toLower

def lowerText (text : List Char) : List Char := text.map lowerChar

def words (text : List Char) : List (List Char) :=
  (text.splitOnP isTrimmed).filter fun word => !word.isEmpty

def isLetter (c : Char) : Bool := 'a' ≤ c && c ≤ 'z'

def digits (word : List Char) : Int :=
  word.foldl (fun n c => n * 10 + ((c.toNat : Int) - 48)) 0

/-- `/^\d{4}-\d{2}-\d{2}/` -/
def isoDayPrefix : List Char → Option (List Char × List Char × List Char × List Char)
  | a :: b :: c :: d :: '-' :: e :: f :: '-' :: g :: h :: rest =>
      if [a, b, c, d, e, f, g, h].all Char.isDigit then some ([a, b, c, d], [e, f], [g, h], rest)
      else none
  | _ => none

/-- The day of `YYYY-MM-DD`, unless it is a day that does not exist. -/
def realDay (year month day : List Char) : Option PlainDate :=
  if PlainDate.isCivil (digits year) (digits month) (digits day) then
    some (PlainDate.ofCivil (digits year) (digits month) (digits day))
  else none

def addDays (day : PlainDate) (days : Int) : PlainDate := day + days

def weekdays : List (List Char) :=
  ["sunday", "monday", "tuesday", "wednesday", "thursday", "friday", "saturday"].map String.toList

def months : List (List Char) :=
  ["january", "february", "march", "april", "may", "june", "july", "august", "september",
    "october", "november", "december"].map String.toList

/-- `Date.UTC(year, ..)` takes a year below 100 for one of the twentieth century. -/
def utcYear (year : Int) : Int := if 0 ≤ year ∧ year ≤ 99 then 1900 + year else year

/-- A day past the month's last is none, and so is one whose year does not have four digits. -/
def buildDay (year : Int) (monthIndex : Nat) (day : Int) : Option PlainDate :=
  if utcYear year = year ∧ 0 ≤ year ∧ year ≤ 9999 ∧ PlainDate.isCivil year (monthIndex + 1) day then
    some (PlainDate.ofCivil year (monthIndex + 1) day)
  else none

/-- `[a-z]+\.?` -/
def monthWord (word : List Char) : Option (List Char) :=
  let letters := if word.getLast? = some '.' then word.dropLast else word
  if !letters.isEmpty && letters.all isLetter then some letters else none

/-- `\d{1,2}(?:st|nd|rd|th)?` -/
def dayNumber (word : List Char) : Option Int :=
  let number := word.takeWhile Char.isDigit
  let ending := word.dropWhile Char.isDigit
  if (number.length = 1 ∨ number.length = 2) ∧
      ending ∈ ["", "st", "nd", "rd", "th"].map String.toList then
    some (digits number)
  else none

def parseMonthNameDay (year : Int) (raw : List Char) : Option PlainDate :=
  let named : Option (List Char × Int) :=
    match words raw with
    | [first, second] =>
        match monthWord first, dayNumber second with
        | some word, some day => some (word, day)
        | _, _ =>
            match dayNumber first, monthWord second with
            | some day, some word => some (word, day)
            | _, _ => none
    | _ => none
  named.bind fun (word, day) =>
    (months.findIdx? fun name => word.isPrefixOf name).bind fun monthIndex =>
      if word.length < 3 then none else buildDay year monthIndex day

inductive CalendarUnit
  | month
  | year

/-- `(month|year)` -/
def calendarUnit : List Char → Option CalendarUnit
  | ['m', 'o', 'n', 't', 'h'] => some .month
  | ['y', 'e', 'a', 'r'] => some .year
  | _ => none

def dropWord (allowed : List String) : List (List Char) → List (List Char)
  | word :: rest => if word ∈ allowed.map String.toList then rest else word :: rest
  | [] => []

/-- `first day of this month` and its relatives -/
def parseCalendarBoundary (today : PlainDate) (raw : List Char) : Option PlainDate :=
  match dropWord ["the"] (words raw) with
  | edge :: rest =>
      if edge ∈ ["first", "1st", "start", "beginning", "last", "end"].map String.toList then
        match dropWord ["day"] rest with
        | ['o', 'f'] :: rest =>
            match dropWord ["the", "this", "current", "last", "previous", "next"] rest with
            | [unit] =>
                (calendarUnit unit).map fun unit =>
                  let wantsEnd := edge = "last".toList ∨ edge = "end".toList
                  let shift : Int :=
                    if rest.length = 1 then 0
                    else if rest.head? = some "last".toList ∨ rest.head? = some "previous".toList then -1
                    else if rest.head? = some "next".toList then 1
                    else 0
                  match unit with
                  | .month =>
                      let base := PlainDate.addMonths shift (PlainDate.monthStart today)
                      if wantsEnd then PlainDate.monthEnd base else base
                  | .year =>
                      let base := PlainDate.addYears shift (PlainDate.yearStart today)
                      if wantsEnd then PlainDate.yearEnd base else base
            | _ => none
        | _ => none
      else none
  | [] => none

structure DayArgs where
  date : Option (List Char) := none
  dayOffset : Option Int := none

/-- `remainder || 7` for a remainder by seven -/
def orWeek (days : Int) : Int := if days = 0 then 7 else days

/-- A weekday, alone or after `this`, `next`, `last` or `previous`. -/
def parseWeekday (today : PlainDate) (raw : List Char) : Option PlainDate :=
  let named : Option (Option (List Char) × List Char) :=
    match words raw with
    | [name] => some (none, name)
    | [qualifier, name] =>
        if qualifier ∈ ["this", "next", "last", "previous"].map String.toList then
          some (some qualifier, name)
        else none
    | _ => none
  named.bind fun (qualifier, name) =>
    (weekdays.findIdx? fun weekday => weekday = name).map fun target =>
      let current := PlainDate.dayOfWeek today % 7
      if qualifier = some "last".toList ∨ qualifier = some "previous".toList then
        addDays today (-(orWeek ((current - target + 7) % 7)))
      else
        let ahead := (target - current + 7) % 7
        addDays today (if qualifier = some "next".toList then orWeek ahead else ahead)

def resolveRelativeDay (now : Instant) (args : DayArgs) (timeZone : TimeZone) : Option PlainDate :=
  let today := dayOf (timeZone.wall now)
  match args.dayOffset with
  | some offset => some (addDays today offset)
  | none =>
      let raw := lowerText (trimText (args.date.getD []))
      if raw = [] then some today
      else
        match isoDayPrefix raw with
        | some (year, month, day, _) => realDay year month day
        | none =>
            if raw = "today".toList ∨ raw = "now".toList then some today
            else if raw = "yesterday".toList then some (addDays today (-1))
            else if raw = "tomorrow".toList then some (addDays today 1)
            else
              (parseWeekday today raw).orElse fun _ =>
              (parseCalendarBoundary today raw).orElse fun _ =>
                parseMonthNameDay (utcYear (PlainDate.year today)) raw

theorem resolveRelativeDay_date {now : Instant} {timeZone : TimeZone}
    {text year month date rest : List Char} {day : PlainDate}
    (hdate : isoDayPrefix (lowerText (trimText text)) = some (year, month, date, rest))
    (hreal : realDay year month date = some day) :
    resolveRelativeDay now { date := some text } timeZone = some day := by
  have hne : lowerText (trimText text) ≠ [] := by
    intro hnil
    rw [hnil] at hdate
    exact absurd hdate nofun
  simp only [resolveRelativeDay, Option.getD_some, if_neg hne, hdate, hreal]

inductive ReportPeriod
  | today
  | yesterday
  | thisWeek
  | lastWeek
  | thisMonth
  | lastMonth
  | last7Days
  | last30Days
  | thisQuarter
  | lastQuarter
  | thisYear
  | lastYear
  | nextWeek
  | nextMonth
  | nextQuarter
  | nextYear
  deriving DecidableEq, Repr

namespace ReportPeriod

def keyword : ReportPeriod → String
  | today => "today"
  | yesterday => "yesterday"
  | thisWeek => "this_week"
  | lastWeek => "last_week"
  | thisMonth => "this_month"
  | lastMonth => "last_month"
  | last7Days => "last_7_days"
  | last30Days => "last_30_days"
  | thisQuarter => "this_quarter"
  | lastQuarter => "last_quarter"
  | thisYear => "this_year"
  | lastYear => "last_year"
  | nextWeek => "next_week"
  | nextMonth => "next_month"
  | nextQuarter => "next_quarter"
  | nextYear => "next_year"

end ReportPeriod

open ReportPeriod in
/-- `REPORT_PERIODS` -/
def reportPeriods : List ReportPeriod :=
  [today, yesterday, thisWeek, lastWeek, thisMonth, lastMonth, last7Days, last30Days, thisQuarter,
    lastQuarter, thisYear, lastYear, nextWeek, nextMonth, nextQuarter, nextYear]

structure DateRange where
  dateRangeStart : Instant
  dateRangeEnd : Instant
  deriving DecidableEq, Repr

def weekOf (today : PlainDate) (weekStartsOn : Int) : PlainDate :=
  addDays today (-(Int.tmod (PlainDate.dayOfWeek today - weekStartsOn + 7) 7))

def quarterStart (today : PlainDate) : PlainDate :=
  PlainDate.ofCivil (PlainDate.year today) ((PlainDate.month today - 1) / 3 * 3 + 1) 1

def resolvePeriod (now : Instant) (period : ReportPeriod) (timeZone : TimeZone)
    (weekStartsOn : Int) : DateRange :=
  let today := dayOf (timeZone.wall now)
  let start (day : PlainDate) : Instant := timeZone.dayStart day
  let finish (day : PlainDate) : Instant := timeZone.dayStart (addDays day 1) - 1
  let thisWeek := weekOf today weekStartsOn
  let monthStart := PlainDate.monthStart today
  let quarterStart := quarterStart today
  let yearStart := PlainDate.yearStart today
  match period with
  | .today => ⟨start today, finish today⟩
  | .yesterday => ⟨start (addDays today (-1)), finish (addDays today (-1))⟩
  | .thisWeek => ⟨start thisWeek, now⟩
  | .lastWeek => ⟨start (addDays thisWeek (-7)), finish (addDays (addDays thisWeek (-7)) 6)⟩
  | .nextWeek => ⟨start (addDays thisWeek 7), finish (addDays (addDays thisWeek 7) 6)⟩
  | .thisMonth => ⟨start monthStart, now⟩
  | .lastMonth => ⟨start (PlainDate.addMonths (-1) monthStart), finish (addDays monthStart (-1))⟩
  | .nextMonth =>
      let first := PlainDate.addMonths 1 monthStart
      ⟨start first, finish (addDays (PlainDate.addMonths 1 first) (-1))⟩
  | .last7Days => ⟨start (addDays today (-7)), now⟩
  | .last30Days => ⟨start (addDays today (-30)), now⟩
  | .thisQuarter => ⟨start quarterStart, now⟩
  | .lastQuarter =>
      ⟨start (PlainDate.addMonths (-3) quarterStart), finish (addDays quarterStart (-1))⟩
  | .nextQuarter =>
      let first := PlainDate.addMonths 3 quarterStart
      ⟨start first, finish (addDays (PlainDate.addMonths 3 first) (-1))⟩
  | .thisYear => ⟨start yearStart, now⟩
  | .lastYear => ⟨start (PlainDate.addYears (-1) yearStart), finish (addDays yearStart (-1))⟩
  | .nextYear =>
      let first := PlainDate.addYears 1 yearStart
      ⟨start first, finish (addDays (PlainDate.addYears 1 first) (-1))⟩

inductive Edge
  | start
  | finish
  deriving DecidableEq, Repr

/-- `/([zZ]|[+-]\d{2}:?\d{2})$/` -/
def endsWithOffset (text : List Char) : Bool :=
  match text.reverse with
  | 'z' :: _ => true
  | 'Z' :: _ => true
  | a :: b :: ':' :: c :: d :: sign :: _ =>
      [a, b, c, d].all Char.isDigit && (sign == '+' || sign == '-')
  | a :: b :: c :: d :: sign :: _ => [a, b, c, d].all Char.isDigit && (sign == '+' || sign == '-')
  | _ => false

/-- `/[\s-]+/g` replaced by an underscore -/
def underscored : List Char → List Char
  | [] => []
  | c :: rest =>
      if isTrimmed c || c == '-' then
        match rest with
        | next :: _ => if isTrimmed next || next == '-' then underscored rest else '_' :: underscored rest
        | [] => ['_']
      else c :: underscored rest

/-- The end of a day: the zoned start with a day added on the wall clock. -/
def dayEdge (timeZone : TimeZone) (edge : Edge) (day : PlainDate) : Instant :=
  let start := timeZone.dayStart day
  match edge with
  | .start => start
  | .finish => timeZone.resolve (timeZone.wall start + msPerDay) - 1

/-- `instantFrom` parses a date-time that has an offset. -/
def resolveInstant (instantFrom : List Char → Option Instant) (now : Instant) (raw : List Char)
    (edge : Edge) (timeZone : TimeZone) : Option Instant :=
  let trimmed := trimText raw
  match isoDayPrefix trimmed with
  | some (_, _, _, 'T' :: _) => if endsWithOffset trimmed then instantFrom trimmed else none
  | _ =>
      match resolveRelativeDay now { date := some trimmed } timeZone with
      | some day => some (dayEdge timeZone edge day)
      | none =>
          let periodKey := underscored (lowerText trimmed)
          (reportPeriods.find? fun period => period.keyword.toList = periodKey).map fun period =>
            let range := resolvePeriod now period timeZone 1
            match edge with
            | .start => range.dateRangeStart
            | .finish => range.dateRangeEnd

def zonedDayTimeInstant (day : PlainDate) (hour minute : Int) (timeZone : TimeZone) : Instant :=
  timeZone.resolve (midnight day + (hour * 60 + minute) * 60000)

end ResolveDates

end ClockifyAssistant
