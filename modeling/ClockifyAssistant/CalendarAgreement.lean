import ClockifyAssistant.Harness.ResolveDates

/-!
Whether the days that texts name tile the time line, and whether a period named as a date has
the edges of the period. The end of a day is its start with a day added on the wall clock, the
start of the next is that day's midnight, and a period named as a date has weeks that start on
Monday.
-/
namespace ClockifyAssistant.ResolveDates

open Lib

section Days

variable {zone : TimeZone} {day : PlainDate}

/-- The clock shows the day's midnight, or the next day's midnight is skipped as well and by
just as much. -/
def DayTiles (zone : TimeZone) (day : PlainDate) : Prop :=
  zone.Shows (midnight day) ∨
    (¬ zone.Shows (midnight (day + 1)) ∧
      zone.resolve (zone.wall (zone.dayStart day) + msPerDay) = zone.dayStart (day + 1))

/-- A day ends where the next one starts exactly where the days tile. -/
theorem dayEdge_tiles :
    dayEdge zone .finish day = dayEdge zone .start (day + 1) - 1 ↔ DayTiles zone day := by
  have hedges : dayEdge zone .finish day = dayEdge zone .start (day + 1) - 1 ↔
      zone.resolve (zone.wall (zone.dayStart day) + msPerDay) = zone.dayStart (day + 1) := by
    simp only [dayEdge, sub_left_inj]
  rw [hedges, DayTiles]
  by_cases hshown : zone.Shows (midnight day)
  · have hwall : zone.wall (zone.dayStart day) = midnight day := TimeZone.shows_iff.mp hshown
    rw [hwall, ← midnight_succ]
    exact ⟨fun _ => Or.inl hshown, fun _ => rfl⟩
  · rw [or_iff_right hshown]
    constructor
    · intro hsame
      refine ⟨fun hnext => ?_, hsame⟩
      have hlate : midnight day < zone.wall (zone.dayStart day) := TimeZone.lt_wall_resolve hshown
      have hwall : zone.wall (zone.dayStart (day + 1)) = midnight (day + 1) :=
        TimeZone.shows_iff.mp hnext
      have hlater := zone.le_wall_resolve (zone.wall (zone.dayStart day) + msPerDay)
      rw [hsame, hwall, midnight_succ] at hlater
      omega
    · intro hnext
      exact hnext.2

end Days

section Periods

variable {instantFrom : List Char → Option Instant} {now : Instant} {zone : TimeZone}
  {weekStartsOn : Int}

/-- The text is no date-time, and it is resolved to the day. -/
structure NamesDay (now : Instant) (zone : TimeZone) (text : List Char) (day : PlainDate) : Prop where
  noTime : ∀ year month date rest, isoDayPrefix (trimText text) ≠ some (year, month, date, 'T' :: rest)
  resolved : resolveRelativeDay now { date := some (trimText text) } zone = some day

/-- Texts of a day and of the day after it. -/
structure NextDays (now : Instant) (zone : TimeZone) where
  day : PlainDate
  text : List Char
  nextText : List Char
  names : NamesDay now zone text day
  namesNext : NamesDay now zone nextText (day + 1)

theorem resolveInstant_day {text : List Char} {day : PlainDate} (h : NamesDay now zone text day)
    (edge : Edge) :
    resolveInstant instantFrom now text edge zone = some (dayEdge zone edge day) := by
  simp only [resolveInstant]
  split
  · rename_i htime
    exact absurd htime (h.noTime _ _ _ _)
  · rw [h.resolved]

def DateRange.at (range : DateRange) : Edge → Instant
  | .start => range.dateRangeStart
  | .finish => range.dateRangeEnd

/-- A keyword is a day where it names one, and else the period in weeks from Monday. -/
theorem resolveInstant_keyword (instantFrom : List Char → Option Instant) (now : Instant)
    (zone : TimeZone) (period : ReportPeriod) (edge : Edge) :
    resolveInstant instantFrom now period.keyword.toList edge zone =
      match period with
      | .today => some (dayEdge zone edge (dayOf (zone.wall now)))
      | .yesterday => some (dayEdge zone edge (addDays (dayOf (zone.wall now)) (-1)))
      | period => some ((resolvePeriod now period zone 1).at edge) := by
  cases period <;> cases edge <;> rfl

/-- What a period needs for its edges to be the same in both readings: a day that tiles for
the days, and for the weeks that a week of the workspace begins when a week from Monday does. -/
def PeriodAgrees (now : Instant) (zone : TimeZone) (weekStartsOn : Int) : ReportPeriod → Prop
  | .today => DayTiles zone (dayOf (zone.wall now))
  | .yesterday => DayTiles zone (addDays (dayOf (zone.wall now)) (-1))
  | .thisWeek => SameStart 0
  | .lastWeek => SameStart (-7) ∧ SameStart 0
  | .nextWeek => SameStart 7 ∧ SameStart 14
  | _ => True
where
  SameStart (days : Int) : Prop :=
    zone.dayStart (weekOf (dayOf (zone.wall now)) weekStartsOn + days) =
      zone.dayStart (weekOf (dayOf (zone.wall now)) 1 + days)

theorem dayEdges_agree {day : PlainDate} :
    (some (dayEdge zone .start day) = some (zone.dayStart day) ∧
      some (dayEdge zone .finish day) = some (zone.dayStart (addDays day 1) - 1)) ↔
      DayTiles zone day := by
  have hstart : dayEdge zone .start day = zone.dayStart day := rfl
  rw [Option.some_inj, Option.some_inj, and_iff_right hstart]
  exact dayEdge_tiles

/-- The range of a week that begins some days from the current one. -/
theorem resolvePeriod_week (now : Instant) (zone : TimeZone) (weekStartsOn : Int) :
    let week := weekOf (dayOf (zone.wall now)) weekStartsOn
    resolvePeriod now .thisWeek zone weekStartsOn = ⟨zone.dayStart (week + 0), now⟩ ∧
      resolvePeriod now .lastWeek zone weekStartsOn =
        ⟨zone.dayStart (week + -7), zone.dayStart (week + 0) - 1⟩ ∧
      resolvePeriod now .nextWeek zone weekStartsOn =
        ⟨zone.dayStart (week + 7), zone.dayStart (week + 14) - 1⟩ := by
  intro week
  have hthis : week + 0 = week := Int.add_zero week
  have hlast : addDays (addDays (addDays week (-7)) 6) 1 = week + 0 := by
    rw [addDays, addDays, addDays, add_assoc, add_assoc]
    rfl
  have hnext : addDays (addDays (addDays week 7) 6) 1 = week + 14 := by
    rw [addDays, addDays, addDays, add_assoc, add_assoc]
    rfl
  refine ⟨?_, ?_, ?_⟩
  · rw [hthis]
    rfl
  · rw [← hlast]
    rfl
  · rw [← hnext]
    rfl

theorem resolveInstant_period (period : ReportPeriod) :
    (resolveInstant instantFrom now period.keyword.toList .start zone =
        some (resolvePeriod now period zone weekStartsOn).dateRangeStart ∧
      resolveInstant instantFrom now period.keyword.toList .finish zone =
        some (resolvePeriod now period zone weekStartsOn).dateRangeEnd) ↔
      PeriodAgrees now zone weekStartsOn period := by
  obtain ⟨hthis, hlast, hnext⟩ := resolvePeriod_week now zone weekStartsOn
  obtain ⟨hthis', hlast', hnext'⟩ := resolvePeriod_week now zone 1
  rw [resolveInstant_keyword, resolveInstant_keyword]
  cases period with
  | today => exact dayEdges_agree
  | yesterday => exact dayEdges_agree
  | thisWeek =>
    simp only [hthis, hthis', DateRange.at, PeriodAgrees, PeriodAgrees.SameStart, Option.some_inj,
      and_true]
    exact eq_comm
  | lastWeek =>
    simp only [hlast, hlast', DateRange.at, PeriodAgrees, PeriodAgrees.SameStart, Option.some_inj,
      sub_left_inj]
    exact and_congr eq_comm eq_comm
  | nextWeek =>
    simp only [hnext, hnext', DateRange.at, PeriodAgrees, PeriodAgrees.SameStart, Option.some_inj,
      sub_left_inj]
    exact and_congr eq_comm eq_comm
  | _ => exact ⟨fun _ => trivial, fun _ => ⟨rfl, rfl⟩⟩

/-- The end of a day is a millisecond before the start of the next one. -/
theorem resolveInstant_tiles (days : NextDays now zone) :
    (∃ instant, resolveInstant instantFrom now days.nextText .start zone = some instant ∧
      resolveInstant instantFrom now days.text .finish zone = some (instant - 1)) ↔
      DayTiles zone days.day := by
  rw [resolveInstant_day days.names, resolveInstant_day days.namesNext, ← dayEdge_tiles]
  constructor
  · rintro ⟨instant, hnext, hend⟩
    rw [Option.some.inj hend, Option.some.inj hnext]
  · intro hedges
    exact ⟨_, rfl, congrArg some hedges⟩

/-- Named days tile and named periods agree exactly where the clock shows the midnights of the
days in question and the weeks of the workspace begin when the weeks from Monday do. -/
theorem calendar_agrees (instantFrom : List Char → Option Instant) (now : Instant)
    (zone : TimeZone) (weekStartsOn : Int) (days : NextDays now zone) (period : ReportPeriod) :
    ((∃ instant, resolveInstant instantFrom now days.nextText .start zone = some instant ∧
        resolveInstant instantFrom now days.text .finish zone = some (instant - 1)) ∧
      resolveInstant instantFrom now period.keyword.toList .start zone =
        some (resolvePeriod now period zone weekStartsOn).dateRangeStart ∧
      resolveInstant instantFrom now period.keyword.toList .finish zone =
        some (resolvePeriod now period zone weekStartsOn).dateRangeEnd) ↔
      DayTiles zone days.day ∧ PeriodAgrees now zone weekStartsOn period := by
  rw [resolveInstant_tiles, resolveInstant_period]

end Periods

section SkippedMidnight

variable {now : Instant} {zone : TimeZone}

/-- São Paulo, where the clock went from midnight to one on the fourth of November 2018. -/
def saoPaulo2018 : TimeZone :=
  .forward 1541300400000 (-10800000) 3600000 (by decide) (by decide)

theorem namesDay_of_date {text year month date : List Char} {day : PlainDate}
    (htrimmed : isoDayPrefix (trimText text) = some (year, month, date, []))
    (hraw : isoDayPrefix (lowerText (trimText (trimText text))) = some (year, month, date, []))
    (hreal : realDay year month date = some day) : NamesDay now zone text day where
  noTime := by
    intro year' month' date' rest htime
    rw [htrimmed] at htime
    simp at htime
  resolved := resolveRelativeDay_date hraw hreal

def fourthOfNovember : NextDays 1541246400000 saoPaulo2018 where
  day := PlainDate.ofCivil 2018 11 4
  text := "2018-11-04".toList
  nextText := "2018-11-05".toList
  names := namesDay_of_date (by decide : _ = some ("2018".toList, "11".toList, "04".toList, []))
    (by decide) (by decide)
  namesNext := namesDay_of_date (by decide : _ = some ("2018".toList, "11".toList, "05".toList, []))
    (by decide) (by decide)

/-- The day that has no midnight ends an hour into the next one. -/
theorem skipped_midnight_overlaps : ¬ ∀ (instantFrom : List Char → Option Instant) (now : Instant)
    (zone : TimeZone) (weekStartsOn : Int) (days : NextDays now zone) (period : ReportPeriod),
    (∃ instant, resolveInstant instantFrom now days.nextText .start zone = some instant ∧
        resolveInstant instantFrom now days.text .finish zone = some (instant - 1)) ∧
      resolveInstant instantFrom now period.keyword.toList .start zone =
        some (resolvePeriod now period zone weekStartsOn).dateRangeStart ∧
      resolveInstant instantFrom now period.keyword.toList .finish zone =
        some (resolvePeriod now period zone weekStartsOn).dateRangeEnd := by
  intro hall
  obtain ⟨⟨instant, hnext, hend⟩, -⟩ :=
    hall (fun _ => none) 1541246400000 saoPaulo2018 1 fourthOfNovember .thisMonth
  rw [resolveInstant_day fourthOfNovember.namesNext] at hnext
  rw [resolveInstant_day fourthOfNovember.names, ← Option.some.inj hnext] at hend
  exact absurd hend (by decide)

end SkippedMidnight

end ClockifyAssistant.ResolveDates
