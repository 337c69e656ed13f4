import ClockifyAssistant.Harness.EntryTimes
import Mathlib.Tactic.NormNum

/-!
Whether the entries that a review asks for are those of the local days it names. The day is
named in the zone of the administrator, and its window is the day of UTC with that date.
-/
namespace ClockifyAssistant.EntryTimes

open Lib ResolveDates

/-- The instants of consecutive local days. -/
def localDays (zone : TimeZone) (day : PlainDate) (days : Nat) : Set Int :=
  ⋃ i < days, zone.localDay (day + (i : Nat))

/-- Reviews cover the local days they name, an instant lies in the review of one day, and an
entry that is logged for a day lies in that day's review. -/
structure ReviewsLocalDays (instantFrom dateParse : List Char → Option Instant) (now : Instant)
    (zone : TimeZone) (date : Option (List Char)) (userId : String) (named : PlainDate) : Prop where
  day : ∃ query, reviewDay ⟨now, some zone⟩ date (.ok userId) = .entries query ∧
    query.range = zone.localDay named
  week : ∃ query, reviewWeek ⟨now, some zone⟩ date (.ok userId) = .entries query ∧
    query.range = localDays zone named 7
  once : ∀ instant, ∃! other, instant ∈ Set.Ico (midnight other) (midnight other + msPerDay)
  logged : ∀ args start finish, args.date = date → args.start = none → args.dayOffset = none →
    resolveLogTimes instantFrom dateParse ⟨now, some zone⟩ args = .ok start finish →
      ∃ query, reviewDay ⟨now, some zone⟩ date (.ok userId) = .entries query ∧ start ∈ query.range

/-- The day, the next one and the day a week later begin at midnight of UTC, and nine o'clock
of the day lies in it. -/
structure DaysOfUtc (zone : TimeZone) (day : PlainDate) : Prop where
  start : zone.dayStart day = midnight day
  next : zone.dayStart (day + 1) = midnight (day + 1)
  week : zone.dayStart (day + 7) = midnight (day + 7)
  nine : zonedDayTimeInstant day 9 0 zone ∈ zone.localDay day

section Windows

variable {instantFrom dateParse : List Char → Option Instant} {now : Instant} {zone : TimeZone}
  {date : Option (List Char)} {userId : String} {day : PlainDate}

theorem midnight_add (day : PlainDate) (days : Int) :
    midnight (day + days) = midnight day + days * msPerDay := by
  rw [midnight, midnight, add_mul]

theorem existsUnique_day (instant : Int) :
    ∃! other, instant ∈ Set.Ico (midnight other) (midnight other + msPerDay) := by
  refine ⟨dayOf instant, ?_, ?_⟩
  · simp only [Set.mem_Ico, midnight, dayOf, msPerDay]
    omega
  · intro other hother
    simp only [Set.mem_Ico, midnight, msPerDay] at hother
    have hday : instant / 86400000 = other := by omega
    exact hday.symm

theorem reviewDays_eq (hday : resolveDay ⟨now, some zone⟩ { date := date } = some day)
    (days : Int) :
    reviewDays days ⟨now, some zone⟩ date (.ok userId) =
      .entries ⟨userId, midnight day, midnight (day + days)⟩ := by
  rw [reviewDays, hday, midnight_add]

/-- A window of some days is the local days exactly where the first of them and the one after
the last begin at midnight of UTC. -/
theorem reviewDays_range {days : Nat} (hpos : 0 < days) :
    Set.Ico (midnight day) (midnight (day + days)) = localDays zone day days ↔
      zone.dayStart day = midnight day ∧ zone.dayStart (day + days) = midnight (day + days) := by
  have hlt : midnight day < midnight (day + days) := by
    rw [midnight_add]
    simp only [msPerDay]
    omega
  rw [localDays, TimeZone.iUnion_localDay, Set.Ico_eq_Ico_iff (Or.inl hlt)]
  exact and_congr eq_comm eq_comm

theorem reviewDay_range : Set.Ico (midnight day) (midnight (day + 1)) = zone.localDay day ↔
      zone.dayStart day = midnight day ∧ zone.dayStart (day + 1) = midnight (day + 1) := by
  have hone := @reviewDays_range zone day 1 Nat.one_pos
  have hday : localDays zone day 1 = zone.localDay day := by simp [localDays]
  rwa [hday] at hone

/-- An entry that is logged for a day without a start begins at nine. -/
theorem resolveLogTimes_start {args : LogTimesArgs} {start : Instant} {finish : Option EntryEnd}
    (hday : resolveDay ⟨now, some zone⟩ { date := args.date } = some day)
    (hstart : args.start = none) (hoffset : args.dayOffset = none)
    (h : resolveLogTimes instantFrom dateParse ⟨now, some zone⟩ args = .ok start finish) :
    start = zonedDayTimeInstant day 9 0 zone := by
  simp only [resolveLogTimes, hstart, hoffset, hday] at h
  split at h
  · exact absurd h nofun
  · rename_i hzone
    exact absurd hzone nofun
  · rename_i minutes other hduration hzone
    obtain rfl := Option.some.inj hzone
    unfold checkLength at h
    split at h
    · split at h
      · exact absurd h nofun
      · exact (LogTimes.ok.inj h).1.symm
    · exact (LogTimes.ok.inj h).1.symm

theorem resolveLogTimes_hour (hday : resolveDay ⟨now, some zone⟩ { date := date } = some day) :
    ∃ finish, resolveLogTimes instantFrom dateParse ⟨now, some zone⟩
      { date := date, durationMinutes := some 60 } =
        .ok (zonedDayTimeInstant day 9 0 zone) finish := by
  have hlater : addMinutes (zonedDayTimeInstant day 9 0 zone) 60 =
      zonedDayTimeInstant day 9 0 zone + 3600000 := by
    have hmoved : ((zonedDayTimeInstant day 9 0 zone : Rat) + 60 * 60000) =
        ((zonedDayTimeInstant day 9 0 zone + 3600000 : Int) : Rat) := by
      push_cast
      norm_num
    simp only [addMinutes, hmoved, Rat.num_intCast, Rat.den_intCast]
    exact Int.tdiv_one _
  refine ⟨some (.instant (zonedDayTimeInstant day 9 0 zone + 3600000)), ?_⟩
  simp only [resolveLogTimes, hday, Option.some_or, Option.map_none, Option.getD_none, hlater,
    checkLength, Option.bind_some, EntryEnd.parsed]
  rw [if_neg (not_le.mpr (lt_add_of_pos_right _ (by decide)))]

/-- Reviews cover the local days that they name exactly where those are days of UTC. -/
theorem reviews_localDays (instantFrom dateParse : List Char → Option Instant) (now : Instant)
    (zone : TimeZone) (date : Option (List Char)) (userId : String) (day : PlainDate)
    (hday : resolveDay ⟨now, some zone⟩ { date := date } = some day) :
    ReviewsLocalDays instantFrom dateParse now zone date userId day ↔ DaysOfUtc zone day := by
  have hreview := @reviewDays_eq now zone date userId day hday 1
  have hweek := @reviewDays_eq now zone date userId day hday 7
  constructor
  · intro h
    obtain ⟨query, hquery, hrange⟩ := h.day
    obtain rfl := Review.entries.inj (hreview.symm.trans hquery)
    obtain ⟨query, hquery, hrangeWeek⟩ := h.week
    obtain rfl := Review.entries.inj (hweek.symm.trans hquery)
    obtain ⟨hstart, hnext⟩ := reviewDay_range.mp hrange
    have hseven := (@reviewDays_range zone day 7 (by decide)).mp hrangeWeek
    obtain ⟨finish, hlogged⟩ :=
      @resolveLogTimes_hour instantFrom dateParse now zone date day hday
    obtain ⟨query, hquery, hnine⟩ := h.logged _ _ finish rfl rfl rfl hlogged
    obtain rfl := Review.entries.inj (hreview.symm.trans hquery)
    exact ⟨hstart, hnext, hseven.2, hrange ▸ hnine⟩
  · intro h
    have hrange := reviewDay_range.mpr ⟨h.start, h.next⟩
    refine ⟨⟨_, hreview, hrange⟩, ⟨_, hweek, ?_⟩, existsUnique_day, ?_⟩
    · exact (@reviewDays_range zone day 7 (by decide)).mpr ⟨h.start, h.week⟩
    · rintro args start finish rfl hstart hoffset hlogged
      have hnine := resolveLogTimes_start hday hstart hoffset hlogged
      refine ⟨_, hreview, ?_⟩
      rw [hnine, EntriesQuery.range, hrange]
      exact h.nine

end Windows

section Auckland

/-- Auckland in its summer. -/
def auckland : TimeZone := .fixed 46800000

def fifteenth : Option (List Char) := some "2026-01-15".toList

theorem resolveDay_fifteenth (zone : TimeZone) :
    resolveDay ⟨1768471200000, some zone⟩ { date := fifteenth } =
      some (PlainDate.ofCivil 2026 1 15) := by
  have hdate : isoDayPrefix (lowerText (trimText "2026-01-15".toList)) =
      some ("2026".toList, "01".toList, "15".toList, []) := by decide
  exact resolveRelativeDay_date hdate (by decide)

theorem reviews_localDays_fifteenth :
    resolveDay ⟨1768471200000, some (.fixed 0)⟩ { date := fifteenth } =
        some (PlainDate.ofCivil 2026 1 15) ∧
      (ReviewsLocalDays (fun _ => none) (fun _ => none) 1768471200000 (.fixed 0) fifteenth "u1"
          (PlainDate.ofCivil 2026 1 15) ↔
        DaysOfUtc (.fixed 0) (PlainDate.ofCivil 2026 1 15)) :=
  ⟨resolveDay_fifteenth _, reviews_localDays _ _ _ _ _ _ _ (resolveDay_fifteenth _)⟩

/-- The day in Auckland begins thirteen hours before the window of its review. -/
theorem auckland_review_misses : ¬ ∀ (instantFrom dateParse : List Char → Option Instant)
    (now : Instant) (zone : TimeZone) (date : Option (List Char)) (userId : String)
    (day : PlainDate), resolveDay ⟨now, some zone⟩ { date := date } = some day →
      ReviewsLocalDays instantFrom dateParse now zone date userId day := by
  intro hall
  obtain ⟨query, hquery, hrange⟩ := (hall (fun _ => none) (fun _ => none) 1768471200000 auckland
    fifteenth "u1" _ (resolveDay_fifteenth auckland)).day
  obtain rfl := Review.entries.inj
    ((reviewDays_eq (resolveDay_fifteenth auckland) 1).symm.trans hquery)
  have hstart := (reviewDay_range.mp hrange).1
  exact absurd hstart (by decide)

end Auckland

end ClockifyAssistant.EntryTimes
