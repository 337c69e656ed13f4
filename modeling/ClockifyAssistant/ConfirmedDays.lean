import Mathlib.Data.Set.Card
import ClockifyAssistant.Lib.Checked
import ClockifyAssistant.Harness.TimeOffRequests

/-!
Whether the days off that a preview shows are those that are sent, and whether the days of a named
week are that week's. A half day is sent with the days of its range, and the week's first day is
read from the date in UTC of a local midnight.
-/
namespace ClockifyAssistant

open Lib ResolveDates

namespace TimeOff

section Workdays

variable {day : Int}

theorem isWorkday_iff : isWorkday day = true ↔ (day + 3) % 7 ≤ 4 := by
  have hweek : 0 ≤ (day + 3) % 7 ∧ (day + 3) % 7 < 7 := by omega
  simp only [isWorkday, PlainDate.dayOfWeek, Bool.and_eq_true, bne_iff_ne]
  generalize (day + 3) % 7 = weekday at hweek ⊢
  omega

/-- The first workday from a day on. -/
structure FirstWorkday (day first : Int) : Prop where
  workday : isWorkday first = true
  from_day : day ≤ first
  earliest : ∀ between, day ≤ between → between < first → isWorkday between = false

theorem firstWorkday_nextWorkday (day : Int) : FirstWorkday day (nextWorkday day) := by
  simp only [nextWorkday, nextWorkdayIn]
  by_cases hday : isWorkday day = true
  · rw [if_pos hday]
    exact ⟨hday, le_refl _, fun between hlow hhigh => absurd hhigh (not_lt.mpr hlow)⟩
  · rw [if_neg hday]
    have hfirst := Bool.eq_false_iff.mpr hday
    by_cases hnext : isWorkday (day + 1) = true
    · rw [if_pos hnext]
      refine ⟨hnext, by omega, fun between hlow hhigh => ?_⟩
      obtain rfl : between = day := by omega
      exact hfirst
    · rw [if_neg hnext]
      refine ⟨?_, by omega, fun between hlow hhigh => ?_⟩
      · rw [isWorkday_iff] at hday hnext ⊢
        omega
      · obtain rfl | rfl : between = day ∨ between = day + 1 := by omega
        · exact hfirst
        · exact Bool.eq_false_iff.mpr hnext

theorem FirstWorkday.eq {first first' : Int} (h : FirstWorkday day first)
    (h' : FirstWorkday day first') : first = first' := by
  refine le_antisymm (not_lt.mp fun hlt => ?_) (not_lt.mp fun hlt => ?_)
  · exact absurd h'.workday (Bool.eq_false_iff.mp (h.earliest first' h'.from_day hlt))
  · exact absurd h.workday (Bool.eq_false_iff.mp (h'.earliest first h.from_day hlt))

theorem nextWorkday_le (day : Int) : nextWorkday day ≤ day + 2 := by
  by_contra hlate
  have h := (firstWorkday_nextWorkday day).earliest
  have hzero := h day (le_refl _) (by omega)
  have hone := h (day + 1) (by omega) (by omega)
  have htwo := h (day + 2) (by omega) (by omega)
  rw [← Bool.not_eq_true, isWorkday_iff] at hzero hone htwo
  omega

def workdays (first last : Int) : Set Int :=
  { day | (first ≤ day ∧ day ≤ last) ∧ isWorkday day = true }

theorem ncard_workdays (hday : isWorkday day = true) (extra : Nat) :
    (workdays day (addWorkdays day extra)).Finite ∧
      (workdays day (addWorkdays day extra)).ncard = extra + 1 ∧ day ≤ addWorkdays day extra := by
  induction extra with
  | zero =>
    have hone : workdays day day = {day} := by
      ext other
      simp only [workdays, Set.mem_ofPred_eq, Set.mem_singleton_iff]
      constructor
      · rintro ⟨⟨hlow, hhigh⟩, -⟩
        omega
      · rintro rfl
        exact ⟨⟨le_refl _, le_refl _⟩, hday⟩
    rw [addWorkdays, hone]
    exact ⟨Set.finite_singleton day, Set.ncard_singleton day, le_refl _⟩
  | succ extra ih =>
    obtain ⟨hfinite, hcard, hfrom⟩ := ih
    have hnext := firstWorkday_nextWorkday (addWorkdays day extra + 1)
    have hlater := hnext.from_day
    have hsplit : workdays day (nextWorkday (addWorkdays day extra + 1)) =
        insert (nextWorkday (addWorkdays day extra + 1)) (workdays day (addWorkdays day extra)) := by
      ext other
      simp only [workdays, Set.mem_ofPred_eq, Set.mem_insert_iff]
      constructor
      · rintro ⟨⟨hlow, hhigh⟩, hother⟩
        by_cases hold : other ≤ addWorkdays day extra
        · exact .inr ⟨⟨hlow, hold⟩, hother⟩
        · refine .inl (le_antisymm hhigh (not_lt.mp fun hlt => ?_))
          exact absurd hother (Bool.eq_false_iff.mp
            (hnext.earliest other (Int.add_one_le_of_lt (not_le.mp hold)) hlt))
      · rintro (rfl | ⟨⟨hlow, hhigh⟩, hother⟩)
        · exact ⟨⟨by omega, le_refl _⟩, hnext.workday⟩
        · exact ⟨⟨hlow, by omega⟩, hother⟩
    have hfresh : nextWorkday (addWorkdays day extra + 1) ∉ workdays day (addWorkdays day extra) := by
      simp only [workdays, Set.mem_ofPred_eq, not_and]
      omega
    rw [addWorkdays, hsplit]
    exact ⟨hfinite.insert _, by rw [Set.ncard_insert_of_notMem hfresh hfinite, hcard], by omega⟩

end Workdays

section Requests

variable {now : Instant} {zone : TimeZone} {weekStartsOn : Int} {args : TimeOffRequestArgs}
  {preview : TimeOffPreview}

variable (now zone weekStartsOn) in
/-- The local day with which the named week begins. -/
def weekStart : RequestWeek → Int
  | .thisWeek => weekOf (dayOf (zone.wall now)) weekStartsOn
  | .nextWeek => addDays (weekOf (dayOf (zone.wall now)) weekStartsOn) 7

variable (now zone weekStartsOn) in
/-- The local day from which days of the week may be taken. -/
def weekFrom (week : RequestWeek) : Int :=
  let start := weekStart now zone weekStartsOn week
  let today : Int := dayOf (zone.wall now)
  if week = .thisWeek ∧ start < today then today else start

/-- The request is for days of a named week. -/
def TimeOffRequestArgs.Names (args : TimeOffRequestArgs) (week : RequestWeek) : Prop :=
  args.week = some week ∧ (args.start = none ∨ args.finish = none)

/-- A local day begins, in UTC, on its own date or the day before: no zone is a day away. -/
def NearUtc (zone : TimeZone) : Prop :=
  ∀ day : PlainDate, dayOf (zone.dayStart day) = day ∨ dayOf (zone.dayStart day) = (day - 1 : Int)

theorem monday_eq (week : RequestWeek) : monday now zone weekStartsOn week =
    dayOf (zone.dayStart (weekStart now zone weekStartsOn week)) := by
  cases week <;> rfl

theorem weekStart_le_today (now : Instant) (zone : TimeZone)
    (hweek : 1 ≤ weekStartsOn ∧ weekStartsOn ≤ 7) :
    weekStart now zone weekStartsOn .thisWeek ≤ dayOf (zone.wall now) := by
  have hday := Int.emod_nonneg (dayOf (zone.wall now) + 3) (by decide : (7 : Int) ≠ 0)
  have hoffset : 0 ≤ Int.tmod (PlainDate.dayOfWeek (dayOf (zone.wall now)) - weekStartsOn + 7) 7 := by
    refine Int.tmod_nonneg 7 ?_
    simp only [PlainDate.dayOfWeek]
    omega
  exact add_le_of_nonpos_right (Int.neg_nonpos_of_nonneg hoffset)

theorem previewRequest_ok (h : previewRequest now zone weekStartsOn args = .ok preview) :
    ∃ startRef endRef, requestRefs now zone weekStartsOn args = .ok (startRef, endRef) ∧
      startRef.resolve now zone = some preview.input.start ∧
      endRef.resolve now zone = some preview.input.finish ∧
      preview.input.start ≤ preview.input.finish ∧ preview.input.days = args.days ∧
      preview.input.halfDay = args.halfDay ∧ preview.requestedDays = args.days.getD
        (if args.halfDay = some true then 1 / 2
          else ((preview.input.finish - preview.input.start + 1 : Int) : Rat)) := by
  obtain ⟨⟨startRef, endRef⟩, hrefs, h⟩ := Checked.bind_eq_ok.mp h
  dsimp only at h
  split at h
  next start finish hstart hfinish =>
    split at h
    · cases h
    next hordered =>
      cases h
      exact ⟨startRef, endRef, hrefs, hstart, hfinish, not_lt.mp hordered, rfl, rfl, rfl⟩
  · cases h

/-- The counts agree unless a half day is asked for other than as half a day. -/
theorem counted_iff (h : previewRequest now zone weekStartsOn args = .ok preview) :
    preview.shown = createRequestAtomic preview.input ↔
      (args.halfDay = some true → args.days = some (1 / 2)) := by
  obtain ⟨startRef, endRef, -, -, -, hordered, hdays, hhalf, hrequested⟩ := previewRequest_ok h
  have hspan : (1 : Rat) ≤ ((preview.input.finish - preview.input.start + 1 : Int) : Rat) := by
    exact_mod_cast (by omega : (1 : Int) ≤ preview.input.finish - preview.input.start + 1)
  rw [TimeOffPreview.shown, createRequestAtomic, hdays, hhalf, inclusiveDays,
    if_neg (not_lt.mpr hordered), hrequested]
  by_cases hmark : args.halfDay = some true
  · rw [if_pos hmark, hmark]
    cases args.days with
    | none =>
      simp only [Option.none_or, DayCount.mk.injEq, Option.some.injEq, reduceCtorEq]
      constructor
      · rintro ⟨hsame, -⟩
        rw [← hsame] at hspan
        norm_num at hspan
      · intro hnone
        exact absurd (hnone trivial) nofun
    | some days => simp [eq_comm]
  · rw [if_neg hmark, if_neg hmark]
    have hfalse : args.halfDay.getD false = false := by
      cases hvalue : args.halfDay with
      | none => rfl
      | some mark =>
        cases mark
        · rfl
        · exact absurd hvalue hmark
    rw [hfalse]
    cases args.days <;> simp [hmark]

/-- The range starts on the first workday of the week, and has the workdays asked for. -/
structure InWeek (now : Instant) (zone : TimeZone) (weekStartsOn : Int) (args : TimeOffRequestArgs)
    (week : RequestWeek) (input : TimeOffInput) : Prop where
  first : FirstWorkday (weekFrom now zone weekStartsOn week) input.start
  inside : input.start ≤ weekStart now zone weekStartsOn week + 6
  many : (workdays input.start input.finish).ncard = dayCount args

/-- The range of a named week starts on the first workday that is found. -/
theorem named_week {week : RequestWeek} (hnames : args.Names week)
    (h : previewRequest now zone weekStartsOn args = .ok preview) :
    FirstWorkday (searchedFrom now zone weekStartsOn week) preview.input.start ∧
      (week = .thisWeek → preview.input.start ≤ monday now zone weekStartsOn week + 6) ∧
      (workdays preview.input.start preview.input.finish).ncard = dayCount args := by
  obtain ⟨startRef, endRef, hrefs, hstart, hfinish, -⟩ := previewRequest_ok h
  have hweek : requestRefs now zone weekStartsOn args = weekRefs now zone weekStartsOn args week := by
    simp only [requestRefs, hnames.1, if_pos hnames.2]
  rw [hweek, weekRefs] at hrefs
  generalize searchedFrom now zone weekStartsOn week = day at hrefs ⊢
  split at hrefs
  · cases hrefs
  next hleft =>
    cases hrefs
    have hstart := Option.some.inj hstart
    have hfinish := Option.some.inj hfinish
    have hfirst := firstWorkday_nextWorkday day
    have hcount : dayCount args - 1 + 1 = dayCount args := by
      simp only [dayCount]
      split <;> omega
    refine ⟨hstart ▸ hfirst, fun hthis => ?_, ?_⟩
    · rw [← hstart]
      exact not_lt.mp fun hlate => hleft ⟨hthis, hlate⟩
    · rw [← hfinish, ← hstart, (ncard_workdays hfirst.workday _).2.1, hcount]

theorem monday_near (now : Instant) (weekStartsOn : Int) (hzone : NearUtc zone) (week : RequestWeek) :
    monday now zone weekStartsOn week = weekStart now zone weekStartsOn week ∨
      monday now zone weekStartsOn week = weekStart now zone weekStartsOn week - 1 := by
  rw [monday_eq]
  exact hzone _

theorem inThisWeek (hzone : NearUtc zone) (hweek : 1 ≤ weekStartsOn ∧ weekStartsOn ≤ 7)
    (hnames : args.Names .thisWeek) (h : previewRequest now zone weekStartsOn args = .ok preview) :
    InWeek now zone weekStartsOn args .thisWeek preview.input := by
  obtain ⟨hfirst, hinside, hmany⟩ := named_week hnames h
  have hinside := hinside rfl
  have htoday := weekStart_le_today now zone hweek
  have hmonday := monday_near now weekStartsOn hzone .thisWeek
  refine ⟨?_, by omega, hmany⟩
  have hfrom : weekFrom now zone weekStartsOn .thisWeek = dayOf (zone.wall now) := by
    by_cases hlater : weekStart now zone weekStartsOn .thisWeek < dayOf (zone.wall now)
    · exact if_pos ⟨rfl, hlater⟩
    · rw [← le_antisymm htoday (not_lt.mp hlater)]
      exact if_neg fun h => hlater h.2
  rw [hfrom]
  have hsame : searchedFrom now zone weekStartsOn .thisWeek = dayOf (zone.wall now) := by
    by_cases hlate : (dayOf (zone.wall now) : Int) > monday now zone weekStartsOn .thisWeek
    · exact if_pos ⟨rfl, hlate⟩
    · have hmidnight : searchedFrom now zone weekStartsOn .thisWeek =
          monday now zone weekStartsOn .thisWeek := if_neg fun h => hlate h.2
      have hearly : monday now zone weekStartsOn .thisWeek ≤ weekStart now zone weekStartsOn .thisWeek := by
        omega
      rw [hmidnight]
      exact le_antisymm (le_trans hearly htoday) (not_lt.mp hlate)
  exact hsame ▸ hfirst

/-- The range of the next week is right unless the week's midnight falls on a workday before it. -/
theorem inNextWeek_iff (hzone : NearUtc zone) (hnames : args.Names .nextWeek)
    (h : previewRequest now zone weekStartsOn args = .ok preview) :
    InWeek now zone weekStartsOn args .nextWeek preview.input ↔
      monday now zone weekStartsOn .nextWeek = weekStart now zone weekStartsOn .nextWeek ∨
        isWorkday (weekStart now zone weekStartsOn .nextWeek - 1) = false := by
  obtain ⟨hfirst, -, hmany⟩ := named_week hnames h
  have hsearched : searchedFrom now zone weekStartsOn .nextWeek =
      monday now zone weekStartsOn .nextWeek := rfl
  rw [hsearched] at hfirst
  have hmonday := monday_near now weekStartsOn hzone .nextWeek
  generalize monday now zone weekStartsOn .nextWeek = day at hfirst hmonday ⊢
  have hfrom : weekFrom now zone weekStartsOn .nextWeek = weekStart now zone weekStartsOn .nextWeek := rfl
  have hsoon : ∀ {first : Int}, FirstWorkday (weekStart now zone weekStartsOn .nextWeek) first →
      first ≤ weekStart now zone weekStartsOn .nextWeek + 6 := by
    intro first hfirst
    have hlast := nextWorkday_le (weekStart now zone weekStartsOn .nextWeek)
    rw [hfirst.eq (firstWorkday_nextWorkday _)]
    omega
  constructor
  · intro hin
    refine or_iff_not_imp_left.mpr fun hother => ?_
    have hstart := hfrom ▸ hin.first.from_day
    have hbefore : day = weekStart now zone weekStartsOn .nextWeek - 1 := hmonday.resolve_left hother
    rw [← hbefore]
    exact hfirst.earliest day (le_refl _) (by omega)
  · intro hright
    have hin : FirstWorkday (weekStart now zone weekStartsOn .nextWeek) preview.input.start := by
      obtain hsame | hbefore := hmonday
      · exact hsame ▸ hfirst
      · have hfree : isWorkday day = false := by
          obtain hsame | hfree := hright
          · omega
          · rw [hbefore]
            exact hfree
        have hlater : day ≠ preview.input.start := by
          intro heq
          rw [heq, hfirst.workday] at hfree
          cases hfree
        have hstart := hfirst.from_day
        exact ⟨hfirst.workday, by omega, fun between hlow hhigh =>
          hfirst.earliest between (by omega) hhigh⟩
    exact ⟨hin, hsoon hin, hmany⟩

/-- What is confirmed is what is sent. -/
structure ConfirmedDaysLaw (now : Instant) (zone : TimeZone) (weekStartsOn : Int)
    (args : TimeOffRequestArgs) (preview : TimeOffPreview) : Prop where
  counted : preview.shown = createRequestAtomic preview.input
  anchored : ∀ week, args.Names week → InWeek now zone weekStartsOn args week preview.input

theorem confirmedDaysLaw_iff (hzone : NearUtc zone) (hweek : 1 ≤ weekStartsOn ∧ weekStartsOn ≤ 7)
    (h : previewRequest now zone weekStartsOn args = .ok preview) :
    ConfirmedDaysLaw now zone weekStartsOn args preview ↔
      (args.halfDay = some true → args.days = some (1 / 2)) ∧ (args.Names .nextWeek →
        monday now zone weekStartsOn .nextWeek = weekStart now zone weekStartsOn .nextWeek ∨
          isWorkday (weekStart now zone weekStartsOn .nextWeek - 1) = false) := by
  constructor
  · intro hlaw
    exact ⟨(counted_iff h).mp hlaw.counted,
      fun hnames => (inNextWeek_iff hzone hnames h).mp (hlaw.anchored .nextWeek hnames)⟩
  · intro hright
    refine ⟨(counted_iff h).mpr hright.1, fun week hnames => ?_⟩
    cases week with
    | thisWeek => exact inThisWeek hzone hweek hnames h
    | nextWeek => exact (inNextWeek_iff hzone hnames h).mpr (hright.2 hnames)

theorem nearUtc_fixed : NearUtc (.fixed 7200000) := by
  have hbefore : ∀ day : Int, (day * 86400000 - 7200000) / 86400000 = day - 1 := by
    intro day
    omega
  exact fun day => .inr (hbefore day)

theorem confirmedDaysLaw_tomorrow : ConfirmedDaysLaw 0 (.fixed 7200000) 1
    { start := some "tomorrow".toList, finish := some "tomorrow".toList }
    ⟨⟨1, 1, none, none⟩, ((1 : Int) : Rat)⟩ :=
  (confirmedDaysLaw_iff nearUtc_fixed (show (1 : Int) ≤ 1 ∧ (1 : Int) ≤ 7 by decide) rfl).mpr
    ⟨nofun, fun hnames => nomatch hnames.1⟩

/-- Half a day off, on two days. -/
def halfDayOff : TimeOffRequestArgs where
  start := some "today".toList
  finish := some "tomorrow".toList
  halfDay := some true

/-- They are sent as two days. -/
theorem half_day_charged : ¬ ∀ (now : Instant) (zone : TimeZone) (weekStartsOn : Int)
    (args : TimeOffRequestArgs) (preview : TimeOffPreview), NearUtc zone →
    (1 ≤ weekStartsOn ∧ weekStartsOn ≤ 7) →
    previewRequest now zone weekStartsOn args = .ok preview →
    ConfirmedDaysLaw now zone weekStartsOn args preview := by
  intro hall
  have hpreview : previewRequest 0 (.fixed 7200000) 1 halfDayOff =
      .ok ⟨⟨0, 1, none, some true⟩, 1 / 2⟩ := rfl
  have hlaw := hall 0 (.fixed 7200000) 1 halfDayOff _ nearUtc_fixed (by decide) hpreview
  exact absurd ((counted_iff hpreview).mp hlaw.counted rfl) nofun

end Requests

end TimeOff

end ClockifyAssistant
