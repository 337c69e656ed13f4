import ClockifyAssistant.Harness.ResolveDates

/-!
What a text says about a day, and the local day that it names. A text that begins with a
calendar date names that date, whatever follows it: another date, words or the time of an
instant.
-/
namespace ClockifyAssistant.ResolveDates

open Lib

/-- The week has the day that the weekday is. -/
def FallsOn (day : PlainDate) (name : List Char) : Prop :=
  weekdays[(PlainDate.dayOfWeek day % 7).toNat]? = some name

def calendarWord : CalendarUnit → List Char
  | .month => "month".toList
  | .year => "year".toList

/-- One of the words, or nothing. -/
def Optional (allowed : List String) (list : List (List Char)) : Prop :=
  list = [] ∨ ∃ word ∈ allowed, list = [word.toList]

/-- The words of a month's or a year's boundary: an article, the edge, a filler, the period. -/
structure BoundaryWords where
  article : List (List Char)
  edge : List Char
  filler : List (List Char)
  which : List (List Char)
  unit : CalendarUnit
  article_in : Optional ["the"] article
  edge_in : edge ∈ ["first", "1st", "start", "beginning", "last", "end"].map String.toList
  filler_in : Optional ["day"] filler
  which_in : Optional ["the", "this", "current", "last", "previous", "next"] which

namespace BoundaryWords

variable (b : BoundaryWords)

def words : List (List Char) :=
  b.article ++ b.edge :: (b.filler ++ "of".toList :: (b.which ++ [calendarWord b.unit]))

/-- How many periods from the one that today is in. -/
def shift : Int :=
  if b.which = ["last".toList] ∨ b.which = ["previous".toList] then -1
  else if b.which = ["next".toList] then 1
  else 0

def wantsEnd : Prop := b.edge = "last".toList ∨ b.edge = "end".toList

instance : Decidable b.wantsEnd := inferInstanceAs (Decidable (_ ∨ _))

def day (today : PlainDate) : PlainDate :=
  match b.unit with
  | .month =>
      let first := PlainDate.addMonths b.shift (PlainDate.monthStart today)
      if b.wantsEnd then PlainDate.monthEnd first else first
  | .year =>
      let first := PlainDate.addYears b.shift (PlainDate.yearStart today)
      if b.wantsEnd then PlainDate.yearEnd first else first

end BoundaryWords

/-- The text, in small letters and without spaces around it, names the day; `after` is what may
follow a calendar date. -/
inductive Names (after : List Char → Prop) (today : PlainDate) : List Char → PlainDate → Prop
  | absent : Names after today [] today
  | date {raw year month date rest : List Char}
      (hraw : isoDayPrefix raw = some (year, month, date, rest)) (hrest : after rest)
      (hreal : PlainDate.isCivil (digits year) (digits month) (digits date) = true) :
      Names after today raw (PlainDate.ofCivil (digits year) (digits month) (digits date))
  | today {raw : List Char} (hraw : raw = "today".toList ∨ raw = "now".toList) :
      Names after today raw today
  | yesterday : Names after today "yesterday".toList (today - 1 : Int)
  | tomorrow : Names after today "tomorrow".toList (today + 1 : Int)
  | weekday {raw name : List Char} {day : PlainDate}
      (hraw : words raw = [name] ∨ words raw = ["this".toList, name]) (hday : FallsOn day name)
      (hlow : today ≤ day) (hhigh : (day : Int) ≤ today + 6) : Names after today raw day
  | nextWeekday {raw name : List Char} {day : PlainDate}
      (hraw : words raw = ["next".toList, name]) (hday : FallsOn day name)
      (hlow : today < day) (hhigh : (day : Int) ≤ today + 7) : Names after today raw day
  | lastWeekday {raw name : List Char} {day : PlainDate}
      (hraw : words raw = ["last".toList, name] ∨ words raw = ["previous".toList, name])
      (hday : FallsOn day name) (hlow : (today : Int) - 7 ≤ day) (hhigh : day < today) :
      Names after today raw day
  | boundary {raw : List Char} (b : BoundaryWords) (hraw : words raw = b.words) :
      Names after today raw (b.day today)
  | monthDay {raw first second word name : List Char} {year number : Int} {index : Nat}
      (hraw : words raw = [first, second])
      (hword : monthWord first = some word ∧ dayNumber second = some number ∨
        dayNumber first = some number ∧ monthWord second = some word)
      (hmonth : months[index]? = some name) (hname : word <+: name) (hlength : 3 ≤ word.length)
      (hyear : ¬ (0 ≤ PlainDate.year today ∧ PlainDate.year today ≤ 99) →
        year = PlainDate.year today)
      (hreal : PlainDate.isCivil year (index + 1) number = true) :
      Names after today raw (PlainDate.ofCivil year (index + 1) number)

section Named

variable {after : List Char → Prop} {today day : PlainDate} {raw : List Char}

theorem fallsOn_of_index {name : List Char} {index : Nat}
    (hindex : (weekdays.findIdx? fun weekday => weekday = name) = some index)
    (hday : PlainDate.dayOfWeek day % 7 = index) : FallsOn day name := by
  obtain ⟨hcount, hname, -⟩ := List.findIdx?_eq_some_iff_getElem.mp hindex
  rw [FallsOn, hday, Int.toNat_natCast, List.getElem?_eq_getElem hcount]
  exact congrArg some (of_decide_eq_true hname)

theorem weekday_ahead (today : Int) {target : Int} (hlow : 0 ≤ target) (hhigh : target < 7) :
    ∃ days, (target - PlainDate.dayOfWeek today % 7 + 7) % 7 = days ∧ 0 ≤ days ∧ days ≤ 6 ∧
      PlainDate.dayOfWeek (addDays today days) % 7 = target := by
  refine ⟨_, rfl, ?_⟩
  simp only [PlainDate.dayOfWeek, addDays]
  omega

theorem weekday_next (today : Int) {target : Int} (hlow : 0 ≤ target) (hhigh : target < 7) :
    ∃ days, orWeek ((target - PlainDate.dayOfWeek today % 7 + 7) % 7) = days ∧ 0 < days ∧ days ≤ 7 ∧
      PlainDate.dayOfWeek (addDays today days) % 7 = target := by
  refine ⟨_, rfl, ?_⟩
  simp only [orWeek, PlainDate.dayOfWeek, addDays]
  split_ifs <;> omega

theorem weekday_back (today : Int) {target : Int} (hlow : 0 ≤ target) (hhigh : target < 7) :
    ∃ days, -(orWeek ((PlainDate.dayOfWeek today % 7 - target + 7) % 7)) = days ∧ -7 ≤ days ∧
      days < 0 ∧ PlainDate.dayOfWeek (addDays today days) % 7 = target := by
  refine ⟨_, rfl, ?_⟩
  simp only [orWeek, PlainDate.dayOfWeek, addDays]
  split_ifs <;> omega

theorem names_weekday (h : parseWeekday today raw = some day) : Names after today raw day := by
  simp only [parseWeekday, Option.bind_eq_some_iff, Option.map_eq_some_iff] at h
  obtain ⟨⟨qualifier, name⟩, hnamed, target, hfound, hday⟩ := h
  obtain ⟨index, hindex, htarget⟩ := Option.bind_eq_some_iff.mp hfound
  have htarget : (index : Int) = target := Option.some.inj htarget
  have hlow : 0 ≤ target := htarget ▸ Int.natCast_nonneg index
  have hhigh : target < 7 := by
    rw [← htarget]
    exact Int.ofNat_lt.mpr (List.findIdx?_eq_some_iff_getElem.mp hindex).1
  have hfalls : ∀ {days : Int}, PlainDate.dayOfWeek (addDays today days) % 7 = target →
      FallsOn (addDays today days) name :=
    fun hsame => fallsOn_of_index hindex (by rw [hsame, htarget])
  obtain ⟨ahead, hahead, hahead0, hahead6, haheadOn⟩ := weekday_ahead today hlow hhigh
  obtain ⟨next, hnext, hnext0, hnext7, hnextOn⟩ := weekday_next today hlow hhigh
  obtain ⟨back, hback, hback7, hback0, hbackOn⟩ := weekday_back today hlow hhigh
  rw [hahead, hback] at hday
  rw [hahead] at hnext
  have hbare : ∀ {q}, (words raw = [name] ∨ words raw = ["this".toList, name]) →
      addDays today ahead = q → Names after today raw q := by
    rintro _ hraw rfl
    exact .weekday hraw (hfalls haheadOn) (Int.le_add_of_nonneg_right hahead0)
      (Int.add_le_add_left hahead6 today)
  have hearlier : ∀ {q}, (words raw = ["last".toList, name] ∨ words raw = ["previous".toList, name]) →
      addDays today back = q → Names after today raw q := by
    rintro _ hraw rfl
    exact .lastWeekday hraw (hfalls hbackOn) (Int.add_le_add_left hback7 today)
      (add_lt_of_neg_right today hback0)
  split at hnamed
  next hraw =>
    cases hnamed
    exact hbare (.inl hraw) (by simpa using hday)
  next word hraw =>
    split at hnamed
    next hword =>
      cases hnamed
      simp only [List.map_cons, List.map_nil, List.mem_cons, List.not_mem_nil, or_false] at hword
      rcases hword with rfl | rfl | rfl | rfl
      · exact hbare (.inr hraw) (by simpa using hday)
      · have hnextDay : addDays today next = day := by simpa [hnext] using hday
        rw [← hnextDay]
        exact .nextWeekday hraw (hfalls hnextOn) (Int.lt_add_of_pos_right today hnext0)
          (Int.add_le_add_left hnext7 today)
      · exact hearlier (.inl hraw) (by simpa using hday)
      · exact hearlier (.inr hraw) (by simpa using hday)
    · cases hnamed
  · cases hnamed

theorem names_monthDay (h : parseMonthNameDay (utcYear (PlainDate.year today)) raw = some day) :
    Names after today raw day := by
  simp only [parseMonthNameDay, Option.bind_eq_some_iff] at h
  obtain ⟨⟨word, number⟩, hnamed, index, hindex, hday⟩ := h
  split at hday
  · cases hday
  next hlength =>
    obtain ⟨hcount, hname, -⟩ := List.findIdx?_eq_some_iff_getElem.mp hindex
    unfold buildDay at hday
    split at hday
    next hbuilt =>
      cases hday
      have hyear : ¬ (0 ≤ PlainDate.year today ∧ PlainDate.year today ≤ 99) →
          utcYear (PlainDate.year today) = PlainDate.year today := by
        intro hlong
        exact if_neg hlong
      split at hnamed
      next first second hraw =>
        have hword : monthWord first = some word ∧ dayNumber second = some number ∨
            dayNumber first = some number ∧ monthWord second = some word := by
          split at hnamed
          · cases hnamed
            exact .inl ⟨‹_›, ‹_›⟩
          · split at hnamed
            · cases hnamed
              exact .inr ⟨‹_›, ‹_›⟩
            · cases hnamed
        exact .monthDay hraw hword (List.getElem?_eq_getElem hcount)
          (List.isPrefixOf_iff_prefix.mp hname) (not_lt.mp hlength) hyear hbuilt.2.2.2
      · cases hnamed
    · cases hday

theorem dropWord_eq {allowed : List String} {list rest : List (List Char)}
    (h : dropWord allowed list = rest) : ∃ dropped, Optional allowed dropped ∧ list = dropped ++ rest := by
  subst h
  cases list with
  | nil => exact ⟨[], .inl rfl, rfl⟩
  | cons word rest =>
    by_cases hword : word ∈ allowed.map String.toList
    · obtain ⟨text, htext, rfl⟩ := List.mem_map.mp hword
      exact ⟨_, .inr ⟨text, htext, rfl⟩, by rw [dropWord, if_pos hword, List.singleton_append]⟩
    · exact ⟨[], .inl rfl, (if_neg hword).symm⟩

theorem calendarUnit_eq {word : List Char} {unit : CalendarUnit} (h : calendarUnit word = some unit) :
    word = calendarWord unit := by
  unfold calendarUnit at h
  split at h
  · cases h
    rfl
  · cases h
    rfl
  · cases h

theorem names_boundary (h : parseCalendarBoundary today raw = some day) :
    Names after today raw day := by
  unfold parseCalendarBoundary at h
  split at h
  next edge rest hedge =>
    split at h
    next hin =>
      split at h
      next period hfiller =>
        split at h
        next word hwhich =>
          obtain ⟨unit, hunit, hday⟩ := Option.map_eq_some_iff.mp h
          obtain ⟨article, harticle, hwords⟩ := dropWord_eq hedge
          obtain ⟨filler, hfillers, rfl⟩ := dropWord_eq hfiller
          obtain ⟨which, hwhiches, rfl⟩ := dropWord_eq hwhich
          cases calendarUnit_eq hunit
          have hshift : BoundaryWords.shift ⟨article, edge, filler, which, unit, harticle, hin, hfillers,
              hwhiches⟩ = if (which ++ [calendarWord unit]).length = 1 then 0
                else if (which ++ [calendarWord unit]).head? = some "last".toList ∨
                  (which ++ [calendarWord unit]).head? = some "previous".toList then -1
                else if (which ++ [calendarWord unit]).head? = some "next".toList then 1
                else 0 := by
            unfold BoundaryWords.shift
            obtain rfl | ⟨text, -, rfl⟩ := hwhiches
            · simp
            · simp
          have hnamed : BoundaryWords.day ⟨article, edge, filler, which, unit, harticle, hin, hfillers,
              hwhiches⟩ today = day := by
            rw [← hday, BoundaryWords.day, hshift]
            cases unit <;> rfl
          rw [← hnamed]
          exact .boundary _ (by simpa [BoundaryWords.words] using hwords)
        · cases h
      · cases h
    · cases h
  · cases h

/-- A day that is resolved is one that the text names. -/
theorem resolveRelativeDay_names {now : Instant} {zone : TimeZone} {date : Option (List Char)}
    (h : resolveRelativeDay now { date } zone = some day) :
    Names (fun _ => True) (dayOf (zone.wall now)) (lowerText (trimText (date.getD []))) day := by
  simp only [resolveRelativeDay] at h
  generalize lowerText (trimText (date.getD [])) = raw at h ⊢
  split at h
  next hraw =>
    cases h
    rw [hraw]
    exact .absent
  split at h
  next year month date rest hraw =>
    unfold realDay at h
    split at h
    next hreal =>
      cases h
      exact .date hraw trivial hreal
    · cases h
  split at h
  next hraw =>
    cases h
    exact .today hraw
  split at h
  next hraw =>
    cases h
    rw [hraw]
    exact .yesterday
  split at h
  next hraw =>
    cases h
    rw [hraw]
    exact .tomorrow
  simp only [Option.orElse_eq_or, Option.or_eq_some_iff] at h
  rcases h with hday | ⟨-, hday | ⟨-, hday⟩⟩
  · exact names_weekday hday
  · exact names_boundary hday
  · exact names_monthDay hday

theorem resolveRelativeDay_names_tomorrow : Names (fun _ => True) 0 "tomorrow".toList 1 :=
  resolveRelativeDay_names (show resolveRelativeDay 0 { date := some " Tomorrow".toList }
    (.fixed 0) = some 1 by decide)

theorem range_prefix : isoDayPrefix (lowerText (trimText "2026-01-05 to 2026-01-09".toList)) =
    some ("2026".toList, "01".toList, "05".toList, " to 2026-01-09".toList) := by decide

/-- A date with more words after it is taken for the date, not refused. -/
theorem second_date_dropped : ¬ ∀ (now : Instant) (zone : TimeZone) (date : Option (List Char))
    (day : PlainDate), resolveRelativeDay now { date } zone = some day →
      Names (fun rest => rest = [] ∨ rest.head? = some 't') (dayOf (zone.wall now))
        (lowerText (trimText (date.getD []))) day := by
  intro hall
  have hnamed := hall 0 (.fixed 0) (some "2026-01-05 to 2026-01-09".toList)
    (PlainDate.ofCivil 2026 1 5) (resolveRelativeDay_date range_prefix (by decide))
  have hdates := range_prefix
  have hwords : words (lowerText (trimText "2026-01-05 to 2026-01-09".toList)) =
      ["2026-01-05".toList, "to".toList, "2026-01-09".toList] := by decide
  rw [Option.getD_some] at hnamed
  generalize lowerText (trimText "2026-01-05 to 2026-01-09".toList) = raw at hnamed hwords hdates
  generalize PlainDate.ofCivil 2026 1 5 = day at hnamed
  cases hnamed with
  | absent => exact absurd hwords (by decide)
  | date hdate hrest =>
    rw [hdates, Option.some.injEq] at hdate
    simp only [Prod.mk.injEq] at hdate
    rw [← hdate.2.2.2] at hrest
    exact absurd hrest (by decide)
  | today h => rcases h with rfl | rfl <;> exact absurd hwords (by decide)
  | yesterday => exact absurd hwords (by decide)
  | tomorrow => exact absurd hwords (by decide)
  | weekday h => rcases h with h | h <;> simp [hwords] at h
  | nextWeekday h => simp [hwords] at h
  | lastWeekday h => rcases h with h | h <;> simp [hwords] at h
  | boundary b h =>
    -- the first word is no edge, and no article
    have hin := b.edge_in
    rw [hwords] at h
    obtain harticle | ⟨word, hword, harticle⟩ := b.article_in
    · rw [BoundaryWords.words, harticle] at h
      rw [← (List.cons.inj h).1] at hin
      exact absurd hin (by decide)
    · rw [BoundaryWords.words, harticle, List.mem_singleton.mp hword] at h
      exact absurd (List.cons.inj h).1 (by decide)
  | monthDay h => simp [hwords] at h

end Named

end ClockifyAssistant.ResolveDates
