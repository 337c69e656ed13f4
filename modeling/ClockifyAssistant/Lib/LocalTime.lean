import Mathlib

/-!
Instants, wall clocks and calendar days. Instants and wall-clock times are milliseconds on a
line of their own, a day is the number of days since the first of January 1970. A time zone
resolves a wall-clock time that is shown twice to the earlier instant, and one that is never
shown past the gap that skips it.
-/
namespace ClockifyAssistant.Lib

def msPerDay : Int := 86400000

abbrev PlainDate := Int

def midnight (day : PlainDate) : Int := day * msPerDay

/-- The day of a wall-clock time. -/
def dayOf (wall : Int) : PlainDate := wall / msPerDay

theorem midnight_succ (day : PlainDate) : midnight (day + 1) = midnight day + msPerDay := by
  simp only [midnight, msPerDay]
  omega

structure TimeZone where
  /-- what the clock on the wall shows at an instant -/
  wall : Int → Int
  /-- the instant that a wall-clock time stands for -/
  resolve : Int → Int
  shown : ∀ instant, wall (resolve (wall instant)) = wall instant
  earliest : ∀ instant, resolve (wall instant) ≤ instant
  skipped : ∀ time, (∀ instant, wall instant ≠ time) → time < wall (resolve time)
  ordered : ∀ time, resolve time ≤ resolve (time + msPerDay)

namespace TimeZone

variable (zone : TimeZone)

/-- The clock shows the time at some instant. -/
def Shows (time : Int) : Prop := ∃ instant, zone.wall instant = time

/-- The instant at which a local day begins. -/
def dayStart (day : PlainDate) : Int := zone.resolve (midnight day)

/-- The instants of a local day. -/
def localDay (day : PlainDate) : Set Int := Set.Ico (zone.dayStart day) (zone.dayStart (day + 1))

variable {zone}

theorem shows_iff {time : Int} : zone.Shows time ↔ zone.wall (zone.resolve time) = time := by
  constructor
  · rintro ⟨instant, rfl⟩
    exact zone.shown instant
  · intro h
    exact ⟨_, h⟩

theorem lt_wall_resolve {time : Int} (h : ¬ zone.Shows time) :
    time < zone.wall (zone.resolve time) :=
  zone.skipped time fun instant hinstant => h ⟨instant, hinstant⟩

theorem le_wall_resolve (time : Int) : time ≤ zone.wall (zone.resolve time) := by
  by_cases h : zone.Shows time
  · exact le_of_eq (shows_iff.mp h).symm
  · exact le_of_lt (lt_wall_resolve h)

theorem dayStart_le_succ (day : PlainDate) : zone.dayStart day ≤ zone.dayStart (day + 1) := by
  rw [dayStart, dayStart, midnight_succ]
  exact zone.ordered (midnight day)

theorem dayStart_mono (day : PlainDate) (days : Nat) :
    zone.dayStart day ≤ zone.dayStart (day + days) := by
  induction days with
  | zero => exact le_of_eq (by simp)
  | succ days ih =>
    have hnext := zone.dayStart_le_succ (day + days)
    rw [Nat.cast_succ, ← add_assoc]
    exact le_trans ih hnext

/-- Consecutive local days make up the instants between the first start and the last. -/
theorem iUnion_localDay (day : PlainDate) (days : Nat) :
    (⋃ i < days, zone.localDay (day + (i : Nat))) =
      Set.Ico (zone.dayStart day) (zone.dayStart (day + days)) := by
  induction days with
  | zero => simp
  | succ days ih =>
    have hnext : zone.dayStart (day + days) ≤ zone.dayStart (day + (days + 1 : Nat)) := by
      have hstep := zone.dayStart_le_succ (day + days)
      rwa [Nat.cast_succ, ← add_assoc]
    have hlast : zone.localDay (day + days) =
        Set.Ico (zone.dayStart (day + days)) (zone.dayStart (day + (days + 1 : Nat))) := by
      rw [localDay, Nat.cast_succ, ← add_assoc]
    have hsplit : (⋃ i < days + 1, zone.localDay (day + (i : Nat))) =
        (⋃ i < days, zone.localDay (day + (i : Nat))) ∪ zone.localDay (day + days) := by
      ext instant
      simp only [Set.mem_iUnion, Set.mem_union, exists_prop, Nat.lt_succ_iff_lt_or_eq]
      constructor
      · rintro ⟨i, hlt | rfl, hmem⟩
        · exact Or.inl ⟨i, hlt, hmem⟩
        · exact Or.inr hmem
      · rintro (⟨i, hlt, hmem⟩ | hmem)
        · exact ⟨i, Or.inl hlt, hmem⟩
        · exact ⟨days, Or.inr rfl, hmem⟩
    rw [hsplit, ih, hlast, Set.Ico_union_Ico_eq_Ico (zone.dayStart_mono day days) hnext]

/-- A zone whose offset never changes. -/
def fixed (offset : Int) : TimeZone where
  wall := fun instant => instant + offset
  resolve := fun time => time - offset
  shown := by intro instant; omega
  earliest := by intro instant; omega
  skipped := by
    intro time h
    exact absurd (Int.sub_add_cancel time offset) (h (time - offset))
  ordered := by
    intro time
    simp only [msPerDay]
    omega

/-- A zone whose clocks go forward once, by less than a day. -/
def forward (change offset gap : Int) (hpos : 0 < gap) (hday : gap < msPerDay) : TimeZone where
  wall := fun instant => if instant < change then instant + offset else instant + offset + gap
  resolve := fun time =>
    if change ≤ time - offset - gap then time - offset - gap else time - offset
  shown := by
    intro instant
    split_ifs <;> omega
  earliest := by
    intro instant
    split_ifs <;> omega
  skipped := by
    intro time h
    have hbefore := h (time - offset)
    have hafter := h (time - offset - gap)
    split_ifs at hbefore hafter ⊢ <;> omega
  ordered := by
    intro time
    simp only [msPerDay] at hday ⊢
    split_ifs <;> omega

end TimeZone

end ClockifyAssistant.Lib
