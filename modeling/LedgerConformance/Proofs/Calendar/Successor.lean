import LedgerConformance.Proofs.Calendar.DateShifts
import Mathlib.Logic.Function.Iterate

/-!
The day after a day. It is the next one of the month, or the first of the next month, or
that of the next year, and its number is higher by one. So shifting a date by some days
is as many steps through the calendar, and a shift leads to a later date exactly when it
goes forward.
-/

namespace LedgerConformance.Date

/-- The day after a date in the calendar. -/
def next (d : Date) : Date :=
  if d.day < daysInMonth d.year d.month then ⟨d.year, d.month, d.day + 1⟩
  else if d.month < 12 then ⟨d.year, d.month + 1, 1⟩
  else ⟨d.year + 1, 1, 1⟩

theorem daysInMonth_february_eq_iff {year : Int} :
    daysInMonth year 2 = 29 ↔ year % 4 = 0 ∧ year % 100 ≠ 0 ∨ year % 400 = 0 := by
  rw [← isLeap_iff]
  by_cases hleap : isLeap year = true <;> simp [daysInMonth, hleap]

theorem daysInMonth_pos (year : Int) {month : Nat} (hmonth : 1 ≤ month) (hmonth' : month ≤ 12) :
    1 ≤ daysInMonth year month := by
  by_cases hfebruary : month = 2
  · have hlength := daysInMonth_february (year - 1)
    rw [Int.sub_add_cancel] at hlength
    subst hfebruary
    omega
  · have hlength := daysInMonth_eq_of_ne year hmonth hmonth' hfebruary
    unfold daysBeforeMonth at hlength
    omega

theorem Valid.next {d : Date} (h : d.Valid) : d.next.Valid := by
  obtain ⟨hmonth, hmonth', hday, hday'⟩ := h
  unfold Date.next
  split
  · rename_i hlater
    exact ⟨hmonth, hmonth', Nat.le_add_left 1 d.day, hlater⟩
  · split
    · rename_i hlater
      exact ⟨Nat.le_add_left 1 d.month, hlater, Nat.le_refl 1,
        daysInMonth_pos d.year (Nat.le_add_left 1 d.month) hlater⟩
    · have hjanuary : 1 ≤ 12 := by decide
      exact ⟨Nat.le_refl 1, hjanuary, Nat.le_refl 1,
        daysInMonth_pos (d.year + 1) (Nat.le_refl 1) hjanuary⟩

/-- The days of a month are numbered in a row. -/
theorem dayNumber_eq_add_day (year : Int) (month day : Nat) :
    dayNumber ⟨year, month, day⟩ = dayNumber ⟨year, month, 1⟩ + day - 1 := by
  simp only [dayNumber_eq, marchYear, dayOfYear, marchMonth]
  omega

/-- The first of a month follows the last of the month before. -/
theorem dayNumber_firstOfMonth (year : Int) {month : Nat} (hmonth : 1 ≤ month)
    (hmonth' : month < 12) :
    dayNumber ⟨year, month + 1, 1⟩ = dayNumber ⟨year, month, 1⟩ + daysInMonth year month := by
  simp only [dayNumber_eq, marchYear, dayOfYear, marchMonth]
  by_cases hfebruary : month = 2
  · -- the March year ends here, with a leap day or without
    subst hfebruary
    have hlength := daysInMonth_february (year - 1)
    rw [Int.sub_add_cancel] at hlength
    unfold EndsWithLeapDay at hlength
    unfold daysBeforeMonth daysBeforeYear
    norm_num
    omega
  · have hlength := daysInMonth_eq_of_ne year hmonth hmonth'.le hfebruary
    have hnext : ((month + 1 : Nat) + 9 : Int) % 12 = (month + 9) % 12 + 1 := by omega
    have hsame : month + 1 ≤ 2 ↔ month ≤ 2 := by omega
    rw [hnext]
    simp only [hsame]
    omega

theorem dayNumber_firstOfYear (year : Int) :
    dayNumber ⟨year + 1, 1, 1⟩ = dayNumber ⟨year, 12, 1⟩ + 31 := by
  simp only [dayNumber_eq, marchYear, dayOfYear, marchMonth]
  norm_num
  unfold daysBeforeMonth
  omega

/-- The day after a day has the next number. -/
theorem dayNumber_next {d : Date} (h : d.Valid) : d.next.dayNumber = d.dayNumber + 1 := by
  obtain ⟨year, month, day⟩ := d
  obtain ⟨hmonth, hmonth', hday, hday'⟩ := h
  simp only at hmonth hmonth' hday hday'
  have hplace := dayNumber_eq_add_day year month day
  unfold next
  simp only
  split
  · have hplace' := dayNumber_eq_add_day year month (day + 1)
    omega
  · rename_i hlast
    split
    · have hfirst := dayNumber_firstOfMonth year hmonth ‹_›
      omega
    · have hdecember : month = 12 := by omega
      subst hdecember
      have hlength : daysInMonth year 12 = 31 := rfl
      have hfirst := dayNumber_firstOfYear year
      omega

/-- The next day comes before every other day that is later. -/
theorem lt_iff_next_le {a b : Date} (ha : a.Valid) (hb : b.Valid) : a < b ↔ a.next ≤ b := by
  rw [lt_iff_dayNumber_lt ha hb, le_iff_dayNumber_le ha.next hb, dayNumber_next ha,
    Int.add_one_le_iff]

theorem valid_iterate_next {d : Date} (h : d.Valid) (n : Nat) : (next^[n] d).Valid := by
  induction n with
  | zero => exact h
  | succ n ih =>
    rw [Function.iterate_succ_apply']
    exact ih.next

theorem dayNumber_iterate_next {d : Date} (h : d.Valid) (n : Nat) :
    (next^[n] d).dayNumber = d.dayNumber + n := by
  induction n with
  | zero => exact (Int.add_zero _).symm
  | succ n ih =>
    rw [Function.iterate_succ_apply', dayNumber_next (valid_iterate_next h n), ih]
    omega

/-- A shift forward by some days is as many steps through the calendar. -/
theorem addDays_eq_iterate_next {d : Date} (h : d.Valid) {n : Nat}
    (hyear : FitsYear (next^[n] d).year) : d.addDays n = next^[n] d := by
  rw [addDays, ← dayNumber_iterate_next h n, ofDayNumber_dayNumber (valid_iterate_next h n) hyear]

section Shifts

variable {d : Date} {n : Int}

theorem lt_addDays_iff (h : d.Valid) (hyear : FitsYear (yearOfDayNumber (d.dayNumber + n))) :
    d < d.addDays n ↔ 0 < n := by
  obtain ⟨hvalid, hnumber, _⟩ := ofDayNumber_spec hyear
  rw [addDays, lt_iff_dayNumber_lt h hvalid, hnumber]
  omega

theorem addDays_lt_iff (h : d.Valid) (hyear : FitsYear (yearOfDayNumber (d.dayNumber + n))) :
    d.addDays n < d ↔ n < 0 := by
  obtain ⟨hvalid, hnumber, _⟩ := ofDayNumber_spec hyear
  rw [addDays, lt_iff_dayNumber_lt hvalid h, hnumber]
  omega

theorem addDays_eq_self_iff (h : d.Valid)
    (hyear : FitsYear (yearOfDayNumber (d.dayNumber + n))) : d.addDays n = d ↔ n = 0 := by
  constructor
  · intro hsame
    have hnumber := dayNumber_addDays hyear
    rw [hsame] at hnumber
    omega
  · rintro rfl
    rw [Int.add_zero, yearOfDayNumber_dayNumber h] at hyear
    exact addDays_zero h hyear

end Shifts

/-- Day arithmetic follows the calendar. A shift by one day leads to the day after, which
is a day of the calendar and the first of the later ones; the order of the days is that of
their numbers; so a shift leads forward, nowhere or back as its number of days is
positive, zero or negative. -/
theorem addDays_follows_calendar :
    (∀ year, daysInMonth year 2 = 29 ↔ year % 4 = 0 ∧ year % 100 ≠ 0 ∨ year % 400 = 0) ∧
    (∀ d : Date, d.Valid →
      d.next.Valid ∧ (∀ e : Date, e.Valid → (d < e ↔ d.next ≤ e)) ∧
        (FitsYear d.next.year → d.addDays 1 = d.next)) ∧
    (∀ a b : Date, a.Valid → b.Valid → (a < b ↔ a.dayNumber < b.dayNumber)) ∧
    (∀ d : Date, d.Valid → ∀ n, FitsYear (yearOfDayNumber (d.dayNumber + n)) →
      (d < d.addDays n ↔ 0 < n) ∧ (d.addDays n = d ↔ n = 0) ∧ (d.addDays n < d ↔ n < 0)) := by
  refine ⟨fun year => daysInMonth_february_eq_iff, ?_, ?_, ?_⟩
  · intro d hd
    refine ⟨hd.next, fun e he => lt_iff_next_le hd he, ?_⟩
    intro hyear
    exact addDays_eq_iterate_next (n := 1) hd hyear
  · intro a b ha hb
    exact lt_iff_dayNumber_lt ha hb
  · intro d hd n hn
    exact ⟨lt_addDays_iff hd hn, addDays_eq_self_iff hd hn, addDays_lt_iff hd hn⟩

/-- The end of a February without a leap day in a century, the end of a year before the
year zero, and a shift back across a leap day. -/
theorem addDays_follows_calendar_monthEnds :
    (⟨1900, 2, 28⟩ : Date).addDays 1 = ⟨1900, 3, 1⟩ ∧
      (⟨-1, 12, 31⟩ : Date).addDays 1 = ⟨0, 1, 1⟩ ∧
      (dayNumber ⟨-1, 12, 31⟩ < dayNumber ⟨0, 1, 1⟩) ∧
      (⟨2000, 3, 1⟩ : Date).addDays (-366) < ⟨2000, 3, 1⟩ := by
  obtain ⟨-, hnext, horder, hshift⟩ := addDays_follows_calendar
  have hcentury : (⟨1900, 2, 28⟩ : Date).Valid := by decide
  have hlast : (⟨-1, 12, 31⟩ : Date).Valid := by decide
  have hfirst : (⟨0, 1, 1⟩ : Date).Valid := by decide
  have hmarch : (⟨2000, 3, 1⟩ : Date).Valid := by decide
  refine ⟨(hnext _ hcentury).2.2 ⟨by decide, by decide⟩,
    (hnext _ hlast).2.2 ⟨by decide, by decide⟩, ?_, ?_⟩
  · exact (horder _ _ hlast hfirst).mp (by decide)
  · exact (hshift _ hmarch (-366) ⟨by decide, by decide⟩).2.2.mpr (by decide)

end LedgerConformance.Date
