import LedgerConformance.Proofs.Calendar.DateText
import LedgerConformance.Proofs.Calendar.DayNumber

/-!
Shifting dates by days. A date and its day number give each other back as long as the
year fits, so shifts add up as their numbers do. Every number of a day whose year fits
is far from the ends of 64 bits.
-/

namespace LedgerConformance.Date

/-- The number of the first day whose year fits. -/
def firstNumber : Int := dayNumber ⟨-0x80000000, 1, 1⟩

/-- The number of the last day whose year fits. -/
def lastNumber : Int := dayNumber ⟨0x7FFFFFFF, 12, 31⟩

/-- The first day of a year is not after any other day of it. -/
theorem firstOfYear_le {d : Date} (h : d.Valid) {year : Int} (hyear : year ≤ d.year) :
    (⟨year, 1, 1⟩ : Date) ≤ d := by
  obtain ⟨hmonth, _, hday, _⟩ := h
  rw [le_iff_not_lt, lt_iff]
  simp only
  omega

theorem le_lastOfYear {d : Date} (h : d.Valid) {year : Int} (hyear : d.year ≤ year) :
    d ≤ ⟨year, 12, 31⟩ := by
  have hlength := daysInMonth_le d.year d.month
  obtain ⟨_, hmonth, _, hday⟩ := h
  rw [le_iff_not_lt, lt_iff]
  simp only
  omega

/-- The days whose years fit are those between the first and the last one. -/
theorem fitsYear_iff {n : Int} :
    FitsYear (yearOfDayNumber n) ↔ firstNumber ≤ n ∧ n ≤ lastNumber := by
  obtain ⟨d, hd, rfl⟩ := exists_valid_dayNumber n
  have hfirst : (⟨-0x80000000, 1, 1⟩ : Date).Valid := by decide
  have hlast : (⟨0x7FFFFFFF, 12, 31⟩ : Date).Valid := by decide
  rw [yearOfDayNumber_dayNumber hd, firstNumber, lastNumber, ← le_iff_dayNumber_le hfirst hd,
    ← le_iff_dayNumber_le hd hlast]
  constructor
  · rintro ⟨hlow, hhigh⟩
    exact ⟨firstOfYear_le hd hlow, le_lastOfYear hd (by omega)⟩
  · rintro ⟨hlow, hhigh⟩
    rw [le_iff_not_lt, lt_iff] at hlow hhigh
    simp only at hlow hhigh
    unfold FitsYear
    omega

/-- Neither the number of a day whose year fits nor its distance from March of the year
zero leaves 64 bits. -/
theorem number_fits {n : Int} (h : FitsYear (yearOfDayNumber n)) :
    -0x8000000000000000 ≤ n ∧ n + 719468 < 0x8000000000000000 := by
  have hfirst : firstNumber = -784353015833 := by decide
  have hlast : lastNumber = 784351576776 := by decide
  obtain ⟨hlow, hhigh⟩ := fitsYear_iff.mp h
  omega

/-- A shift changes the number of a date by as many days. -/
theorem dayNumber_addDays {d : Date} {days : Int}
    (h : FitsYear (yearOfDayNumber (d.dayNumber + days))) :
    (d.addDays days).dayNumber = d.dayNumber + days := (ofDayNumber_spec h).2.1

theorem addDays_zero {d : Date} (h : d.Valid) (hyear : FitsYear d.year) : d.addDays 0 = d := by
  rw [addDays, Int.add_zero, ofDayNumber_dayNumber h hyear]

theorem addDays_addDays {d : Date} {a b : Int}
    (h : FitsYear (yearOfDayNumber (d.dayNumber + a))) :
    (d.addDays a).addDays b = d.addDays (a + b) := by
  rw [addDays, dayNumber_addDays h, addDays, Int.add_assoc]

/-- A shift there and back ends where it began. -/
theorem addDays_neg {d : Date} (h : d.Valid) (hyear : FitsYear d.year) {days : Int}
    (hdays : FitsYear (yearOfDayNumber (d.dayNumber + days))) :
    (d.addDays days).addDays (-days) = d := by
  rw [addDays_addDays hdays, Int.add_right_neg, addDays_zero h hyear]

/-- The dates of the calendar whose years fit and their day numbers give each other
back. So shifts add up as long as the date between them has a year that fits, and no
number of such a date leaves 64 bits. -/
theorem dates_biject_numbers :
    (∀ d : Date, d.Valid → FitsYear d.year → ofDayNumber d.dayNumber = d) ∧
    (∀ n, FitsYear (yearOfDayNumber n) →
      (ofDayNumber n).Valid ∧ (ofDayNumber n).year = yearOfDayNumber n ∧
        (ofDayNumber n).dayNumber = n) ∧
    (∀ d : Date, d.Valid → FitsYear d.year →
      d.addDays 0 = d ∧
      ∀ a, FitsYear (yearOfDayNumber (d.dayNumber + a)) →
        (∀ b, (d.addDays a).addDays b = d.addDays (a + b)) ∧
        (d.addDays a).addDays (-a) = d) ∧
    (∀ n, FitsYear (yearOfDayNumber n) →
      -0x8000000000000000 ≤ n ∧ n + 719468 < 0x8000000000000000) := by
  refine ⟨?_, ?_, ?_, fun n hn => number_fits hn⟩
  · intro d hd hyear
    exact ofDayNumber_dayNumber hd hyear
  · intro n hn
    obtain ⟨hvalid, hnumber, hyear⟩ := ofDayNumber_spec hn
    exact ⟨hvalid, hyear, hnumber⟩
  · intro d hd hyear
    refine ⟨addDays_zero hd hyear, ?_⟩
    intro a ha
    exact ⟨fun b => addDays_addDays ha, addDays_neg hd hyear ha⟩

/-- A leap day four years before that of the year zero, a shift to the latter, and one
across the end of a century that has no leap day. -/
theorem dates_biject_numbers_leapDay :
    ofDayNumber (dayNumber ⟨-4, 2, 29⟩) = ⟨-4, 2, 29⟩ ∧
      (ofDayNumber (-719468)).Valid ∧ (ofDayNumber (-719468)).dayNumber = -719468 ∧
      ((⟨-4, 2, 29⟩ : Date).addDays 1461).addDays 36525 =
        (⟨-4, 2, 29⟩ : Date).addDays 37986 ∧
      ((⟨-4, 2, 29⟩ : Date).addDays 1461).addDays (-1461) = ⟨-4, 2, 29⟩ := by
  obtain ⟨hdate, hnumber, hshift, -⟩ := dates_biject_numbers
  have hvalid : (⟨-4, 2, 29⟩ : Date).Valid := by decide
  have hyear : FitsYear (-4) := ⟨by decide, by decide⟩
  obtain ⟨hzeroValid, -, hzero⟩ := hnumber (-719468) ⟨by decide, by decide⟩
  obtain ⟨hsum, hback⟩ := (hshift ⟨-4, 2, 29⟩ hvalid hyear).2 1461 ⟨by decide, by decide⟩
  exact ⟨hdate ⟨-4, 2, 29⟩ hvalid hyear, hzeroValid, hzero, hsum 36525, hback⟩

end LedgerConformance.Date
