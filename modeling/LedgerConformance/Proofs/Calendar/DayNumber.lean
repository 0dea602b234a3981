import LedgerConformance.Calendar.Date
import Mathlib.Tactic.IntervalCases

/-!
Dates and day numbers. With years that begin in March, a day number is the
number of days before its year and a place in that year, and the place is the
number of days before its month and a day of the month. Both splits can be
undone, so the fields of a day number name the day that has this number, and
the order of valid dates is that of their day numbers.
-/

namespace LedgerConformance.Date

/-- The year that began last March. -/
def marchYear (d : Date) : Int := d.year - (if d.month ≤ 2 then 1 else 0)

/-- The month, where March is zero. -/
def marchMonth (d : Date) : Int := (d.month + 9) % 12

/-- Days of a March year before one of its months. -/
def daysBeforeMonth (month : Int) : Int := (153 * month + 2) / 5

/-- Days before a March year, counted from the year zero. -/
def daysBeforeYear (year : Int) : Int := 365 * year + year / 4 - year / 100 + year / 400

/-- The place of a day in its March year, from zero. -/
def dayOfYear (d : Date) : Int := daysBeforeMonth d.marchMonth + d.day - 1

/-- The February at the end of a March year has a leap day. -/
def EndsWithLeapDay (year : Int) : Prop :=
  (year + 1) % 4 = 0 ∧ (year + 1) % 100 ≠ 0 ∨ (year + 1) % 400 = 0

/-- A place in a March year. -/
def IsDayOfYear (year day : Int) : Prop :=
  0 ≤ day ∧ (day ≤ 364 ∨ day = 365 ∧ EndsWithLeapDay year)

theorem isLeap_iff {year : Int} :
    isLeap year = true ↔ year % 4 = 0 ∧ year % 100 ≠ 0 ∨ year % 400 = 0 := by
  simp [isLeap]

theorem isLeap_add_one {year : Int} : isLeap (year + 1) = true ↔ EndsWithLeapDay year :=
  isLeap_iff

theorem dayNumber_eq (d : Date) :
    d.dayNumber = daysBeforeYear d.marchYear + d.dayOfYear - 719468 := by
  show d.marchYear / 400 * 146097 + (d.marchYear % 400 * 365 + d.marchYear % 400 / 4 -
    d.marchYear % 400 / 100 + d.dayOfYear) - 719468 = _
  unfold daysBeforeYear
  omega

/-- A March year has as many days as there are places in it. -/
theorem IsDayOfYear.lt_daysBeforeYear {year day : Int} (h : IsDayOfYear year day) :
    daysBeforeYear year + day < daysBeforeYear (year + 1) := by
  unfold IsDayOfYear EndsWithLeapDay at h
  unfold daysBeforeYear
  omega

theorem daysBeforeYear_mono {a b : Int} (h : a ≤ b) : daysBeforeYear a ≤ daysBeforeYear b := by
  unfold daysBeforeYear
  have hfour : a / 4 ≤ b / 4 := by omega
  have hhundred : b / 100 - a / 100 ≤ b - a := by omega
  have hfourHundred : a / 400 ≤ b / 400 := by omega
  omega

section Eras

variable {year day n : Int}

/-- The year of an era that a day of the era belongs to. -/
theorem yearOfEra_eq (hyear : 0 ≤ year) (hyear' : year ≤ 399) (hday : IsDayOfYear year day)
    (hn : n = 365 * year + year / 4 - year / 100 + day) :
    (n - n / 1460 + n / 36524 - n / 146096) / 365 = year := by
  obtain ⟨hday, hlast⟩ := hday
  unfold EndsWithLeapDay at hlast
  have hquarter : 25 * (year / 100) ≤ year / 4 ∧ year / 4 ≤ 25 * (year / 100) + 24 := by omega
  have hcentury : 36524 * (year / 100) ≤ n := by omega
  have hcentury' : n < 36524 * (year / 100 + 1) ∨ n = 146096 ∧ year = 399 := by omega
  -- the last day of an era is the only one that two corrections apply to
  have hcorrection : n / 36524 - n / 146096 = year / 100 := by omega
  have hleap : n / 1460 ≤ year / 4 + day := by omega
  have hleap' : year / 4 + day - 364 ≤ n / 1460 := by
    rcases hlast with hle | ⟨rfl, hlong⟩ <;> omega
  omega

/-- Every day of an era is a day of one of its years: of a century, of four
years in it, and of one of these. -/
theorem exists_yearOfEra (hn : 0 ≤ n) (hn' : n ≤ 146096) :
    ∃ year day, 0 ≤ year ∧ year ≤ 399 ∧ IsDayOfYear year day ∧
      n = 365 * year + year / 4 - year / 100 + day := by
  obtain ⟨c, hc, hc', hlow, hhigh⟩ : ∃ c : Int, 0 ≤ c ∧ c ≤ 3 ∧ 36524 * c ≤ n ∧
      (n < 36524 * (c + 1) ∨ c = 3) :=
    ⟨min (n / 36524) 3, by omega, by omega, by omega, by omega⟩
  obtain ⟨r, hr⟩ : ∃ r, r = n - 36524 * c := ⟨_, rfl⟩
  obtain ⟨q, hq, hq', hqlow, hqhigh⟩ : ∃ q : Int, 0 ≤ q ∧ q ≤ 24 ∧ 1461 * q ≤ r ∧
      r < 1461 * (q + 1) :=
    ⟨r / 1461, by omega, by omega, by omega, by omega⟩
  obtain ⟨y, hy, hy', hylow, hyhigh⟩ : ∃ y : Int, 0 ≤ y ∧ y ≤ 3 ∧ 365 * y ≤ r - 1461 * q ∧
      (r - 1461 * q < 365 * (y + 1) ∨ y = 3) :=
    ⟨min ((r - 1461 * q) / 365) 3, by omega, by omega, by omega, by omega⟩
  refine ⟨100 * c + 4 * q + y, r - 1461 * q - 365 * y, by omega, by omega, ⟨by omega, ?_⟩, ?_⟩
  · unfold EndsWithLeapDay
    omega
  · omega

/-- Every day number is a place in a March year. -/
theorem exists_marchYear (n : Int) :
    ∃ year day, IsDayOfYear year day ∧ n = daysBeforeYear year + day := by
  obtain ⟨year, day, hyear, hyear', hday, hn⟩ :=
    exists_yearOfEra (n := n % 146097) (by omega) (by omega)
  refine ⟨n / 146097 * 400 + year, day, ?_, ?_⟩
  · unfold IsDayOfYear EndsWithLeapDay at *
    omega
  · unfold daysBeforeYear
    omega

end Eras

section Months

/-- The year, month and day of a place in a March year. -/
def fieldsOfPlace (year day : Int) : Int × Nat × Nat :=
  let marchMonth := (5 * day + 2) / 153
  let month := if marchMonth < 10 then marchMonth + 3 else marchMonth - 9
  (year + (if month ≤ 2 then 1 else 0), month.toNat,
    (day - daysBeforeMonth marchMonth + 1).toNat)

theorem marchMonth_eq {d : Date} (h : d.Valid) :
    d.marchMonth = d.month - 3 ∧ 3 ≤ d.month ∨ d.marchMonth = d.month + 9 ∧ d.month ≤ 2 := by
  obtain ⟨hmonth, hmonth', _⟩ := h
  unfold marchMonth
  omega

/-- All months but February are as long as it is from one to the next. -/
theorem daysInMonth_eq_of_ne (year : Int) {month : Nat} (hmonth : 1 ≤ month)
    (hmonth' : month ≤ 12) (hfebruary : month ≠ 2) :
    (daysInMonth year month : Int) =
      daysBeforeMonth ((month + 9) % 12 + 1) - daysBeforeMonth ((month + 9) % 12) := by
  interval_cases month <;> first | contradiction | rfl

theorem daysInMonth_february (year : Int) :
    daysInMonth (year + 1) 2 = 28 ∧ ¬ EndsWithLeapDay year ∨
      daysInMonth (year + 1) 2 = 29 ∧ EndsWithLeapDay year := by
  by_cases hleap : isLeap (year + 1) = true
  · exact Or.inr ⟨by simp [daysInMonth, hleap], isLeap_add_one.mp hleap⟩
  · exact Or.inl ⟨by simp [daysInMonth, hleap], fun h => hleap (isLeap_add_one.mpr h)⟩

/-- The days of a month follow each other up to the next month, or to the end of
the March year. -/
theorem dayOfYear_bounds {d : Date} (h : d.Valid) :
    daysBeforeMonth d.marchMonth ≤ d.dayOfYear ∧
      (d.month ≠ 2 ∧ d.dayOfYear < daysBeforeMonth (d.marchMonth + 1) ∨
        d.month = 2 ∧ (d.dayOfYear ≤ 364 ∨ d.dayOfYear = 365 ∧ EndsWithLeapDay d.marchYear)) := by
  obtain ⟨hmonth, hmonth', hday, hday'⟩ := h
  have hplace : d.dayOfYear = daysBeforeMonth d.marchMonth + d.day - 1 := rfl
  refine ⟨by omega, ?_⟩
  by_cases hfebruary : d.month = 2
  · refine Or.inr ⟨hfebruary, ?_⟩
    have hyear : d.year = d.marchYear + 1 := by simp [marchYear, hfebruary]
    have hbefore : daysBeforeMonth d.marchMonth = 337 := by
      simp [marchMonth, hfebruary, daysBeforeMonth]
    rw [hfebruary, hyear] at hday'
    rcases daysInMonth_february d.marchYear with ⟨hshort, _⟩ | ⟨hlong, hleap⟩
    · omega
    · by_cases hlast : d.dayOfYear = 365
      · exact Or.inr ⟨hlast, hleap⟩
      · omega
  · refine Or.inl ⟨hfebruary, ?_⟩
    have hlength := daysInMonth_eq_of_ne d.year hmonth hmonth' hfebruary
    unfold marchMonth at *
    omega

theorem Valid.isDayOfYear {d : Date} (h : d.Valid) : IsDayOfYear d.marchYear d.dayOfYear := by
  obtain ⟨hfirst, hlast⟩ := dayOfYear_bounds h
  have hmonth := marchMonth_eq h
  have hmonth' := h.2.1
  unfold daysBeforeMonth at hfirst hlast
  rcases hlast with ⟨hother, hbefore⟩ | ⟨_, hlast⟩
  · exact ⟨by omega, Or.inl (by omega)⟩
  · exact ⟨by omega, hlast⟩

/-- The fields of the place of a valid date are those of the date. -/
theorem fieldsOfPlace_dayOfYear {d : Date} (h : d.Valid) :
    fieldsOfPlace d.marchYear d.dayOfYear = (d.year, d.month, d.day) := by
  obtain ⟨hfirst, hlast⟩ := dayOfYear_bounds h
  have hmonth := marchMonth_eq h
  obtain ⟨hpositive, hmonth', _⟩ := h
  have hmarch : (5 * d.dayOfYear + 2) / 153 = d.marchMonth := by
    unfold daysBeforeMonth at hfirst hlast
    omega
  have hplace : d.dayOfYear = daysBeforeMonth d.marchMonth + d.day - 1 := rfl
  have hyear : d.marchYear = d.year - (if d.month ≤ 2 then 1 else 0) := rfl
  have hsame : (if d.marchMonth < 10 then d.marchMonth + 3 else d.marchMonth - 9) =
      (d.month : Int) := by
    split <;> omega
  unfold fieldsOfPlace
  simp only [hmarch, hsame, Prod.mk.injEq]
  refine ⟨?_, by omega, by omega⟩
  by_cases hle : d.month ≤ 2
  · rw [hyear, if_pos hle, if_pos (by omega), Int.sub_add_cancel]
  · rw [hyear, if_neg hle, if_neg (by omega), Int.add_zero, Int.sub_zero]

/-- Every place in a March year is that of a valid date. -/
theorem exists_valid_of_isDayOfYear {year day : Int} (h : IsDayOfYear year day) :
    ∃ d : Date, d.Valid ∧ d.marchYear = year ∧ d.dayOfYear = day := by
  obtain ⟨hday, hlast⟩ := h
  have hend : day ≤ 365 := by omega
  obtain ⟨m, hm, hm', hlow, hhigh⟩ : ∃ m : Int, 0 ≤ m ∧ m ≤ 11 ∧ daysBeforeMonth m ≤ day ∧
      (m ≤ 10 → day < daysBeforeMonth (m + 1)) := by
    refine ⟨(5 * day + 2) / 153, by omega, by omega, ?_, ?_⟩ <;> unfold daysBeforeMonth <;> omega
  obtain ⟨month, hmonth, hmonth', hmarch⟩ : ∃ month : Nat, 1 ≤ month ∧ month ≤ 12 ∧
      ((month : Int) + 9) % 12 = m :=
    ⟨((m + 2) % 12 + 1).toNat, by omega, by omega, by omega⟩
  have hpositive : 1 ≤ (day - daysBeforeMonth m + 1).toNat := by omega
  refine ⟨⟨year + (if month ≤ 2 then 1 else 0), month, (day - daysBeforeMonth m + 1).toNat⟩,
    ⟨hmonth, hmonth', hpositive, ?_⟩, Int.add_sub_cancel _ _, ?_⟩
  · by_cases hfebruary : month = 2
    · subst hfebruary
      have hbefore : daysBeforeMonth m = 337 := by rw [← hmarch]; rfl
      have hlength : day - 337 + 1 ≤ daysInMonth (year + 1) 2 := by
        rcases daysInMonth_february year with ⟨hshort, hno⟩ | ⟨hlong, _⟩
        · rcases hlast with hle | ⟨_, hleap⟩
          · omega
          · contradiction
        · omega
      simp only [Nat.le_refl, if_true]
      omega
    · have hlength := daysInMonth_eq_of_ne (year + (if month ≤ 2 then 1 else 0)) hmonth hmonth'
        hfebruary
      rw [hmarch] at hlength
      simp only
      omega
  · show daysBeforeMonth ((month + 9) % 12) + _ - 1 = day
    rw [hmarch]
    simp only
    omega

end Months

/-- The fields of a day number are those of its place in a March year. -/
theorem fieldsOfDayNumber_eq {year day : Int} (h : IsDayOfYear year day) :
    fieldsOfDayNumber (daysBeforeYear year + day - 719468) = fieldsOfPlace year day := by
  obtain ⟨n, hn⟩ : ∃ n, n = 365 * (year % 400) + year % 400 / 4 - year % 400 / 100 + day :=
    ⟨_, rfl⟩
  have hplace : IsDayOfYear (year % 400) day := by
    unfold IsDayOfYear EndsWithLeapDay at *
    omega
  have hsplit : daysBeforeYear year + day = 146097 * (year / 400) + n := by
    unfold daysBeforeYear
    omega
  have hbounds : 0 ≤ n ∧ n ≤ 146096 := by
    unfold IsDayOfYear at hplace
    omega
  have hera : (daysBeforeYear year + day) / 146097 = year / 400 := by omega
  have hdayOfEra : (daysBeforeYear year + day) % 146097 = n := by omega
  have hyear := yearOfEra_eq (by omega) (by omega) hplace hn
  have hday : n - (365 * (year % 400) + year % 400 / 4 - year % 400 / 100) = day := by omega
  have hwhole : year % 400 + year / 400 * 400 = year := by omega
  simp only [fieldsOfDayNumber, Int.sub_add_cancel, hera, hdayOfEra, hyear, hday, hwhole]
  rfl

/-- A valid date is given back by its day number. -/
theorem fieldsOfDayNumber_dayNumber {d : Date} (h : d.Valid) :
    fieldsOfDayNumber d.dayNumber = (d.year, d.month, d.day) := by
  rw [dayNumber_eq, fieldsOfDayNumber_eq h.isDayOfYear, fieldsOfPlace_dayOfYear h]

theorem exists_valid_dayNumber (n : Int) : ∃ d : Date, d.Valid ∧ d.dayNumber = n := by
  obtain ⟨year, day, hday, hn⟩ := exists_marchYear (n + 719468)
  obtain ⟨d, hvalid, hyear, hplace⟩ := exists_valid_of_isDayOfYear hday
  refine ⟨d, hvalid, ?_⟩
  rw [dayNumber_eq, hyear, hplace]
  omega

/-- An earlier date is one of an earlier March year, or of the same one at an
earlier place. -/
theorem marchYear_lt_or_dayOfYear_lt {a b : Date} (ha : a.Valid) (hb : b.Valid) (h : a < b) :
    a.marchYear < b.marchYear ∨ a.marchYear = b.marchYear ∧ a.dayOfYear < b.dayOfYear := by
  have hamonth := marchMonth_eq ha
  have hbmonth := marchMonth_eq hb
  have halast := (dayOfYear_bounds ha).2
  have hbfirst := (dayOfYear_bounds hb).1
  obtain ⟨hapositive, ha', _⟩ := ha
  obtain ⟨hbpositive, hb', _⟩ := hb
  rw [lt_iff] at h
  have hyears : a.marchYear < b.marchYear ∨ a.marchYear = b.marchYear ∧
      (a.marchMonth < b.marchMonth ∨ a.marchMonth = b.marchMonth ∧ a.day < b.day) := by
    unfold marchYear
    by_cases hale : a.month ≤ 2 <;> by_cases hble : b.month ≤ 2 <;>
      simp only [hale, hble, if_true, if_false] <;> omega
  rcases hyears with hyear | ⟨hyear, hmonth | ⟨hmonth, hday⟩⟩
  · exact Or.inl hyear
  · refine Or.inr ⟨hyear, ?_⟩
    rcases halast with ⟨_, hbefore⟩ | ⟨hfebruary, _⟩
    · unfold daysBeforeMonth at *
      omega
    · omega
  · refine Or.inr ⟨hyear, ?_⟩
    unfold dayOfYear
    rw [hmonth]
    omega

/-- Of two valid dates, the earlier one has the lower number. -/
theorem dayNumber_lt_of_lt {a b : Date} (ha : a.Valid) (hb : b.Valid) (h : a < b) :
    a.dayNumber < b.dayNumber := by
  rw [dayNumber_eq, dayNumber_eq]
  rcases marchYear_lt_or_dayOfYear_lt ha hb h with hyear | ⟨hyear, hday⟩
  · have hend := ha.isDayOfYear.lt_daysBeforeYear
    have hnext : daysBeforeYear (a.marchYear + 1) ≤ daysBeforeYear b.marchYear :=
      daysBeforeYear_mono hyear
    have hstart := hb.isDayOfYear.1
    omega
  · rw [hyear]
    omega

theorem lt_iff_dayNumber_lt {a b : Date} (ha : a.Valid) (hb : b.Valid) :
    a < b ↔ a.dayNumber < b.dayNumber := by
  refine ⟨dayNumber_lt_of_lt ha hb, ?_⟩
  intro hlt
  rcases lt_or_eq_or_gt a b with h | rfl | h
  · exact h
  · omega
  · have hgt := dayNumber_lt_of_lt hb ha h
    omega

theorem le_iff_dayNumber_le {a b : Date} (ha : a.Valid) (hb : b.Valid) :
    a ≤ b ↔ a.dayNumber ≤ b.dayNumber := by
  rw [le_iff_not_lt, lt_iff_dayNumber_lt hb ha, Int.not_lt]

theorem dayNumber_inj {a b : Date} (ha : a.Valid) (hb : b.Valid) :
    a.dayNumber = b.dayNumber ↔ a = b := by
  refine ⟨?_, congrArg dayNumber⟩
  intro hnumber
  rcases lt_or_eq_or_gt a b with h | h | h
  · have hlt := dayNumber_lt_of_lt ha hb h
    omega
  · exact h
  · have hgt := dayNumber_lt_of_lt hb ha h
    omega

/-- The year of a day number. -/
def yearOfDayNumber (n : Int) : Int := (fieldsOfDayNumber n).1

theorem yearOfDayNumber_dayNumber {d : Date} (h : d.Valid) :
    yearOfDayNumber d.dayNumber = d.year := by
  rw [yearOfDayNumber, fieldsOfDayNumber_dayNumber h]

theorem yearOfDayNumber_mono {m n : Int} (h : m ≤ n) : yearOfDayNumber m ≤ yearOfDayNumber n := by
  obtain ⟨a, ha, rfl⟩ := exists_valid_dayNumber m
  obtain ⟨b, hb, rfl⟩ := exists_valid_dayNumber n
  rw [yearOfDayNumber_dayNumber ha, yearOfDayNumber_dayNumber hb]
  have hle := (le_iff_dayNumber_le ha hb).mpr h
  rw [le_iff_not_lt, lt_iff] at hle
  omega

/-- A year that fits into 32 bits with its sign. -/
def FitsYear (year : Int) : Prop := -0x80000000 ≤ year ∧ year < 0x80000000

theorem wrapYear_eq {year : Int} (h : FitsYear year) : wrapYear year = year := by
  obtain ⟨hlow, hhigh⟩ := h
  exact Int.bmod_eq_of_le (by omega) (by omega)

theorem ofDayNumber_dayNumber {d : Date} (h : d.Valid) (hyear : FitsYear d.year) :
    ofDayNumber d.dayNumber = d := by
  rw [ofDayNumber, fieldsOfDayNumber_dayNumber h]
  simp only [wrapYear_eq hyear]

/-- A day number whose year fits is that of a valid date. -/
theorem ofDayNumber_spec {n : Int} (h : FitsYear (yearOfDayNumber n)) :
    (ofDayNumber n).Valid ∧ (ofDayNumber n).dayNumber = n ∧
      (ofDayNumber n).year = yearOfDayNumber n := by
  obtain ⟨d, hd, rfl⟩ := exists_valid_dayNumber n
  rw [yearOfDayNumber_dayNumber hd] at *
  rw [ofDayNumber_dayNumber hd h]
  exact ⟨hd, rfl, rfl⟩

end LedgerConformance.Date
