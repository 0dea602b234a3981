import LedgerConformance.Calendar.Timestamp
import LedgerConformance.Proofs.Calendar.DateForms
import LedgerConformance.Proofs.Calendar.DayNumber
import Mathlib.Data.String.Basic

/-!
Points in time as texts. The day of a point in time is counted as the days of ledgers are, and
neither its month nor its day of the month is ever out of range. Up to the end of the year 9999
the text has seven fields of fixed widths, which are the date and the time of day. Texts of such
fields are in the order of their numbers, where the first one that differs decides, and so these
are in the order of the points in time.
-/

namespace LedgerConformance.Date

/-! ### Numerals of one length -/

theorem append_lt_append_iff {α : Type} [LT α] {as bs : List α}
    (h : as.length = bs.length) (xs ys : List α) :
    as ++ xs < bs ++ ys ↔ as < bs ∨ as = bs ∧ xs < ys := by
  induction as generalizing bs with
  | nil =>
    rw [List.length_eq_zero_iff.mp h.symm]
    simp
  | cons a as ih =>
    cases bs with
    | nil => simp at h
    | cons b bs =>
      rw [List.cons_append, List.cons_append, List.cons_lt_cons_iff, List.cons_lt_cons_iff,
        ih (Nat.succ.inj h), List.cons.injEq]
      simp only [and_or_left, or_assoc, and_assoc]

theorem digit_lt_iff {a b : Char} (ha : a.isDigit = true) (hb : b.isDigit = true) :
    a < b ↔ a.toNat - '0'.toNat < b.toNat - '0'.toNat := by
  simp only [Char.isDigit, Bool.and_eq_true, decide_eq_true_eq] at ha hb
  have hlow : '0'.toNat ≤ a.toNat := ha.1
  have hlow' : '0'.toNat ≤ b.toNat := hb.1
  have horder : a < b ↔ a.toNat < b.toNat := Iff.rfl
  rw [horder]
  omega

/-- Numerals of one length are in the order of their values. -/
theorem numeral_lt_iff {as bs : List Char} (has : ∀ c ∈ as, c.isDigit = true)
    (hbs : ∀ c ∈ bs, c.isDigit = true) (hlength : as.length = bs.length) :
    as < bs ↔ numeral as < numeral bs := by
  -- from the last digit on, as the value of a numeral is made from there
  induction as using List.reverseRecOn generalizing bs with
  | nil =>
    rw [List.length_eq_zero_iff.mp hlength.symm]
    simp
  | append_singleton as a ih =>
    rcases List.eq_nil_or_concat bs with rfl | ⟨bs, b, rfl⟩
    · simp at hlength
    · rw [List.concat_eq_append] at *
      simp only [List.forall_mem_append, List.forall_mem_singleton] at has hbs
      have hfront : as.length = bs.length := by simpa using hlength
      have hsame : as = bs ↔ numeral as = numeral bs :=
        ⟨congrArg numeral, numeral_injective has.1 hbs.1 hfront⟩
      have hlast : [a] < [b] ↔ a.toNat - '0'.toNat < b.toNat - '0'.toNat := by
        rw [← digit_lt_iff has.2 hbs.2, List.cons_lt_cons_iff]
        simp
      have ha := digit_le_nine has.2
      have hb := digit_le_nine hbs.2
      rw [append_lt_append_iff hfront, ih has.1 hbs.1 hfront, hsame, hlast, numeral_concat,
        numeral_concat]
      omega

theorem IsField.lt_iff {width m n : Nat} {as bs : List Char} (ha : IsField width as m)
    (hb : IsField width bs n) : as < bs ↔ m < n := by
  have hlength : as.length = bs.length := ha.length.trans hb.length.symm
  rw [numeral_lt_iff ha.isDigit hb.isDigit hlength, numeral_eq_ofDigitChars,
    numeral_eq_ofDigitChars, ha.value, hb.value]

theorem IsField.eq_iff {width m n : Nat} {as bs : List Char} (ha : IsField width as m)
    (hb : IsField width bs n) : as = bs ↔ m = n := by
  have hlength : as.length = bs.length := ha.length.trans hb.length.symm
  rw [← ha.value, ← hb.value]
  exact ⟨congrArg (Nat.ofDigitChars 10 · 0), numeral_injective ha.isDigit hb.isDigit hlength⟩

theorem isField_padded {width n : Nat} (hwidth : 0 < width) (h : n < 10 ^ width) :
    IsField width (padded width n).toList n :=
  isField_iff.mpr ⟨isDigits_padded ((Nat.length_toDigits_le_iff (by omega) hwidth).mpr h),
    numeral_padded width n⟩

/-! ### Fields with marks -/

/-- A text of numbers in a layout, which says for each number how many digits there are and what
stands behind them. -/
inductive HasFields : (layout : List (Nat × Char)) → List Nat → List Char → Prop
  | nil : HasFields [] [] []
  | cons {width n : Nat} {mark : Char} {layout : List (Nat × Char)} {ns : List Nat}
    {digits text : List Char} : IsField width digits n → HasFields layout ns text →
    HasFields ((width, mark) :: layout) (n :: ns) (digits ++ mark :: text)

namespace HasFields

variable {layout : List (Nat × Char)} {ms ns : List Nat} {s t : List Char}

theorem length_eq (h : HasFields layout ns s) : s.length = (layout.map (·.1 + 1)).sum := by
  induction h with
  | nil => rfl
  | cons hfield _ ih =>
    rw [List.length_append, List.length_cons, hfield.length, ih, List.map_cons, List.sum_cons]
    omega

theorem lt_iff (hs : HasFields layout ms s) (ht : HasFields layout ns t) : s < t ↔ ms < ns := by
  induction hs generalizing ns t with
  | nil =>
    cases ht
    simp
  | cons hfield _ ih =>
    cases ht with
    | cons hfield' hrest' =>
      have hlength := hfield.length.trans hfield'.length.symm
      rw [append_lt_append_iff hlength, List.cons_lt_cons_iff, List.cons_lt_cons_iff, ih hrest',
        hfield.lt_iff hfield', hfield.eq_iff hfield']
      simp

end HasFields

end LedgerConformance.Date

namespace LedgerConformance.Timestamp

open Date (IsDay IsField HasFields FitsYear yearOfDayNumber ofDayNumber fieldsOfDayNumber)

/-! ### The date -/

theorem fieldsOfDayNumber_eq (days : Int) :
    fieldsOfDayNumber days =
      ((marchPlace days).1 + (if (monthAndDay (marchPlace days).2).1 ≤ 2 then 1 else 0),
        (monthAndDay (marchPlace days).2).1.toNat, (monthAndDay (marchPlace days).2).2.toNat) := by
  simp only [fieldsOfDayNumber, marchPlace, monthAndDay, Int.mul_comm 400]

theorem word?_natCast {n : Nat} (h : n < 0x100000000) : word? n = some n := by
  rw [word?, if_pos (by omega), Int.toNat_natCast]

/-- The month and the day that are computed for a day of the calendar are its own. -/
theorem monthAndDay_dayNumber {d : Date} (h : d.Valid) :
    monthAndDay (marchPlace d.dayNumber).2 = ((d.month : Int), (d.day : Int)) := by
  have hfields := fieldsOfDayNumber_eq d.dayNumber
  rw [Date.fieldsOfDayNumber_dayNumber h, Prod.mk.injEq, Prod.mk.injEq] at hfields
  obtain ⟨-, hmonth, hday⟩ := hfields
  obtain ⟨hmonth', _, hday', _⟩ := h
  refine Prod.ext ?_ ?_
  · show (monthAndDay (marchPlace d.dayNumber).2).1 = (d.month : Int)
    omega
  · show (monthAndDay (marchPlace d.dayNumber).2).2 = (d.day : Int)
    omega

theorem civil_dayNumber {d : Date} (h : d.Valid) :
    civil d.dayNumber = (d.year, d.month, d.day) := by
  have hfields := fieldsOfDayNumber_eq d.dayNumber
  have hlength := Date.daysInMonth_le d.year d.month
  obtain ⟨_, hmonth, _, hday⟩ := id h
  rw [Date.fieldsOfDayNumber_dayNumber h, monthAndDay_dayNumber h] at hfields
  have hyear := (Prod.mk.inj hfields).1
  simp only [civil, monthAndDay_dayNumber h, word?_natCast (n := d.month) (by omega),
    word?_natCast (n := d.day) (by omega), Option.getD_some]
  rw [hyear]
  simp only [Nat.cast_le_ofNat]

/-- Both ways to count days name the same day. -/
theorem civil_eq_ofDayNumber {days : Int} (h : FitsYear (yearOfDayNumber days)) :
    civil days = ((ofDayNumber days).year, (ofDayNumber days).month, (ofDayNumber days).day) := by
  obtain ⟨hvalid, hnumber, -⟩ := Date.ofDayNumber_spec h
  conv => lhs; rw [← hnumber]
  exact civil_dayNumber hvalid

/-- A month is never out of range, and a day of a month neither. -/
theorem exists_monthAndDay (days : Int) : ∃ month day : Nat, 1 ≤ month ∧ month ≤ 12 ∧ 1 ≤ day ∧
    day ≤ 31 ∧ monthAndDay (marchPlace days).2 = ((month : Int), (day : Int)) ∧
    word? month = some month ∧ word? day = some day := by
  obtain ⟨d, hvalid, rfl⟩ := Date.exists_valid_dayNumber days
  have hlength := Date.daysInMonth_le d.year d.month
  obtain ⟨hmonth, hmonth', hday, hday'⟩ := id hvalid
  exact ⟨d.month, d.day, hmonth, hmonth', hday, by omega, monthAndDay_dayNumber hvalid,
    word?_natCast (by omega), word?_natCast (by omega)⟩

/-! ### The text -/

/-- Year, month, day, hour, minute, second and millisecond. -/
def layout : List (Nat × Char) :=
  [(4, '-'), (2, '-'), (2, 'T'), (2, ':'), (2, ':'), (2, '.'), (3, 'Z')]

/-- The numbers in the text of a point in time on a given date. -/
def fields (d : Date) (seconds millis : Nat) : List Nat :=
  [d.year.toNat, d.month, d.day, seconds / 3600 % 24, seconds / 60 % 60, seconds % 60, millis]

/-- The date is that of a point in time before the year 10000. -/
structure IsDateOf (d : Date) (seconds : Nat) : Prop where
  isDay : IsDay d.year d.month d.day
  dayNumber : d.dayNumber = (seconds / 86400 : Nat)
  year_nonneg : 0 ≤ d.year
  year_le : d.year ≤ 9999

/-- The first second of the year 10000. -/
def endOfTime : Nat := (Date.dayNumber ⟨10000, 1, 1⟩).toNat * 86400

theorem exists_isDateOf {seconds : Nat} (h : seconds < endOfTime) : ∃ d, IsDateOf d seconds := by
  obtain ⟨d, hvalid, hnumber⟩ := Date.exists_valid_dayNumber (seconds / 86400 : Nat)
  have hepoch : (⟨1970, 1, 1⟩ : Date).Valid := by decide
  have hend : (⟨10000, 1, 1⟩ : Date).Valid := by decide
  have hfirst : (⟨1970, 1, 1⟩ : Date) ≤ d := by
    have hzero : Date.dayNumber ⟨1970, 1, 1⟩ = 0 := by decide
    rw [Date.le_iff_dayNumber_le hepoch hvalid, hnumber, hzero]
    omega
  have hlast : d < ⟨10000, 1, 1⟩ := by
    rw [Date.lt_iff_dayNumber_lt hvalid hend, hnumber]
    unfold endOfTime at h
    omega
  have hmonth := hvalid.1
  have hday := hvalid.2.2.1
  rw [Date.le_iff_not_lt, Date.lt_iff] at hfirst
  rw [Date.lt_iff] at hlast
  simp only at hfirst hlast
  exact ⟨d, Date.valid_iff_isDay.mp hvalid, hnumber, by omega, by omega⟩

theorem IsDateOf.hasFields {d : Date} {seconds millis : Nat} (h : IsDateOf d seconds)
    (hmillis : millis < 1000) :
    HasFields layout (fields d seconds millis) (write seconds millis).toList := by
  have hvalid := Date.valid_iff_isDay.mpr h.isDay
  have hlength := Date.daysInMonth_le d.year d.month
  obtain ⟨hmonth, hmonth', hday, hday'⟩ := id hvalid
  have hyear := h.year_le
  have hhour : seconds % 86400 / 3600 = seconds / 3600 % 24 := by omega
  have hminute : seconds % 3600 / 60 = seconds / 60 % 60 := by omega
  have hwrite : (write seconds millis).toList =
      (Date.padded 4 d.year.toNat).toList ++ '-' :: ((Date.padded 2 d.month).toList ++ '-' ::
        ((Date.padded 2 d.day).toList ++ 'T' :: ((Date.padded 2 (seconds / 3600 % 24)).toList ++
          ':' :: ((Date.padded 2 (seconds / 60 % 60)).toList ++
            ':' :: ((Date.padded 2 (seconds % 60)).toList ++
              '.' :: ((Date.padded 3 millis).toList ++ ['Z'])))))) := by
    simp [write, ← h.dayNumber, civil_dayNumber hvalid, Date.toList_toText h.year_nonneg, hhour,
      hminute]
  rw [hwrite]
  exact .cons (Date.isField_padded (by omega) (by omega)) <|
    .cons (Date.isField_padded (by omega) (by omega)) <|
    .cons (Date.isField_padded (by omega) (by omega)) <|
    .cons (Date.isField_padded (by omega) (by omega)) <|
    .cons (Date.isField_padded (by omega) (by omega)) <|
    .cons (Date.isField_padded (by omega) (by omega)) <|
    .cons (Date.isField_padded (by omega) (by omega)) .nil

theorem toNat_lt_toNat_or_iff {a b : Int} (ha : 0 ≤ a) (hb : 0 ≤ b) (p : Prop) :
    a.toNat < b.toNat ∨ a.toNat = b.toNat ∧ p ↔ a < b ∨ a = b ∧ p := by
  have hlt : a.toNat < b.toNat ↔ a < b := by omega
  have heq : a.toNat = b.toNat ↔ a = b := by omega
  rw [hlt, heq]

theorem clock_eq (seconds : Nat) : seconds % 86400 =
    3600 * (seconds / 3600 % 24) + 60 * (seconds / 60 % 60) + seconds % 60 := by omega

/-- The hour decides first, then the minute and the second. -/
theorem clock_lt_iff {hour minute second millis hour' minute' second' millis' : Nat}
    (hminute : minute < 60) (hminute' : minute' < 60) (hsecond : second < 60)
    (hsecond' : second' < 60) :
    [hour, minute, second, millis] < [hour', minute', second', millis'] ↔
      3600 * hour + 60 * minute + second < 3600 * hour' + 60 * minute' + second' ∨
        3600 * hour + 60 * minute + second = 3600 * hour' + 60 * minute' + second' ∧
          millis < millis' := by
  simp only [List.cons_lt_cons_iff, List.not_lt_nil, and_false, or_false]
  omega

/-- The numbers of two points in time are in the order of these: by the date first, then by the
time of day. -/
theorem IsDateOf.fields_lt_iff {a b : Date} {seconds seconds' : Nat} (ha : IsDateOf a seconds)
    (hb : IsDateOf b seconds') (millis millis' : Nat) :
    fields a seconds millis < fields b seconds' millis' ↔
      seconds < seconds' ∨ seconds = seconds' ∧ millis < millis' := by
  have hvalid := Date.valid_iff_isDay.mpr ha.isDay
  have hvalid' := Date.valid_iff_isDay.mpr hb.isDay
  have hdates := Date.lt_iff_dayNumber_lt hvalid hvalid'
  have hclock : [seconds / 3600 % 24, seconds / 60 % 60, seconds % 60, millis] <
      [seconds' / 3600 % 24, seconds' / 60 % 60, seconds' % 60, millis'] ↔
        seconds % 86400 < seconds' % 86400 ∨
          seconds % 86400 = seconds' % 86400 ∧ millis < millis' := by
    rw [clock_eq seconds, clock_eq seconds']
    exact clock_lt_iff (by omega) (by omega) (by omega) (by omega)
  have hsame : a = b ↔ seconds / 86400 = seconds' / 86400 := by
    rw [← Date.dayNumber_inj hvalid hvalid', ha.dayNumber, hb.dayNumber, Int.natCast_inj]
  have hlists : fields a seconds millis < fields b seconds' millis' ↔
      a < b ∨ a = b ∧ [seconds / 3600 % 24, seconds / 60 % 60, seconds % 60, millis] <
        [seconds' / 3600 % 24, seconds' / 60 % 60, seconds' % 60, millis'] := by
    unfold fields
    rw [List.cons_lt_cons_iff, List.cons_lt_cons_iff, List.cons_lt_cons_iff,
      toNat_lt_toNat_or_iff ha.year_nonneg hb.year_nonneg, Date.lt_iff, Date.eq_iff]
    simp only [and_or_left, or_assoc, and_assoc]
  rw [hlists, hclock, hdates, hsame, ha.dayNumber, hb.dayNumber]
  omega

theorem write_lt_write_iff {seconds millis seconds' millis' : Nat} (hseconds : seconds < endOfTime)
    (hmillis : millis < 1000) (hseconds' : seconds' < endOfTime) (hmillis' : millis' < 1000) :
    write seconds millis < write seconds' millis' ↔
      seconds < seconds' ∨ seconds = seconds' ∧ millis < millis' := by
  obtain ⟨d, hd⟩ := exists_isDateOf hseconds
  obtain ⟨d', hd'⟩ := exists_isDateOf hseconds'
  rw [String.lt_iff_toList_lt, (hd.hasFields hmillis).lt_iff (hd'.hasFields hmillis'),
    hd.fields_lt_iff hd']

/-- A point in time before the year 10000 has a text of 24 characters with its date and time in
fields. The texts are in the order of the points in time, and no two points have the same. The
date of a day is the one that dates of ledgers have at its number, and no month or day that is
computed for it is out of range. -/
theorem write_orders_time :
    (∀ seconds millis, seconds < endOfTime → millis < 1000 →
      (write seconds millis).length = 24 ∧ ∃ d, IsDateOf d seconds ∧
        HasFields layout (fields d seconds millis) (write seconds millis).toList) ∧
    (∀ seconds millis seconds' millis', seconds < endOfTime → millis < 1000 →
      seconds' < endOfTime → millis' < 1000 →
      (seconds < seconds' ∨ seconds = seconds' ∧ millis < millis' ↔
        write seconds millis < write seconds' millis') ∧
      (write seconds millis = write seconds' millis' → seconds = seconds' ∧ millis = millis')) ∧
    (∀ days, FitsYear (yearOfDayNumber days) → civil days =
      ((ofDayNumber days).year, (ofDayNumber days).month, (ofDayNumber days).day)) ∧
    ∀ days, ∃ month day : Nat, 1 ≤ month ∧ month ≤ 12 ∧ 1 ≤ day ∧ day ≤ 31 ∧
      monthAndDay (marchPlace days).2 = ((month : Int), (day : Int)) ∧
      word? month = some month ∧ word? day = some day := by
  refine ⟨?_, ?_, fun days h => civil_eq_ofDayNumber h, exists_monthAndDay⟩
  · intro seconds millis hseconds hmillis
    obtain ⟨d, hd⟩ := exists_isDateOf hseconds
    have hfields := hd.hasFields hmillis
    refine ⟨?_, d, hd, hfields⟩
    rw [← String.length_toList, hfields.length_eq]
    rfl
  · intro seconds millis seconds' millis' hseconds hmillis hseconds' hmillis'
    have hforth := write_lt_write_iff hseconds hmillis hseconds' hmillis'
    have hback := write_lt_write_iff hseconds' hmillis' hseconds hmillis
    refine ⟨hforth.symm, ?_⟩
    intro hsame
    rw [hsame] at hforth hback
    have hneither := hforth.not.mp (String.lt_irrefl _)
    have hneither' := hback.not.mp (String.lt_irrefl _)
    omega

/-- The last millisecond of a leap day and the first one after it; and the day before March of
the year zero. -/
theorem write_orders_time_leapDay :
    1709251199 < endOfTime ∧ 1709251200 < endOfTime ∧ FitsYear (yearOfDayNumber (-719469)) ∧
      write 1709251199 999 < write 1709251200 0 ∧
      (write 1709251199 999).length = 24 ∧ write 1709251199 999 = "2024-02-29T23:59:59.999Z" ∧
      civil (-719469) = (0, 2, 29) := by
  obtain ⟨htext, horder, hcivil, -⟩ := write_orders_time
  have hbefore : 1709251199 < endOfTime := by decide
  have hafter : 1709251200 < endOfTime := by decide
  have hyear : FitsYear (yearOfDayNumber (-719469)) := ⟨by decide, by decide⟩
  have hlt := (horder 1709251199 999 1709251200 0 hbefore (by decide) hafter (by decide)).1
  refine ⟨hbefore, hafter, hyear, hlt.mp (Or.inl (by decide)),
    (htext _ _ hbefore (by decide)).1, by decide +kernel, ?_⟩
  rw [hcivil _ hyear]
  decide

end LedgerConformance.Timestamp
