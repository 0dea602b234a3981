import LedgerConformance.Proofs.Calendar.DateText
import LedgerConformance.Proofs.Calendar.DayNumber

/-!
The texts that are dates. A text is read as a date exactly when it holds year, month and
day in four, two and two decimal digits, divided by hyphens or by slashes, and these are a
day of the calendar. Numerals of one length that have the same value are the same, so the
text of a date that has been read is the text that was read, with hyphens for slashes.
-/

namespace LedgerConformance.Date

/-! ### The calendar -/

/-- The days of a year, by month and day. Every fourth year has a leap day, but of the full
centuries only every fourth one. -/
inductive IsDay (year : Int) : (month day : Nat) → Prop
  | long {month day : Nat} : month ∈ [1, 3, 5, 7, 8, 10, 12] → 1 ≤ day → day ≤ 31 →
    IsDay year month day
  | short {month day : Nat} : month ∈ [4, 6, 9, 11] → 1 ≤ day → day ≤ 30 →
    IsDay year month day
  | february {day : Nat} : 1 ≤ day → day ≤ 28 → IsDay year 2 day
  | leapDay : year % 4 = 0 → (year % 100 = 0 → year % 400 = 0) → IsDay year 2 29

theorem le_daysInMonth_of_isDay {year : Int} {month day : Nat} (h : IsDay year month day) :
    1 ≤ month ∧ month ≤ 12 ∧ 1 ≤ day ∧ day ≤ daysInMonth year month := by
  cases h with
  | long hmonth hday hday' =>
    simp only [List.mem_cons, List.not_mem_nil, or_false] at hmonth
    refine ⟨by omega, by omega, hday, ?_⟩
    rcases hmonth with rfl | rfl | rfl | rfl | rfl | rfl | rfl <;> exact hday'
  | short hmonth hday hday' =>
    simp only [List.mem_cons, List.not_mem_nil, or_false] at hmonth
    refine ⟨by omega, by omega, hday, ?_⟩
    rcases hmonth with rfl | rfl | rfl | rfl <;> exact hday'
  | february hday hday' =>
    refine ⟨by omega, by omega, hday, ?_⟩
    simp only [daysInMonth]
    split <;> omega
  | leapDay hfour hcentury =>
    have hleap : isLeap year = true := by
      rw [isLeap_iff]
      omega
    refine ⟨by omega, by omega, by omega, ?_⟩
    simp only [daysInMonth, hleap, if_true, Nat.le_refl]

theorem isDay_of_le_daysInMonth {year : Int} {month day : Nat} (hmonth : 1 ≤ month)
    (hmonth' : month ≤ 12) (hday : 1 ≤ day) (hday' : day ≤ daysInMonth year month) :
    IsDay year month day := by
  by_cases hfebruary : month = 2
  · subst hfebruary
    by_cases hleap : isLeap year = true
    · simp only [daysInMonth, hleap, if_true] at hday'
      by_cases hlast : day = 29
      · subst hlast
        rw [isLeap_iff] at hleap
        exact .leapDay (by omega) (by omega)
      · exact .february hday (by omega)
    · simp only [daysInMonth, hleap] at hday'
      exact .february hday hday'
  · by_cases hshort : month ∈ [4, 6, 9, 11]
    · refine .short hshort hday ?_
      simp only [List.mem_cons, List.not_mem_nil, or_false] at hshort
      rcases hshort with rfl | rfl | rfl | rfl <;> exact hday'
    · refine .long ?_ hday (hday'.trans (daysInMonth_le year month))
      simp only [List.mem_cons, List.not_mem_nil, or_false] at hshort ⊢
      omega

/-- The dates that count as valid are the days of the calendar. -/
theorem valid_iff_isDay {d : Date} : d.Valid ↔ IsDay d.year d.month d.day := by
  constructor
  · rintro ⟨hmonth, hmonth', hday, hday'⟩
    exact isDay_of_le_daysInMonth hmonth hmonth' hday hday'
  · exact le_daysInMonth_of_isDay

/-! ### Numerals of one length -/

/-- A row of decimal digits of a given length, and its value. -/
structure IsField (width : Nat) (digits : List Char) (n : Nat) : Prop where
  length : digits.length = width
  isDigit : ∀ c ∈ digits, c.isDigit = true
  value : Nat.ofDigitChars 10 digits 0 = n

theorem numeral_eq_ofDigitChars (digits : List Char) :
    numeral digits = Nat.ofDigitChars 10 digits 0 := rfl

theorem isField_iff {width n : Nat} {digits : List Char} :
    IsField width digits n ↔ isDigits width digits = true ∧ numeral digits = n := by
  rw [numeral_eq_ofDigitChars, isDigits, Bool.and_eq_true, beq_iff_eq, List.all_eq_true]
  exact ⟨fun h => ⟨⟨h.length, h.isDigit⟩, h.value⟩, fun h => ⟨h.1.1, h.1.2, h.2⟩⟩

instance instDecidableIsField (width : Nat) (digits : List Char) (n : Nat) :
    Decidable (IsField width digits n) :=
  decidable_of_iff _ isField_iff.symm

theorem eq_of_digit_value_eq {a b : Char} (ha : a.isDigit = true) (hb : b.isDigit = true)
    (h : a.toNat - '0'.toNat = b.toNat - '0'.toNat) : a = b := by
  simp only [Char.isDigit, Bool.and_eq_true, decide_eq_true_eq] at ha hb
  have hlow : '0'.toNat ≤ a.toNat := ha.1
  have hlow' : '0'.toNat ≤ b.toNat := hb.1
  exact Char.toNat_inj.mp (by omega)

/-- Numerals of one length that have the same value are the same. -/
theorem numeral_injective {as bs : List Char} (has : ∀ c ∈ as, c.isDigit = true)
    (hbs : ∀ c ∈ bs, c.isDigit = true) (hlength : as.length = bs.length)
    (h : numeral as = numeral bs) : as = bs := by
  -- from the last digit on, as the value of a numeral is made from there
  induction as using List.reverseRecOn generalizing bs with
  | nil => exact (List.length_eq_zero_iff.mp hlength.symm).symm
  | append_singleton as a ih =>
    rcases List.eq_nil_or_concat bs with rfl | ⟨bs, b, rfl⟩
    · simp at hlength
    · rw [List.concat_eq_append] at *
      simp only [List.forall_mem_append, List.forall_mem_singleton] at has hbs
      rw [numeral_concat, numeral_concat] at h
      have ha := digit_le_nine has.2
      have hb := digit_le_nine hbs.2
      have hfront : as = bs := ih has.1 hbs.1 (by simpa using hlength) (by omega)
      have hlast : a = b := eq_of_digit_value_eq has.2 hbs.2 (by omega)
      rw [hfront, hlast]

namespace IsField

variable {width n : Nat} {digits : List Char}

/-- A field is the padded numeral of its value. -/
theorem eq_padded (h : IsField width digits n) (hwidth : 0 < width) :
    digits = (padded width n).toList := by
  have hn : numeral digits = n := h.value
  have hlt : n < 10 ^ width := by
    rw [← hn, ← h.length]
    exact numeral_lt h.isDigit
  have hfits : (Nat.toDigits 10 n).length ≤ width :=
    (Nat.length_toDigits_le_iff (by omega) hwidth).mpr hlt
  refine numeral_injective h.isDigit (fun c hc => isDigit_of_mem_padded hc) ?_ ?_
  · rw [h.length, length_padded hfits]
  · rw [hn, numeral_padded]

end IsField

/-! ### Reading -/

/-- The texts of a date: year, month and day in four, two and two digits, with the same
separator twice, which is a hyphen or a slash. -/
inductive IsText : List Char → Date → Prop
  | fields {year month day : List Char} {y m d : Nat} {sep : Char} : sep = '-' ∨ sep = '/' →
    IsField 4 year y → IsField 2 month m → IsField 2 day d → IsDay y m d →
    IsText (year ++ sep :: (month ++ sep :: day)) ⟨y, m, d⟩

theorem IsText.parse?_eq {s : List Char} {d : Date} (h : IsText s d) : parse? s = some d := by
  cases h with
  | fields hsep hyear hmonth hday hexists =>
    obtain ⟨hyears, rfl⟩ := isField_iff.mp hyear
    obtain ⟨hmonths, rfl⟩ := isField_iff.mp hmonth
    obtain ⟨hdays, rfl⟩ := isField_iff.mp hday
    exact parse?_fields hsep hyears hmonths hdays (valid_iff_isDay.mpr hexists)

theorem isText_of_parse? {s : List Char} {d : Date} (h : parse? s = some d) : IsText s d := by
  obtain ⟨year, month, day, sep, hsep, hyear, hmonth, hday, hvalid, rfl, rfl⟩ :=
    exists_fields_of_parse? h
  exact .fields hsep (isField_iff.mpr ⟨hyear, rfl⟩) (isField_iff.mpr ⟨hmonth, rfl⟩)
    (isField_iff.mpr ⟨hday, rfl⟩) (valid_iff_isDay.mp hvalid)

theorem ofText?_eq_some_iff {s : String} {d : Date} :
    ofText? s = some d ↔ IsText s.toList d := ⟨isText_of_parse?, IsText.parse?_eq⟩

/-- The text of a date that is written with one separator is that with hyphens. -/
theorem IsText.toList_toText {s : List Char} {d : Date} (h : IsText s d) :
    d.toText.toList = s.map fun c => if c = '/' then '-' else c := by
  cases h with
  | @fields year month day y m d sep hsep hyear hmonth hday _ =>
    have hkept : ∀ {width n : Nat} {digits : List Char}, IsField width digits n →
        (digits.map fun c => if c = '/' then '-' else c) = digits := by
      intro width n digits hfield
      refine (List.map_congr_left fun c hc => if_neg ?_).trans (List.map_id digits)
      rintro rfl
      exact absurd (hfield.isDigit _ hc) (by decide)
    have hhyphen : (if sep = '/' then '-' else sep) = '-' := by
      rcases hsep with rfl | rfl <;> rfl
    rw [Date.toList_toText (Int.natCast_nonneg y)]
    simp only [List.map_append, List.map_cons, hkept hyear, hkept hmonth, hkept hday, hhyphen,
      Int.toNat_natCast, ← hyear.eq_padded (by omega), ← hmonth.eq_padded (by omega),
      ← hday.eq_padded (by omega)]

/-- A text is read as a date exactly when it is one of the texts of that date. A date of the
years 0 to 9999 is read back from its own text, and the own text of a date that was read is
what was read, with hyphens for slashes. -/
theorem ofText?_reads_dates :
    (∀ s d, ofText? s = some d ↔ IsText s.toList d) ∧
    (∀ d : Date, IsDay d.year d.month d.day → 0 ≤ d.year → d.year ≤ 9999 →
      ofText? d.toText = some d) ∧
    (∀ s d, ofText? s = some d → d.toText = s.map fun c => if c = '/' then '-' else c) := by
  refine ⟨fun s d => ofText?_eq_some_iff, ?_, ?_⟩
  · intro d hday hyear hyear'
    exact ofText?_toText (valid_iff_isDay.mpr hday) hyear hyear'
  · intro s d hread
    apply String.toList_inj.mp
    rw [(ofText?_eq_some_iff.mp hread).toList_toText, String.toList_map]

/-- A leap day between slashes, and the last day of the year zero. -/
theorem ofText?_reads_dates_leapDay :
    ofText? "2000/02/29" = some ⟨2000, 2, 29⟩ ∧
      (⟨2000, 2, 29⟩ : Date).toText = "2000/02/29".map (fun c => if c = '/' then '-' else c) ∧
      ofText? (⟨0, 12, 31⟩ : Date).toText = some ⟨0, 12, 31⟩ := by
  obtain ⟨hread, hback, htext⟩ := ofText?_reads_dates
  have hleapDay : ofText? "2000/02/29" = some ⟨2000, 2, 29⟩ := by
    have hyear : IsField 4 "2000".toList 2000 := by decide
    have hmonth : IsField 2 "02".toList 2 := by decide
    have hday : IsField 2 "29".toList 29 := by decide
    exact (hread _ _).mpr
      (.fields (Or.inr rfl) hyear hmonth hday (.leapDay (by decide) (by decide)))
  have hlast : IsDay 0 12 31 := .long (by decide) (by decide) (by decide)
  exact ⟨hleapDay, htext _ _ hleapDay, hback ⟨0, 12, 31⟩ hlast (by decide) (by decide)⟩

end LedgerConformance.Date
