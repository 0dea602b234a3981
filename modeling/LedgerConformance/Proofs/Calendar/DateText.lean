import LedgerConformance.Calendar.Date
import LedgerConformance.Proofs.Text.Pieces
import Mathlib.Algebra.Group.Nat.Defs
import Mathlib.Data.List.Induction

/-!
Dates as texts. A padded numeral of few enough digits is read back as its
number, so a date of the years 0 to 9999 is read back from its text. The text
starts with a digit and has no characters but digits and hyphens. What is read
as a date is always a day of these years.
-/

namespace LedgerConformance.Date

theorem toList_padded (width n : Nat) :
    (padded width n).toList =
      List.replicate (width - (Nat.toDigits 10 n).length) '0' ++ Nat.toDigits 10 n := by
  simp [padded, Nat.toList_repr]

theorem length_toDigits_le_two {n : Nat} (h : n < 100) : (Nat.toDigits 10 n).length ≤ 2 :=
  (Nat.length_toDigits_le_iff (by omega) (by omega)).mpr h

theorem length_toDigits_le_four {n : Nat} (h : n < 10000) : (Nat.toDigits 10 n).length ≤ 4 :=
  (Nat.length_toDigits_le_iff (by omega) (by omega)).mpr h

theorem length_padded {width n : Nat} (h : (Nat.toDigits 10 n).length ≤ width) :
    (padded width n).toList.length = width := by
  rw [toList_padded, List.length_append, List.length_replicate]
  omega

theorem isDigit_of_mem_padded {width n : Nat} {c : Char} (h : c ∈ (padded width n).toList) :
    c.isDigit = true := by
  rw [toList_padded, List.mem_append] at h
  rcases h with hzero | hdigit
  · rw [List.eq_of_mem_replicate hzero]
    rfl
  · exact Nat.isDigit_of_mem_toDigits (by omega) (by omega) hdigit

theorem numeral_padded (width n : Nat) : numeral (padded width n).toList = n := by
  change Nat.ofDigitChars 10 (padded width n).toList 0 = n
  rw [toList_padded, Nat.ofDigitChars_append, Nat.ofDigitChars_replicate_zero, Nat.mul_zero,
    Nat.ofDigitChars_ten_toDigits]

theorem isDigits_padded {width n : Nat} (h : (Nat.toDigits 10 n).length ≤ width) :
    isDigits width (padded width n).toList = true := by
  simp only [isDigits, length_padded h, beq_self_eq_true, Bool.true_and, List.all_eq_true]
  exact fun c hc => isDigit_of_mem_padded hc

theorem toList_toText {d : Date} (hyear : 0 ≤ d.year) :
    d.toText.toList =
      (padded 4 d.year.toNat).toList ++ '-' :: ((padded 2 d.month).toList ++
        '-' :: (padded 2 d.day).toList) := by
  have hnat : d.year.natAbs = d.year.toNat := by omega
  have hsign : ¬ d.year < 0 := by omega
  simp [toText, yearText, hsign, hnat]

/-- The text of a date is digits and hyphens. -/
theorem isDigit_or_hyphen_of_mem_toText {d : Date} (hyear : 0 ≤ d.year) {c : Char}
    (h : c ∈ d.toText.toList) : c.isDigit = true ∨ c = '-' := by
  simp only [toList_toText hyear, List.mem_append, List.mem_cons] at h
  rcases h with hc | hc | hc | hc | hc
  · exact Or.inl (isDigit_of_mem_padded hc)
  · exact Or.inr hc
  · exact Or.inl (isDigit_of_mem_padded hc)
  · exact Or.inr hc
  · exact Or.inl (isDigit_of_mem_padded hc)

theorem toText_starts_with_digit {d : Date} (hyear : 0 ≤ d.year) (hyear' : d.year ≤ 9999) :
    ∃ c rest, d.toText.toList = c :: rest ∧ c.isDigit = true := by
  have hlength : (padded 4 d.year.toNat).toList.length = 4 :=
    length_padded (length_toDigits_le_four (by omega))
  cases hpad : (padded 4 d.year.toNat).toList with
  | nil => simp [hpad] at hlength
  | cons c rest =>
    refine ⟨c, _, by rw [toList_toText hyear, hpad, List.cons_append], ?_⟩
    exact isDigit_of_mem_padded (hpad ▸ List.mem_cons_self)

theorem daysInMonth_le (year : Int) (month : Nat) : daysInMonth year month ≤ 31 := by
  unfold daysInMonth
  split <;> try omega
  split <;> omega

theorem not_mem_of_isDigits {count : Nat} {s : List Char} (h : isDigits count s = true) {c : Char}
    (hc : c.isDigit = false) : c ∉ s := by
  intro hmem
  rw [isDigits, Bool.and_eq_true, List.all_eq_true] at h
  rw [h.2 c hmem] at hc
  contradiction

/-- Fields of digits with the same separator between them are read as a date, if they are a
day of the calendar. -/
theorem parse?_fields {year month day : List Char} {sep : Char} (hsep : sep = '-' ∨ sep = '/')
    (hyear : isDigits 4 year = true) (hmonth : isDigits 2 month = true)
    (hday : isDigits 2 day = true)
    (hvalid : Valid ⟨numeral year, numeral month, numeral day⟩) :
    parse? (year ++ sep :: (month ++ sep :: day)) =
      some ⟨numeral year, numeral month, numeral day⟩ := by
  have hslash : (year ++ sep :: (month ++ sep :: day)).contains '/' = (sep == '/') := by
    have hyear' := not_mem_of_isDigits hyear (c := '/') rfl
    have hmonth' := not_mem_of_isDigits hmonth (c := '/') rfl
    have hday' := not_mem_of_isDigits hday (c := '/') rfl
    simp [hyear', hmonth', hday', eq_comm, Bool.beq_eq_decide_eq]
  have hchosen : (if sep == '/' then '/' else '-') = sep := by
    rcases hsep with rfl | rfl <;> rfl
  have hmark : sep.isDigit = false := by
    rcases hsep with rfl | rfl <;> rfl
  have hpieces : (year ++ sep :: (month ++ sep :: day)).splitOn sep = [year, month, day] := by
    rw [List.splitOn_append_cons_self_of_not_mem (not_mem_of_isDigits hyear hmark),
      List.splitOn_append_cons_self_of_not_mem (not_mem_of_isDigits hmonth hmark),
      List.splitOn_eq_singleton (not_mem_of_isDigits hday hmark)]
  unfold parse?
  rw [hslash, hchosen, Text.splitOnChar_eq_splitOn, hpieces]
  simp only [hyear, hmonth, hday, Bool.and_self, if_true]
  rw [if_pos hvalid]

/-- What is read as a date has the fields of a day of the calendar between two separators. -/
theorem exists_fields_of_parse? {s : List Char} {d : Date} (h : parse? s = some d) :
    ∃ year month day sep, (sep = '-' ∨ sep = '/') ∧ isDigits 4 year = true ∧
      isDigits 2 month = true ∧ isDigits 2 day = true ∧ d.Valid ∧
      d = ⟨numeral year, numeral month, numeral day⟩ ∧
      s = year ++ sep :: (month ++ sep :: day) := by
  unfold parse? at h
  rw [Text.splitOnChar_eq_splitOn] at h
  generalize hmark : (if s.contains '/' then '/' else '-') = sep at h
  have hsep : sep = '-' ∨ sep = '/' := by
    rw [← hmark]
    split
    · exact Or.inr rfl
    · exact Or.inl rfl
  have hs : [sep].intercalate (s.splitOn sep) = s := List.intercalate_splitOn sep
  split at h
  · rename_i year month day hpieces
    split at h
    · rename_i hdigits
      simp only [Option.ite_none_right_eq_some, Option.some.injEq] at h
      obtain ⟨hvalid, rfl⟩ := h
      simp only [Bool.and_eq_true] at hdigits
      obtain ⟨⟨hyear, hmonth⟩, hday⟩ := hdigits
      refine ⟨year, month, day, sep, hsep, hyear, hmonth, hday, hvalid, rfl, ?_⟩
      rw [← hs, hpieces]
      simp [List.intercalate]
    · cases h
  · cases h

/-- A date of the years 0 to 9999 is read back from its text. -/
theorem ofText?_toText {d : Date} (hvalid : d.Valid) (hyear : 0 ≤ d.year)
    (hyear' : d.year ≤ 9999) : ofText? d.toText = some d := by
  have hdays := daysInMonth_le d.year d.month
  have hmonth := hvalid.2.1
  have hday := hvalid.2.2.2
  have hfields : (⟨(numeral (padded 4 d.year.toNat).toList : Nat),
      numeral (padded 2 d.month).toList, numeral (padded 2 d.day).toList⟩ : Date) = d := by
    rw [numeral_padded, numeral_padded, numeral_padded, Int.toNat_of_nonneg hyear]
  have hyears := isDigits_padded (length_toDigits_le_four (n := d.year.toNat) (by omega))
  have hmonths := isDigits_padded (length_toDigits_le_two (n := d.month) (by omega))
  have hdigits := isDigits_padded (length_toDigits_le_two (n := d.day) (by omega))
  rw [ofText?, toList_toText hyear,
    parse?_fields (Or.inl rfl) hyears hmonths hdigits (by rwa [hfields]), hfields]

theorem digit_le_nine {c : Char} (h : c.isDigit = true) : c.toNat - '0'.toNat ≤ 9 := by
  simp only [Char.isDigit, Bool.and_eq_true, decide_eq_true_eq] at h
  have hc : c.toNat ≤ 57 := h.2
  have hzero : '0'.toNat = 48 := rfl
  omega

theorem numeral_concat (digits : List Char) (c : Char) :
    numeral (digits ++ [c]) = 10 * numeral digits + (c.toNat - '0'.toNat) := by
  simp [numeral]

theorem numeral_lt {digits : List Char} (h : ∀ c ∈ digits, c.isDigit = true) :
    numeral digits < 10 ^ digits.length := by
  induction digits using List.reverseRecOn with
  | nil => simp [numeral]
  | append_singleton digits c ih =>
    simp only [List.forall_mem_append, List.forall_mem_singleton] at h
    have hfront := ih h.1
    have hc := digit_le_nine h.2
    rw [numeral_concat, List.length_append, List.length_singleton, Nat.pow_succ]
    omega

/-- What is read as a date is a day of the years 0 to 9999. -/
theorem valid_of_ofText? {s : String} {d : Date} (h : ofText? s = some d) :
    d.Valid ∧ 0 ≤ d.year ∧ d.year ≤ 9999 := by
  obtain ⟨year, month, day, sep, -, hyear, -, -, hvalid, rfl, -⟩ := exists_fields_of_parse? h
  rw [isDigits, Bool.and_eq_true, beq_iff_eq, List.all_eq_true] at hyear
  have hbound := numeral_lt hyear.2
  rw [hyear.1] at hbound
  refine ⟨hvalid, Int.natCast_nonneg _, ?_⟩
  change ((numeral year : Nat) : Int) ≤ 9999
  omega

end LedgerConformance.Date
