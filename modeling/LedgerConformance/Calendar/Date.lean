import LedgerConformance.Text.Blank

/-!
Dates of the proleptic Gregorian calendar. A date is written year, month, day
with four, two and two digits, divided by hyphens or by slashes. Days are
numbered from 1970-01-01, and shifting a date goes through its day number.
Dates are compared by year, month and day, which is a linear order.
-/

namespace LedgerConformance

structure Date where
  year : Int
  month : Nat
  day : Nat
deriving DecidableEq, Repr

namespace Date

def isLeap (year : Int) : Bool :=
  (year % 4 == 0 && year % 100 != 0) || year % 400 == 0

def daysInMonth (year : Int) (month : Nat) : Nat :=
  match month with
  | 1 | 3 | 5 | 7 | 8 | 10 | 12 => 31
  | 4 | 6 | 9 | 11 => 30
  | 2 => if isLeap year then 29 else 28
  | _ => 0

/-- The date names a day of the calendar. -/
def Valid (d : Date) : Prop :=
  1 ≤ d.month ∧ d.month ≤ 12 ∧ 1 ≤ d.day ∧ d.day ≤ daysInMonth d.year d.month

instance (d : Date) : Decidable d.Valid := by unfold Valid; infer_instance

/-- Earlier by year, then month, then day. -/
def Before (a b : Date) : Prop :=
  a.year < b.year ∨
    (a.year = b.year ∧ (a.month < b.month ∨ (a.month = b.month ∧ a.day < b.day)))

instance : LT Date := ⟨Before⟩

instance (a b : Date) : Decidable (a < b) := by
  show Decidable (Before a b)
  unfold Before
  infer_instance

def compare (a b : Date) : Ordering :=
  if a < b then .lt else if b < a then .gt else .eq

def numeral (digits : List Char) : Nat :=
  digits.foldl (fun n c => 10 * n + (c.toNat - '0'.toNat)) 0

/-- `count` decimal digits. -/
def isDigits (count : Nat) (s : List Char) : Bool :=
  s.length == count && s.all Char.isDigit

/-- Reads a date; slashes divide the fields if there is one in the text, and
hyphens otherwise. -/
def parse? (s : List Char) : Option Date :=
  match Text.splitOnChar (if s.contains '/' then '/' else '-') s with
  | [year, month, day] =>
    if isDigits 4 year && isDigits 2 month && isDigits 2 day then
      let date : Date := ⟨numeral year, numeral month, numeral day⟩
      if date.Valid then some date else none
    else none
  | _ => none

def ofText? (s : String) : Option Date := parse? s.toList

/-- The decimal numeral of `n`, padded with zeros to `width` digits. -/
def padded (width n : Nat) : String :=
  let digits := (Nat.repr n).toList
  String.ofList (List.replicate (width - digits.length) '0' ++ digits)

/-- Four places for the year, of which a minus sign takes one. -/
def yearText (year : Int) : String :=
  if year < 0 then "-" ++ padded 3 year.natAbs else padded 4 year.natAbs

def toText (d : Date) : String :=
  yearText d.year ++ "-" ++ padded 2 d.month ++ "-" ++ padded 2 d.day

/-- Days since 1970-01-01. Years are counted from March, so that the leap day
ends its year, and 400 of them make an era of 146097 days. -/
def dayNumber (d : Date) : Int :=
  let year := d.year - (if d.month ≤ 2 then 1 else 0)
  let era := year / 400
  let yearOfEra := year % 400
  let monthFromMarch : Int := (d.month + 9) % 12
  let dayOfYear := (153 * monthFromMarch + 2) / 5 + d.day - 1
  let dayOfEra := yearOfEra * 365 + yearOfEra / 4 - yearOfEra / 100 + dayOfYear
  era * 146097 + dayOfEra - 719468

/-- The year, month and day of a day number, the year without a bound. -/
def fieldsOfDayNumber (days : Int) : Int × Nat × Nat :=
  let shifted := days + 719468
  let era := shifted / 146097
  let dayOfEra := shifted % 146097
  let yearOfEra := (dayOfEra - dayOfEra / 1460 + dayOfEra / 36524 - dayOfEra / 146096) / 365
  let dayOfYear := dayOfEra - (365 * yearOfEra + yearOfEra / 4 - yearOfEra / 100)
  let monthFromMarch := (5 * dayOfYear + 2) / 153
  let day := dayOfYear - (153 * monthFromMarch + 2) / 5 + 1
  let month := if monthFromMarch < 10 then monthFromMarch + 3 else monthFromMarch - 9
  (yearOfEra + era * 400 + (if month ≤ 2 then 1 else 0), month.toNat, day.toNat)

/-- Years are kept in 32 bits; one outside wraps around. -/
def wrapYear (year : Int) : Int := year.bmod 0x100000000

def ofDayNumber (days : Int) : Date :=
  let (year, month, day) := fieldsOfDayNumber days
  ⟨wrapYear year, month, day⟩

def addDays (d : Date) (days : Int) : Date := ofDayNumber (d.dayNumber + days)

/-! ### The order of dates -/

instance : LE Date := ⟨fun a b => ¬ b < a⟩

instance (a b : Date) : Decidable (a ≤ b) := inferInstanceAs (Decidable (¬ b < a))

theorem lt_iff {a b : Date} : a < b ↔
    a.year < b.year ∨
      (a.year = b.year ∧ (a.month < b.month ∨ (a.month = b.month ∧ a.day < b.day))) := Iff.rfl

theorem eq_iff {a b : Date} : a = b ↔ a.year = b.year ∧ a.month = b.month ∧ a.day = b.day := by
  obtain ⟨_, _, _⟩ := a
  obtain ⟨_, _, _⟩ := b
  exact iff_of_eq (Date.mk.injEq ..)

theorem le_iff_not_lt {a b : Date} : a ≤ b ↔ ¬ b < a := Iff.rfl

theorem le_refl (a : Date) : a ≤ a := by
  rw [le_iff_not_lt, lt_iff]
  omega

theorem le_of_lt {a b : Date} (h : a < b) : a ≤ b := by
  rw [le_iff_not_lt]
  rw [lt_iff] at *
  omega

theorem lt_trans {a b c : Date} (hab : a < b) (hbc : b < c) : a < c := by
  rw [lt_iff] at *
  omega

theorem lt_of_le_of_lt {a b c : Date} (hab : a ≤ b) (hbc : b < c) : a < c := by
  rw [le_iff_not_lt] at hab
  rw [lt_iff] at *
  omega

theorem lt_irrefl (a : Date) : ¬ a < a := le_refl a

theorem lt_or_eq_or_gt (a b : Date) : a < b ∨ a = b ∨ b < a := by
  obtain ⟨ya, ma, da⟩ := a
  obtain ⟨yb, mb, db⟩ := b
  rw [lt_iff, lt_iff, Date.mk.injEq]
  simp only
  omega

end Date

end LedgerConformance
