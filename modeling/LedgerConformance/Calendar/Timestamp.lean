import LedgerConformance.Calendar.Date

/-!
Points in time as texts of 24 characters, in which the order of texts is the
order of time: date, hour, minute, second and millisecond in universal time.
-/

namespace LedgerConformance.Timestamp

/-- The year that began last March, for a day counted from 1970-01-01, and the place of the day
in that year. -/
def marchPlace (days : Int) : Int × Int :=
  let shifted := days + 719468
  let era := shifted / 146097
  let inEra := shifted % 146097
  let yearOfEra := (inEra - inEra / 1460 + inEra / 36524 - inEra / 146096) / 365
  (yearOfEra + 400 * era, inEra - (365 * yearOfEra + yearOfEra / 4 - yearOfEra / 100))

/-- The month of a place in a year that began in March, and the day of the month. -/
def monthAndDay (place : Int) : Int × Int :=
  let monthFromMarch := (5 * place + 2) / 153
  (if monthFromMarch < 10 then monthFromMarch + 3 else monthFromMarch - 9,
    place - (153 * monthFromMarch + 2) / 5 + 1)

/-- A number of 32 bits without a sign. -/
def word? (n : Int) : Option Nat := if 0 ≤ n ∧ n < 0x100000000 then some n.toNat else none

/-- The year, month and day of a day counted from 1970-01-01. A month or a day that were no word
would count as one. -/
def civil (days : Int) : Int × Nat × Nat :=
  let (year, place) := marchPlace days
  let (month, day) := monthAndDay place
  let month := (word? month).getD 1
  (year + (if month ≤ 2 then 1 else 0), month, (word? day).getD 1)

/-- The text of a point in time, given as seconds since 1970 and milliseconds. -/
def write (seconds millis : Nat) : String :=
  let (year, month, day) := civil (seconds / 86400 : Nat)
  let rest := seconds % 86400
  Date.toText ⟨year, month, day⟩ ++ "T" ++ Date.padded 2 (rest / 3600) ++ ":" ++
    Date.padded 2 (rest % 3600 / 60) ++ ":" ++ Date.padded 2 (rest % 60) ++ "." ++
    Date.padded 3 millis ++ "Z"

end LedgerConformance.Timestamp
