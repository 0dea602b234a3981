import LedgerConformance.Text.Raw

/-!
Numbers at the front of texts, compared by their exact value whatever their length:
decimal numbers, those with the letter of a unit behind them, and names of months.
-/

namespace LedgerConformance.Text.Numeral

/-- A decimal number: its sign, its whole digits without zeros in front, and the
digits behind the point without zeros at the end. -/
structure Value where
  negative : Bool
  whole : Raw
  part : Raw

namespace Value

def isZero (v : Value) : Bool := v.whole.isEmpty && v.part.isEmpty

/-- The order of digits behind a point. -/
def compareParts : Raw → Raw → Ordering
  | [], [] => .eq
  | [], _ :: _ => .lt
  | _ :: _, [] => .gt
  | a :: as, b :: bs => (compare a b).then (compareParts as bs)

/-- The order without signs. -/
def compareSizes (a b : Value) : Ordering :=
  (compare a.whole.length b.whole.length).then
    ((compareParts a.whole b.whole).then (compareParts a.part b.part))

def order (a b : Value) : Ordering :=
  if a.isZero && b.isZero then .eq
  else
    match a.negative && !a.isZero, b.negative && !b.isZero with
    | true, true => compareSizes b a
    | true, false => .lt
    | false, true => .gt
    | false, false => compareSizes a b

end Value

/-- The number at the front of a text; where there is none it is zero. -/
def read (text : Raw) : Value :=
  let (negative, text) := match text with
    | '-' :: rest => (true, rest)
    | text => (false, text)
  let whole := text.takeWhile Char.isDigit
  let part := match text.drop whole.length with
    | '.' :: rest => rest.takeWhile Char.isDigit
    | _ => []
  { negative
    whole := whole.dropWhile (· == '0')
    part := (part.reverse.dropWhile (· == '0')).reverse }

/-- The letters of units, each a thousand times the one before. -/
def units : List (List Char) :=
  [['K', 'k'], ['M'], ['G'], ['T'], ['P'], ['E'], ['Z'], ['Y'], ['R'], ['Q']]

/-- The rank of the unit behind a number that is not zero. -/
def unitRank (text : Raw) : Int :=
  let value := read text
  let behind := match text with
    | '-' :: rest => rest
    | text => text
  let behind := behind.dropWhile Char.isDigit
  let behind := match behind with
    | '.' :: rest => rest.dropWhile Char.isDigit
    | behind => behind
  let rank := match behind.head? with
    | some c => (units.findIdx? fun (u : List Char) => u.contains c).map (· + 1)
    | none => none
  if value.isZero then 0 else if value.negative then -(rank.getD 0 : Nat) else (rank.getD 0 : Nat)

def months : List String :=
  ["JAN", "FEB", "MAR", "APR", "MAY", "JUN", "JUL", "AUG", "SEP", "OCT", "NOV", "DEC"]

/-- The number of the month whose name a text begins with, or zero. -/
def month (text : Raw) : Nat :=
  let front := String.ofList ((text.take 3).map Char.toUpper)
  ((months.findIdx? (· == front)).map (· + 1)).getD 0

end LedgerConformance.Text.Numeral
