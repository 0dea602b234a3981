import LedgerConformance.Decimal.Binary64

/-!
Decimal text of binary floating-point numbers. The digits are the fewest that
read back as the same number, and of those the nearest to it; a style says
where the point goes and when an exponent is written.
-/

namespace LedgerConformance.Decimal

open Binary64 (powerRatio)

/-- Digits of a positive decimal: the first one has weight `10 ^ exponent`. -/
structure Digits where
  digits : List Char
  exponent : Int
deriving DecidableEq, Repr

/-- `c · 10 ^ g ≤ n · 2 ^ e`. -/
def decimalLe (c : Nat) (g : Int) (n : Nat) (e : Int) : Bool :=
  let (tenUp, tenDown) := powerRatio 10 g
  let (twoUp, twoDown) := powerRatio 2 e
  c * tenUp * twoDown ≤ n * twoUp * tenDown

/-- `n · 2 ^ e ≤ c · 10 ^ g`. -/
def binaryLe (n : Nat) (e : Int) (c : Nat) (g : Int) : Bool :=
  let (tenUp, tenDown) := powerRatio 10 g
  let (twoUp, twoDown) := powerRatio 2 e
  n * twoUp * tenDown ≤ c * tenUp * twoDown

/-- The exponent of the first decimal digit of `n · 2 ^ e`, for a positive `n`. -/
def leadingExponent (n : Nat) (e : Int) : Int :=
  let guess : Int := ((Nat.log2 n : Int) + e) * 30103 / 100000
  if decimalLe 1 (guess + 1) n e then guess + 1
  else if decimalLe 1 guess n e then guess
  else guess - 1

/-- The numbers that round to a magnitude, in units of a quarter of its last
place: from `low` to `high`, the ends included for an even mantissa. -/
structure Interval where
  low : Nat
  high : Nat
  unit : Int
  closed : Bool

def Interval.of (x : Binary64) : Interval :=
  let narrow := x.mantissa == 0x10000000000000 && Binary64.leastExponent < x.exponent
  { low := 4 * x.mantissa - (if narrow then 1 else 2)
    high := 4 * x.mantissa + 2
    unit := x.exponent - 2
    closed := x.mantissa % 2 == 0 }

/-- `c · 10 ^ g` rounds to the magnitude that the interval belongs to. -/
def Interval.holds (i : Interval) (c : Nat) (g : Int) : Bool :=
  if i.closed then binaryLe i.low i.unit c g && decimalLe c g i.high i.unit
  else !decimalLe c g i.low i.unit && !binaryLe i.high i.unit c g

/-- The largest `c` with `c · 10 ^ g ≤ n · 2 ^ e`. -/
def decimalFloor (n : Nat) (e : Int) (g : Int) : Nat :=
  let (tenUp, tenDown) := powerRatio 10 g
  let (twoUp, twoDown) := powerRatio 2 e
  (n * twoUp * tenDown) / (tenUp * twoDown)

/-- Of `c · 10 ^ g` and the next point of that grid the value, which lies between
them, is nearer to the second, or as near and `c` is odd. -/
def roundsUp (x : Binary64) (c : Nat) (g : Int) : Bool :=
  decimalLe (2 * c + 1) g (2 * x.mantissa) x.exponent &&
    (c % 2 == 1 || !binaryLe (2 * x.mantissa) x.exponent (2 * c + 1) g)

/-- The point of the grid of step `10 ^ g` that reads back as `x`, if there is
one; of two the nearer. -/
def onGrid? (x : Binary64) (i : Interval) (g : Int) : Option Nat :=
  let c := decimalFloor x.mantissa x.exponent g
  match i.holds c g, i.holds (c + 1) g with
  | true, true => some (if roundsUp x c g then c + 1 else c)
  | true, false => some c
  | false, true => some (c + 1)
  | false, false => none

def dropTrailingZeros (digits : List Char) : List Char :=
  (digits.reverse.dropWhile (· == '0')).reverse

/-- The fewest digits that read back as a number other than zero. -/
def shortest (x : Binary64) : Digits :=
  let i := Interval.of x
  let top := leadingExponent x.mantissa x.exponent
  let found := (List.range 17).findSome? fun (n : Nat) =>
    (onGrid? x i (top - n)).map fun c => (c, top - n)
  let (c, g) := found.getD (decimalFloor x.mantissa x.exponent (top - 16), top - 16)
  let digits := Nat.toDigits 10 c
  ⟨dropTrailingZeros digits, g + digits.length - 1⟩

/-- How a number is written: positionally while the exponent of its first digit
lies between two bounds, and whether a whole number shows a decimal. -/
structure Style where
  leastPlain : Int
  greatestPlain : Int
  showsDecimal : Bool

/-- The digits with the point put in, without an exponent. -/
def positional (style : Style) (d : Digits) : List Char :=
  let count : Int := d.digits.length
  if d.exponent < 0 then
    ['0', '.'] ++ List.replicate (-d.exponent - 1).toNat '0' ++ d.digits
  else if count ≤ d.exponent + 1 then
    d.digits ++ List.replicate (d.exponent + 1 - count).toNat '0' ++
      (if style.showsDecimal then ['.', '0'] else [])
  else
    d.digits.take (d.exponent + 1).toNat ++ '.' :: d.digits.drop (d.exponent + 1).toNat

/-- One digit before the point and a signed exponent after the rest. -/
def scientific (d : Digits) : List Char :=
  let point := match d.digits with
    | first :: second :: rest => first :: '.' :: second :: rest
    | digits => digits
  point ++ 'e' :: (if d.exponent < 0 then '-' else '+') :: Nat.toDigits 10 d.exponent.natAbs

def write (style : Style) (x : Binary64) : String :=
  let sign := if x.negative then ['-'] else []
  let body :=
    if x.isZero then '0' :: (if style.showsDecimal then ['.', '0'] else [])
    else
      let d := shortest x
      if style.leastPlain ≤ d.exponent && d.exponent ≤ style.greatestPlain then positional style d
      else scientific d
  String.ofList (sign ++ body)

/-- The value with two decimals, rounded to the nearest, a tie to the even one. -/
def twoPlaces (x : Binary64) : String :=
  let (num, den) := x.ratio
  let hundredths := Binary64.roundDiv (100 * num) den
  let decimals := Nat.toDigits 10 (hundredths % 100)
  String.ofList ((if x.negative then ['-'] else []) ++ Nat.toDigits 10 (hundredths / 100) ++
    '.' :: List.replicate (2 - decimals.length) '0' ++ decimals)

end LedgerConformance.Decimal
