/-!
Finite binary floating-point numbers of double precision, as a sign and a
magnitude `mantissa · 2 ^ exponent`. Every operation is exact arithmetic
followed by one rounding to the nearest number, a tie going to the even
mantissa, so the results are those of the hardware.
-/

namespace LedgerConformance

structure Binary64 where
  negative : Bool
  mantissa : Nat
  exponent : Int
deriving DecidableEq, Repr

namespace Binary64

def leastExponent : Int := -1074

def greatestExponent : Int := 971

def zero (negative : Bool) : Binary64 := ⟨negative, 0, leastExponent⟩

def isZero (x : Binary64) : Bool := x.mantissa == 0

/-- A power with an exponent of either sign, as numerator and denominator. -/
def powerRatio (base : Nat) (exponent : Int) : Nat × Nat :=
  if 0 ≤ exponent then (Nat.pow base exponent.toNat, 1) else (1, Nat.pow base (-exponent).toNat)

/-- The quotient rounded to the nearest number, a tie to the even one. -/
def roundDiv (num den : Nat) : Nat :=
  let q := num / den
  let r := num % den
  if den < 2 * r || (2 * r == den && q % 2 == 1) then q + 1 else q

/-- The exponent at which `num / den` has a mantissa of 53 bits, but never
below the least one. -/
def exponentOf (num den : Nat) : Int :=
  let guess : Int := (Nat.log2 num : Int) - (Nat.log2 den : Int) - 52
  let (up, down) := powerRatio 2 guess
  let fits := den * up * 0x10000000000000 ≤ num * down
  max (if fits then guess else guess - 1) leastExponent

/-- The number nearest to `num / den`, or `none` beyond the greatest one. -/
def ofRatio? (negative : Bool) (num den : Nat) : Option Binary64 :=
  if num == 0 then some (zero negative)
  else
    let e := exponentOf num den
    let (up, down) := powerRatio 2 e
    let m := roundDiv (num * down) (den * up)
    let (m, e) := if m == 0x20000000000000 then (0x10000000000000, e + 1) else (m, e)
    if greatestExponent < e then none else some ⟨negative, m, e⟩

/-- The magnitude as numerator and denominator. -/
def ratio (x : Binary64) : Nat × Nat :=
  let (up, down) := powerRatio 2 x.exponent
  (x.mantissa * up, down)

def ofNat? (n : Nat) : Option Binary64 := ofRatio? false n 1

def ofInt? (i : Int) : Option Binary64 := ofRatio? (i < 0) i.natAbs 1

def mul? (x y : Binary64) : Option Binary64 :=
  ofRatio? (x.negative != y.negative) (x.ratio.1 * y.ratio.1) (x.ratio.2 * y.ratio.2)

/-- The quotient by a number other than zero. -/
def div? (x y : Binary64) : Option Binary64 :=
  ofRatio? (x.negative != y.negative) (x.ratio.1 * y.ratio.2) (x.ratio.2 * y.ratio.1)

/-- The sum of two numbers without a sign. -/
def addMagnitudes? (x y : Binary64) : Option Binary64 :=
  ofRatio? false (x.ratio.1 * y.ratio.2 + y.ratio.1 * x.ratio.2) (x.ratio.2 * y.ratio.2)

/-- The nearest whole number to a magnitude, a half going up. -/
def roundHalfUp (x : Binary64) : Nat :=
  let (num, den) := x.ratio
  (2 * num + den) / (2 * den)

/-- The value as an integer numerator and a positive denominator. -/
def signedRatio (x : Binary64) : Int × Nat :=
  let (num, den) := x.ratio
  (if x.negative then -num else num, den)

/-- `num / den < x`, for a positive denominator. -/
def exceeds (x : Binary64) (num : Int) (den : Nat) : Bool :=
  num * x.signedRatio.2 < x.signedRatio.1 * den

/-- Sign, biased exponent and fraction as one 64-bit word. -/
def toBits (x : Binary64) : Nat :=
  let sign := if x.negative then 0x8000000000000000 else 0
  if x.mantissa < 0x10000000000000 then sign + x.mantissa
  else sign + (x.exponent + 1075).toNat * 0x10000000000000 + (x.mantissa - 0x10000000000000)

end Binary64

end LedgerConformance
