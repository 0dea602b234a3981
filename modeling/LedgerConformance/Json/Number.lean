import LedgerConformance.Decimal.Shortest

/-!
Numbers of JSON texts. A whole number that fits 64 bits, signed or unsigned, is
kept exactly; any other number becomes a binary floating-point number, read
from at most as many leading digits as fit an unsigned 64-bit word.
-/

namespace LedgerConformance.Json

inductive Number where
  | int (value : Int)
  | float (value : Binary64)
deriving DecidableEq, Repr

namespace Number

/-- Plain from 1e-5 to below 1e16, whole numbers with one decimal. -/
def style : Decimal.Style := ⟨-5, 15, true⟩

def write : Number → String
  | int i => toString i
  | float x => Decimal.write style x

def toNat? : Number → Option Nat
  | int i => if 0 ≤ i then some i.toNat else none
  | float _ => none

def toBinary64? : Number → Option Binary64
  | int i => Binary64.ofInt? i
  | float x => some x

/-- The parts of a number as it is written. -/
structure Lexeme where
  negative : Bool
  whole : List Char
  decimals : Option (List Char)
  exponent : Option (Bool × List Char)
deriving DecidableEq, Repr

/-- The exponent part: its sign and digits, or `none` if something else is there. -/
def exponentPart? : List Char → Option (Option (Bool × List Char))
  | [] => some none
  | mark :: rest =>
    if mark == 'e' || mark == 'E' then
      let (negative, digits) := match rest with
        | '+' :: digits => (false, digits)
        | '-' :: digits => (true, digits)
        | digits => (false, digits)
      if !digits.isEmpty && digits.all Char.isDigit then some (some (negative, digits)) else none
    else none

/-- Divides the characters of a number into its parts. -/
def Lexeme.ofChars? (s : List Char) : Option Lexeme :=
  let (negative, s) := match s with
    | '-' :: rest => (true, rest)
    | rest => (false, rest)
  let whole := s.takeWhile Char.isDigit
  let leadingZero := match whole with
    | '0' :: _ :: _ => true
    | _ => false
  if whole.isEmpty || leadingZero then none
  else
    match s.dropWhile Char.isDigit with
    | '.' :: rest =>
      let decimals := rest.takeWhile Char.isDigit
      if decimals.isEmpty then none
      else (exponentPart? (rest.dropWhile Char.isDigit)).map fun e =>
        ⟨negative, whole, some decimals, e⟩
    | rest => (exponentPart? rest).map fun e => ⟨negative, whole, none, e⟩

def digitValue (c : Char) : Nat := c.toNat - '0'.toNat

/-- Appends digits to a significand while it fits 64 bits; the digits that are
left come second. -/
def absorb (significand : Nat) : List Char → Nat × List Char
  | [] => (significand, [])
  | c :: rest =>
    let next := 10 * significand + digitValue c
    if next < 0x10000000000000000 then absorb next rest else (significand, c :: rest)

/-- `10 ^ n` for `n` up to 308, the largest power of ten below the greatest number. -/
def powerOfTen? (n : Nat) : Option Binary64 :=
  if n ≤ 308 then Binary64.ofNat? (Nat.pow 10 n) else none

/-- Scales by a power of ten, dividing by 1e308 as long as a negative exponent
is below -308; `none` when the result is too large. -/
def scale : (steps : Nat) → Binary64 → Int → Option Binary64
  | 0, x, _ => some (Binary64.zero x.negative)
  | steps + 1, x, exponent =>
    match powerOfTen? exponent.natAbs with
    | some power => if 0 ≤ exponent then x.mul? power else x.div? power
    | none =>
      if x.isZero then some x
      else if 0 ≤ exponent then none
      else
        match powerOfTen? 308 with
        | some power =>
          match x.div? power with
          | some x => scale steps x (exponent + 308)
          | none => none
        | none => none

/-- A significand times a power of ten. After four divisions by 1e308 nothing
is left of a 64-bit significand. -/
def fromParts (negative : Bool) (significand : Nat) (exponent : Int) : Option Number :=
  match Binary64.ofRatio? negative significand 1 with
  | some x => (scale 5 x exponent).map float
  | none => none

/-- The value of a whole number without a decimal part and an exponent. -/
def wholeValue (negative : Bool) (significand : Nat) : Option Number :=
  if !negative then some (int significand)
  else if 1 ≤ significand && significand ≤ 0x8000000000000000 then some (int (-significand))
  else (Binary64.ofRatio? true significand 1).map float

/-- The value of a written number, or `none` when it is too large. -/
def Lexeme.value? (l : Lexeme) : Option Number :=
  let (significand, left) := absorb 0 l.whole
  let shift : Int := left.length
  match l.decimals, l.exponent, left with
  | none, none, [] => wholeValue l.negative significand
  | decimals, exponent, _ =>
    let decimals := decimals.getD []
    let (significand, left) := absorb significand decimals
    let shift := shift - ((decimals.length : Int) - left.length)
    match exponent with
    | none => fromParts l.negative significand shift
    | some (down, digits) =>
      let n := digits.foldl (fun n c => 10 * n + digitValue c) 0
      if n < 0x80000000 then
        fromParts l.negative significand (if down then shift - n else shift + n)
      else if significand == 0 || down then some (float (Binary64.zero l.negative))
      else none

end Number

end LedgerConformance.Json
