import LedgerConformance.Decimal.Floating

/-!
Conversions in formats: a percent sign, flags, a width, a precision and a letter
that says how a value is written.
-/

namespace LedgerConformance

/-- How a value is written. -/
structure Conversion where
  flags : List Char := []
  width : Nat := 0
  precision : Option Nat := none
  letter : Char

namespace Conversion

def has (c : Conversion) (flag : Char) : Bool := c.flags.contains flag

/-- Fills a text up to the width. -/
def pad (c : Conversion) (text : Raw) : Raw :=
  let blanks := List.replicate (c.width - text.length) ' '
  if c.has '-' then text ++ blanks else blanks ++ text

/-- Fills a number up to the width: zeros come behind the sign and the mark of the base. -/
def padNumber (c : Conversion) (zeros : Bool) (sign digits : Raw) : Raw :=
  if zeros && c.has '0' && !c.has '-' then
    sign ++ List.replicate (c.width - sign.length - digits.length) '0' ++ digits
  else c.pad (sign ++ digits)

/-- The sign of a number. -/
def sign (c : Conversion) (negative : Bool) : Raw :=
  if negative then ['-'] else if c.has '+' then ['+'] else if c.has ' ' then [' '] else []

/-- Digits with at least as many as the precision asks for; of zero none may be left. -/
def digits (c : Conversion) (base : Nat) (n : Nat) : Raw :=
  let all := if n == 0 && c.precision == some 0 then [] else Nat.toDigits base n
  List.replicate (c.precision.getD 0 - all.length) '0' ++ all

/-- A number with a sign. -/
def signed (c : Conversion) (value : Int) : Raw :=
  c.padNumber c.precision.isNone (c.sign (value < 0)) (c.digits 10 value.natAbs)

/-- A number without a sign, of 64 bits. -/
def unsigned (c : Conversion) (value : Int) : Raw :=
  let n := (value % 18446744073709551616).toNat
  match c.letter with
  | 'o' =>
    let text := c.digits 8 n
    let text := if c.has '#' && text.head? != some '0' then '0' :: text else text
    c.padNumber c.precision.isNone [] text
  | 'x' | 'X' =>
    let text := c.digits 16 n
    let mark := if c.has '#' && n != 0 then ['0', 'x'] else []
    let all := c.padNumber c.precision.isNone mark text
    if c.letter == 'X' then all.map Char.toUpper else all
  | _ => c.padNumber c.precision.isNone [] (c.digits 10 n)

/-- A text, of which no more is written than the precision says. -/
def text (c : Conversion) (value : Raw) : Raw :=
  c.pad (match c.precision with
    | some p => value.take p
    | none => value)

/-- A floating point number of a format; `lead` bits of it stand before the point of
hexadecimal notation. -/
def floating (c : Conversion) (format : FloatingFormat) (lead : Nat) (value : Floating) : Raw :=
  let capital (text : Raw) : Raw := if c.letter.isUpper then text.map Char.toUpper else text
  match value with
  | .infinite negative => c.pad (capital (c.sign negative ++ "inf".toList))
  | .notNumber negative => c.pad (capital (c.sign negative ++ "nan".toList))
  | .finite negative mantissa exponent =>
    let keep := c.has '#'
    let places := c.precision.getD 6
    let text := match c.letter.toLower with
      | 'f' => Floating.fixed mantissa exponent places keep
      | 'e' => Floating.scientific mantissa exponent places keep
      | 'g' => Floating.general mantissa exponent places keep
      | _ => Floating.hexadecimal format lead mantissa exponent c.precision keep
    let mark := if text.take 2 == ['0', 'x'] then ['0', 'x'] else []
    capital (c.padNumber true (c.sign negative ++ mark) (text.drop mark.length))

end Conversion

end LedgerConformance
