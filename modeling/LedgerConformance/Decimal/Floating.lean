import LedgerConformance.Decimal.Binary64
import LedgerConformance.Text.Raw

/-!
Floating point numbers of any width as a whole number times a power of two. They
are read from texts with one correct rounding and written from their exact value.
-/

namespace LedgerConformance

/-- A number that is not a whole one: the sign and a whole number times a power of two. -/
inductive Floating where
  | finite (negative : Bool) (mantissa : Nat) (exponent : Int)
  | infinite (negative : Bool)
  | notNumber (negative : Bool)
deriving DecidableEq, Repr

/-- How many bits the mantissa of a format has, and the least and greatest exponent
of such a mantissa. -/
structure FloatingFormat where
  bits : Nat
  least : Int
  greatest : Int

namespace FloatingFormat

def double : FloatingFormat := ⟨53, -1074, 971⟩

def extended : FloatingFormat := ⟨64, -16445, 16320⟩

end FloatingFormat

namespace Floating

/-- A quotient divided by a power of two, rounded. -/
def scaled (n d : Nat) (exponent : Int) : Nat :=
  if exponent ≥ 0 then Binary64.roundDiv n (d * Nat.pow 2 exponent.toNat)
  else Binary64.roundDiv (n * Nat.pow 2 exponent.natAbs) d

/-- The number of a format that is nearest to a quotient. -/
def ofQuotient (format : FloatingFormat) (negative : Bool) (n d : Nat) : Floating :=
  if n == 0 then .finite negative 0 0
  else
    let guess : Int := (Nat.log2 n : Int) - (Nat.log2 d : Int) - format.bits
    let candidates := [guess, guess + 1, guess + 2].map fun e => max e format.least
    let exponent := (candidates.find? fun e => scaled n d e ≤ Nat.pow 2 format.bits - 1).getD
      (max (guess + 2) format.least)
    let mantissa := scaled n d exponent
    if exponent > format.greatest then .infinite negative else .finite negative mantissa exponent

/-- A power of ten or its inverse, as a quotient with a number. -/
def timesPower (base : Nat) (n : Nat) (exponent : Int) : Nat × Nat :=
  if exponent ≥ 0 then (n * Nat.pow base exponent.toNat, 1) else (n, Nat.pow base exponent.natAbs)

/-- The exponent behind a mark letter, if there is one. -/
def readExponent (marks : List Char) (text : Raw) : Int × Raw :=
  match text with
  | c :: rest =>
    if marks.contains c then
      let (negative, digits) := match rest with
        | '-' :: rest => (true, rest)
        | '+' :: rest => (false, rest)
        | rest => (false, rest)
      match digits.takeWhile Char.isDigit with
      | [] => (0, text)
      | all =>
        -- Beyond this the value is zero or infinite anyway.
        let value : Int := min 100000 (Raw.digitsValue 10 all)
        (if negative then -value else value, digits.drop all.length)
    else (0, text)
  | [] => (0, text)

/-- Digits with a point between them: their number, how many stand behind the
point, and the rest of the text. -/
def readDigits (isDigit : Char → Bool) (base : Nat) (text : Raw) : Option (Nat × Nat × Raw) :=
  let whole := text.takeWhile isDigit
  let rest := text.drop whole.length
  let (part, rest) := match rest with
    | '.' :: behind => (behind.takeWhile isDigit, behind.dropWhile isDigit)
    | rest => ([], rest)
  if whole.isEmpty && part.isEmpty then none
  else some (Raw.digitsValue base (whole ++ part), part.length, rest)

/-- Whether a text begins with a word, in capitals or not. -/
def startsWith (word : String) (text : Raw) : Bool :=
  word.toList.isPrefixOf (text.map Char.toLower)

/-- The rest of a text behind the brackets that may follow the word for no number. -/
def behindTag (text : Raw) : Raw :=
  match text with
  | '(' :: rest =>
    match rest.dropWhile fun c => c.isAlphanum || c == '_' with
    | ')' :: rest => rest
    | _ => text
  | _ => text

/-- A number at the front of a text, and what is left of it. -/
def read? (format : FloatingFormat) (text : Raw) : Option (Floating × Raw) :=
  let text := text.dropWhile Raw.isSpace
  let (negative, text) := match text with
    | '-' :: rest => (true, rest)
    | '+' :: rest => (false, rest)
    | text => (false, text)
  if startsWith "infinity" text then some (.infinite negative, text.drop 8)
  else if startsWith "inf" text then some (.infinite negative, text.drop 3)
  else if startsWith "nan" text then some (.notNumber negative, behindTag (text.drop 3))
  else
    let decimal : Option (Floating × Raw) := do
      let (n, places, rest) ← readDigits Char.isDigit 10 text
      let (exponent, rest) := readExponent ['e', 'E'] rest
      let (n, d) := timesPower 10 n (exponent - places)
      return (ofQuotient format negative n d, rest)
    let hexadecimal : Option (Floating × Raw) := do
      let (n, places, rest) ← readDigits Raw.isHexadecimal 16 (text.drop 2)
      let (exponent, rest) := readExponent ['p', 'P'] rest
      let (n, d) := timesPower 2 n (exponent - 4 * places)
      return (ofQuotient format negative n d, rest)
    if startsWith "0x" text then hexadecimal.orElse fun _ => decimal else decimal

/-- A format that holds whatever texts name, but for a last bit far away. -/
def wideFormat : FloatingFormat := ⟨256, -400000, 400000⟩

/-- Whether a text names a number that is too large for a format, or so small that the
format has lost some of it. -/
def isOutOfRange (format : FloatingFormat) (text : Raw) : Bool :=
  match read? format text, read? wideFormat text with
  | some (.infinite _, _), some (.finite .., _) => true
  | some (.finite _ m e, _), some (.finite _ m' e', _) =>
    let least := min e e'
    m' != 0 && (m == 0 || (e == format.least && m < Nat.pow 2 (format.bits - 1))) &&
      m * Nat.pow 2 (e - least).toNat != m' * Nat.pow 2 (e' - least).toNat
  | _, _ => false

/-! Writing. -/

/-- The value times a power of ten, rounded. -/
def timesTen (mantissa : Nat) (exponent : Int) (power : Int) : Nat :=
  let (n, d) := timesPower 2 mantissa exponent
  let (n, d') := timesPower 10 n power
  Binary64.roundDiv n (d * d')

/-- Digits, at least some number of them. -/
def padded (width : Nat) (n : Nat) : Raw :=
  let digits := Raw.ofNat n
  List.replicate (width - digits.length) '0' ++ digits

/-- A point and what stands behind it; nothing if that is empty, unless the point stays. -/
def pointed (keep : Bool) (part : Raw) : Raw :=
  if part.isEmpty && !keep then [] else '.' :: part

/-- Positional notation with a number of places. -/
def fixed (mantissa : Nat) (exponent : Int) (places : Nat) (keepPoint : Bool) : Raw :=
  let all := padded (places + 1) (timesTen mantissa exponent places)
  all.take (all.length - places) ++ pointed keepPoint (all.drop (all.length - places))

/-- The decimal exponent of the value after rounding to some digits behind the first,
and those digits. -/
def scientificDigits (mantissa : Nat) (exponent : Int) (places : Nat) : Int × Raw :=
  if mantissa == 0 then (0, List.replicate (places + 1) '0')
  else
    let (n, d) := timesPower 2 mantissa exponent
    let guess : Int :=
      if n ≥ d then ((Raw.ofNat (n / d)).length : Int) - 1
      else -((Raw.ofNat (d / n)).length : Int)
    -- The guess is too small by one at most.
    let tooMany := Nat.pow 10 (places + 1)
    let power := if timesTen mantissa exponent (places - guess) ≥ tooMany then guess + 1
      else guess
    (power, Raw.ofNat (timesTen mantissa exponent (places - power)))

def writeExponent (mark : Char) (least : Nat) (e : Int) : Raw :=
  mark :: (if e < 0 then '-' else '+') :: padded least e.natAbs

/-- Notation with an exponent. -/
def scientific (mantissa : Nat) (exponent : Int) (places : Nat) (keepPoint : Bool) : Raw :=
  let (power, digits) := scientificDigits mantissa exponent places
  digits.take 1 ++ pointed keepPoint (digits.drop 1) ++ writeExponent 'e' 2 power

/-- The shorter of the two notations; without `keepZeros` zeros at the end go. -/
def general (mantissa : Nat) (exponent : Int) (digits : Nat) (keepZeros : Bool) : Raw :=
  let digits := max digits 1
  let (power, _) := scientificDigits mantissa exponent (digits - 1)
  let trim (text : Raw) : Raw :=
    if keepZeros || !text.contains '.' then text
    else
      let text := (text.reverse.dropWhile (· == '0')).reverse
      (text.reverse.dropWhile (· == '.')).reverse
  if power < -4 || (digits : Int) ≤ power then
    let all := scientific mantissa exponent (digits - 1) keepZeros
    let front := all.takeWhile (· != 'e')
    trim front ++ all.drop front.length
  else trim (fixed mantissa exponent (digits - 1 - power).toNat keepZeros)

/-- Hexadecimal notation: the mantissa is written with its first `lead` bits before the point. -/
def hexadecimal (format : FloatingFormat) (lead : Nat) (mantissa : Nat) (exponent : Int)
    (places : Option Nat) (keepPoint : Bool) : Raw :=
  if mantissa == 0 then
    "0x0".toList ++ pointed keepPoint (List.replicate (places.getD 0) '0') ++ "p+0".toList
  else
    -- As many bits as the format has, and the part behind the point in whole digits.
    let width := format.bits
    -- The smallest numbers keep the exponent of the format.
    let shift := if exponent == format.least then 0 else width - 1 - Nat.log2 mantissa
    let behind := width - lead
    let digits := (behind + 3) / 4
    let m := mantissa * Nat.pow 2 (shift + (4 * digits - behind))
    let power := exponent - shift + behind
    let all := match places with
      | some p =>
        if p < digits then Binary64.roundDiv m (Nat.pow 16 (digits - p))
        else m * Nat.pow 16 (p - digits)
      | none => m
    let count := places.getD digits
    let text := Nat.toDigits 16 all
    let text := List.replicate (count + 1 - text.length) '0' ++ text
    let front := text.take (text.length - count)
    let part := text.drop (text.length - count)
    let part := if places.isNone then (part.reverse.dropWhile (· == '0')).reverse else part
    -- Rounding up can lead to one more digit, which is always a one before zeros.
    let (front, power) := if front.length > 1 then (front.take 1, power + 4) else (front, power)
    "0x".toList ++ front ++ pointed keepPoint part ++ writeExponent 'p' 1 power

end Floating

end LedgerConformance
