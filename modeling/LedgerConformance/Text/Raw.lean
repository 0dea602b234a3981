import LedgerConformance.Text.Utf8

/-!
Texts whose characters stand for single bytes. Programs and scripts work on
bytes; writing each as the character with its number keeps the ease of
characters without any assumption about an encoding.
-/

namespace LedgerConformance

/-- Bytes, each written as a character below 256. -/
abbrev Raw : Type := List Char

namespace Raw

def ofBytes (bytes : ByteArray) : Raw := bytes.data.toList.map fun b => Char.ofNat b.toNat

def ofString (s : String) : Raw := ofBytes s.toUTF8

def toBytes (r : Raw) : ByteArray := ⟨(r.map fun c => UInt8.ofNat c.toNat).toArray⟩

/-- The text that bytes spell; what is no text is replaced. -/
def toString (r : Raw) : String := Text.Utf8.decodeLossy (toBytes r)

def ofNat (n : Nat) : Raw := Nat.toDigits 10 n

def ofInt (i : Int) : Raw := if i < 0 then '-' :: ofNat i.natAbs else ofNat i.natAbs

/-- The pieces between separators, as many as there are separators and one more. -/
def splitOn (separator : Char) : Raw → List Raw
  | [] => [[]]
  | c :: rest =>
    if c == separator then [] :: splitOn separator rest
    else
      match splitOn separator rest with
      | [] => [[c]]
      | first :: others => (c :: first) :: others

/-- The lines of a text; a line feed at the end closes the last one. -/
def lines (r : Raw) : List Raw :=
  let pieces := splitOn '\n' r
  if pieces.getLast? == some [] then pieces.dropLast else pieces

/-- The order of bytes. -/
def le : Raw → Raw → Bool
  | [], _ => true
  | _ :: _, [] => false
  | a :: as, b :: bs => a < b || (a == b && le as bs)

def isOctal (c : Char) : Bool := '0' ≤ c && c ≤ '7'

def isHexadecimal (c : Char) : Bool :=
  c.isDigit || ('a' ≤ c && c ≤ 'f') || ('A' ≤ c && c ≤ 'F')

/-- The number that digits of a base spell. -/
def digitsValue (base : Nat) (digits : Raw) : Nat :=
  digits.foldl (fun n c =>
    base * n + (if c.isDigit then c.toNat - '0'.toNat else c.toLower.toNat - 'a'.toNat + 10)) 0

/-- Blanks of the C language. -/
def isSpace (c : Char) : Bool := c == ' ' || ('\t' ≤ c && c ≤ '\r')

end Raw

end LedgerConformance
