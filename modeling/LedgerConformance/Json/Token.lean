import LedgerConformance.Json.Value

/-!
Tokens of JSON texts. A string that holds half of a surrogate pair, and a
number that is too large, are tokens without a value: such a text is well
formed, and only what needs the value is refused.
-/

namespace LedgerConformance.Json

inductive Token where
  | openArray
  | closeArray
  | openObject
  | closeObject
  | comma
  | colon
  | null
  | bool (value : Bool)
  | number (value : Option Number)
  | string (value : Option String)
deriving DecidableEq, Repr

namespace Token

def isHigh (unit : Nat) : Bool := 0xD800 ≤ unit && unit < 0xDC00

def isLow (unit : Nat) : Bool := 0xDC00 ≤ unit && unit < 0xE000

/-- The characters of code units that come newest first, put before those
already known; pairs of surrogates are joined. -/
def assemble (known : List Char) : List Nat → Option (List Char)
  | [] => some known
  | [unit] => if isHigh unit || isLow unit then none else some (Char.ofNat unit :: known)
  | unit :: previous :: rest =>
    if isLow unit then
      if isHigh previous then
        assemble (Char.ofNat (0x10000 + (previous - 0xD800) * 0x400 + (unit - 0xDC00)) :: known)
          rest
      else none
    else if isHigh unit then none
    else assemble (Char.ofNat unit :: known) (previous :: rest)

/-- Where the reader stands; what it has read of a token is newest first. -/
inductive Place where
  | gap
  | inString (units : List Nat)
  | afterBackslash (units : List Nat)
  | inHex (units : List Nat) (left value : Nat)
  | inNumber (read : List Char)
  | inWord (read : List Char)

def ofWord? (read : List Char) : Option Token :=
  match read with
  | ['l', 'l', 'u', 'n'] => some null
  | ['e', 'u', 'r', 't'] => some (bool true)
  | ['e', 's', 'l', 'a', 'f'] => some (bool false)
  | _ => none

def ofNumber? (read : List Char) : Option Token :=
  (Number.Lexeme.ofChars? read.reverse).map fun l => number l.value?

def ofUnits (units : List Nat) : Token := string ((assemble [] units).map String.ofList)

def continuesNumber (c : Char) : Bool :=
  c.isDigit || c == '-' || c == '+' || c == '.' || c == 'e' || c == 'E'

def isSpace (c : Char) : Bool := c == ' ' || c == '\n' || c == '\r' || c == '\t'

/-- The token or the place that a character between tokens leads to. -/
def enter (c : Char) : Option (Option Token × Place) :=
  if isSpace c then some (none, .gap)
  else if c == '"' then some (none, .inString [])
  else if c == ',' then some (some comma, .gap)
  else if c == ':' then some (some colon, .gap)
  else if c == '[' then some (some openArray, .gap)
  else if c == ']' then some (some closeArray, .gap)
  else if c == '{' then some (some openObject, .gap)
  else if c == '}' then some (some closeObject, .gap)
  else if c == '-' || c.isDigit then some (none, .inNumber [c])
  else if c.isLower then some (none, .inWord [c])
  else none

/-- The code unit of a one-letter escape. -/
def escapeUnit? (c : Char) : Option Nat :=
  match c with
  | '"' | '\\' | '/' => some c.toNat
  | 'b' => some 0x08
  | 'f' => some 0x0C
  | 'n' => some 0x0A
  | 'r' => some 0x0D
  | 't' => some 0x09
  | _ => none

def hexValue? (c : Char) : Option Nat :=
  if c.isDigit then some (c.toNat - '0'.toNat)
  else if 'a' ≤ c && c ≤ 'f' then some (c.toNat - 'a'.toNat + 10)
  else if 'A' ≤ c && c ≤ 'F' then some (c.toNat - 'A'.toNat + 10)
  else none

/-- Reads tokens from a place in the text; `none` when the text is malformed. -/
def readFrom : Place → List Char → Option (List Token)
  | .gap, [] => some []
  | .gap, c :: rest =>
    match enter c with
    | some (token, place) => (readFrom place rest).map (token.toList ++ ·)
    | none => none
  | .inString _, [] => none
  | .inString units, c :: rest =>
    if c == '"' then (readFrom .gap rest).map (ofUnits units :: ·)
    else if c == '\\' then readFrom (.afterBackslash units) rest
    else if c.toNat < 0x20 then none
    else readFrom (.inString (c.toNat :: units)) rest
  | .afterBackslash _, [] => none
  | .afterBackslash units, c :: rest =>
    if c == 'u' then readFrom (.inHex units 3 0) rest
    else
      match escapeUnit? c with
      | some unit => readFrom (.inString (unit :: units)) rest
      | none => none
  | .inHex _ _ _, [] => none
  | .inHex units left value, c :: rest =>
    match hexValue? c with
    | some digit =>
      match left with
      | 0 => readFrom (.inString ((16 * value + digit) :: units)) rest
      | left + 1 => readFrom (.inHex units left (16 * value + digit)) rest
    | none => none
  | .inNumber read, [] => (ofNumber? read).map ([·])
  | .inNumber read, c :: rest =>
    if continuesNumber c then readFrom (.inNumber (c :: read)) rest
    else
      match ofNumber? read, enter c with
      | some found, some (token, place) =>
        (readFrom place rest).map (found :: token.toList ++ ·)
      | _, _ => none
  | .inWord read, [] => (ofWord? read).map ([·])
  | .inWord read, c :: rest =>
    if c.isLower then readFrom (.inWord (c :: read)) rest
    else
      match ofWord? read, enter c with
      | some found, some (token, place) =>
        (readFrom place rest).map (found :: token.toList ++ ·)
      | _, _ => none

def ofText? (s : List Char) : Option (List Token) := readFrom .gap s

end Token

end LedgerConformance.Json
