import LedgerConformance.Program.Options
import LedgerConformance.Text.Conversion

/-!
The program that writes its arguments by a format, which is used again as long as
arguments are left.
-/

namespace LedgerConformance.Program.Printf

open Text.Quotation

/-- The arguments that are left, whether any was used, what is still to be written, and
whether an argument was no number. -/
structure State where
  program : Raw
  args : List Raw
  used : Bool := false
  pieces : List Raw := []
  failed : Bool := false

abbrev Printing (α : Type) : Type := StateT State Act α

def put (text : Raw) : Printing Unit := modify fun s => { s with pieces := text :: s.pieces }

/-- Writes what has been put. -/
def flush : Printing Unit := do
  let s ← get
  set { s with pieces := [] }
  match ← Act.write 1 s.pieces.reverse.flatten with
  | none => pure ()
  | some e =>
    complain s.program ("write error: " ++ e.describe)
    Act.exit (α := Unit) 1

def warn (text : String) : Printing Unit := do
  flush
  complain (← get).program text

def reject (text : String) : Printing Unit := do
  warn text
  modify fun s => { s with failed := true }

/-- Ends the program with a fault. -/
def stop {α : Type} (text : String) : Printing α := do
  warn text
  Act.exit (α := α) 1

/-- The next argument, if there is one. -/
def argument : Printing (Option Raw) := do
  let s ← get
  match s.args with
  | [] => return none
  | a :: rest =>
    set { s with args := rest, used := true }
    return some a

/-- Complains about a number that was not read as a whole. -/
def check (text rest : Raw) (read outOfRange : Bool) : Printing Unit := do
  if outOfRange then reject (quoted text ++ ": Numerical result out of range")
  else if !rest.isEmpty then
    reject (quoted text ++
      (if read then ": value not completely converted" else ": expected a numeric value"))

/-- The number of a character behind a quotation mark. -/
def character? (text : Raw) : Printing (Option Nat) := do
  match text with
  | mark :: c :: rest =>
    if mark == '"' || mark == '\'' then
      if !rest.isEmpty then
        warn ("warning: " ++ Raw.toString rest ++
          ": character(s) following character constant have been ignored")
      return some c.toNat
    else return none
  | _ => return none

/-- A whole number at the front of a text in any of three bases: its sign, its size, and
what is left. -/
def readInteger (text : Raw) : Option (Bool × Nat × Raw) :=
  let (negative, digits) := match text.dropWhile Raw.isSpace with
    | '-' :: rest => (true, rest)
    | '+' :: rest => (false, rest)
    | rest => (false, rest)
  let inBase (base : Nat) (isDigit : Char → Bool) (text : Raw) : Option (Bool × Nat × Raw) :=
    match text.takeWhile isDigit with
    | [] => none
    | all => some (negative, Raw.digitsValue base all, text.drop all.length)
  match digits with
  | '0' :: x :: rest =>
    if x == 'x' || x == 'X' then
      (inBase 16 Raw.isHexadecimal rest).orElse fun _ => some (negative, 0, x :: rest)
    else inBase 8 Raw.isOctal digits
  | digits => inBase 10 Char.isDigit digits

/-- An argument as a whole number. -/
def integer (signed : Bool) (text : Raw) : Printing Int := do
  match ← character? text with
  | some n => return n
  | none =>
    match readInteger text with
    | none =>
      check text text false false
      return 0
    | some (negative, n, rest) =>
      let value : Int := if negative then -(n : Int) else n
      let clamped : Int := if signed then
          max (-9223372036854775808) (min 9223372036854775807 value)
        else if n < 18446744073709551616 then value else 18446744073709551615
      check text rest true (clamped != value)
      return clamped

/-- An argument as a floating point number. -/
def floating (text : Raw) : Printing Floating := do
  match ← character? text with
  | some n => return .finite false n 0
  | none =>
    match Floating.read? .extended text with
    | none =>
      check text text false false
      return .finite false 0 0
    | some (value, rest) =>
      check text rest true (Floating.isOutOfRange .extended text)
      return value

/-! Conversions. -/

/-- The letters that do not go together with a flag. -/
def excluded : Char → List Char
  | 'I' | '\'' => "aAceEosxX".toList
  | '#' => "cdisu".toList
  | '0' => "cs".toList
  | _ => []

def greatestWidth : Int := 2147483647

/-- A width or precision: digits, or an asterisk for an argument. -/
def length (what : String) (least : Int) (format : Raw) : Printing (Option Int × Raw) := do
  match format with
  | '*' :: rest =>
    match ← argument with
    | none => return (some 0, rest)
    | some text =>
      let n ← integer true text
      if n > greatestWidth || n < least then stop ("invalid " ++ what ++ ": " ++ quoted text)
      return (some n, rest)
  | format =>
    let digits := format.takeWhile Char.isDigit
    return (if digits.isEmpty then none else some (Raw.digitsValue 10 digits),
      format.drop digits.length)

/-- A conversion behind a percent sign, and the format behind it. -/
def conversion (format : Raw) : Printing (Conversion × Raw) := do
  let flags := format.takeWhile fun c => "I'-+ #0".toList.contains c
  let (width, rest) ← length "field width" (-2147483648) (format.drop flags.length)
  let (point, precision, rest) ← match rest with
    | '.' :: rest => do
      let (precision, rest) ← length "precision" (-9223372036854775808) rest
      pure (true, some (precision.getD 0), rest)
    | rest => pure (false, none, rest)
  let rest := rest.dropWhile fun c => "lLhjtz".toList.contains c
  let fits (letter : Char) : Bool :=
    "aAcdeEfFgGiosuxX".toList.contains letter &&
      !(flags.any fun f => (excluded f).contains letter) && !(letter == 'c' && point)
  let wrong (behind : Raw) : Printing (Conversion × Raw) :=
    stop (Raw.toString ('%' :: format.take (format.length - behind.length)) ++
      ": invalid conversion specification")
  match rest with
  | [] => wrong []
  | letter :: behind =>
    if !fits letter then wrong behind
    else
      let width := width.getD 0
      let flags := if width < 0 then '-' :: flags else flags
      let precision := precision.bind fun p => if p < 0 then none else some p.toNat
      return ({ flags, width := width.natAbs, precision, letter }, behind)

/-- Writes an argument. -/
def convert (c : Conversion) (text : Raw) : Printing Unit := do
  match c.letter with
  | 'c' => put (c.pad [(text.head?).getD (Char.ofNat 0)])
  | 's' => put (c.text text)
  | 'd' | 'i' => put (c.signed (← integer true text))
  | 'o' | 'u' | 'x' | 'X' => put (c.unsigned (← integer false text))
  | _ => put (c.floating .extended 4 (← floating text))

/-! Escapes. -/

def letters : List (Char × Char) := [
  ('"', '"'), ('\\', '\\'), ('a', '\x07'), ('b', '\x08'), ('e', '\x1b'), ('f', '\x0c'),
  ('n', '\n'), ('r', '\r'), ('t', '\t'), ('v', '\x0b')]

/-- A number in hexadecimal notation with leading zeros. -/
def hexadecimal (width n : Nat) : Raw :=
  let digits := Nat.toDigits 16 n
  List.replicate (width - digits.length) '0' ++ digits

/-- A character by its number, which is written as an escape again beyond ASCII. -/
def numbered (mark : Char) (n : Nat) : Printing Unit := do
  if 0xd800 ≤ n && n ≤ 0xdfff then
    stop ("invalid universal character name \\" ++ String.ofList (mark ::
      hexadecimal (if mark == 'u' then 4 else 8) n))
  else if n < 128 then put [Char.ofNat n]
  else if n < 65536 then put ('\\' :: 'u' :: (hexadecimal 4 n).map Char.toUpper)
  else put ('\\' :: 'U' :: (hexadecimal 8 n).map Char.toUpper)

/-- What stands behind a backslash; `zero` says that a zero may stand before the digits
of a character. The answer is the rest, or nothing if output ends. -/
def escape (zero : Bool) (text : Raw) : Printing (Option Raw) := do
  let missing : Printing (Option Raw) := stop "missing hexadecimal number in escape"
  match text with
  | [] =>
    put ['\\']
    return some []
  | 'c' :: _ => return none
  | c :: rest =>
    if c == 'x' then
      match (rest.take 2).takeWhile Raw.isHexadecimal with
      | [] => missing
      | digits =>
        put [Char.ofNat (Raw.digitsValue 16 digits)]
        return some (rest.drop digits.length)
    else if c == 'u' || c == 'U' then
      let width := if c == 'u' then 4 else 8
      let digits := rest.take width
      if digits.length == width && digits.all Raw.isHexadecimal then
        numbered c (Raw.digitsValue 16 digits)
        return some (rest.drop width)
      else missing
    else if Raw.isOctal c then
      let text := if zero && c == '0' then rest else text
      let digits := (text.take 3).takeWhile Raw.isOctal
      put [Char.ofNat (Raw.digitsValue 8 digits % 256)]
      return some (text.drop digits.length)
    else
      match letters.lookup c with
      | some d => put [d]
      | none => put ['\\', c]
      return some rest

/-- A text with its escapes replaced; the answer says that output ends. -/
def unescape : (steps : Nat) → Raw → Printing Bool
  | 0, _ => return false
  | _ + 1, [] => return false
  | steps + 1, '\\' :: rest => do
    match ← escape true rest with
    | none => return true
    | some rest => unescape steps rest
  | steps + 1, c :: rest => do
    put [c]
    unescape steps rest

/-- Goes through a format once; the answer says that output ends. -/
def once : (steps : Nat) → Raw → Printing Bool
  | 0, _ => return false
  | _ + 1, [] => return false
  | steps + 1, '\\' :: rest => do
    match ← escape false rest with
    | none => return true
    | some rest => once steps rest
  | steps + 1, '%' :: '%' :: rest => do
    put ['%']
    once steps rest
  | steps + 1, '%' :: 'b' :: rest => do
    let text := (← argument).getD []
    if ← unescape (text.length + 1) text then return true
    once steps rest
  | steps + 1, '%' :: 'q' :: rest => do
    match ← argument with
    | some text => put (if isQuoted text then always text else text)
    | none => pure ()
    once steps rest
  | steps + 1, '%' :: rest => do
    let (c, rest) ← conversion rest
    convert c ((← argument).getD [])
    once steps rest
  | steps + 1, c :: rest => do
    put [c]
    once steps rest

/-- Goes through a format until no argument is left; the answer is the status. -/
def again (format : Raw) : (steps : Nat) → Printing Nat
  | 0 => return 0
  | steps + 1 => do
    modify fun s => { s with used := false }
    if ← once (format.length + 1) format then
      flush
      return 0
    let s ← get
    if s.used && !s.args.isEmpty then again format steps
    else
      match s.args with
      | a :: _ => warn ("warning: ignoring excess arguments, starting with " ++ quoted a)
      | [] => pure ()
      flush
      return if s.failed then 1 else 0

def run (program : Raw) (args : List Raw) : Act Nat := do
  let args := if args.head? == some ['-', '-'] then args.drop 1 else args
  match args with
  | [] => usageError program 1 "missing operand"
  | format :: args =>
    let (status, _) ← (again format (args.length + 1)).run { program, args }
    return status

end LedgerConformance.Program.Printf
