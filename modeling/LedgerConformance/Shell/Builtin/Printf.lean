import LedgerConformance.Shell.Arithmetic
import LedgerConformance.Shell.Builtin.Echo
import LedgerConformance.Text.Conversion

/-!
The command that writes its arguments by a format, which is used again as long as
arguments are left.
-/

namespace LedgerConformance.Shell.Builtin.Printf

/-- The arguments that are left, whether any was used, and whether one was no number. -/
structure State where
  args : List Raw
  used : Bool := false
  failed : Bool := false

abbrev Printing (α : Type) : Type := StateT State Sh α

/-- The next argument, if there is one. -/
def argument : Printing (Option Raw) := do
  let s ← get
  match s.args with
  | [] => return none
  | a :: rest =>
    set { s with args := rest, used := true }
    return some a

def warn (text : Raw) : Printing Unit := do
  Sh.warn text
  modify fun s => { s with failed := true }

/-- Complains about a number that was not read as a whole. -/
def check (text rest : Raw) (read outOfRange : Bool) : Printing Unit := do
  if !rest.isEmpty then
    warn (text ++
      (if read then ": not completely converted" else ": expected numeric value").toList)
  else if outOfRange then warn (text ++ ": Numerical result out of range".toList)

/-- A whole number at the front of a text: its sign, its size, and what is left. -/
def readInteger (text : Raw) : Option (Bool × Nat × Raw) :=
  let trimmed := text.dropWhile Raw.isSpace
  let (negative, digits) := match trimmed with
    | '-' :: rest => (true, rest)
    | '+' :: rest => (false, rest)
    | rest => (false, rest)
  (Arithmetic.digits digits).map fun (n, rest) => (negative, n, rest)

/-- The next argument as a whole number. -/
def integer (signed : Bool) : Printing Int := do
  match ← argument with
  | none => return 0
  | some text =>
    match text with
    | '"' :: rest | '\'' :: rest => return ((rest.head?.map Char.toNat).getD 0 : Nat)
    | text =>
      match readInteger text with
      | none =>
        check text text false false
        return 0
      | some (negative, n, rest) =>
        let value : Int := if negative then -(n : Int) else n
        let inRange := if signed then Arithmetic.clamp value == value
          else n < 18446744073709551616
        check text rest true (!inRange)
        if signed then return Arithmetic.clamp value
        return if inRange then value else -1

/-- The next argument as a floating point number. -/
def floating : Printing Floating := do
  match ← argument with
  | none => return .finite false 0 0
  | some text =>
    match text with
    | '"' :: rest | '\'' :: rest =>
      return .finite false ((rest.head?.map Char.toNat).getD 0) 0
    | text =>
      match Floating.read? .double text with
      | none =>
        check text text false false
        return .finite false 0 0
      | some (value, rest) =>
        check text rest true (Floating.isOutOfRange .double text)
        return value

/-- The least width that cannot be written. -/
def tooWide : Nat := 2147483648

/-- A number in a format, or an asterisk for an argument. -/
def count (format : Raw) : Printing (Option Int × Raw) := do
  match format with
  | '*' :: rest => return (some ((← integer true).bmod 4294967296), rest)
  | format =>
    let digits := format.takeWhile Char.isDigit
    let rest := format.drop digits.length
    let value := Raw.digitsValue 10 digits
    if value ≥ tooWide then Sh.fail "xvsnprintf failed".toList
    return (if digits.isEmpty then none else some value, rest)

/-- A conversion behind a percent sign, and the format behind it. -/
def conversion (format : Raw) : Printing (Conversion × Raw) := do
  let flags := format.takeWhile fun c => "#-+ 0".toList.contains c
  let (width, rest) ← count (format.drop flags.length)
  let (precision, rest) ← match rest with
    | '.' :: rest =>
      let (precision, rest) ← count rest
      pure (some (precision.getD 0), rest)
    | rest => pure (none, rest)
  let width := width.getD 0
  if width.natAbs ≥ tooWide then Sh.fail "xvsnprintf failed".toList
  let flags := if width < 0 then '-' :: flags else flags
  match rest with
  | [] => Sh.fail "missing format character".toList
  | letter :: behind =>
    let precision := precision.bind fun p => if p < 0 then none else some p.toNat
    if !"bcsdiouxXaAeEfFgG".toList.contains letter then
      Sh.fail ('%' :: format.take (format.length - behind.length) ++ ": invalid directive".toList)
    return ({ flags, width := width.natAbs, precision, letter }, behind)

/-- Writes the next argument; the answer says that output ends. -/
def convert (c : Conversion) : Printing Bool := do
  match c.letter with
  | 'b' =>
    let (text, ended) := unescapeAll ((← argument).getD [])
    Sh.put (c.text text)
    return ended
  | 'c' =>
    let first := (((← argument).getD []).head?).getD (Char.ofNat 0)
    Sh.put (c.pad [first])
    return false
  | 's' =>
    Sh.put (c.text ((← argument).getD []))
    return false
  | 'd' | 'i' =>
    Sh.put (c.signed (← integer true))
    return false
  | 'o' | 'u' | 'x' | 'X' =>
    Sh.put (c.unsigned (← integer false))
    return false
  | _ =>
    Sh.put (c.floating .double 1 (← floating))
    return false

/-- An escape in a format. -/
def escape (text : Raw) : Char × Raw :=
  match text with
  | c :: rest =>
    match simpleEscapes.lookup c with
    | some d => (d, rest)
    | none => if Raw.isOctal c then octalByte 3 text else ('\\', text)
  | [] => ('\\', [])

/-- Goes through a format once; the answer says that output ends. -/
def once : (steps : Nat) → Raw → Printing Bool
  | 0, _ => return false
  | _ + 1, [] => return false
  | steps + 1, '\\' :: rest => do
    let (c, rest) := escape rest
    Sh.put [c]
    once steps rest
  | steps + 1, '%' :: '%' :: rest => do
    Sh.put ['%']
    once steps rest
  | steps + 1, '%' :: rest => do
    let (c, rest) ← conversion rest
    if ← convert c then return true
    once steps rest
  | steps + 1, c :: rest => do
    Sh.put [c]
    once steps rest

/-- Goes through a format until no argument is left. -/
def again (format : Raw) : (steps : Nat) → Printing Unit
  | 0 => return
  | steps + 1 => do
    modify fun s => { s with used := false }
    if ← once (format.length + 1) format then return
    let s ← get
    if s.used && !s.args.isEmpty then again format steps

def run (args : List Raw) : Sh Nat := do
  let (_, args) ← options "" args
  match args with
  | [] => Sh.fail "usage: printf format [arg ...]".toList
  | format :: args =>
    let ((), s) ← (again format (args.length + 1)).run { args }
    return if s.failed then 1 else 0

end LedgerConformance.Shell.Builtin.Printf
