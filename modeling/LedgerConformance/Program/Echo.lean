import LedgerConformance.Program.Options

/-!
The program that writes its arguments. Escapes are replaced only if that is asked for.
-/

namespace LedgerConformance.Program.Echo

/-- The characters that letters behind a backslash stand for. -/
def letters : List (Char × Char) := [
  ('a', '\x07'), ('b', '\x08'), ('e', '\x1b'), ('f', '\x0c'), ('n', '\n'), ('r', '\r'),
  ('t', '\t'), ('v', '\x0b'), ('\\', '\\')]

/-- A text with its escapes replaced; the mark says that output ends with it. -/
def unescape : (steps : Nat) → Raw → Raw × Bool
  | 0, _ => ([], false)
  | _ + 1, [] => ([], false)
  | steps + 1, '\\' :: c :: rest =>
    let continued (found : Raw) (rest : Raw) : Raw × Bool :=
      let (text, ended) := unescape steps rest
      (found ++ text, ended)
    let numbered (base most : Nat) (isDigit : Char → Bool) (text : Raw) : Raw × Bool :=
      let digits := (text.take most).takeWhile isDigit
      continued [Char.ofNat (Raw.digitsValue base digits % 256)] (text.drop digits.length)
    match letters.lookup c with
    | some d => continued [d] rest
    | none =>
      if c == 'c' then ([], true)
      else if c == 'x' && (rest.head?.map Raw.isHexadecimal).getD false then
        numbered 16 2 Raw.isHexadecimal rest
      else if c == '0' then numbered 8 3 Raw.isOctal rest
      else if Raw.isOctal c then numbered 8 3 Raw.isOctal (c :: rest)
      else continued ['\\', c] rest
  | steps + 1, c :: rest =>
    let (text, ended) := unescape steps rest
    (c :: text, ended)

/-- Letters of options; an argument with any other letter is no option. -/
def readOptions : List Raw → (newline escapes : Bool) → Bool × Bool × List Raw
  | ('-' :: c :: more) :: rest, newline, escapes =>
    let all := c :: more
    if all.all fun c => c == 'n' || c == 'e' || c == 'E' then
      let escapes := all.foldl (fun b c => if c == 'e' then true else b && c != 'E') escapes
      readOptions rest (newline && !all.contains 'n') escapes
    else (newline, escapes, ('-' :: c :: more) :: rest)
  | args, newline, escapes => (newline, escapes, args)

def run (program : Raw) (args : List Raw) : Act Nat := do
  let (newline, escapes, args) := readOptions args true false
  let text := (args.intersperse [' ']).flatten
  let (text, ended) := if escapes then unescape (text.length + 1) text else (text, false)
  match ← Act.write 1 (if newline && !ended then text ++ ['\n'] else text) with
  | some e =>
    complain program ("write error: " ++ e.describe)
    return 1
  | none => return 0

end LedgerConformance.Program.Echo
