import LedgerConformance.Shell.Builtin.Basic

/-!
Escapes in texts, and the command that writes its arguments.
-/

namespace LedgerConformance.Shell.Builtin

/-- The characters that letters behind a backslash stand for. -/
def simpleEscapes : List (Char × Char) := [
  ('a', '\x07'), ('b', '\x08'), ('e', '\x1b'), ('f', '\x0c'), ('n', '\n'), ('r', '\r'), ('t', '\t'),
  ('v', '\x0b'), ('\\', '\\')]

/-- Octal digits at the front of a text, as one byte. -/
def octalByte (most : Nat) (text : Raw) : Char × Raw :=
  let digits := (text.take most).takeWhile Raw.isOctal
  (Char.ofNat (Raw.digitsValue 8 digits % 256), text.drop digits.length)

/-- A text with its escapes replaced; the mark says that output ends with it. -/
def unescape : (steps : Nat) → Raw → Raw × Bool
  | 0, _ => ([], false)
  | _ + 1, [] => ([], false)
  | steps + 1, '\\' :: c :: rest =>
    let continued (found : Raw) (rest : Raw) : Raw × Bool :=
      let (text, ended) := unescape steps rest
      (found ++ text, ended)
    match simpleEscapes.lookup c with
    | some d => continued [d] rest
    | none =>
      if c == 'c' then ([], true)
      else if c == '0' then
        let (d, rest) := octalByte 3 rest
        continued [d] rest
      else if Raw.isOctal c then
        let (d, rest) := octalByte 3 (c :: rest)
        continued [d] rest
      else continued ['\\', c] rest
  | steps + 1, c :: rest =>
    let (text, ended) := unescape steps rest
    (c :: text, ended)

def unescapeAll (text : Raw) : Raw × Bool := unescape (text.length + 1) text

/-- Writes its arguments with blanks between them. -/
def echo (args : List Raw) : Sh Nat := do
  let (newline, args) := match args with
    | ['-', 'n'] :: rest => (false, rest)
    | args => (true, args)
  let (text, ended) := unescapeAll (args.intersperse [' ']).flatten
  Sh.put (if newline && !ended then text ++ ['\n'] else text)
  return 0

end LedgerConformance.Shell.Builtin
