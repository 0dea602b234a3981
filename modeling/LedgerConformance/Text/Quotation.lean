import LedgerConformance.Text.Raw

/-!
Texts in quotation marks for messages. A message quotes a text with escapes for what
cannot be printed; the name of a file is written so that a shell reads it back, in
quotation marks only where it needs them.
-/

namespace LedgerConformance.Text.Quotation

def isPrintable (c : Char) : Bool := ' ' ≤ c && c ≤ '~'

/-- The letters of control characters that have one. -/
def controlLetters : List (Char × Char) := [
  ('\x07', 'a'), ('\x08', 'b'), ('\x0c', 'f'), ('\n', 'n'), ('\r', 'r'), ('\t', 't'),
  ('\x0b', 'v')]

/-- A character that cannot be printed, as an escape. -/
def escape (c : Char) : Raw :=
  match controlLetters.lookup c with
  | some letter => ['\\', letter]
  | none =>
    let digit (n : Nat) : Char := Char.ofNat (n % 8 + '0'.toNat)
    ['\\', digit (c.toNat / 64), digit (c.toNat / 8), digit c.toNat]

/-- A text in apostrophes, with escapes. -/
def message (text : Raw) : Raw :=
  let inner := text.flatMap fun c =>
    if c == '\'' || c == '\\' then ['\\', c] else if isPrintable c then [c] else escape c
  '\'' :: inner ++ ['\'']

/-- The same as a string. -/
def quoted (text : Raw) : String := Raw.toString (message text)

/-- Characters that a shell takes for more than themselves. -/
def isSpecial (c : Char) : Bool :=
  " !\"$&()*;<=>?[^\x60|'\\".toList.contains c || !isPrintable c

/-- Whether a name has to stand in quotation marks. -/
def isQuoted (name : Raw) : Bool :=
  name.any isSpecial || match name with
    | [] => true
    | c :: rest =>
      c == '#' || c == '~' || ((c == '\x7b' || c == '\x7d') && rest.isEmpty)

/-- Characters that mean the same between either sort of quotation marks. -/
def isHarmless (c : Char) : Bool :=
  isPrintable c && !"!\"$&()*;<=>?[^\x60|\\#~\x7b\x7d".toList.contains c

/-- What stands between apostrophes; `escaping` says that an escape came before. -/
def apostrophes : (escaping : Bool) → Raw → Raw
  | _, [] => []
  | escaping, c :: rest =>
    if c == '\'' then "'\\''".toList ++ apostrophes false rest
    else if isPrintable c then
      (if escaping then ['\'', '\''] else []) ++ c :: apostrophes false rest
    else (if escaping then [] else "'$'".toList) ++ escape c ++ apostrophes true rest

/-- A name in quotation marks for a shell. -/
def always (name : Raw) : Raw :=
  let front := match name with
    | c :: _ => c == '#' || c == '~' || isHarmless c
    | [] => true
  if name.contains '\'' && front && (name.drop 1).all isHarmless then '"' :: name ++ ['"']
  else '\'' :: apostrophes false name ++ ['\'']

/-- The name of a file in a message, where a colon ends it. -/
def fileName (name : Raw) : String :=
  Raw.toString (if isQuoted name || name.contains ':' then always name else name)

end LedgerConformance.Text.Quotation
