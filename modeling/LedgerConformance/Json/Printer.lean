import LedgerConformance.Json.Value

/-!
The text of JSON values: compact, or with one item per line and two spaces of
indentation. Only quotes, backslashes and the controls below the space are
escaped.
-/

namespace LedgerConformance.Json

def hexDigit (n : Nat) : Char := Nat.digitChar n

def escapedChar (c : Char) : List Char :=
  if c == '"' then ['\\', '"']
  else if c == '\\' then ['\\', '\\']
  else if c.toNat < 0x20 then
    if c == '\n' then ['\\', 'n']
    else if c == '\r' then ['\\', 'r']
    else if c == '\t' then ['\\', 't']
    else if c.toNat == 0x08 then ['\\', 'b']
    else if c.toNat == 0x0C then ['\\', 'f']
    else ['\\', 'u', '0', '0', hexDigit (c.toNat / 16), hexDigit (c.toNat % 16)]
  else [c]

def writeString (s : String) : List Char := '"' :: s.toList.flatMap escapedChar ++ ['"']

mutual

/-- The value without any blanks. -/
def compactChars : Json → List Char
  | null => ['n', 'u', 'l', 'l']
  | bool true => ['t', 'r', 'u', 'e']
  | bool false => ['f', 'a', 'l', 's', 'e']
  | number n => n.write.toList
  | string s => writeString s
  | array items => '[' :: compactItems items ++ [']']
  | object fields => '{' :: compactFields fields ++ ['}']

def compactItems : List Json → List Char
  | [] => []
  | [item] => item.compactChars
  | item :: rest => item.compactChars ++ ',' :: compactItems rest

def compactFields : List (String × Json) → List Char
  | [] => []
  | [(key, value)] => writeString key ++ ':' :: value.compactChars
  | (key, value) :: rest =>
    writeString key ++ ':' :: value.compactChars ++ ',' :: compactFields rest

end

def newline (depth : Nat) : List Char := '\n' :: List.replicate (2 * depth) ' '

mutual

/-- The value over several lines, where `depth` containers enclose it. -/
def prettyChars (depth : Nat) : Json → List Char
  | null => ['n', 'u', 'l', 'l']
  | bool true => ['t', 'r', 'u', 'e']
  | bool false => ['f', 'a', 'l', 's', 'e']
  | number n => n.write.toList
  | string s => writeString s
  | array [] => ['[', ']']
  | array (item :: rest) =>
    '[' :: prettyItems (depth + 1) (item :: rest) ++ newline depth ++ [']']
  | object [] => ['{', '}']
  | object (field :: rest) =>
    '{' :: prettyFields (depth + 1) (field :: rest) ++ newline depth ++ ['}']

def prettyItems (depth : Nat) : List Json → List Char
  | [] => []
  | [item] => newline depth ++ item.prettyChars depth
  | item :: rest => newline depth ++ item.prettyChars depth ++ ',' :: prettyItems depth rest

def prettyFields (depth : Nat) : List (String × Json) → List Char
  | [] => []
  | [(key, value)] =>
    newline depth ++ writeString key ++ ':' :: ' ' :: value.prettyChars depth
  | (key, value) :: rest =>
    newline depth ++ writeString key ++ ':' :: ' ' :: value.prettyChars depth ++
      ',' :: prettyFields depth rest

end

def compact (v : Json) : String := String.ofList v.compactChars

def pretty (v : Json) : String := String.ofList (v.prettyChars 0)

end LedgerConformance.Json
