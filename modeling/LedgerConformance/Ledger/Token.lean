import LedgerConformance.Text.Blank

/-!
Tokens of one ledger line. Blanks divide words; a string stands in double
quotes, where a backslash takes the next character as it is; a semicolon where
a token could start makes the rest of the line a comment.
-/

namespace LedgerConformance.Ledger

inductive Token where
  | word (text : String)
  | text (content : String)
deriving DecidableEq, Repr

namespace Token

def content : Token → String
  | word s => s
  | text s => s

def isText : Token → Bool
  | word _ => false
  | text _ => true

/-- Where the reader of a line stands. What it has read of a token is kept
with the newest character first. -/
inductive Place where
  | gap
  | inWord (read : List Char)
  | inText (read : List Char)
  | afterBackslash (read : List Char)

/-- Reads tokens from a place in the line; `none` when a string is not closed. -/
def readFrom : Place → List Char → Option (List Token)
  | .gap, [] => some []
  | .gap, c :: rest =>
    if Text.isBlank c then readFrom .gap rest
    else if c == ';' then some []
    else if c == '"' then readFrom (.inText []) rest
    else readFrom (.inWord [c]) rest
  | .inWord read, [] => some [word (String.ofList read.reverse)]
  | .inWord read, c :: rest =>
    if Text.isBlank c then
      (readFrom .gap rest).map (word (String.ofList read.reverse) :: ·)
    else if c == '"' then
      (readFrom (.inText []) rest).map (word (String.ofList read.reverse) :: ·)
    else readFrom (.inWord (c :: read)) rest
  | .inText _, [] => none
  | .inText read, c :: rest =>
    if c == '"' then (readFrom .gap rest).map (text (String.ofList read.reverse) :: ·)
    else if c == '\\' then readFrom (.afterBackslash read) rest
    else readFrom (.inText (c :: read)) rest
  | .afterBackslash _, [] => none
  | .afterBackslash read, c :: rest => readFrom (.inText (c :: read)) rest

/-- The tokens of a line, or `none` when a string in it is not closed. -/
def ofLine? (line : List Char) : Option (List Token) := readFrom .gap line

end Token

end LedgerConformance.Ledger
