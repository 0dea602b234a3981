import LedgerConformance.Text.Blank
import LedgerConformance.Text.Quoted

/-!
Tokens of a query: words, literals in single or double quotes, commas, stars
and equals signs. Blanks divide them, and semicolons at the end are dropped.
-/

namespace LedgerConformance.Query

inductive Token where
  | word (text : String)
  | literal (content : String)
  | comma
  | star
  | equals
deriving DecidableEq, Repr

namespace Token

/-- How a token is shown in a message. -/
def shown : Token → String
  | word s => "Ident(" ++ Text.quoted s ++ ")"
  | literal s => "Literal(" ++ Text.quoted s ++ ")"
  | comma => "Comma"
  | star => "Star"
  | equals => "Eq"

/-- How a token that may be missing is shown. -/
def showOption : Option Token → String
  | some t => "Some(" ++ t.shown ++ ")"
  | none => "None"

/-- Why a query has no tokens. -/
inductive Fault where
  | unterminatedLiteral
  | unexpectedCharacter (c : Char)
deriving DecidableEq, Repr

/-- Where the reader stands; what it has read of a token is newest first. -/
inductive Place where
  | gap
  | inWord (read : List Char)
  | inLiteral (mark : Char) (read : List Char)

def startsWord (c : Char) : Bool := c.isAlphanum || c == '_'

def continuesWord (c : Char) : Bool := startsWord c || c == '.'

/-- The token or the place that a character outside words and literals leads to. -/
def enter (c : Char) : Except Fault (Option Token × Place) :=
  if Text.isBlank c then .ok (none, .gap)
  else if c == ',' then .ok (some .comma, .gap)
  else if c == '*' then .ok (some .star, .gap)
  else if c == '=' then .ok (some .equals, .gap)
  else if c == '\'' || c == '"' then .ok (none, .inLiteral c [])
  else if startsWord c then .ok (none, .inWord [c])
  else .error (.unexpectedCharacter c)

/-- Reads tokens from a place in the query. -/
def readFrom : Place → List Char → Except Fault (List Token)
  | .gap, [] => .ok []
  | .gap, c :: rest =>
    match enter c with
    | .error fault => .error fault
    | .ok (token, place) => (readFrom place rest).map (token.toList ++ ·)
  | .inWord read, [] => .ok [word (String.ofList read.reverse)]
  | .inWord read, c :: rest =>
    if continuesWord c then readFrom (.inWord (c :: read)) rest
    else
      match enter c with
      | .error fault => .error fault
      | .ok (token, place) =>
        (readFrom place rest).map (word (String.ofList read.reverse) :: token.toList ++ ·)
  | .inLiteral _ _, [] => .error .unterminatedLiteral
  | .inLiteral mark read, c :: rest =>
    if c == mark then (readFrom .gap rest).map (literal (String.ofList read.reverse) :: ·)
    else readFrom (.inLiteral mark (c :: read)) rest

/-- What is left of a query without blanks around it and semicolons after it. -/
def body (query : List Char) : List Char := Text.dropEndWhile (· == ';') (Text.trim query)

def ofQuery (query : String) : Except Fault (List Token) := readFrom .gap (body query.toList)

end Token

end LedgerConformance.Query
