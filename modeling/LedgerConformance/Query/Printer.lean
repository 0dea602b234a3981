import LedgerConformance.Query.Statement

/-!
Statements as texts, with blanks between tokens. A literal stands in single
quotes, or in double quotes if it has a single quote inside.
-/

namespace LedgerConformance.Query

namespace Token

/-- The quote that a literal is written in. -/
def markFor (content : List Char) : Char := if content.contains '\'' then '"' else '\''

def write : Token → List Char
  | word s => s.toList
  | literal s => markFor s.toList :: s.toList ++ [markFor s.toList]
  | comma => [',']
  | star => ['*']
  | equals => ['=']

/-- Tokens with one blank between neighbours. -/
def writeAll (tokens : List Token) : List Char := [' '].intercalate (tokens.map write)

end Token

namespace Statement

def columnTokens : List Column → List Token
  | [] => []
  | [c] => [.word c.name]
  | c :: rest => .word c.name :: .comma :: columnTokens rest

/-- Conditions behind a keyword, which is AND from the second on. -/
def filterTokens (keyword : String) : List (Column × String) → List Token
  | [] => []
  | (column, value) :: rest =>
    .word keyword :: .word column.name :: .equals :: .literal value :: filterTokens "AND" rest

def limitTokens : Option Nat → List Token
  | none => []
  | some n => [.word "LIMIT", .word (toString n)]

def tokens (s : Statement) : List Token :=
  .word "SELECT" :: (if s.distinct then [.word "DISTINCT"] else []) ++ columnTokens s.columns ++
    filterTokens "WHERE" s.filters ++ limitTokens s.limit

def render (s : Statement) : String := String.ofList (Token.writeAll s.tokens)

end Statement

end LedgerConformance.Query
