import LedgerConformance.Query.Token

/-!
Select statements: columns, optionally distinct rows, equality filters and a
limit. Keywords and columns may be written in any letter case. What a query
can lack is a constructor of `Problem`.
-/

namespace LedgerConformance.Query

inductive Column where
  | date
  | flag
  | payee
  | narration
  | account
  | number
  | currency
deriving DecidableEq, Repr

namespace Column

def all : List Column := [date, flag, payee, narration, account, number, currency]

def name : Column → String
  | date => "date"
  | flag => "flag"
  | payee => "payee"
  | narration => "narration"
  | account => "account"
  | number => "number"
  | currency => "currency"

end Column

structure Statement where
  distinct : Bool
  columns : List Column
  filters : List (Column × String)
  limit : Option Nat
deriving DecidableEq, Repr

/-- Why a query is refused. -/
inductive Problem where
  | empty
  | unterminatedLiteral
  | unexpectedCharacter (c : Char)
  | noKeyword (found : Token)
  | notSelect (word : String)
  | noColumn (found : Option Token)
  | noFilterColumn (found : Option Token)
  | noLiteral
  | badLimit
  | unexpectedWord (word : String)
  | unexpectedToken (found : Token)
  | unknownColumn (word : String)
  | unsupportedStatement (keyword : String)
  | unsupportedClause (clause : String)
deriving DecidableEq, Repr

/-- The groups of problems that callers tell apart. -/
inductive Problem.Class where
  | empty
  | malformed
  | unknownColumn
  | unsupportedStatement
  | unsupportedClause
deriving DecidableEq, Repr

def Problem.class : Problem → Problem.Class
  | empty => .empty
  | unknownColumn _ => .unknownColumn
  | unsupportedStatement _ => .unsupportedStatement
  | unsupportedClause _ => .unsupportedClause
  | _ => .malformed

def Problem.message : Problem → String
  | empty => "Empty query"
  | unterminatedLiteral => "Syntax error: unterminated string literal"
  | unexpectedCharacter c => "Syntax error: unexpected character '" ++ String.singleton c ++ "'"
  | noKeyword found => "Syntax error: expected SELECT, found " ++ found.shown
  | notSelect word => "Syntax error: expected SELECT, found '" ++ word ++ "'"
  | noColumn found => "Syntax error: expected column, found " ++ Token.showOption found
  | noFilterColumn found =>
    "Syntax error: expected column in WHERE, found " ++ Token.showOption found
  | noLiteral => "Syntax error: expected string literal"
  | badLimit => "Syntax error: LIMIT expects a non-negative integer"
  | unexpectedWord word => "Syntax error: unexpected '" ++ word ++ "'"
  | unexpectedToken found => "Syntax error: unexpected " ++ found.shown
  | unknownColumn word => "Unknown column '" ++ word ++ "'"
  | unsupportedStatement keyword => "Unsupported statement '" ++ keyword ++ "'"
  | unsupportedClause clause => "Unsupported clause '" ++ clause ++ "'"

def upper (word : String) : String := word.map Char.toUpper

/-- The column that a word names in any letter case. -/
def Column.ofWord (word : String) : Except Problem Column :=
  match Column.all.find? fun c => upper c.name == upper word with
  | some c => .ok c
  | none => .error (.unknownColumn word)

/-- The value of a row of digits, if it is below 2^64. -/
def limitOf? (word : String) : Option Nat :=
  let digits := word.toList
  if digits.all Char.isDigit && !digits.isEmpty then
    let n := digits.foldl (fun n c => 10 * n + (c.toNat - '0'.toNat)) 0
    if n < 0x10000000000000000 then some n else none
  else none

/-- The columns of the list that the tokens start with, and the tokens after it. -/
def selectList : List Token → Except Problem (List Column × List Token)
  | [] => .error (.noColumn none)
  | first :: rest => do
    let columns ←
      match first with
      | .star => .ok Column.all
      | .word w => (Column.ofWord w).map ([·])
      | other => .error (.noColumn (some other))
    match rest with
    | .comma :: rest =>
      let (more, rest) ← selectList rest
      return (columns ++ more, rest)
    | rest => return (columns, rest)

/-- Clauses that are known and not supported, by their first keyword. -/
def unsupportedClause? (keyword : String) : Option String :=
  match keyword with
  | "FROM" | "HAVING" | "PIVOT" => some keyword
  | "GROUP" | "ORDER" => some (keyword ++ " BY")
  | _ => none

/-- What is wrong with tokens that start no condition. -/
def conditionProblem : List Token → Problem
  | .word w :: rest =>
    match Column.ofWord w with
    | .error problem => problem
    | .ok _ =>
      match rest with
      | .equals :: _ => .noLiteral
      | _ => .unsupportedClause "WHERE with non-equality predicate"
  | found => .noFilterColumn found.head?

/-- What the clauses after the columns say so far. -/
structure Clauses where
  filters : List (Column × String) := []
  limit : Option Nat := none
deriving DecidableEq, Repr

/-- What may come next after the columns. -/
inductive Turn where
  /-- A clause; right after a condition also AND. -/
  | clause (afterCondition : Bool)
  | condition
deriving DecidableEq, Repr

/-- Reads the clauses after the columns. -/
def clauses : Turn → Clauses → List Token → Except Problem Clauses
  | .condition, c, .word w :: .equals :: .literal value :: rest =>
    match Column.ofWord w with
    | .error problem => .error problem
    | .ok column =>
      clauses (.clause true) { c with filters := c.filters ++ [(column, value)] } rest
  | .condition, _, tokens => .error (conditionProblem tokens)
  | .clause _, c, [] => .ok c
  | .clause afterCondition, c, .word w :: rest =>
    if afterCondition && upper w == "AND" then clauses .condition c rest
    else if upper w == "WHERE" then clauses .condition c rest
    else if upper w == "LIMIT" then
      match rest with
      | .word n :: rest =>
        match limitOf? n with
        | some limit => clauses (.clause false) { c with limit := some limit } rest
        | none => .error .badLimit
      | _ => .error .badLimit
    else
      match unsupportedClause? (upper w) with
      | some clause => .error (.unsupportedClause clause)
      | none => .error (.unexpectedWord w)
  | .clause _, _, other :: _ => .error (.unexpectedToken other)

/-- The statement after its first keyword. -/
def selectBody (tokens : List Token) : Except Problem Statement := do
  let (distinct, tokens) :=
    match tokens with
    | .word w :: rest => if upper w == "DISTINCT" then (true, rest) else (false, tokens)
    | _ => (false, tokens)
  let (columns, rest) ← selectList tokens
  let c ← clauses (.clause false) {} rest
  return { distinct, columns, filters := c.filters, limit := c.limit }

def Statement.ofTokens : List Token → Except Problem Statement
  | [] => .error .empty
  | .word w :: rest =>
    match upper w with
    | "SELECT" => selectBody rest
    | "BALANCES" | "JOURNAL" | "PRINT" => .error (.unsupportedStatement (upper w))
    | _ => .error (.notSelect w)
  | other :: _ => .error (.noKeyword other)

def Statement.parse (query : String) : Except Problem Statement :=
  match Token.ofQuery query with
  | .error .unterminatedLiteral => .error .unterminatedLiteral
  | .error (.unexpectedCharacter c) => .error (.unexpectedCharacter c)
  | .ok tokens => Statement.ofTokens tokens

end LedgerConformance.Query
