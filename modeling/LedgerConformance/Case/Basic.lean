/-!
Test cases: an input for an implementation and what is expected of it. A case
is about one of three kinds of work, which the fields that it fills in decide.
-/

namespace LedgerConformance

/-- What a case exercises. -/
inductive Kind where
  | parsing
  | validation
  | query
deriving DecidableEq, Repr

namespace Kind

def all : List Kind := [parsing, validation, query]

def name : Kind → String
  | parsing => "syntax"
  | validation => "validation"
  | query => "query"

def ofName? (s : String) : Option Kind := all.find? (·.name == s)

end Kind

/-- The state that is expected of a phase; `skip` expects nothing. -/
inductive Expectation where
  | success
  | error
  | skip
deriving DecidableEq, Repr

namespace Expectation

def all : List Expectation := [success, error, skip]

def name : Expectation → String
  | success => "success"
  | error => "error"
  | skip => "skip"

def ofName? (s : String) : Option Expectation := all.find? (·.name == s)

end Expectation

/-- A ledger, in the case itself or in a file beside it, and a query on it. -/
structure Input where
  inline : Option String := none
  file : Option String := none
  query : Option String := none
deriving DecidableEq, Repr

/-- What is expected of the outcome. A field that is not filled in is not
checked; `errorTypes` and `balance` are only carried along. -/
structure Expected where
  parse : Option Expectation := none
  validate : Option Expectation := none
  query : Option Expectation := none
  errorContains : List String := []
  errorCount : Option Nat := none
  errorTypes : List String := []
  directives : Option Nat := none
  accounts : List String := []
  rowCount : Option Nat := none
  columns : List String := []
  balance : List (String × List (String × String)) := []
deriving DecidableEq, Repr

/-- A query makes a query case, an expected validation a validation case. -/
def Kind.infer (input : Input) (expected : Expected) : Kind :=
  if expected.query.isSome || input.query.isSome then .query
  else if expected.validate.isSome then .validation
  else .parsing

/-- One test. File inputs are found from the directory of the suite. -/
structure Case where
  id : String
  description : String := ""
  suite : String := ""
  suiteDir : String := "."
  tags : List String := []
  skip : Bool := false
  skipReason : Option String := none
  specRef : Option String := none
  input : Input := {}
  expected : Expected := {}
  kind : Kind := .parsing
deriving DecidableEq, Repr

end LedgerConformance
