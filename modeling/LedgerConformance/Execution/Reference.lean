import LedgerConformance.Execution.Input
import LedgerConformance.Ledger.Lifecycle
import LedgerConformance.Outcome
import LedgerConformance.Query.Table

/-!
The reference implementation: what this library itself makes of a ledger.
-/

namespace LedgerConformance.Reference

open Ledger

def name : String := "reference"

def problemDiagnostics (ledger : Scanned) : List Diagnostic :=
  ledger.problems.map fun p =>
    { message := onLine p.line p.what.message, phase := some "parse" }

def violationDiagnostics (ledger : Scanned) : List Diagnostic :=
  (violations ledger.directives).map fun v =>
    { message := onLine v.line v.what.message, phase := some "validate" }

/-- What every kind of case reports. -/
def baseOutcome (ledger : Scanned) (diagnostics : List Diagnostic) : Outcome :=
  { implementation := name
    parse := some (.ofBool (!ledger.hasProblems))
    directiveCount := some ledger.directives.length
    accounts := some ledger.accounts
    diagnostics }

def parse (ledger : Scanned) : Outcome :=
  { baseOutcome ledger (problemDiagnostics ledger) with success := !ledger.hasProblems }

/-- Parsed and validated; a failure to parse is a failure to validate. -/
def loaded (ledger : Scanned) : Outcome :=
  baseOutcome ledger (problemDiagnostics ledger ++ violationDiagnostics ledger)

def validate (ledger : Scanned) : Outcome :=
  let o := loaded ledger
  let ok := o.diagnostics.isEmpty
  { o with success := ok, validate := some (.ofBool ok) }

def rowJson (row : List (Option String)) : Json :=
  .array (row.map fun cell => Json.orNull (cell.map .string))

/-- A ledger that does not parse is not queried. -/
def query (ledger : Scanned) (text : String) : Outcome :=
  let o := loaded ledger
  if ledger.hasProblems then { o with query := some .error }
  else
    match Query.run ledger.directives text with
    | .ok table =>
      { o with
        success := true
        query := some .success
        rows := some (table.rows.map rowJson)
        columns := some (table.columns.map Query.Column.name) }
    | .error problem =>
      let diagnostic : Diagnostic := { message := problem.message, phase := some "query" }
      { o with query := some .error, diagnostics := o.diagnostics ++ [diagnostic] }

/-- The outcome on the text of a ledger. -/
def observeText (kind : Kind) (queryText : Option String) (source : String) :
    Except Fault Outcome :=
  match kind, queryText with
  | .parsing, _ => .ok (parse (scan source))
  | .validation, _ => .ok (validate (scan source))
  | .query, some text => .ok (query (scan source) text)
  | .query, none => .error .noQuery

/-- The outcome of a case. -/
def observe (fs : FileSystem) (c : Case) : Except Fault Outcome := do
  let input ← InputSource.ofCase fs c
  if c.kind == .query && c.input.query.isNone then throw .noQuery
  match input with
  | .inline source => observeText c.kind c.input.query source
  | .file path =>
    match fs.readText path with
    | .error reason => throw (.unreadableInput path reason)
    | .ok source => observeText c.kind c.input.query source

end LedgerConformance.Reference
