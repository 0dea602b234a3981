import LedgerConformance.Json.Decode
import LedgerConformance.Outcome
import LedgerConformance.Text.Lines
import LedgerConformance.Text.Substring

/-!
Comparing the outcomes of several implementations on one input. No outcome is
taken as right: the first one only gives the others something to differ from.
-/

namespace LedgerConformance.Differential

open Json

/-- What outcomes can differ in. -/
inductive Dimension where
  | exitCode
  | hasErrors
  | errorCount
  | output
deriving DecidableEq, Repr

namespace Dimension

def all : List Dimension := [exitCode, hasErrors, errorCount, output]

def name : Dimension → String
  | exitCode => "exit_code"
  | hasErrors => "has_errors"
  | errorCount => "error_count"
  | output => "output"

def ofName? (s : String) : Option Dimension := all.find? (·.name == s)

def decode : Document → Option Dimension := Decode.word ofName?

end Dimension

/-- Which dimensions count. -/
structure Toggles where
  exitCode : Bool := true
  hasErrors : Bool := true
  errorCount : Bool := false
  output : Bool := false
deriving DecidableEq, Repr

def Toggles.enabled (t : Toggles) : Dimension → Bool
  | .exitCode => t.exitCode
  | .hasErrors => t.hasErrors
  | .errorCount => t.errorCount
  | .output => t.output

def Toggles.decode (doc : Document) : Option Toggles := do
  let fields ← Decode.record [["exit_code"], ["has_errors"], ["error_count"], ["output"]] doc
  match fields with
  | [exitCode, hasErrors, errorCount, output] =>
    return {
      exitCode := ← Decode.withDefault true Decode.bool exitCode
      hasErrors := ← Decode.withDefault true Decode.bool hasErrors
      errorCount := ← Decode.withDefault false Decode.bool errorCount
      output := ← Decode.withDefault false Decode.bool output }
  | _ => none

def Toggles.toJson (t : Toggles) : Json :=
  .object (Dimension.all.map fun d => (d.name, .bool (t.enabled d)))

/-- Dimensions, and how output is made comparable. -/
structure Comparison where
  compare : Toggles := {}
  stripPaths : Bool := false
  sortLines : Bool := false
deriving DecidableEq, Repr

namespace Comparison

def decode (doc : Document) : Option Comparison := do
  let fields ← Decode.record [["compare"], ["strip_paths"], ["sort_lines"]] doc
  match fields with
  | [compare, stripPaths, sortLines] =>
    return {
      compare := ← Decode.withDefault {} Toggles.decode compare
      stripPaths := ← Decode.withDefault false Decode.bool stripPaths
      sortLines := ← Decode.withDefault false Decode.bool sortLines }
  | _ => none

def toJson (c : Comparison) : Json :=
  .object [("compare", c.compare.toJson), ("strip_paths", .bool c.stripPaths),
    ("sort_lines", .bool c.sortLines)]

/-- The text after the last colon of a line, or the whole line. -/
def stripLocation (line : List Char) : List Char := Text.afterLast ':' line

/-- The order of texts by code point. -/
def lineLe (a b : List Char) : Bool := !decide (b < a)

/-- The lines of an output that are compared. -/
def normalLines (c : Comparison) (output : List Char) : List (List Char) :=
  let lines := Text.linesOf (Text.trim output)
  let lines := if c.stripPaths then lines.map stripLocation else lines
  if c.sortLines then lines.mergeSort lineLe else lines

/-- The output as it is compared. -/
def normalize (c : Comparison) (output : String) : String :=
  "\n".intercalate ((normalLines c output.toList).map String.ofList)

end Comparison

/-- One disagreement, in words. -/
structure Difference where
  dimension : Dimension
  message : String
deriving DecidableEq, Repr

def Difference.toJson (d : Difference) : Json :=
  .object [("dimension", .string d.dimension.name), ("message", .string d.message)]

/-- How two values of two implementations differ. -/
def contrast (what first second a b : String) : String :=
  what ++ " differs: " ++ first ++ "=" ++ a ++ ", " ++ second ++ "=" ++ b

/-- The disagreement of `o` with `first` in one dimension, if there is one. -/
def differenceIn (c : Comparison) (first o : Outcome) (d : Dimension) : Option Difference :=
  let between (what a b : String) : Difference :=
    ⟨d, contrast what first.implementation o.implementation a b⟩
  match d with
  | .exitCode =>
    if first.exitedCleanly == o.exitedCleanly then none
    else some (between "Exit status" (toString first.exitedCleanly) (toString o.exitedCleanly))
  | .hasErrors =>
    if first.hasErrors == o.hasErrors then none
    else some (between "Error presence" (toString first.hasErrors) (toString o.hasErrors))
  | .errorCount =>
    let (n, m) := (first.diagnostics.length, o.diagnostics.length)
    if n == m then none else some (between "Error count" (toString n) (toString m))
  | .output =>
    if c.normalize first.stdout == c.normalize o.stdout then none
    else some ⟨d, "Output differs: " ++ first.implementation ++ " vs " ++ o.implementation⟩

/-- Where the other outcomes disagree with the first in what counts. -/
def compare (c : Comparison) : List Outcome → List Difference
  | [] => []
  | first :: rest =>
    rest.flatMap fun o =>
      (Dimension.all.filter c.compare.enabled).filterMap (differenceIn c first o)

end LedgerConformance.Differential
