import LedgerConformance.Calendar.Date
import LedgerConformance.Differential.Run
import LedgerConformance.Json.Printer

/-!
The report of a differential run. Inputs are checked in turn, and each result adds
to the counts and to the records of what went wrong: every divergence with what each
implementation did, and the inputs that could not be compared.
-/

namespace LedgerConformance.Differential

open Json

/-- An input and what became of it. -/
structure Checked where
  input : LedgerInput
  result : Except InputProblem Check

/-- Checks the input at a place; the result is observed as it comes. -/
def Checked.observed {m : Type → Type} [Monad m]
    (check : LedgerInput → m (Except InputProblem Check)) (observe : Nat → Checked → m Unit)
    (placed : LedgerInput × Nat) : m Checked := do
  let checked : Checked := ⟨placed.1, ← check placed.1⟩
  observe placed.2 checked
  return checked

/-- How many inputs there are, and how many of each sort. -/
structure Counts where
  totalInputs : Nat
  matching : Nat := 0
  diverging : Nat := 0
  errors : Nat := 0
deriving DecidableEq, Repr

def Counts.fields (s : Counts) : List (String × Json) :=
  [("total_inputs", .nat s.totalInputs), ("matching", .nat s.matching),
    ("diverging", .nat s.diverging), ("errors", .nat s.errors)]

inductive Classification where
  | unclassified
  | knownDifference
deriving DecidableEq, Repr

def Classification.name : Classification → String
  | unclassified => "unclassified"
  | knownDifference => "known-difference"

/-- The record of a divergence. -/
structure Divergence where
  id : String
  input : String
  sha256 : String
  /-- The name of the comparison that found the differences. -/
  comparison : String
  differences : List Difference
  /-- What each implementation did, sorted by name. -/
  implementations : List (String × Json)
  classification : Classification
  notes : String
deriving Repr

namespace Divergence

/-- The name of the divergence with a given number. -/
def idOf (number : Nat) : String := "div-" ++ Date.padded 3 number

def toJson (d : Divergence) : Json :=
  .object [
    ("id", .string d.id),
    ("input", .string d.input),
    ("input_sha256", .string d.sha256),
    ("dimension", .string d.comparison),
    ("differences", .array (d.differences.map Difference.toJson)),
    ("implementations", .object d.implementations),
    ("classification", .string d.classification.name),
    ("notes", .string d.notes)]

end Divergence

/-- The record of an input that could not be compared. -/
structure InputError where
  input : String
  message : String
deriving DecidableEq, Repr

def InputError.toJson (e : InputError) : Json :=
  .object [("input", .string e.input), ("message", .string e.message)]

namespace Runner

/-- The known difference that covers a divergence. -/
def knownFor (r : Runner) (input : LedgerInput) (check : Check) : Option KnownDifference :=
  r.known.find? (·.covers input.label check.differences)

/-- The messages of the differences, and the note of a known one. -/
def notes (known : Option KnownDifference) (check : Check) : String :=
  let messages := "; ".intercalate (check.differences.map (·.message))
  match known with
  | some k => if k.note.isEmpty then messages else messages ++ " (known: " ++ k.note ++ ")"
  | none => messages

/-- The record of a divergence on an input. -/
def divergence (r : Runner) (id : String) (input : LedgerInput) (check : Check) : Divergence :=
  let known := r.knownFor input check
  { id, input := input.label, sha256 := check.sha256, comparison := r.comparisonName
    differences := check.differences
    implementations := sortedFields (check.outcomes.map fun o => (o.implementation, o.summary))
    classification := if known.isSome then .knownDifference else .unclassified
    notes := notes known check }

end Runner

/-- What the results so far add up to. -/
structure Findings where
  summary : Counts
  divergences : List Divergence := []
  errors : List InputError := []
deriving Repr

namespace Findings

/-- Nothing is found on any of the inputs. -/
def start (totalInputs : Nat) : Findings := { summary := { totalInputs } }

/-- Counts a result, and records it unless all agree. -/
def add (r : Runner) (f : Findings) (c : Checked) : Findings :=
  match c.result with
  | .ok check =>
    if check.agrees then { f with summary.matching := f.summary.matching + 1 }
    else
      let id := Divergence.idOf (f.divergences.length + 1)
      { f with
        summary.diverging := f.summary.diverging + 1
        divergences := f.divergences ++ [r.divergence id c.input check] }
  | .error problem =>
    { f with
      summary.errors := f.summary.errors + 1
      errors := f.errors ++ [{ input := c.input.label, message := problem.message }] }

end Findings

structure Report extends Findings where
  timestamp : String
  implementations : List String
  inputCount : Nat
  comparison : String
deriving Repr

namespace Report

/-- The report on a number of inputs, from what was found on them. -/
def ofFindings (runner : Runner) (timestamp : String) (inputCount : Nat) (f : Findings) : Report :=
  { f with timestamp, implementations := runner.names, inputCount
           comparison := runner.comparisonName }

/-- The report on inputs that are checked in turn, with an observer of the results. -/
def observing {m : Type → Type} [Monad m] (runner : Runner) (timestamp : String)
    (check : LedgerInput → m (Except InputProblem Check)) (observe : Nat → Checked → m Unit)
    (inputs : List LedgerInput) : m Report := do
  let findings ← inputs.zipIdx.foldlM
    (fun f placed => return f.add runner (← Checked.observed check observe placed))
    (.start inputs.length)
  return ofFindings runner timestamp inputs.length findings

/-- A report and the results that it is on. -/
structure Observed extends Report where
  checked : List Checked

/-- The report on inputs whose results an observer keeps. -/
def of (runner : Runner) (launch : Command.Launch) (timestamp : String)
    (inputs : List LedgerInput) : StateM FileSystem Observed := do
  let check (input : LedgerInput) : StateT (List Checked) (StateM FileSystem) _ :=
    (runner.check launch input).run
  let keep (_ : Nat) (c : Checked) : StateT (List Checked) (StateM FileSystem) Unit :=
    modify (· ++ [c])
  let (report, checked) ← (observing runner timestamp check keep inputs).run []
  return { report with checked }

/-- Every input agreed. -/
def isClean (r : Report) : Bool := r.summary.diverging == 0 && r.summary.errors == 0

def toJson (r : Report) : Json :=
  .object [
    ("run", .object [
      ("timestamp", .string r.timestamp),
      ("implementations", Json.strings r.implementations),
      ("input_count", .nat r.inputCount),
      ("comparison", .string r.comparison)]),
    ("summary", .object r.summary.fields),
    ("divergences", .array (r.divergences.map Divergence.toJson)),
    ("errors", .array (r.errors.map InputError.toJson))]

def render (r : Report) : String := r.toJson.pretty

end Report

end LedgerConformance.Differential
