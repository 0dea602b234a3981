import LedgerConformance.Command.Reading
import LedgerConformance.Command.Template
import LedgerConformance.Execution.Input
import LedgerConformance.Result

/-!
External implementations. A tool is driven by its commands: the one for the
kind of the case is run on the input, within a bound of time, and what it
leaves is read as an outcome.
-/

namespace LedgerConformance.Command

/-- How long a program may run. -/
structure Bound where
  nanoseconds : Nat
deriving DecidableEq, Repr

namespace Bound

def ofMilliseconds (n : Nat) : Bound := ⟨n * 1000000⟩

def ofSeconds (n : Nat) : Bound := ⟨n * 1000000000⟩

/-! A bare number is one of milliseconds. -/

instance : Coe Nat Bound := ⟨ofMilliseconds⟩

instance (n : Nat) : OfNat Bound n := ⟨ofMilliseconds n⟩

/-- The first microsecond in which the time is up. -/
def microseconds (b : Bound) : Nat := (b.nanoseconds + 999) / 1000

end Bound

/-- How programs are run: with some arguments, for no longer than a bound. A program
may change the files. -/
abbrev Launch : Type := List String → Bound → Attempt LaunchError Ended

/-- An implementation that is ready to run. -/
structure Tool where
  name : String
  commands : Command.Set
  timeout : Bound := .ofSeconds 30
deriving DecidableEq, Repr

namespace Tool

/-- A program that checks and queries with JSON answers. -/
def external (binary : String) (timeout : Bound) : Tool :=
  { name := "external", commands := Command.Set.jsonTool binary, timeout }

/-- Numbers of seconds are written without an exponent. -/
def secondsStyle : Decimal.Style := ⟨-400, 400, false⟩

def timeoutMessage (timeout : Bound) : String :=
  "Timeout after " ++ Decimal.write secondsStyle (Result.seconds timeout.nanoseconds) ++ " seconds"

/-- A program that overran its bound fails in every phase. -/
def timeoutOutcome (t : Tool) (run : Ended) : Outcome :=
  { Outcome.syntheticFailure t.name (timeoutMessage t.timeout) with
    timedOut := true
    exitCode := run.exitCode
    stdout := run.stdout
    stderr := run.stderr
    duration := run.duration }

def notFoundOutcome (t : Tool) (program : String) : Outcome :=
  Outcome.syntheticFailure t.name ("Binary not found: " ++ program)

/-- What a started program, or one that could not be started, comes to. A
program that is not there is an outcome, any other failure to start is a fault. -/
def outcomeOf (t : Tool) (kind : Kind) (program : String) :
    Except LaunchError Ended → Except Fault Outcome
  | .error (.file .notFound) => .ok (t.notFoundOutcome program)
  | .error reason => .error (.launch program reason)
  | .ok run => .ok (if run.timedOut then t.timeoutOutcome run else interpret t.name kind run)

/-- Runs the command for a kind on a file. -/
def run (t : Tool) (launch : Launch) (kind : Kind) (path : String) (query : Option String) :
    Attempt Fault Outcome :=
  match t.commands.forKind kind with
  | none => throw (.noCommand kind)
  | some template => ExceptT.mk do
    let argv := template.render path query
    return t.outcomeOf kind (argv.headD "") (← (launch argv t.timeout).run)

/-- The outcome of a case. -/
def observe (t : Tool) (launch : Launch) (c : Case) : Attempt Fault Outcome := do
  if (t.commands.forKind c.kind).isNone then throw (.noCommand c.kind)
  let input ← Attempt.ofExcept (InputSource.ofCase (← get) c)
  input.provide (t.run launch c.kind input.path c.input.query)

end Tool

end LedgerConformance.Command
