import LedgerConformance.CommandLine.CompareTools
import LedgerConformance.CommandLine.GenerateLedger
import LedgerConformance.CommandLine.RunCases
import LedgerConformance.CommandLine.ValidateLog

/-!
Two programs: one for the work on conformance, whose first argument is a
command, and one for synthetic ledgers. Wrong arguments end a program before
it does anything.
-/

namespace LedgerConformance.CommandLine

inductive Program where
  | conformance
  | benchmark
deriving DecidableEq, Repr

namespace Program

/-- What the arguments ask for. -/
def action (env : Environment) (p : Program) (arguments : List String) :
    Except UsageError (Action Unit) :=
  match p, arguments with
  | conformance, "run" :: rest => return (← RunCases.ofArguments rest).perform env
  | conformance, "differential" :: rest => return (← CompareTools.ofArguments rest).perform env
  | conformance, "validate-log" :: rest => return (← ValidateLog.ofArguments rest).perform
  | conformance, name :: _ => .error (.unknownCommand name)
  | conformance, [] => .error .noCommand
  | benchmark, arguments => return (← GenerateLedger.ofArguments arguments).perform

/-- The exit code for wrong arguments. -/
def usageExit : Nat := 2

def run (p : Program) (env : Environment) (fs : FileSystem) (arguments : List String) : Ending :=
  match p.action env arguments with
  | .ok action => action.perform fs
  | .error e => ⟨usageExit, "", "error: " ++ e.message ++ "\n", fs⟩

end Program

end LedgerConformance.CommandLine
