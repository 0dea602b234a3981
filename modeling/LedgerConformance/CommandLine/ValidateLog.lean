import LedgerConformance.CommandLine.Options
import LedgerConformance.CommandLine.Session
import LedgerConformance.Log.Validation

/-!
The command that checks a log. It fails if a line breaks the schema.
-/

namespace LedgerConformance.CommandLine

structure ValidateLog where
  log : String
deriving DecidableEq, Repr

namespace ValidateLog

def ofArguments (arguments : List String) : Except UsageError ValidateLog := do
  let o ← Options.read [{ name := "log" }] arguments
  return { log := ← o.requiredPath "log" }

def perform (c : ValidateLog) : Action Unit := do
  let (count, findings) ← Action.ofExcept .file (Log.checkFile (← Action.files) c.log)
  if findings.isEmpty then
    Action.print (c.log ++ ": " ++ toString count ++ " lines, all valid\n")
  else
    for finding in findings do Action.remark finding.message
    Action.remark (c.log ++ ": " ++ toString findings.length ++ " errors in " ++ toString count ++
      " lines")
    Action.giveUp

end ValidateLog

end LedgerConformance.CommandLine
