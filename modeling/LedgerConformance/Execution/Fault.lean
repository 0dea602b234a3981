import LedgerConformance.Case.Basic
import LedgerConformance.FileSystem.Tree

/-!
Why a case could not be run at all, as opposed to an implementation that
reports errors.
-/

namespace LedgerConformance

/-- Why a program could not be started. -/
inductive LaunchError where
  | emptyCommand
  | zeroByte
  | file (reason : FileError)
deriving DecidableEq, Repr

def LaunchError.message : LaunchError → String
  | emptyCommand => "empty command"
  | zeroByte => "nul byte found in provided data"
  | file reason => reason.message

inductive Fault where
  | noInput
  | missingInput (path : String)
  | unreadableInput (path : String) (reason : FileError)
  | noQuery
  | launch (program : String) (reason : LaunchError)
  | noCommand (kind : Kind)
deriving DecidableEq, Repr

namespace Fault

/-- Which part of the execution failed. -/
inductive Class where
  | input
  | reference
  | launch
  | command
deriving DecidableEq, Repr

def referenceMessage (what : String) : String := "reference implementation fault: " ++ what

def message : Fault → String
  | noInput => referenceMessage "input has no inline text or file"
  | missingInput path => "failed to read input " ++ path ++ ": no such file"
  | unreadableInput path reason =>
    referenceMessage ("failed to read " ++ path ++ ": " ++ reason.message)
  | noQuery => referenceMessage "query test without a query string"
  | launch program reason => "failed to spawn " ++ program ++ ": " ++ reason.message
  | noCommand kind => "no command configured for " ++ kind.name ++ " tests"

end Fault

def Fault.class : Fault → Fault.Class
  | .missingInput _ => .input
  | .noInput | .unreadableInput .. | .noQuery => .reference
  | .launch .. => .launch
  | .noCommand _ => .command

end LedgerConformance
