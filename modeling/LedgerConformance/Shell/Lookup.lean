import LedgerConformance.Shell.Builtin.Control
import LedgerConformance.Shell.Builtin.Jobs
import LedgerConformance.Shell.Builtin.Printf
import LedgerConformance.Shell.Builtin.Test
import LedgerConformance.Shell.Builtin.Variables

/-!
What the name of a command stands for, and starting programs in the place of the
shell.
-/

namespace LedgerConformance.Shell

/-- The commands of the shell itself. -/
def regularCommands : List String :=
  ["[", "alias", "bg", "cd", "chdir", "command", "echo", "false", "fg", "getopts", "hash", "jobs",
    "kill", "printf", "pwd", "read", "test", "true", "type", "ulimit", "umask", "unalias", "wait"]

/-- Commands whose faults end a script; unlike the others these include one that
functions may replace. -/
def isSpecialCommand (name : Raw) : Bool :=
  Parser.specialCommands.contains (String.ofList name) || name == "local".toList

def isBuiltin (name : Raw) : Bool :=
  isSpecialCommand name || regularCommands.contains (String.ofList name)

/-- Commands whose arguments can be assignments. -/
def takesAssignments (name : Raw) : Bool :=
  ["alias", "export", "readonly", "local"].contains (String.ofList name)

/-- What a name stands for. -/
inductive Location where
  | function (definition : Command)
  | builtin
  | program (path : Raw)
  | missing (reason : Raw)

/-- Why a program cannot be run, in the words of scripts. -/
def runReason : CallError → Raw
  | .file .notFound | .file .notDirectory => "not found".toList
  | e => Raw.ofString e.describe

namespace Sh

def defaultPath : Raw := "/usr/local/sbin:/usr/local/bin:/usr/sbin:/usr/bin:/sbin:/bin".toList

/-- The paths at which a program may be found. -/
def candidates (path name : Raw) : List Raw :=
  (Raw.splitOn ':' path).map fun d => if d.isEmpty then name else d ++ '/' :: name

def isMissing : CallError → Bool
  | .file .notFound | .file .notDirectory => true
  | _ => false

/-- The first file in the directories of a path that has a name. -/
def search (path name : Raw) : Sh (Except CallError Raw) := do
  let all := candidates path name
  iterate (fun (left, reason) => do
    match left with
    | [] => return .inr (.error reason)
    | candidate :: rest =>
      match ← ask (.examine candidate) with
      | .ok (.file _) | .ok .program => return .inr (.ok candidate)
      | .ok _ => return .inl (rest, .file .permissionDenied)
      | .error e => return .inl (rest, if isMissing e then reason else e))
    (fun (_, reason) => pure (.error reason)) (all.length + 1) (all, .file .notFound)

/-- The directories in which programs are looked for. -/
def searchPath : Sh Raw := do return ((← get).value? "PATH".toList).getD []

def locate (path name : Raw) (functions : Bool) : Sh Location := do
  let s ← get
  if name.contains '/' then return .program name
  if let some f := s.functions.lookup name then
    if functions then return .function f
  if isBuiltin name then return .builtin
  match ← search path name with
  | .ok found => return .program found
  | .error e => return .missing (runReason e)

/-- Becomes a program; if that fails the shell ends. -/
def become {α : Type} (path : Raw) (argv : List Raw) : Sh α := do
  let name := argv.headD []
  let environment := (← get).environment
  let all := if name.contains '/' then [name] else candidates path name
  let reason ← iterate (fun (left, reason) => do
    match left with
    | [] => return .inr reason
    | candidate :: rest =>
      let e ← ask (.become candidate argv environment)
      return .inl (rest, if isMissing e then reason else e))
    (fun (_, reason) => pure reason) (all.length + 1) (all, .file .notFound)
  warn (name ++ ": ".toList ++ runReason reason)
  let missing := isMissing reason || reason == .file .nameTooLong
  setStatus (if missing then 127 else 126)
  throw .finish

end Sh

end LedgerConformance.Shell
