import LedgerConformance.Catalogue.Basic
import LedgerConformance.Differential.Config
import LedgerConformance.Text.Quoted

/-!
What a command works on. Its answer goes to the output and its remarks go to
the messages; both are kept when it fails, and so are the files it has
written.
-/

namespace LedgerConformance.CommandLine

/-- What a command finds around it. -/
structure Environment where
  /-- The time, as logs write it. -/
  timestamp : String
  /-- What tells this process from others. -/
  processLabel : String
  /-- The program of the external implementation, unless an option names one. -/
  externalProgram : Option String := none
  /-- How other programs are run. -/
  launch : Command.Launch

structure Session where
  files : FileSystem
  output : String := ""
  messages : String := ""

/-- Why a command ends early. -/
inductive Failure where
  /-- The messages say already what is wrong. -/
  | told
  | load (cause : LoadError)
  | config (cause : Differential.ConfigError)
  | file (cause : FileError)
  | startDate (text : String)
deriving DecidableEq, Repr

namespace Failure

/-- The word for a cause; an error of the system is told from one of the text of a name or file. -/
def fileWord : FileError → String
  | .notText | .zeroInName => "Error"
  | _ => "Os"

/-- How a failure is reported. -/
def report : Failure → String
  | told => ""
  | load cause => "Error: " ++ cause.name ++ "\n"
  | config cause => "Error: " ++ cause.name ++ "\n"
  | file cause => "Error: " ++ fileWord cause ++ "\n"
  | startDate text => "Error: " ++ Text.quoted ("invalid --start-date '" ++ text ++ "'") ++ "\n"

end Failure

/-- Where a command writes a text piece by piece. -/
inductive Destination where
  | output
  | messages
  | nowhere
  /-- A file, and how much of it is behind the last piece. -/
  | file (names : List String) (written : Nat := 0)
deriving DecidableEq, Repr

/-- A step of a command. -/
abbrev Action (α : Type) : Type := ExceptT Failure (StateM Session) α

namespace Action

/-- A result, or a failure with its cause. -/
def ofExcept {ε α : Type} (failure : ε → Failure) : Except ε α → Action α
  | .ok a => pure a
  | .error e => throw (failure e)

def print (text : String) : Action Unit :=
  modify fun s => { s with output := s.output ++ text }

def say (text : String) : Action Unit :=
  modify fun s => { s with messages := s.messages ++ text }

/-- Writes a line to the messages. -/
def remark (line : String) : Action Unit := say (line ++ "\n")

def files : Action FileSystem := return (← get).files

/-- Changes the files. -/
def change (f : FileSystem → Except FileError FileSystem) : Action Unit := do
  let changed ← ofExcept .file (f (← files))
  modify fun s => { s with files := changed }

/-- Lets a step work on the files. -/
def withFiles {α : Type} (step : StateM FileSystem α) : Action α :=
  modifyGet fun s =>
    let (result, files) := step.run s.files
    (result, { s with files })

/-- Starts a file with the directories that enclose it. A path may also name a stream. -/
def create (path : String) : Action Destination := do
  match Path.descriptor? path with
  | some 0 => return .nowhere
  | some 1 => return .output
  | some 2 => return .messages
  | some _ => throw (.file .notFound)
  | none =>
    change (·.makeParents path)
    let (changed, names) ← ofExcept .file ((← files).create path)
    modify fun s => { s with files := changed }
    return .file names

/-- Writes a piece behind the ones before it. -/
def put (text : String) : Destination → Action Destination
  | .output => do print text; return .output
  | .messages => do say text; return .messages
  | .nowhere => return .nowhere
  | .file names written => do
    change (·.putAt names written text.toUTF8)
    return .file names (written + text.utf8ByteSize)

/-- Writes a file with the directories that enclose it. -/
def save (path content : String) : Action Unit := do
  discard (put content (← create path))

/-- Saves a text if there is a path for it, and prints it otherwise. -/
def deliver (path : Option String) (content : String) : Action Unit :=
  match path with
  | some path => save path content
  | none => print content

/-- Ends a command whose messages say what is wrong. -/
def giveUp {α : Type} : Action α := throw .told

end Action

/-- What a command leaves. -/
structure Ending where
  exitCode : Nat
  output : String
  messages : String
  files : FileSystem

/-- Performs an action from the start. -/
def Action.perform (action : Action Unit) (fs : FileSystem) : Ending :=
  match action.run.run { files := fs } with
  | (.ok (), s) => ⟨0, s.output, s.messages, s.files⟩
  | (.error failure, s) => ⟨1, s.output, s.messages ++ failure.report, s.files⟩

/-- The items of a list between commas, without blanks around them; empty ones do not count. -/
def commaList (text : Option String) : List String :=
  match text with
  | none => []
  | some text =>
    ((Text.splitOnChar ',' text.toList).map fun item => String.ofList (Text.trim item)).filter
      (! ·.isEmpty)

end LedgerConformance.CommandLine
