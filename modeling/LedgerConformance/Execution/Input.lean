import LedgerConformance.Execution.Fault

/-!
The file that an implementation is given. Inline text is put into a scratch
file, which is there only while the implementation runs.
-/

namespace LedgerConformance

/-- A step that may change files and may fail. -/
abbrev Attempt (ε α : Type) : Type := ExceptT ε (StateM FileSystem) α

namespace Attempt

variable {ε δ α : Type}

def ofExcept (e : Except ε α) : Attempt ε α := ExceptT.mk (pure e)

/-- The same step with another sort of failure. -/
def mapError (f : ε → δ) (a : Attempt ε α) : Attempt δ α := ExceptT.mk do
  match ← a.run with
  | .ok x => return .ok x
  | .error e => return .error (f e)

end Attempt

/-- Where the ledger of an input comes from. -/
inductive InputSource where
  | file (path : String)
  | inline (text : String)
deriving DecidableEq, Repr

namespace InputSource

/-- The names that lead to the scratch file. -/
def scratchNames : List String := ["tmp", "ledger.beancount"]

def scratchPath : String := "/tmp/ledger.beancount"

/-- The path at which a source is found. -/
def path : InputSource → String
  | file path => path
  | inline _ => scratchPath

/-- What a step does while the source is there as a file. -/
def provide {ε α : Type} (source : InputSource) (step : Attempt ε α) : Attempt ε α :=
  match source with
  | file _ => step
  | inline text => ExceptT.mk do
    modify fun fs => { fs with root := fs.root.insert scratchNames (.file text.toUTF8) }
    let result ← step.run
    modify fun fs => { fs with root := fs.root.erase scratchNames }
    return result

def filePath? (c : Case) : Option String := c.input.file.map (Path.join c.suiteDir)

/-- The input of a case; a file has to be there. -/
def ofCase (fs : FileSystem) (c : Case) : Except Fault InputSource :=
  match c.input.inline, filePath? c with
  | some text, _ => .ok (.inline text)
  | none, none => .error .noInput
  | none, some path => if fs.isFile path then .ok (.file path) else .error (.missingInput path)

end InputSource

end LedgerConformance
