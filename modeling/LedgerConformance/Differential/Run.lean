import LedgerConformance.Differential.Config
import LedgerConformance.Digest.Sha256

/-!
Differential runs. Every input is given to every implementation, and their
outcomes are compared; what goes wrong on one input stays with that input.
-/

namespace LedgerConformance.Differential

/-- A ledger for every implementation, under the name that reports use. -/
structure LedgerInput where
  label : String
  source : InputSource
  kind : Kind := .parsing
  query : Option String := none
deriving DecidableEq, Repr

namespace LedgerInput

def ofFile (path : String) : LedgerInput := { label := path, source := .file path }

/-- The input of a case; one that has none is empty. -/
def ofCase (c : Case) : LedgerInput :=
  let source := match c.input.inline, InputSource.filePath? c with
    | some text, _ => .inline text
    | none, some path => .file path
    | none, none => .inline ""
  { label := c.id, source, kind := c.kind, query := c.input.query }

end LedgerInput

/-- Why an input could not be compared. -/
inductive InputProblem where
  | missingCommand (implementation : String) (kind : Kind)
  | unreadable (path : String) (reason : FileError)
  | execution (implementation : String) (fault : Fault)
deriving DecidableEq, Repr

def InputProblem.message : InputProblem → String
  | missingCommand implementation kind =>
    "implementation '" ++ implementation ++ "' has no " ++ kind.name ++ " command"
  | unreadable path reason => "failed to read input " ++ path ++ ": " ++ reason.message
  | execution implementation fault => "implementation '" ++ implementation ++ "': " ++ fault.message

/-- What was observed on one input. -/
structure Check where
  sha256 : String
  outcomes : List Outcome
  differences : List Difference
deriving Repr

def Check.agrees (c : Check) : Bool := c.differences.isEmpty

/-- Implementations that are compared with each other. -/
structure Runner where
  tools : List Command.Tool
  comparisonName : String
  comparison : Comparison
  known : List KnownDifference := []
deriving DecidableEq, Repr

namespace Runner

/-- At least two tools, all with different names. -/
def of (tools : List Command.Tool) (comparisonName : String) (comparison : Comparison) :
    Except ConfigError Runner := do
  checkNames (tools.map (·.name))
  return { tools, comparisonName, comparison }

/-- The tools and the comparison of a configuration. -/
def ofConfig (c : Config) (names : List String) (comparisonName : String)
    (timeout : Command.Bound) : Except ConfigError Runner := do
  let comparison ← c.comparison comparisonName
  let tools ← c.tools names timeout
  let runner ← of tools comparisonName comparison
  return { runner with known := c.knownDifferences }

def names (r : Runner) : List String := r.tools.map (·.name)

/-- The digest of an input, which has to be readable. -/
def digest (fs : FileSystem) : InputSource → Except InputProblem String
  | .inline text => .ok (Sha256.hex text.toUTF8)
  | .file path =>
    match fs.read path with
    | .ok bytes => .ok (Sha256.hex bytes)
    | .error reason => .error (.unreadable path reason)

/-- The outcome of one tool on an input that is there. -/
def outcomeOf (launch : Command.Launch) (input : LedgerInput) (t : Command.Tool) :
    Attempt InputProblem Outcome :=
  (t.run launch input.kind input.source.path input.query).mapError (.execution t.name)

/-- Runs every tool on an input and compares the outcomes. -/
def check (r : Runner) (launch : Command.Launch) (input : LedgerInput) :
    Attempt InputProblem Check := do
  match r.tools.find? fun t => (t.commands.forKind input.kind).isNone with
  | some t => throw (.missingCommand t.name input.kind)
  | none =>
    let sha256 ← Attempt.ofExcept (digest (← get) input.source)
    let outcomes ← input.source.provide (r.tools.mapM (outcomeOf launch input))
    return { sha256, outcomes, differences := compare r.comparison outcomes }

end Runner

end LedgerConformance.Differential
