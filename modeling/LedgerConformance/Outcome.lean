import LedgerConformance.Json.Value
import LedgerConformance.Text.Blank

/-!
What one implementation did with one input. A field that the implementation
said nothing about is missing.
-/

namespace LedgerConformance

/-- The observed state of a phase. -/
inductive PhaseState where
  | success
  | error
deriving DecidableEq, Repr

def PhaseState.ofBool (ok : Bool) : PhaseState := if ok then success else error

def PhaseState.name : PhaseState → String
  | success => "success"
  | error => "error"

/-- One message of an implementation. -/
structure Diagnostic where
  message : String
  type : Option String := none
  phase : Option String := none
deriving DecidableEq, Repr

/-- The types that mark a failure to parse. -/
def parseErrorTypes : List String := ["ParserError", "ParserSyntaxError", "LexerError"]

def Diagnostic.isParsePhase (d : Diagnostic) : Bool :=
  d.phase == some "parse" || d.type.any (parseErrorTypes.contains ·)

def Diagnostic.toJson (d : Diagnostic) : Json :=
  .object (("message", .string d.message) :: (Json.fieldIf "type" (d.type.map .string) ++
    Json.fieldIf "phase" (d.phase.map .string)))

/-- An observation. Accounts are sorted and without repetitions; the duration
is in nanoseconds. -/
structure Outcome where
  implementation : String
  success : Bool := false
  exitCode : Option Int := none
  parse : Option PhaseState := none
  validate : Option PhaseState := none
  query : Option PhaseState := none
  diagnostics : List Diagnostic := []
  directiveCount : Option Nat := none
  accounts : Option (List String) := none
  columns : Option (List String) := none
  rows : Option (List Json) := none
  stdout : String := ""
  stderr : String := ""
  timedOut : Bool := false
  duration : Nat := 0
deriving Repr

namespace Outcome

/-- A failure of every phase with one message. -/
def syntheticFailure (implementation message : String) : Outcome :=
  { implementation, parse := some .error, validate := some .error, query := some .error
    diagnostics := [{ message }] }

/-- The process ended by itself with status zero. -/
def exitedCleanly (o : Outcome) : Bool := o.exitCode == some 0 && !o.timedOut

/-- There is a diagnostic, or something on the error stream. -/
def hasErrors (o : Outcome) : Bool := !o.diagnostics.isEmpty || !Text.isBlankText o.stderr

def messages (o : Outcome) : List String := o.diagnostics.map Diagnostic.message

def firstMessages (o : Outcome) (limit : Nat) : List String := o.messages.take limit

def truncate (s : String) (limit : Nat) : String := String.ofList (s.toList.take limit)

/-- The short form that divergence records hold. -/
def summary (o : Outcome) : Json :=
  Json.sorted [
    ("success", .bool o.success),
    ("exit_code", Json.orNull (o.exitCode.map .int)),
    ("timed_out", .bool o.timedOut),
    ("error_count", .nat o.diagnostics.length),
    ("errors", Json.strings (o.firstMessages 5)),
    ("stderr", .string (truncate o.stderr 500))]

/-- A text that is left out when it is empty. -/
def textField (key text : String) : List (String × Json) :=
  if text.isEmpty then [] else [(key, .string text)]

def stateField (key : String) (state : Option PhaseState) : List (String × Json) :=
  Json.fieldIf key (state.map fun s => .string s.name)

def toJson (o : Outcome) : Json :=
  .object (("implementation", .string o.implementation) :: ("success", .bool o.success) ::
    (Json.fieldIf "exit_code" (o.exitCode.map .int) ++ stateField "parse" o.parse ++
      stateField "validate" o.validate ++ stateField "query" o.query ++
      ("diagnostics", .array (o.diagnostics.map Diagnostic.toJson)) ::
      (Json.fieldIf "directive_count" (o.directiveCount.map .nat) ++
        Json.fieldIf "accounts" (o.accounts.map Json.strings) ++
        Json.fieldIf "columns" (o.columns.map Json.strings) ++
        Json.fieldIf "rows" (o.rows.map .array) ++ textField "stdout" o.stdout ++
        textField "stderr" o.stderr ++ [("timed_out", .bool o.timedOut)])))

end Outcome

end LedgerConformance
