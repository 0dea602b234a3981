import LedgerConformance.Case.Basic
import LedgerConformance.Json.Document
import LedgerConformance.Json.Printer
import LedgerConformance.Outcome
import LedgerConformance.Text.Lines
import LedgerConformance.Text.NameSet

/-!
Reading the outcome off a program that has ended. If its output is a JSON
object, that object tells what happened; otherwise the exit status does, and
the lines of the error stream are its messages.
-/

namespace LedgerConformance.Command

/-- A program that has ended, or was stopped when its time was over. -/
structure Ended where
  exitCode : Option Int := none
  stdout : String := ""
  stderr : String := ""
  timedOut : Bool := false
  duration : Nat := 0
deriving DecidableEq, Repr

/-- A message as a text, as an object with a message, or as anything else. -/
def diagnosticOf (v : Json) : Diagnostic :=
  match v with
  | .string message => { message }
  | .object _ =>
    let text (key : String) : Option String := (v.get? key).bind Json.toString?
    { message := (text "message").getD v.compact
      type := (text "type").or (text "kind")
      phase := text "phase" }
  | other => { message := other.compact }

/-- The object that the output consists of. -/
def structured? (stdout : String) : Option Json :=
  (Json.parse? (Text.trimText stdout)).filter Json.isObject

/-- The error that an object reports beside its list of errors. -/
def singleError? (doc : Json) : Option Json := (doc.get? "error").filter (! ·.isNull)

def listedErrors (doc : Json) : List Json := ((doc.get? "errors").bind Json.toArray?).getD []

/-- A number, or the length of a list, under the first of two keys. -/
def directiveCount? (doc : Json) : Option Nat :=
  match (doc.get? "directives").or (doc.get? "entries") with
  | some (.number n) => n.toNat?
  | some (.array items) => some items.length
  | _ => none

def accounts? (doc : Json) : Option (List String) :=
  ((doc.get? "accounts").bind Json.toArray?).map fun items =>
    Text.nameSet (items.filterMap Json.toString?)

def rows? (doc : Json) : Option (List Json) :=
  ((doc.get? "rows").bind Json.toArray?).or ((doc.get? "results").bind Json.toArray?)

/-- Columns are texts, or objects with a name. -/
def columns? (doc : Json) : Option (List String) :=
  ((doc.get? "columns").bind Json.toArray?).map fun items =>
    items.filterMap fun c => c.toString?.or ((c.get? "name").bind Json.toString?)

/-- What a structured answer says. -/
def readDocument (name : String) (exitedOk : Bool) (doc : Json) : Outcome :=
  { implementation := name
    success := exitedOk && (singleError? doc).isNone
    diagnostics := (listedErrors doc ++ (singleError? doc).toList).map diagnosticOf
    directiveCount := directiveCount? doc
    accounts := accounts? doc
    rows := rows? doc
    columns := columns? doc }

/-- The lines of the error stream that are not blank. -/
def errorLines (stderr : String) : List Diagnostic :=
  (((Text.linesOf stderr.toList).map Text.trim).filter (! ·.isEmpty)).map fun line =>
    { message := String.ofList line }

/-- What the exit status and the error stream say. -/
def readStatus (name : String) (kind : Kind) (exitedOk : Bool) (stderr : String) : Outcome :=
  let lines := errorLines stderr
  let diagnostics :=
    if exitedOk then []
    else if kind == .query && lines.isEmpty then [{ message := "Query failed" }]
    else lines
  { implementation := name, success := exitedOk, diagnostics }

/-- Messages that tell where they come from decide on parsing; without any, a
failure of anything but a query is a failure to parse. -/
def parseFailed (kind : Kind) (o : Outcome) : Bool :=
  let phased := o.diagnostics.any fun d => d.phase.isSome || d.type.isSome
  o.diagnostics.any Diagnostic.isParsePhase || (!phased && !o.success && kind != .query)

/-- Adds the states of the phases. -/
def withPhases (kind : Kind) (o : Outcome) : Outcome :=
  let o := { o with parse := some (.ofBool (!parseFailed kind o)) }
  if kind == .query then
    { o with
      query := some (.ofBool o.success)
      rows := if o.success then some (o.rows.getD []) else o.rows }
  else { o with validate := some (.ofBool o.success) }

/-- The outcome of a program that has ended by itself. -/
def interpret (name : String) (kind : Kind) (run : Ended) : Outcome :=
  let exitedOk := run.exitCode == some 0
  let seen :=
    match structured? run.stdout with
    | some doc => readDocument name exitedOk doc
    | none => readStatus name kind exitedOk run.stderr
  { withPhases kind seen with
    exitCode := run.exitCode
    stdout := run.stdout
    stderr := run.stderr
    duration := run.duration }

end LedgerConformance.Command
