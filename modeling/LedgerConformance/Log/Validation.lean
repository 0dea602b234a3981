import LedgerConformance.FileSystem.Tree
import LedgerConformance.Json.Document
import LedgerConformance.Log.Entry
import LedgerConformance.Text.Lines
import LedgerConformance.Text.Substring

/-!
Checking logs against their schema. All that can be said about one line is
said at once, except that a line which is no entry at all ends the check.
-/

namespace LedgerConformance.Log

open Json

/-- What is wrong with a line. -/
inductive Problem where
  | notJson
  | notObject
  | missing (field : String)
  | unknownWord (field value : String)
  | blankEvent
  | badTraceId (value : String)
  | incompleteResult (field : String)
  | undecodable
deriving DecidableEq, Repr

namespace Problem

/-- The field that a problem is about. -/
def field : Problem → String
  | notJson => "<json>"
  | notObject => "<root>"
  | missing field => field
  | unknownWord field _ => field
  | blankEvent => "event"
  | badTraceId _ => "trace_id"
  | incompleteResult field => field
  | undecodable => "<deserialization>"

def message : Problem → String
  | notJson => "invalid JSON"
  | notObject => "expected JSON object"
  | missing _ => "required field missing"
  | unknownWord field value => "invalid " ++ field ++ ": '" ++ value ++ "'"
  | blankEvent => "event must be non-empty"
  | badTraceId value =>
    "trace_id should follow <run_id>::<seq> format, got: '" ++ value ++ "'"
  | incompleteResult _ => "test_result events must carry this field"
  | undecodable => "failed to deserialize"

end Problem

/-- A problem and the number of its line. -/
structure Finding where
  line : Nat
  problem : Problem
deriving DecidableEq, Repr

def Finding.message (f : Finding) : String :=
  "line " ++ toString f.line ++ ": field '" ++ f.problem.field ++ "': " ++ f.problem.message

def textField? (doc : Json) (field : String) : Option String :=
  (doc.get? field).bind Json.toString?

def requiredFields : List String := ["timestamp", "trace_id", "level", "event"]

/-- The fields whose texts come from a fixed vocabulary. -/
def vocabularies : List (String × List String) :=
  [("level", Level.all.map Level.name), ("outcome", Mark.all.map Mark.name),
    ("kind", Kind.all.map Kind.name)]

def missingFields (doc : Json) : List Problem :=
  (requiredFields.filter fun field => (doc.get? field).isNone).map .missing

def unknownWords (doc : Json) : List Problem :=
  vocabularies.filterMap fun (field, allowed) =>
    match textField? doc field with
    | some value => if allowed.contains value then none else some (.unknownWord field value)
    | none => none

def blankEvents (doc : Json) : List Problem :=
  if (textField? doc "event").any Text.isBlankText then [.blankEvent] else []

def badTraceIds (doc : Json) : List Problem :=
  match textField? doc "trace_id" with
  | some value => if Text.contains value "::" then [] else [.badTraceId value]
  | none => []

def incompleteResults (doc : Json) : List Problem :=
  if textField? doc "event" == some "test_result" then
    (["test_id", "outcome"].filter fun field => (doc.get? field).isNone).map .incompleteResult
  else []

/-- What is wrong with an object, in the order in which it is reported. -/
def problems (doc : Json) : List Problem :=
  missingFields doc ++ unknownWords doc ++ blankEvents doc ++ badTraceIds doc ++
    incompleteResults doc

/-- The entry of a line, or all that is wrong with it. -/
def checkLine (line : String) : Except (List Problem) Entry :=
  match Json.parse? line with
  | none => .error [.notJson]
  | some doc =>
    if doc.isObject then
      match problems doc with
      | [] =>
        match Entry.decode (.ofJson doc) with
        | some entry => .ok entry
        | none => .error [.undecodable]
      | found => .error found
    else .error [.notObject]

def findings (number : Nat) (line : String) : List Finding :=
  match checkLine line with
  | .ok _ => []
  | .error found => found.map (⟨number, ·⟩)

/-- The lines that are not blank, trimmed, with their numbers from `number` on. -/
def numberedLines (number : Nat) : List String → List (Nat × String)
  | [] => []
  | line :: rest =>
    if Text.isBlankText line then numberedLines (number + 1) rest
    else (number, Text.trimText line) :: numberedLines (number + 1) rest

/-- How many lines a log has that are not blank, and what is wrong with them. -/
def checkText (content : String) : Nat × List Finding :=
  let lines := numberedLines 1 (Text.lines content)
  (lines.length, lines.flatMap fun (n, line) => findings n line)

def checkFile (fs : FileSystem) (path : String) : Except FileError (Nat × List Finding) :=
  (fs.readText path).map checkText

end LedgerConformance.Log
