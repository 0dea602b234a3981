import LedgerConformance.Catalogue.Basic
import LedgerConformance.Text.NameSet

/-!
Loading a catalogue. Suites are read in the order of the manifest and records
in the order of their file; the first fault ends the loading, and no two cases
of a catalogue share their identifier.
-/

namespace LedgerConformance

open Json

/-- A file of test records. -/
structure SuiteFile where
  suite : Option String
  tests : List Json

def SuiteFile.decode (doc : Document) : Option SuiteFile := do
  let fields ← Decode.record [["suite"], ["tests"]] doc
  match fields with
  | [suite, tests] =>
    return {
      suite := ← Decode.maybe Decode.string suite
      tests := ← Decode.withDefault [] (Decode.list Decode.value) tests }
  | _ => none

/-- One test record as it is written. -/
structure Record where
  id : String
  description : String
  input : Input
  expected : Expected
  tags : List String
  skip : Bool
  skipReason : Option String
  specRef : Option String

def Record.fieldNames : List (List String) :=
  [["id"], ["description"], ["input"], ["expected"], ["tags"], ["skip"], ["skip_reason"],
    ["spec_ref"]]

def Record.decode (doc : Document) : Option Record := do
  let fields ← Decode.record Record.fieldNames doc
  match fields with
  | [id, description, input, expected, tags, skip, skipReason, specRef] =>
    return {
      id := ← Decode.required Decode.string id
      description := ← Decode.required Decode.string description
      input := ← Decode.withDefault {} Input.decode input
      expected := ← Decode.withDefault {} Expected.decode expected
      tags := ← Decode.withDefault [] (Decode.list Decode.string) tags
      skip := ← Decode.withDefault false Decode.bool skip
      skipReason := ← Decode.maybe Decode.string skipReason
      specRef := ← Decode.maybe Decode.string specRef }
  | _ => none

/-- What is wrong with the input of a record. -/
def Record.fault? (r : Record) : Option InputFault :=
  match r.input.inline, r.input.file with
  | some _, some _ => some .inlineAndFile
  | none, none => some .neitherInlineNorFile
  | _, _ =>
    if Kind.infer r.input r.expected == .query && r.input.query.isNone then some .noQuery
    else none

def Record.toCase (r : Record) (suite suiteDir : String) : Except LoadError Case :=
  match r.fault? with
  | some fault => .error (.invalidInput r.id fault)
  | none =>
    .ok {
      id := r.id, description := r.description, suite, suiteDir
      tags := Text.nameSet r.tags, skip := r.skip, skipReason := r.skipReason
      specRef := r.specRef, input := r.input, expected := r.expected
      kind := Kind.infer r.input r.expected }

namespace Catalogue

/-- The first of the fields that must be texts which is none. -/
def missingField? (raw : Json) : Option String :=
  ["id", "description"].find? fun field => ((raw.get? field).bind Json.toString?).isNone

/-- The case of the record at some place of a suite file. -/
def caseAt (path suite suiteDir : String) (index : Nat) (raw : Json) : Except LoadError Case :=
  match missingField? raw with
  | some field => .error (.missingField path index field)
  | none =>
    match Record.decode (.ofJson raw) with
    | some record => record.toCase suite suiteDir
    | none => .error (.malformed path)

/-- The cases of records that follow `index` others. -/
def casesFrom (path suite suiteDir : String) (index : Nat) :
    List Json → Except LoadError (List Case)
  | [] => .ok []
  | raw :: rest => do
    let first ← caseAt path suite suiteDir index raw
    let others ← casesFrom path suite suiteDir (index + 1) rest
    return first :: others

def readText (fs : FileSystem) (path : String) : Except LoadError String :=
  (fs.readText path).mapError (.unreadable path)

/-- The cases of one suite file. A suite without a name is named for its directory. -/
def loadSuite (fs : FileSystem) (path : String) : Except LoadError (List Case) := do
  let text ← readText fs path
  match (Document.read? text.toList).bind SuiteFile.decode with
  | none => throw (.malformed path)
  | some file =>
    let suiteDir := (Path.parent? path).getD "."
    let suite := file.suite.getD ((Path.fileName? suiteDir).getD "")
    casesFrom path suite suiteDir 0 file.tests

/-- Appends a case, unless its identifier is taken. -/
def addCase (done : Catalogue) (c : Case) : Except LoadError Catalogue :=
  match done.cases.find? (·.id == c.id) with
  | some first => .error (.duplicateId c.id first.suite c.suite)
  | none => .ok { done with cases := done.cases ++ [c] }

/-- Adds the suite of one directory. -/
def addSuite (fs : FileSystem) (done : Catalogue) (directory : String) :
    Except LoadError Catalogue := do
  let path := Path.join (Path.join done.baseDir directory) "tests.json"
  if fs.isFile path then (← loadSuite fs path).foldlM addCase done
  else return { done with missing := done.missing ++ [path] }

def loadManifest (fs : FileSystem) (path : String) : Except LoadError Manifest := do
  if fs.isFile path then
    match (Document.read? (← readText fs path).toList).bind Manifest.decode with
    | some manifest => return manifest
    | none => throw (.malformed path)
  else throw (.missingManifest path)

/-- The catalogue of a manifest. -/
def load (fs : FileSystem) (path : String) : Except LoadError Catalogue := do
  let manifest ← loadManifest fs path
  let empty : Catalogue := { manifest, baseDir := (Path.parent? path).getD "." }
  manifest.directories.foldlM (addSuite fs) empty

end Catalogue

end LedgerConformance
