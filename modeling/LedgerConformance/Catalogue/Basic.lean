import LedgerConformance.Case.Codec
import LedgerConformance.FileSystem.Tree

/-!
Catalogues of cases. A manifest names directories of suites in the order in
which they run, and each suite is a file of test records.
-/

namespace LedgerConformance

open Json

/-- What a manifest says; directories are seen from its own. -/
structure Manifest where
  format : String := ""
  version : String := ""
  description : String := ""
  directories : List String := []
  metadata : List (String × Json) := []
deriving Repr

namespace Manifest

def decode (doc : Document) : Option Manifest := do
  let fields ← Decode.record
    [["format"], ["version"], ["description"], ["test_directories"], ["metadata"]] doc
  match fields with
  | [format, version, description, directories, metadata] =>
    return {
      format := ← Decode.withDefault "" Decode.string format
      version := ← Decode.withDefault "" Decode.string version
      description := ← Decode.withDefault "" Decode.string description
      directories := ← Decode.withDefault [] (Decode.list Decode.string) directories
      metadata := ← Decode.withDefault [] (Decode.map Decode.value) metadata }
  | _ => none

def toJson (m : Manifest) : Json :=
  .object [("format", .string m.format), ("version", .string m.version),
    ("description", .string m.description), ("test_directories", Json.strings m.directories),
    ("metadata", .object m.metadata)]

end Manifest

/-- What makes the input of a record unusable. -/
inductive InputFault where
  | inlineAndFile
  | neitherInlineNorFile
  | noQuery
deriving DecidableEq, Repr

def InputFault.message : InputFault → String
  | inlineAndFile => "input has both 'inline' and 'file'"
  | neitherInlineNorFile => "input needs one of 'inline' or 'file'"
  | noQuery => "query test has no 'input.query'"

/-- Why a catalogue cannot be loaded. -/
inductive LoadError where
  | missingManifest (path : String)
  | unreadable (path : String) (reason : FileError)
  | malformed (path : String)
  | missingField (path : String) (index : Nat) (field : String)
  | duplicateId (id firstSuite secondSuite : String)
  | invalidInput (id : String) (fault : InputFault)
deriving DecidableEq, Repr

def LoadError.message : LoadError → String
  | missingManifest path => "manifest not found: " ++ path
  | unreadable path reason => "failed to read " ++ path ++ ": " ++ reason.message
  | malformed path => "invalid JSON in " ++ path
  | missingField path index field =>
    path ++ ": test #" ++ toString index ++ " is missing required field '" ++ field ++ "'"
  | duplicateId id firstSuite secondSuite =>
    "duplicate test id '" ++ id ++ "' in suites '" ++ firstSuite ++ "' and '" ++ secondSuite ++ "'"
  | invalidInput id fault => "test '" ++ id ++ "': " ++ fault.message

/-- The word for a cause. -/
def LoadError.name : LoadError → String
  | missingManifest _ => "MissingManifest"
  | unreadable .. => "Io"
  | malformed _ => "Json"
  | missingField .. => "MissingField"
  | duplicateId .. => "DuplicateId"
  | invalidInput .. => "InvalidInput"

/-- Every case that a manifest leads to. -/
structure Catalogue where
  manifest : Manifest
  baseDir : String
  cases : List Case := []
  /-- The files of declared suites that are not there. -/
  missing : List String := []
deriving Repr

end LedgerConformance
