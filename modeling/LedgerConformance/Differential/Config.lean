import LedgerConformance.Command.Tool
import LedgerConformance.Differential.Comparison

/-!
The configuration of differential runs: implementations with their commands,
named comparisons, groups of implementations, and differences that are known.
-/

namespace LedgerConformance.Differential

open Json

structure Implementation where
  commands : Command.Set := {}
  /-- Seconds that a command may take; otherwise the bound of the run counts. -/
  timeout : Option Nat := none
deriving DecidableEq, Repr

structure Group where
  implementations : List String := []
  description : Option String := none
deriving DecidableEq, Repr

/-- Differences that are expected on inputs whose label holds a text. -/
structure KnownDifference where
  inputPattern : String
  dimension : Option Dimension := none
  note : String := ""
deriving DecidableEq, Repr

structure Config where
  implementations : List (String × Implementation) := []
  comparisons : List (String × Comparison) := []
  groups : List (String × Group) := []
  knownDifferences : List KnownDifference := []
deriving DecidableEq, Repr

namespace Implementation

def decode (doc : Document) : Option Implementation := do
  let fields ← Decode.record [["commands"], ["timeout_secs"]] doc
  match fields with
  | [commands, timeout] =>
    return {
      commands := ← Decode.withDefault {} Command.Set.decode commands
      timeout := ← Decode.maybe Decode.nat timeout }
  | _ => none

def toJson (i : Implementation) : Json :=
  .object (("commands", i.commands.toJson) :: fieldIf "timeout_secs" (i.timeout.map .nat))

end Implementation

namespace Group

def decode (doc : Document) : Option Group := do
  let fields ← Decode.record [["implementations"], ["description"]] doc
  match fields with
  | [implementations, description] =>
    return {
      implementations :=
        ← Decode.withDefault [] (Decode.list Decode.string) implementations
      description := ← Decode.maybe Decode.string description }
  | _ => none

def toJson (g : Group) : Json :=
  .object (("implementations", Json.strings g.implementations) ::
    fieldIf "description" (g.description.map .string))

end Group

namespace KnownDifference

def decode (doc : Document) : Option KnownDifference := do
  let fields ← Decode.record [["input_pattern"], ["dimension"], ["note"]] doc
  match fields with
  | [inputPattern, dimension, note] =>
    return {
      inputPattern := ← Decode.required Decode.string inputPattern
      dimension := ← Decode.maybe Dimension.decode dimension
      note := ← Decode.withDefault "" Decode.string note }
  | _ => none

def toJson (k : KnownDifference) : Json :=
  .object (("input_pattern", .string k.inputPattern) ::
    (fieldIf "dimension" (k.dimension.map fun d => .string d.name) ++
      [("note", .string k.note)]))

/-- The entry covers the differences found on an input. -/
def covers (k : KnownDifference) (label : String) (differences : List Difference) : Bool :=
  Text.contains label k.inputPattern &&
    (k.dimension.all fun d => differences.any (·.dimension == d))

end KnownDifference

/-- Why a run cannot be set up. -/
inductive ConfigError where
  | unreadable (path : String) (reason : String)
  | malformed (path : String)
  | unknownImplementation (name : String)
  | unknownGroup (name : String)
  | unknownComparison (name : String)
  | emptyCommand (implementation : String) (kind : Kind)
  | tooFewImplementations (count : Nat)
  | duplicateImplementation (name : String)
deriving DecidableEq, Repr

def ConfigError.message : ConfigError → String
  | unreadable path reason => "failed to read " ++ path ++ ": " ++ reason
  | malformed path => "invalid JSON in " ++ path
  | unknownImplementation name => "unknown implementation '" ++ name ++ "'"
  | unknownGroup name => "unknown group '" ++ name ++ "'"
  | unknownComparison name => "unknown comparison '" ++ name ++ "'"
  | emptyCommand implementation kind =>
    "implementation '" ++ implementation ++ "' has an empty " ++ kind.name ++ " command"
  | tooFewImplementations count =>
    "differential testing needs at least two implementations, got " ++ toString count
  | duplicateImplementation name => "implementation '" ++ name ++ "' is listed more than once"

/-- The word for a cause. -/
def ConfigError.name : ConfigError → String
  | unreadable .. => "Io"
  | malformed _ => "Json"
  | unknownImplementation _ => "UnknownImplementation"
  | unknownGroup _ => "UnknownGroup"
  | unknownComparison _ => "UnknownComparison"
  | emptyCommand .. => "EmptyCommand"
  | tooFewImplementations _ => "TooFewImplementations"
  | duplicateImplementation _ => "DuplicateImplementation"

/-- The first name that stands in the list before. -/
def firstRepeated? (seen : List String) : List String → Option String
  | [] => none
  | name :: rest => if seen.contains name then some name else firstRepeated? (name :: seen) rest

/-- Names that may run together: at least two, all different. -/
def checkNames (names : List String) : Except ConfigError Unit :=
  match firstRepeated? [] names with
  | some name => .error (.duplicateImplementation name)
  | none => if names.length < 2 then .error (.tooFewImplementations names.length) else .ok ()

def defaultComparison : String := "parse"

def defaultGroup : String := "beancount"

namespace Config

def decode (doc : Document) : Option Config := do
  let fields ← Decode.record
    [["implementations"], ["comparisons"], ["groups"], ["known_differences"]] doc
  match fields with
  | [implementations, comparisons, groups, knownDifferences] =>
    return {
      implementations :=
        ← Decode.withDefault [] (Decode.map Implementation.decode) implementations
      comparisons := ← Decode.withDefault [] (Decode.map Comparison.decode) comparisons
      groups := ← Decode.withDefault [] (Decode.map Group.decode) groups
      knownDifferences :=
        ← Decode.withDefault [] (Decode.list KnownDifference.decode) knownDifferences }
  | _ => none

def toJson (c : Config) : Json :=
  .object [
    ("implementations", .object (c.implementations.map fun (k, v) => (k, v.toJson))),
    ("comparisons", .object (c.comparisons.map fun (k, v) => (k, v.toJson))),
    ("groups", .object (c.groups.map fun (k, v) => (k, v.toJson))),
    ("known_differences", .array (c.knownDifferences.map KnownDifference.toJson))]

def parse? (text : String) : Option Config := (Document.read? text.toList).bind decode

/-- The names that are asked for: given ones, else those of the group, else
those of the default group, if there is one. -/
def selectedNames (c : Config) (names : List String) (group : Option String) :
    Except ConfigError (List String) :=
  if !names.isEmpty then .ok names
  else
    match c.groups.lookup (group.getD defaultGroup), group with
    | some found, _ => .ok found.implementations
    | none, some name => .error (.unknownGroup name)
    | none, none => .ok []

/-- The implementations of a run: known, all different, and at least two. -/
def resolve (c : Config) (names : List String) (group : Option String) :
    Except ConfigError (List String) := do
  let selected ← c.selectedNames names group
  match selected.find? fun name => (c.implementations.lookup name).isNone with
  | some name => throw (.unknownImplementation name)
  | none =>
    checkNames selected
    return selected

/-- A named comparison; the default one need not be configured. -/
def comparison (c : Config) (name : String) : Except ConfigError Comparison :=
  match c.comparisons.lookup name with
  | some comparison => .ok comparison
  | none => if name == defaultComparison then .ok {} else .error (.unknownComparison name)

/-- One implementation made ready; none of its commands may be empty. -/
def tool (c : Config) (timeout : Command.Bound) (name : String) : Except ConfigError Command.Tool :=
  match c.implementations.lookup name with
  | none => .error (.unknownImplementation name)
  | some i =>
    match Kind.all.find? fun kind => (i.commands.forKind kind).any Command.Template.isEmpty with
    | some kind => .error (.emptyCommand name kind)
    | none =>
      .ok { name, commands := i.commands, timeout := (i.timeout.map .ofSeconds).getD timeout }

/-- The implementations made ready. -/
def tools (c : Config) (names : List String) (timeout : Command.Bound) :
    Except ConfigError (List Command.Tool) :=
  names.mapM (c.tool timeout)

end Config

end LedgerConformance.Differential
