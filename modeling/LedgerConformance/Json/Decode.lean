import LedgerConformance.Json.Document

/-!
Typed reading of documents. A record is written as an object, or as an array
of its fields in order; unknown keys are passed over and a known key may stand
once. A word of a fixed vocabulary is written as a string, or as an object
whose only key is the word and whose value is null.
-/

namespace LedgerConformance.Json.Decode

def bool : Document → Option Bool
  | .bool b => some b
  | _ => none

def string : Document → Option String
  | .string s => some s
  | _ => none

/-- A whole number from zero up to, and without, 2^64. -/
def nat : Document → Option Nat
  | .number n => n.toNat?
  | _ => none

/-- A whole number of 32 bits with a sign. -/
def int32 : Document → Option Int
  | .number (.int i) => if -0x80000000 ≤ i && i < 0x80000000 then some i else none
  | _ => none

def float : Document → Option Binary64
  | .number n => n.toBinary64?
  | _ => none

def value : Document → Option Json := Document.toJson?

/-- Applies a reader to every item. -/
def items {α : Type} (read : Document → Option α) : List Document → Option (List α)
  | [] => some []
  | item :: rest =>
    match read item, items read rest with
    | some a, some rest => some (a :: rest)
    | _, _ => none

def list {α : Type} (read : Document → Option α) : Document → Option (List α)
  | .array docs => items read docs
  | _ => none

/-- Null stands for a missing value. -/
def optional {α : Type} (read : Document → Option α) : Document → Option (Option α)
  | .null => some none
  | doc => (read doc).map some

/-- Puts an entry into entries sorted by key, in the place of one with its key. -/
def insertEntry {α : Type} (key : String) (a : α) : List (String × α) → List (String × α)
  | [] => [(key, a)]
  | (k, b) :: rest =>
    if key < k then (key, a) :: (k, b) :: rest
    else if key == k then (key, a) :: rest
    else (k, b) :: insertEntry key a rest

/-- Reads the entries of a map one after another; the last of one key counts. -/
def entries {α : Type} (read : Document → Option α) (done : List (String × α)) :
    List (String × Document) → Option (List (String × α))
  | [] => some done
  | (key, doc) :: rest =>
    match read doc with
    | some a => entries read (insertEntry key a done) rest
    | none => none

/-- An object as a map from keys to values, sorted by key. -/
def map {α : Type} (read : Document → Option α) : Document → Option (List (String × α))
  | .object fields => entries read [] fields
  | _ => none

/-- A word of a vocabulary. -/
def word {α : Type} (find : String → Option α) : Document → Option α
  | .string s => find s
  | .object [(s, .null)] => find s
  | _ => none

/-- The one field with one of the given names; `none` when there are several. -/
def field? (names : List String) (fields : List (String × Document)) :
    Option (Option Document) :=
  match fields.filter fun (key, _) => names.contains key with
  | [] => some none
  | [(_, doc)] => some (some doc)
  | _ => none

/-- The fields of a record by their names in order, a name with its aliases. -/
def record (names : List (List String)) : Document → Option (List (Option Document))
  | .object fields => names.mapM fun aliases => field? aliases fields
  | .array docs =>
    if docs.length ≤ names.length then
      some (docs.map some ++ List.replicate (names.length - docs.length) none)
    else none
  | _ => none

/-- A field that must be there. -/
def required {α : Type} (read : Document → Option α) : Option Document → Option α
  | some doc => read doc
  | none => none

/-- A field that has a default. -/
def withDefault {α : Type} (default : α) (read : Document → Option α) :
    Option Document → Option α
  | some doc => read doc
  | none => some default

/-- A field that may be missing or null. -/
def maybe {α : Type} (read : Document → Option α) : Option Document → Option (Option α)
  | some doc => optional read doc
  | none => some none

end LedgerConformance.Json.Decode
