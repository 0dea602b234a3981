import LedgerConformance.Json.Number

/-!
JSON values. The fields of an object have an order, which is the order in
which they are written; objects that were read have their keys sorted.
-/

namespace LedgerConformance

inductive Json where
  | null
  | bool (value : Bool)
  | number (value : Json.Number)
  | string (value : String)
  | array (items : List Json)
  | object (fields : List (String × Json))
deriving Repr, Inhabited

namespace Json

def nat (n : Nat) : Json := number (.int n)

def int (i : Int) : Json := number (.int i)

def strings (items : List String) : Json := array (items.map string)

def isObject : Json → Bool
  | object _ => true
  | _ => false

def isNull : Json → Bool
  | null => true
  | _ => false

def toString? : Json → Option String
  | string s => some s
  | _ => none

def toArray? : Json → Option (List Json)
  | array items => some items
  | _ => none

def toNat? : Json → Option Nat
  | number n => n.toNat?
  | _ => none

/-- The value of a field; anything but an object has none. -/
def get? (key : String) : Json → Option Json
  | object fields => fields.lookup key
  | _ => none

/-- Puts a field into fields sorted by key, in the place of one with its key. -/
def insertField (key : String) (value : Json) : List (String × Json) → List (String × Json)
  | [] => [(key, value)]
  | (k, v) :: rest =>
    if key < k then (key, value) :: (k, v) :: rest
    else if key == k then (key, value) :: rest
    else (k, v) :: insertField key value rest

/-- Fields with their keys sorted; of fields with one key the last counts. -/
def sortedFields (fields : List (String × Json)) : List (String × Json) :=
  fields.foldl (fun done field => insertField field.1 field.2 done) []

/-- An object with its keys sorted. -/
def sorted (fields : List (String × Json)) : Json := object (sortedFields fields)

/-- The field, unless the value is missing. -/
def fieldIf (key : String) (value : Option Json) : List (String × Json) :=
  match value with
  | some v => [(key, v)]
  | none => []

/-- A missing value is written as null. -/
def orNull (value : Option Json) : Json := value.getD null

end Json

end LedgerConformance
