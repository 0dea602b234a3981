/-!
Sets of names as lists that are sorted and hold no name twice.
-/

namespace LedgerConformance.Text

/-- Puts a name into a sorted list, unless it is there. -/
def insertSorted (name : String) : List String → List String
  | [] => [name]
  | first :: rest =>
    if name < first then name :: first :: rest
    else if name == first then first :: rest
    else first :: insertSorted name rest

/-- The names of a list, sorted, each once. -/
def nameSet (names : List String) : List String :=
  names.foldl (fun done name => insertSorted name done) []

end LedgerConformance.Text
