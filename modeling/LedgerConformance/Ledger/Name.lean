import LedgerConformance.Text.Blank

/-!
The word classes of a ledger: accounts, currencies, numbers, flags and
metadata keys. All of them admit ASCII characters only.
-/

namespace LedgerConformance.Ledger

def accountRoots : List String := ["Assets", "Liabilities", "Equity", "Income", "Expenses"]

/-- Capitalised or numeric, then letters, digits and hyphens. -/
def isAccountComponent : List Char → Bool
  | [] => false
  | first :: rest =>
    (first.isUpper || first.isDigit) && rest.all fun c => c.isAlphanum || c == '-'

/-- A known root followed by at least one component, divided by colons. -/
def isAccount (name : String) : Bool :=
  match Text.splitOnChar ':' name.toList with
  | [] => false
  | root :: components =>
    accountRoots.contains (String.ofList root) && !components.isEmpty &&
      components.all isAccountComponent

/-- A capital, then at most 23 capitals, digits and marks. -/
def isCurrency (word : String) : Bool :=
  match word.toList with
  | [] => false
  | first :: rest =>
    first.isUpper && rest.length < 24 &&
      rest.all fun c => c.isUpper || c.isDigit || ['\'', '.', '_', '-'].contains c

/-- Drops one sign at the front. -/
def dropSign : List Char → List Char
  | '-' :: rest => rest
  | '+' :: rest => rest
  | s => s

/-- An optional sign, digits with commas after the first, and optionally a
point and decimals, of which there may be none. -/
def isNumber (word : String) : Bool :=
  let body := dropSign word.toList
  let whole := body.takeWhile (· != '.')
  let decimals := (body.dropWhile (· != '.')).drop 1
  (match whole with
    | [] => false
    | first :: rest => first.isDigit && rest.all fun c => c.isDigit || c == ',') &&
    decimals.all Char.isDigit

/-- The marks that may stand before a transaction or a posting. -/
def flagMarks : List Char :=
  ['*', '!', '&', '#', '?', '%', 'P', 'S', 'T', 'C', 'U', 'R', 'M']

/-- The flag that a word consists of. -/
def flagOf? (word : String) : Option Char :=
  match word.toList with
  | [c] => if flagMarks.contains c then some c else none
  | _ => none

/-- A small letter, then letters, digits, hyphens and underscores. -/
def isMetadataKey : List Char → Bool
  | [] => false
  | first :: rest => first.isLower && rest.all fun c => c.isAlphanum || c == '-' || c == '_'

/-- The metadata key that a word names: the word without its colon at the end. -/
def metadataKeyOf? (word : String) : Option String :=
  match word.toList.getLast? with
  | some ':' =>
    let key := word.toList.dropLast
    if isMetadataKey key then some (String.ofList key) else none
  | _ => none

/-- Tags start with a hash sign and links with a caret. -/
def isTagOrLink (word : String) : Bool :=
  match word.toList with
  | c :: _ => c == '#' || c == '^'
  | [] => false

end LedgerConformance.Ledger
