import LedgerConformance.Case.Codec
import LedgerConformance.Text.Blank
import LedgerConformance.Text.Substring

/-!
Command templates: the arguments of a program, in which placeholders stand for
the ledger file and the query. A template is a list of arguments, or one line
that is divided at blanks before anything is filled in.
-/

namespace LedgerConformance.Command

open Json

inductive Template where
  | argv (arguments : List String)
  | line (text : String)
deriving DecidableEq, Repr

namespace Template

def arguments : Template → List String
  | argv list => list
  | line text => (Text.words text.toList).map String.ofList

def isEmpty (t : Template) : Bool := t.arguments.isEmpty

def filePlaceholder : String := "\x7bfile\x7d"

def queryPlaceholder : String := "\x7bquery\x7d"

/-- Fills in one argument, first the file and then the query. -/
def renderArgument (file query argument : String) : String :=
  Text.replaceText (Text.replaceText argument filePlaceholder file) queryPlaceholder query

/-- The arguments with the file and the query filled in; no query is empty. -/
def render (t : Template) (file : String) (query : Option String) : List String :=
  t.arguments.map (renderArgument file (query.getD ""))

def decode : Document → Option Template
  | .string s => some (line s)
  | doc => (Decode.list Decode.string doc).map argv

def toJson : Template → Json
  | argv list => Json.strings list
  | line text => .string text

end Template

/-- The templates of one implementation. The common one covers parsing and
validation where there is none of their own. -/
structure Set where
  check : Option Template := none
  parsing : Option Template := none
  validation : Option Template := none
  query : Option Template := none
deriving DecidableEq, Repr

namespace Set

def forKind (s : Set) : Kind → Option Template
  | .parsing => s.parsing.or s.check
  | .validation => s.validation.or s.check
  | .query => s.query

/-- The commands of a program that checks and queries with JSON answers. -/
def jsonTool (binary : String) : Set :=
  { check := some (.argv [binary, "check", "--json", Template.filePlaceholder])
    query := some (.argv
      [binary, "query", Template.filePlaceholder, Template.queryPlaceholder, "--json"]) }

def decode (doc : Document) : Option Set := do
  let fields ← Decode.record [["check", "parse"], ["syntax"], ["validation"], ["query"]] doc
  match fields with
  | [check, parsing, validation, query] =>
    return {
      check := ← Decode.maybe Template.decode check
      parsing := ← Decode.maybe Template.decode parsing
      validation := ← Decode.maybe Template.decode validation
      query := ← Decode.maybe Template.decode query }
  | _ => none

def toJson (s : Set) : Json :=
  .object (fieldIf "check" (s.check.map Template.toJson) ++
    fieldIf "syntax" (s.parsing.map Template.toJson) ++
    fieldIf "validation" (s.validation.map Template.toJson) ++
    fieldIf "query" (s.query.map Template.toJson))

end Set

end LedgerConformance.Command
