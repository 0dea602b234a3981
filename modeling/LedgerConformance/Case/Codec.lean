import LedgerConformance.Case.Basic
import LedgerConformance.Json.Decode

/-!
Inputs and expectations as JSON. What is not filled in is left out when they
are written; a single expected message may be written without a list.
-/

namespace LedgerConformance

open Json

def Kind.decode : Document → Option Kind := Decode.word Kind.ofName?

def Expectation.decode : Document → Option Expectation := Decode.word Expectation.ofName?

namespace Input

def decode (doc : Document) : Option Input := do
  let fields ← Decode.record [["inline"], ["file"], ["query"]] doc
  match fields with
  | [inline, file, query] =>
    return {
      inline := ← Decode.maybe Decode.string inline
      file := ← Decode.maybe Decode.string file
      query := ← Decode.maybe Decode.string query }
  | _ => none

def toJson (i : Input) : Json :=
  .object (fieldIf "inline" (i.inline.map .string) ++ fieldIf "file" (i.file.map .string) ++
    fieldIf "query" (i.query.map .string))

end Input

namespace Expected

/-- One text, a list of texts, or null for none. -/
def oneOrMany : Document → Option (List String)
  | .null => some []
  | .string s => some [s]
  | doc => Decode.list Decode.string doc

def fieldNames : List (List String) :=
  [["parse"], ["validate"], ["query"], ["error_contains"], ["error_count"], ["error_types"],
    ["directives"], ["accounts"], ["row_count"], ["columns"], ["balance"]]

def decode (doc : Document) : Option Expected := do
  let fields ← Decode.record fieldNames doc
  match fields with
  | [parse, validate, query, errorContains, errorCount, errorTypes, directives, accounts,
      rowCount, columns, balance] =>
    return {
      parse := ← Decode.maybe Expectation.decode parse
      validate := ← Decode.maybe Expectation.decode validate
      query := ← Decode.maybe Expectation.decode query
      errorContains := ← Decode.withDefault [] oneOrMany errorContains
      errorCount := ← Decode.maybe Decode.nat errorCount
      errorTypes := ← Decode.withDefault [] (Decode.list Decode.string) errorTypes
      directives := ← Decode.maybe Decode.nat directives
      accounts := ← Decode.withDefault [] (Decode.list Decode.string) accounts
      rowCount := ← Decode.maybe Decode.nat rowCount
      columns := ← Decode.withDefault [] (Decode.list Decode.string) columns
      balance := ← Decode.withDefault [] (Decode.map (Decode.map Decode.string)) balance }
  | _ => none

/-- A list that is left out when it is empty. -/
def listField (key : String) (items : List String) : List (String × Json) :=
  if items.isEmpty then [] else [(key, Json.strings items)]

def balanceJson (balance : List (String × List (String × String))) : Json :=
  .object (balance.map fun (account, amounts) =>
    (account, .object (amounts.map fun (currency, amount) => (currency, .string amount))))

def toJson (e : Expected) : Json :=
  .object (fieldIf "parse" (e.parse.map fun x => .string x.name) ++
    fieldIf "validate" (e.validate.map fun x => .string x.name) ++
    fieldIf "query" (e.query.map fun x => .string x.name) ++
    listField "error_contains" e.errorContains ++
    fieldIf "error_count" (e.errorCount.map .nat) ++
    listField "error_types" e.errorTypes ++
    fieldIf "directives" (e.directives.map .nat) ++
    listField "accounts" e.accounts ++
    fieldIf "row_count" (e.rowCount.map .nat) ++
    listField "columns" e.columns ++
    (if e.balance.isEmpty then [] else [("balance", balanceJson e.balance)]))

end Expected

end LedgerConformance
