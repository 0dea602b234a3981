import LedgerConformance.Ledger.Scan
import LedgerConformance.Query.Statement

/-!
Answers to select statements. There is one row per posting of a transaction,
in source order; filters choose rows, the columns are projected, repeated rows
are dropped when distinct ones are asked for, and the limit cuts the rest.
-/

namespace LedgerConformance.Query

open Ledger (Directive Posting)

/-- A posting with what it inherits from its transaction. -/
structure Leg where
  date : Date
  flag : Char
  payee : Option String
  narration : Option String
  posting : Posting
deriving DecidableEq, Repr

def legsOf (d : Directive) : List Leg :=
  match d.content with
  | .transaction flag payee narration =>
    d.postings.map fun posting => ⟨d.date, flag, payee, narration, posting⟩
  | _ => []

/-- What a column shows of a leg; the flag of the posting goes first. -/
def Leg.cell (leg : Leg) : Column → Option String
  | .date => some leg.date.toText
  | .flag => some (String.singleton (leg.posting.flag.getD leg.flag))
  | .payee => leg.payee
  | .narration => leg.narration
  | .account => some leg.posting.account
  | .number => leg.posting.number
  | .currency => leg.posting.currency

abbrev Row := List (Option String)

structure Table where
  columns : List Column
  rows : List Row
deriving DecidableEq, Repr

def Leg.meets (leg : Leg) (filters : List (Column × String)) : Bool :=
  filters.all fun (column, value) => leg.cell column == some value

/-- Collects rows one leg after another, newest first, until the limit is
reached. -/
def collect (s : Statement) : (rows : List Row) → List Leg → List Row
  | rows, [] => rows
  | rows, leg :: rest =>
    if leg.meets s.filters then
      let row := s.columns.map leg.cell
      if s.distinct && rows.contains row then collect s rows rest
      else
        let rows := row :: rows
        if s.limit.any (· ≤ rows.length) then rows else collect s rows rest
    else collect s rows rest

def Statement.evaluate (s : Statement) (directives : List Directive) : Table :=
  let rows := (collect s [] (directives.flatMap legsOf)).reverse
  ⟨s.columns, if s.limit == some 0 then [] else rows⟩

def run (directives : List Directive) (query : String) : Except Problem Table :=
  (Statement.parse query).map (·.evaluate directives)

end LedgerConformance.Query
