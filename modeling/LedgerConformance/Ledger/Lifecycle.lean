import LedgerConformance.Ledger.Scan

/-!
The life of an account: it is opened once, used from that day on, and closed
at most once, after which it may be used on the closing day only. Directives
are taken by date; on one day openings come first and closings last, and what
remains equal keeps the order of the lines.
-/

namespace LedgerConformance.Ledger

/-- When an account was opened and, if it was, closed. -/
structure Lifespan where
  opened : Date
  closed : Option Date := none
deriving DecidableEq, Repr

/-- A breach of the rules, with the account that it concerns. -/
inductive Violation where
  | duplicateOpen (account : String)
  | unknownAccount (account : String)
  | alreadyClosed (account : String)
  | inactiveAccount (account : String)
deriving DecidableEq, Repr

def Violation.message : Violation → String
  | duplicateOpen account => "Duplicate open directive for account '" ++ account ++ "'"
  | unknownAccount account => "Invalid reference to unknown account '" ++ account ++ "'"
  | alreadyClosed account => "Account '" ++ account ++ "' is already closed"
  | inactiveAccount account => "Invalid reference to inactive account '" ++ account ++ "'"

/-- The accounts opened so far with their lifespans. -/
abbrev Register := List (String × Lifespan)

namespace Register

def find? (r : Register) (account : String) : Option Lifespan := r.lookup account

/-- Records the closing day of an account. -/
def close (r : Register) (account : String) (day : Date) : Register :=
  r.map fun (name, span) => if name == account then (name, { span with closed := some day })
    else (name, span)

/-- The breach, if any, of using an account on a day. -/
def use? (r : Register) (account : String) (day : Date) : Option Violation :=
  match r.find? account with
  | none => some (.unknownAccount account)
  | some span =>
    match span.closed with
    | some closed =>
      if closed < day then some (.inactiveAccount account)
      else if day < span.opened then some (.unknownAccount account)
      else none
    | none => if day < span.opened then some (.unknownAccount account) else none

/-- The line that a reference is reported on: that of the first posting with
the account, or of the directive. -/
def referenceLine (d : Directive) (account : String) : Nat :=
  match d.postings.find? (·.account == account) with
  | some posting => posting.line
  | none => d.line

/-- Takes in one directive. -/
def step (r : Register) (d : Directive) : Register × List (Located Violation) :=
  match d.content with
  | .opening account _ =>
    match r.find? account with
    | some _ => (r, [⟨d.line, .duplicateOpen account⟩])
    | none => ((account, { opened := d.date }) :: r, [])
  | .closing account =>
    match r.find? account with
    | none => (r, [⟨d.line, .unknownAccount account⟩])
    | some span =>
      if span.closed.isSome then (r, [⟨d.line, .alreadyClosed account⟩])
      else (r.close account d.date, [])
  | _ =>
    (r, d.accounts.filterMap fun account =>
      (r.use? account d.date).map fun v => ⟨referenceLine d account, v⟩)

/-- Takes in directives in the given order; findings come newest first. -/
def run (r : Register) (found : List (Located Violation)) :
    List Directive → List (Located Violation)
  | [] => found
  | d :: rest => (r.step d).1.run ((r.step d).2.reverse ++ found) rest

end Register

/-- On one day openings come before uses and uses before closings. -/
def dayRank : Content → Nat
  | .opening .. => 0
  | .closing .. => 2
  | _ => 1

/-- `a` comes no later than `b`: by date, rank and line. -/
def noLater (a b : Directive) : Bool :=
  match Date.compare a.date b.date with
  | .lt => true
  | .gt => false
  | .eq =>
    dayRank a.content < dayRank b.content ||
      (dayRank a.content == dayRank b.content && a.line ≤ b.line)

/-- Every breach of the account rules, by line. -/
def violations (directives : List Directive) : List (Located Violation) :=
  let found := Register.run [] [] (directives.mergeSort noLater)
  found.reverse.mergeSort fun a b => a.line ≤ b.line

end LedgerConformance.Ledger
