import LedgerConformance.Case.Basic
import LedgerConformance.Outcome

/-!
Results of cases and their counts. A skipped case counts as passed in every
aggregate but the number of passes.
-/

namespace LedgerConformance

inductive Status where
  | pass
  | fail
  | skip
deriving DecidableEq, Repr

def Status.name : Status → String
  | pass => "pass"
  | fail => "fail"
  | skip => "skip"

/-- An expectation that is not met, in words and as data. -/
structure Mismatch where
  message : String
  expected : Json
  actual : Json
deriving Repr

/-- The result of one case; the duration is in nanoseconds. -/
structure Result where
  id : String
  description : String
  suite : String
  kind : Kind
  status : Status
  skipReason : Option String
  specRef : Option String
  mismatch : Option Mismatch
  exitCode : Option Int := none
  timedOut : Bool := false
  duration : Nat
deriving Repr

namespace Result

/-- The result of a case with a given status; only a skip keeps its reason. -/
def of (c : Case) (status : Status) (mismatch : Option Mismatch) (duration : Nat) : Result :=
  { id := c.id, description := c.description, suite := c.suite, kind := c.kind, status
    skipReason := if status == .skip then c.skipReason else none
    specRef := c.specRef, mismatch, duration }

def skipped (c : Case) : Result := of c .skip none 0

def passed (r : Result) : Bool := r.status != .fail

def isSkipped (r : Result) : Bool := r.status == .skip

/-- The duration in seconds, as a whole and a fraction added up. -/
def seconds (nanoseconds : Nat) : Binary64 :=
  let sum? := do
    let whole ← Binary64.ofNat? (nanoseconds / 1000000000)
    let rest ← Binary64.ofRatio? false (nanoseconds % 1000000000) 1000000000
    whole.addMagnitudes? rest
  sum?.getD (Binary64.zero false)

/-- The duration in milliseconds, rounded to two decimals. -/
def milliseconds (r : Result) : Binary64 :=
  let rounded? := do
    let ms ← (seconds r.duration).mul? (← Binary64.ofNat? 1000)
    let hundredths ← ms.mul? (← Binary64.ofNat? 100)
    (← Binary64.ofNat? hundredths.roundHalfUp).div? (← Binary64.ofNat? 100)
  rounded?.getD (Binary64.zero false)

end Result

/-- How many results there are of each status. -/
structure Summary where
  total : Nat
  passed : Nat
  failed : Nat
  skipped : Nat
deriving DecidableEq, Repr

namespace Summary

def ofResults (results : List Result) : Summary :=
  { total := results.length
    passed := results.countP (·.status == .pass)
    failed := results.countP (·.status == .fail)
    skipped := results.countP (·.status == .skip) }

def allPassed (s : Summary) : Bool := s.failed == 0

def fields (s : Summary) : List (String × Json) :=
  [("total", .nat s.total), ("passed", .nat s.passed), ("failed", .nat s.failed),
    ("skipped", .nat s.skipped)]

end Summary

end LedgerConformance
