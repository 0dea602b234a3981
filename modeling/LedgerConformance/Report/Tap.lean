import LedgerConformance.Json.Printer
import LedgerConformance.Result
import LedgerConformance.Text.Substring

/-!
Results as TAP version 14: a plan, one line per result, and a comment with the
counts. A failure is followed by a block with what was expected and found; in
the detailed form the time of a pass is told as well.
-/

namespace LedgerConformance.Report.Tap

/-- A value that is worth showing. -/
def hasPayload : Json → Bool
  | .null => false
  | .object fields => !fields.isEmpty
  | _ => true

def label (r : Result) : String :=
  if r.description.isEmpty then r.id else r.id ++ ": " ++ r.description

/-- Line feeds and quotes are escaped. -/
def quotedMessage (message : String) : String :=
  Text.replaceText (Text.replaceText message "\n" "\\n") "\"" "\\\""

def payloadLine (key : String) (value : Json) : List String :=
  if hasPayload value then ["  " ++ key ++ ": " ++ value.compact] else []

def mismatchLines (m : Mismatch) : List String :=
  ("  message: \"" ++ quotedMessage m.message ++ "\"") ::
    (payloadLine "expected" m.expected ++ payloadLine "actual" m.actual)

def durationLine (r : Result) : List String :=
  if r.milliseconds.isZero then [] else ["  duration_ms: " ++ Decimal.twoPlaces r.milliseconds]

/-- The block below a result. -/
def block (r : Result) : List String :=
  "  ---" :: ((r.mismatch.map mismatchLines).getD [] ++ durationLine r ++ ["  ..."])

/-- The lines of one result. -/
def resultLines (verbose : Bool) (number : Nat) (r : Result) : List String :=
  let status := if r.passed then "ok" else "not ok"
  let first := status ++ " " ++ toString number ++ " - " ++ label r
  if r.isSkipped then [first ++ " # SKIP " ++ r.skipReason.getD ""]
  else if r.passed && !(verbose && !r.milliseconds.isZero) then [first]
  else first :: block r

/-- The lines of the results that follow `number` others. -/
def resultsFrom (verbose : Bool) (number : Nat) : List Result → List String
  | [] => []
  | r :: rest => resultLines verbose (number + 1) r ++ resultsFrom verbose (number + 1) rest

def countsLine (s : Summary) : String :=
  "# Tests: " ++ toString s.total ++ ", Passed: " ++ toString s.passed ++ ", Failed: " ++
    toString s.failed ++ ", Skipped: " ++ toString s.skipped

def lines (verbose : Bool) (results : List Result) : List String :=
  ["TAP version 14", "1.." ++ toString results.length] ++ resultsFrom verbose 0 results ++
    ["", countsLine (Summary.ofResults results)]

def render (verbose : Bool) (results : List Result) : String :=
  String.join ((lines verbose results).map (· ++ "\n"))

end LedgerConformance.Report.Tap
