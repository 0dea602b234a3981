import LedgerConformance.Report.Tap

/-!
Results as one JSON document: the counts, and an object per result. The
detailed form adds where a case comes from.
-/

namespace LedgerConformance.Report.Document

open Json

def payloadField (key : String) (value : Option Json) : List (String × Json) :=
  fieldIf key (value.filter Tap.hasPayload)

def resultJson (verbose : Bool) (r : Result) : Json :=
  let detail (key : String) (value : Option String) : List (String × Json) :=
    if verbose then fieldIf key (value.map .string) else []
  .object ([("id", .string r.id), ("description", .string r.description),
      ("status", .string r.status.name), ("duration_ms", .number (.float r.milliseconds))] ++
    detail "suite" (some r.suite) ++ detail "kind" (some r.kind.name) ++
    detail "spec_ref" r.specRef ++
    (if r.isSkipped then [("skip_reason", .string (r.skipReason.getD ""))] else []) ++
    fieldIf "error" (r.mismatch.map fun m => .string m.message) ++
    payloadField "expected" (r.mismatch.map (·.expected)) ++
    payloadField "actual" (r.mismatch.map (·.actual)))

def toJson (verbose : Bool) (results : List Result) : Json :=
  .object [("summary", .object (Summary.ofResults results).fields),
    ("results", .array (results.map (resultJson verbose)))]

def render (verbose : Bool) (results : List Result) : String :=
  (toJson verbose results).pretty ++ "\n"

end LedgerConformance.Report.Document
