import LedgerConformance.Json.Decode
import LedgerConformance.Json.Printer
import LedgerConformance.Result

/-!
Entries of a log. Each is one line of JSON with a time, a trace identifier, a
level and the name of an event; everything else may be missing.
-/

namespace LedgerConformance.Log

open Json

inductive Level where
  | trace
  | debug
  | info
  | warn
  | error
deriving DecidableEq, Repr

namespace Level

def all : List Level := [trace, debug, info, warn, error]

def name : Level → String
  | trace => "trace"
  | debug => "debug"
  | info => "info"
  | warn => "warn"
  | error => "error"

def ofName? (s : String) : Option Level := all.find? (·.name == s)

end Level

/-- How a test or an input came out. -/
inductive Mark where
  | pass
  | fail
  | skip
  | error
  | timeout
  | agree
  | diverge
deriving DecidableEq, Repr

namespace Mark

def all : List Mark := [pass, fail, skip, error, timeout, agree, diverge]

def name : Mark → String
  | pass => "pass"
  | fail => "fail"
  | skip => "skip"
  | error => "error"
  | timeout => "timeout"
  | agree => "match"
  | diverge => "diverge"

def ofName? (s : String) : Option Mark := all.find? (·.name == s)

def ofStatus : Status → Mark
  | .pass => pass
  | .fail => fail
  | .skip => skip

end Mark

structure Entry where
  timestamp : String := ""
  traceId : String := ""
  level : Level
  event : String
  suite : Option String := none
  testId : Option String := none
  implementation : Option String := none
  kind : Option String := none
  outcome : Option Mark := none
  exitCode : Option Int := none
  duration : Option Binary64 := none
  details : Option Json := none
deriving Repr

namespace Entry

def fieldNames : List (List String) :=
  [["timestamp"], ["trace_id"], ["level"], ["event"], ["suite"], ["test_id"],
    ["implementation"], ["kind"], ["outcome"], ["exit_code"], ["duration_ms"], ["details"]]

def decode (doc : Document) : Option Entry := do
  let fields ← Decode.record fieldNames doc
  match fields with
  | [timestamp, traceId, level, event, suite, testId, implementation, kind, outcome, exitCode,
      duration, details] =>
    return {
      timestamp := ← Decode.required Decode.string timestamp
      traceId := ← Decode.required Decode.string traceId
      level := ← Decode.required (Decode.word Level.ofName?) level
      event := ← Decode.required Decode.string event
      suite := ← Decode.maybe Decode.string suite
      testId := ← Decode.maybe Decode.string testId
      implementation := ← Decode.maybe Decode.string implementation
      kind := ← Decode.maybe Decode.string kind
      outcome := ← Decode.maybe (Decode.word Mark.ofName?) outcome
      exitCode := ← Decode.maybe Decode.int32 exitCode
      duration := ← Decode.maybe Decode.float duration
      details := ← Decode.maybe Decode.value details }
  | _ => none

def toJson (e : Entry) : Json :=
  let text (key : String) (s : Option String) := fieldIf key (s.map .string)
  .object ([("timestamp", .string e.timestamp), ("trace_id", .string e.traceId),
      ("level", .string e.level.name), ("event", .string e.event)] ++
    text "suite" e.suite ++ text "test_id" e.testId ++
    text "implementation" e.implementation ++ text "kind" e.kind ++
    text "outcome" (e.outcome.map Mark.name) ++
    fieldIf "exit_code" (e.exitCode.map .int) ++
    fieldIf "duration_ms" (e.duration.map fun x => .number (.float x)) ++
    fieldIf "details" e.details)

/-- The line of an entry, without its end. -/
def line (e : Entry) : String := e.toJson.compact

/-- What is said about a result besides its fields. -/
def resultDetails (r : Result) : Option Json :=
  match r.mismatch, r.skipReason with
  | some m, _ => some (Json.sorted [("message", .string m.message), ("expected", m.expected),
      ("actual", m.actual)])
  | none, some reason => some (Json.sorted [("skip_reason", .string reason)])
  | none, none => none

/-- The entry of one result. -/
def ofResult (r : Result) (implementation : String) : Entry :=
  { level := if r.passed then .info else .error
    event := "test_result"
    suite := some r.suite
    testId := some r.id
    implementation := some implementation
    kind := some r.kind.name
    outcome := some (if r.timedOut then .timeout else Mark.ofStatus r.status)
    exitCode := r.exitCode
    duration := some r.milliseconds
    details := resultDetails r }

end Entry

end LedgerConformance.Log
