import LedgerConformance.Calendar.Date
import LedgerConformance.Log.Entry

/-!
Writing a log. The entries of a run are numbered: one without a trace
identifier gets the identifier of the run and the next number.
-/

namespace LedgerConformance.Log

structure Emitter where
  runId : String
  /-- What every entry is stamped with. -/
  timestamp : String
  sequence : Nat := 0
  /-- The lines written so far, newest first. -/
  written : List String := []
deriving DecidableEq, Repr

namespace Emitter

def traceId (runId : String) (number : Nat) : String := runId ++ "::" ++ Date.padded 3 number

/-- Stamps and writes one entry. -/
def emit (w : Emitter) (e : Entry) : Emitter × Entry :=
  let numbered := e.traceId.isEmpty
  let number := if numbered then w.sequence + 1 else w.sequence
  let entry := { e with
    traceId := if numbered then traceId w.runId number else e.traceId
    timestamp := w.timestamp }
  ({ w with sequence := number, written := entry.line :: w.written }, entry)

/-- Writes entries one after another. -/
def emitAll (w : Emitter) (entries : List Entry) : Emitter :=
  entries.foldl (fun w e => (w.emit e).1) w

def lines (w : Emitter) : List String := w.written.reverse

/-- The text of the log. -/
def content (w : Emitter) : String := String.join (w.lines.map (· ++ "\n"))

end Emitter

end LedgerConformance.Log
