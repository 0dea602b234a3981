import LedgerConformance.CommandLine.Session
import LedgerConformance.Log.Buffer
import LedgerConformance.Log.Emitter

/-!
The log of a command. Lines gather in a buffer, so a destination that refuses
them is noticed when the buffer is driven out, or at the end.
-/

namespace LedgerConformance.CommandLine

structure LogFile where
  emitter : Log.Emitter
  destination : Destination
  buffer : Log.Buffer := {}

namespace LogFile

/-- Starts a log at a path. -/
def create (path : String) (emitter : Log.Emitter) : Action LogFile :=
  return { emitter, destination := ← Action.create path }

/-- Stamps and writes one entry. -/
def emit (l : LogFile) (e : Log.Entry) : Action LogFile := do
  let (emitter, entry) := l.emitter.emit e
  let (text, buffer) := l.buffer.addLine entry.line
  return { emitter, destination := ← Action.put text l.destination, buffer }

/-- Writes the last entries and all that is held back. -/
def finish (l : LogFile) (entries : List Log.Entry) : Action Unit := do
  let l ← entries.foldlM emit l
  discard (Action.put l.buffer.held l.destination)

end LogFile

end LedgerConformance.CommandLine
