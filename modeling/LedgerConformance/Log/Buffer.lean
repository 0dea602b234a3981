/-!
Text on its way to a file. Pieces are held back until the next one does not fit
with them; a piece that would fill a buffer alone passes at once, behind all that
is held. Nothing is lost: what was driven out and what is held are together the
pieces in their order.
-/

namespace LedgerConformance.Log

structure Buffer where
  held : String := ""
deriving DecidableEq, Repr

namespace Buffer

/-- The most bytes that are held back. -/
def capacity : Nat := 8192

/-- What a further piece drives out, and what is held after it. -/
def add (b : Buffer) (piece : String) : String × Buffer :=
  if capacity ≤ piece.utf8ByteSize then (b.held ++ piece, {})
  else if b.held.utf8ByteSize + piece.utf8ByteSize ≤ capacity then ("", ⟨b.held ++ piece⟩)
  else (b.held, ⟨piece⟩)

/-- Adds a line. Its end is a piece of its own. -/
def addLine (b : Buffer) (line : String) : String × Buffer :=
  let (first, b) := b.add line
  let (second, b) := b.add "\n"
  (first ++ second, b)

theorem add_append_held (b : Buffer) (piece : String) :
    (b.add piece).1 ++ (b.add piece).2.held = b.held ++ piece := by
  unfold add
  split
  · simp
  · split <;> simp

theorem addLine_append_held (b : Buffer) (line : String) :
    (b.addLine line).1 ++ (b.addLine line).2.held = b.held ++ (line ++ "\n") := by
  have first := add_append_held b line
  have second := add_append_held (b.add line).2 "\n"
  simp only [addLine, String.append_assoc, second]
  rw [← String.append_assoc, first, String.append_assoc]

end Buffer

end LedgerConformance.Log
