import LedgerConformance.Text.Blank

/-!
Lines of a text. A line ends at a line feed, and a carriage return right
before that line feed belongs to the terminator. A text that ends with a line
feed has no empty last line, and a last line without a line feed keeps all its
characters.
-/

namespace LedgerConformance.Text

/-- Removes one carriage return at the end, if there is one. -/
def dropReturn (line : List Char) : List Char :=
  match line.getLast? with
  | some '\r' => line.dropLast
  | _ => line

def linesOf (s : List Char) : List (List Char) :=
  let pieces := splitOnChar '\n' s
  let ended := pieces.dropLast.map dropReturn
  match pieces.getLast? with
  | none => ended
  | some [] => ended
  | some last => ended ++ [last]

def lines (s : String) : List String := (linesOf s.toList).map String.ofList

end LedgerConformance.Text
