/-!
Blank characters and what is cut along them. A character is blank when it has
the White_Space property of the Unicode standard; trimming removes blanks at
the ends, and the words of a text are its longest runs without blanks.
-/

namespace LedgerConformance.Text

/-- The White_Space property: the ASCII controls from tab to carriage return,
the space, and the blanks outside ASCII. -/
def isBlank (c : Char) : Bool :=
  let n := c.toNat
  (9 ≤ n && n ≤ 13) || n == 0x20 || n == 0x85 || n == 0xA0 || n == 0x1680 ||
    (0x2000 ≤ n && n ≤ 0x200A) || n == 0x2028 || n == 0x2029 || n == 0x202F ||
    n == 0x205F || n == 0x3000

/-- Drops the longest run at the end whose characters all satisfy `p`. -/
def dropEndWhile {α : Type} (p : α → Bool) (s : List α) : List α :=
  (s.reverse.dropWhile p).reverse

def trimStart (s : List Char) : List Char := s.dropWhile isBlank

def trimEnd (s : List Char) : List Char := dropEndWhile isBlank s

def trim (s : List Char) : List Char := trimEnd (trimStart s)

def trimText (s : String) : String := String.ofList (trim s.toList)

/-- A text of blanks only, the empty text included. -/
def isBlankText (s : String) : Bool := s.toList.all isBlank

/-- Cuts at every character that satisfies `p`; `n` cuts give `n + 1` pieces. -/
def splitWhere (p : Char → Bool) (s : List Char) : List (List Char) :=
  s.foldr
    (fun c pieces =>
      if p c then [] :: pieces
      else match pieces with
        | [] => [[c]]
        | piece :: rest => (c :: piece) :: rest)
    [[]]

def splitOnChar (sep : Char) (s : List Char) : List (List Char) :=
  splitWhere (· == sep) s

/-- The longest runs without blanks, in order. -/
def words (s : List Char) : List (List Char) :=
  (splitWhere isBlank s).filter (! ·.isEmpty)

theorem splitWhere_ne_nil (p : Char → Bool) (s : List Char) : splitWhere p s ≠ [] := by
  induction s with
  | nil => simp [splitWhere]
  | cons c rest ih =>
    simp only [splitWhere, List.foldr_cons] at ih ⊢
    split
    · simp
    · split <;> simp

end LedgerConformance.Text
