import LedgerConformance.Text.Raw

/-!
The order of version numbers: texts are compared piece by piece, digits by their
value and other characters by rank, first without the endings of file names.
-/

namespace LedgerConformance.Text.Version

/-- The rank of what stands at some place of a text; its end has one of its own. -/
def rank : Option Char → Int
  | none => -1
  | some c =>
    if c.isDigit then 0 else if c.isAlpha then c.toNat else if c == '~' then -2
    else c.toNat + 256

/-- Compares up to the next digits on both sides; without a difference, what is left. -/
def compareLetters : Raw → Raw → Except Ordering (Raw × Raw)
  | [], [] => .ok ([], [])
  | a :: as, [] =>
    if a.isDigit then .ok (a :: as, [])
    else
      match compare (rank (some a)) (rank none) with
      | .eq => compareLetters as []
      | o => .error o
  | [], b :: bs =>
    if b.isDigit then .ok ([], b :: bs)
    else
      match compare (rank none) (rank (some b)) with
      | .eq => compareLetters [] bs
      | o => .error o
  | a :: as, b :: bs =>
    if a.isDigit && b.isDigit then .ok (a :: as, b :: bs)
    else
      match compare (rank (some a)) (rank (some b)) with
      | .eq => compareLetters as bs
      | o => .error o
termination_by as bs => as.length + bs.length

/-- Compares texts piece by piece. -/
def comparePieces : (steps : Nat) → Raw → Raw → Ordering
  | 0, _, _ => .eq
  | steps + 1, a, b =>
    if a.isEmpty && b.isEmpty then .eq
    else
      match compareLetters a b with
      | .error o => o
      | .ok (a, b) =>
        let a' := a.takeWhile Char.isDigit
        let b' := b.takeWhile Char.isDigit
        match compare (Raw.digitsValue 10 a') (Raw.digitsValue 10 b') with
        | .eq => comparePieces steps (a.drop a'.length) (b.drop b'.length)
        | o => o

def compareAll (a b : Raw) : Ordering := comparePieces (a.length + b.length + 1) a b

/-- Whether a text is made of endings: a point, a letter, and letters or digits. -/
def isEndings : (steps : Nat) → Raw → Bool
  | 0, _ => false
  | _ + 1, [] => true
  | steps + 1, '.' :: c :: rest =>
    (c.isAlpha || c == '~') &&
      isEndings steps (rest.dropWhile fun c => c.isAlphanum || c == '~')
  | _ + 1, _ => false

/-- The text without the endings of a file name; something of it stays. -/
def stem : Raw → Raw
  | [] => []
  | c :: rest => if isEndings (rest.length + 1) rest then [c] else c :: stem rest

/-- The rank of names that begin with a point, which come first. -/
def dotRank (text : Raw) : Nat :=
  match text with
  | [] => 0
  | ['.'] => 1
  | ['.', '.'] => 2
  | '.' :: _ => 3
  | _ => 4

def order (a b : Raw) : Ordering :=
  let named (x : Raw) : Bool := dotRank x ≥ 3
  (compare (dotRank a) (dotRank b)).then
    (if named a && named b then
      (compareAll (stem a) (stem b)).then (compareAll a b)
    else .eq)

end LedgerConformance.Text.Version
