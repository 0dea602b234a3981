import LedgerConformance.Ledger.Directive
import LedgerConformance.Text.Lines
import LedgerConformance.Text.NameSet

/-!
Reading a ledger line by line. A dated line opens a block and the indented
lines after it belong to that block: metadata for every directive, postings
for a transaction. A blank line or a section header closes the block, and a
line that is refused breaks it, so that its indented lines are passed over.
Comments leave the block as it is.
-/

namespace LedgerConformance.Ledger

/-- Something said about one line. -/
structure Located (α : Type) where
  line : Nat
  what : α
deriving DecidableEq, Repr

/-- The block that an indented line would belong to. -/
inductive Block where
  | closed
  | broken
  | current (directive : Directive)
deriving DecidableEq, Repr

/-- Directives and problems so far, newest first; the directive of the current
block is not among the finished ones yet. -/
structure Scan where
  finished : List Directive := []
  problems : List (Located Problem) := []
  block : Block := .closed
deriving DecidableEq, Repr

/-- What the text of a ledger holds. -/
structure Scanned where
  directives : List Directive
  problems : List (Located Problem)
deriving DecidableEq, Repr

namespace Scan

/-- Ends the current block and starts `next`. -/
def turnTo (s : Scan) (next : Block) : Scan :=
  match s.block with
  | .current d => { s with finished := d :: s.finished, block := next }
  | _ => { s with block := next }

def refuse (s : Scan) (line : Nat) (problem : Problem) : Scan :=
  { s with problems := ⟨line, problem⟩ :: s.problems }

/-- A refused line at the margin, whose indented lines are passed over. -/
def breakOff (s : Scan) (line : Nat) (problem : Problem) : Scan :=
  (s.turnTo .broken).refuse line problem

/-- Between `least` and `most` strings and nothing else. -/
def stringsOnly (keyword : String) (least most : Nat) (args : List Token) : Except Problem Unit :=
  if args.all Token.isText && least ≤ args.length && args.length ≤ most then .ok ()
  else .error (.malformed keyword)

/-- A tag of at least one character after its hash sign. -/
def singleTag (keyword : String) : List Token → Except Problem Unit
  | [.word tag] =>
    match tag.toList with
    | '#' :: _ :: _ => .ok ()
    | _ => .error (.malformed keyword)
  | _ => .error (.malformed keyword)

/-- The lines at the margin that carry no date. -/
def undated (keyword : String) (args : List Token) : Except Problem Unit :=
  match keyword with
  | "option" => stringsOnly keyword 2 2 args
  | "plugin" => stringsOnly keyword 1 2 args
  | "include" => stringsOnly keyword 1 1 args
  | "pushtag" | "poptag" => singleTag keyword args
  | "pushmeta" | "popmeta" => .ok ()
  | other => .error (.unexpectedWord other)

def startsWithDigit (word : String) : Bool :=
  match word.toList with
  | c :: _ => c.isDigit
  | [] => false

/-- A line at the margin, given by its first token and the others. -/
def margin (s : Scan) (line : Nat) : Token → List Token → Scan
  | .text _, _ => s.breakOff line .unexpectedString
  | .word word, args =>
    if startsWithDigit word then
      match Directive.ofTokens line word args with
      | .ok d => s.turnTo (.current d)
      | .error problem => s.breakOff line problem
    else
      match undated word args with
      | .ok () => s.turnTo .closed
      | .error problem => s.breakOff line problem

/-- The key and the value of a metadata line. -/
def metadataOf? : Token → List Token → Option (String × String)
  | .word word, args =>
    (metadataKeyOf? word).map fun key => (key, " ".intercalate (args.map Token.content))
  | .text _, _ => none

def isTagOrLinkToken : Token → Bool
  | .word w => isTagOrLink w
  | .text _ => false

/-- An indented line, given by its first token and the others. -/
def indented (s : Scan) (line : Nat) (first : Token) (rest : List Token) : Scan :=
  match s.block with
  | .closed => s.refuse line .orphanLine
  | .broken => s
  | .current d =>
    match metadataOf? first rest with
    | some entry => { s with block := .current { d with metadata := d.metadata ++ [entry] } }
    | none =>
      if !d.content.isTransaction then s.refuse line (.strayLine d.content.keyword)
      else if (first :: rest).all isTagOrLinkToken then s
      else
        match Posting.ofTokens line (first :: rest) with
        | .ok p => { s with block := .current { d with postings := d.postings ++ [p] } }
        | .error problem => s.refuse line problem

def isIndented : List Char → Bool
  | c :: _ => c == ' ' || c == '\t'
  | [] => false

/-- A section header starts with a star at the margin. -/
def isSectionHeader : List Char → Bool
  | c :: _ => c == '*'
  | [] => false

/-- Takes in one line, given without its terminator. -/
def readLine (s : Scan) (line : Nat) (raw : List Char) : Scan :=
  if raw.all Text.isBlank then s.turnTo .closed
  else if isSectionHeader raw then s.turnTo .closed
  else
    match Token.ofLine? raw with
    | none =>
      if isIndented raw then s.refuse line .unterminatedString
      else s.breakOff line .unterminatedString
    | some [] => s
    | some (first :: rest) =>
      if isIndented raw then s.indented line first rest else s.margin line first rest

/-- Takes in lines of which the first has the given number. -/
def readLines (s : Scan) (line : Nat) : List (List Char) → Scan
  | [] => s
  | raw :: rest => (s.readLine line raw).readLines (line + 1) rest

def result (s : Scan) : Scanned :=
  let s := s.turnTo .closed
  ⟨s.finished.reverse, s.problems.reverse⟩

end Scan

/-- The lines of a ledger: carriage returns at the end of a line are dropped. -/
def sourceLines (source : List Char) : List (List Char) :=
  (Text.linesOf source).map (Text.dropEndWhile (· == '\r'))

/-- Reads lines that are already divided, numbered from one. -/
def scanLines (lines : List (List Char)) : Scanned :=
  ((({} : Scan).readLines 1 lines)).result

def scan (source : String) : Scanned := scanLines (sourceLines source.toList)

/-- Every account that a directive or a posting names, sorted, each once. -/
def Scanned.accounts (s : Scanned) : List String :=
  Text.nameSet (s.directives.flatMap Directive.accounts)

def Scanned.hasProblems (s : Scanned) : Bool := !s.problems.isEmpty

/-- A remark with its line number in front. -/
def onLine (line : Nat) (message : String) : String :=
  "line " ++ toString line ++ ": " ++ message

end LedgerConformance.Ledger
