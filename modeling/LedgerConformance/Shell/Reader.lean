import LedgerConformance.Shell.Syntax

/-!
Reading a script from its front: the text that is left, the number of the
line, and the texts that are announced but stand further below.
-/

namespace LedgerConformance.Shell

/-- Why a script is refused. -/
structure ParseError where
  line : Nat
  message : String
deriving DecidableEq, Repr

/-- A token of the language. -/
inductive Token where
  | endOfFile
  | newline
  | operator (symbol : String)
  | reserved (name : String)
  | redirect (descriptor : Nat) (opening : Opening)
  | document (descriptor : Nat) (strip : Bool)
  | word (word : Word)

namespace Token

/-- A token as messages call it. -/
def shown : Token → String
  | endOfFile => "end of file"
  | newline => "newline"
  | operator symbol => "\"" ++ symbol ++ "\""
  | reserved name => "\"" ++ name ++ "\""
  | redirect .. | document .. => "redirection"
  | word _ => "word"

def isOperator (symbol : String) : Token → Bool
  | operator s => s == symbol
  | _ => false

def isReserved (name : String) : Token → Bool
  | reserved w => w == name
  | _ => false

/-- The tokens that end a list of commands. -/
def endsList : Token → Bool
  | endOfFile => true
  | operator s => s == ")" || s == ";;"
  | reserved w => ["do", "done", "elif", "else", "esac", "fi", "then", "\x7d"].contains w
  | _ => false

end Token

/-- A text that is announced: its number, the line that ends it, and whether
tabs at the start of its lines go and expansions in it are made. -/
structure Announced where
  number : Nat
  mark : Raw
  strip : Bool
  expands : Bool

structure Reader where
  rest : Raw
  line : Nat := 1
  /-- A token that was read and not used. -/
  pushed : Option Token := none
  announced : List Announced := []
  /-- The texts below commands that were read, by their numbers. -/
  documents : List (Nat × Word) := []
  nextDocument : Nat := 0
  aliases : List (Raw × Raw) := []
  /-- The aliases whose text is being read, how much is left behind it, and
  whether the next word may be an alias too. -/
  active : List (Raw × Nat × Bool) := []

abbrev Parse (α : Type) : Type := StateT Reader (Except ParseError) α

namespace Parse

/-- Refuses the script at the current line. -/
def refuse {α : Type} (message : String) : Parse α := do
  throw ⟨(← get).line, message⟩

/-- Refuses a token, and tells which one was expected. -/
def unexpected {α : Type} (t : Token) (expected : Option Token) : Parse α :=
  refuse (t.shown ++ " unexpected" ++
    (expected.map fun e => " (expecting " ++ e.shown ++ ")").getD "")

/-- More steps than any loop over a script takes. -/
def bound : Nat := 1000000

/-- Repeats a step until it gives a result. -/
def iterate {α β : Type} (step : β → Parse (β ⊕ α)) : (steps : Nat) → β → Parse α
  | 0, _ => refuse "script too long"
  | steps + 1, b => do
    match ← step b with
    | .inl next => iterate step steps next
    | .inr result => return result

def setRest (rest : Raw) : Parse Unit := modify fun r => { r with rest }

def countLine : Parse Unit := modify fun r => { r with line := r.line + 1 }

/-- Drops line feeds behind a backslash from the front of a text. -/
def dropBroken : Raw → Raw × Nat
  | '\\' :: '\n' :: rest =>
    let (rest, lines) := dropBroken rest
    (rest, lines + 1)
  | rest => (rest, 0)

/-- The text that is left, without broken lines at its front. -/
def ahead : Parse Raw := do
  let r ← get
  let (rest, lines) := dropBroken r.rest
  if lines > 0 then set { r with rest, line := r.line + lines }
  return rest

/-- Takes one character as it stands. -/
def take : Parse (Option Char) := do
  let r ← get
  match r.rest with
  | [] => return none
  | c :: rest =>
    set { r with rest, line := if c == '\n' then r.line + 1 else r.line }
    return some c

/-- Takes the characters at the front that satisfy `p`; broken lines do not end them. -/
def takeWhile (p : Char → Bool) : Parse Raw :=
  iterate (fun done => do
    let rest ← ahead
    match rest.takeWhile p with
    | [] => return .inr done
    | found =>
      setRest (rest.drop found.length)
      return .inl (done ++ found)) bound []

/-- Takes a character if it comes next. -/
def accept (c : Char) : Parse Bool := do
  match ← ahead with
  | d :: rest => if d == c then setRest rest; return true else return false
  | [] => return false

end Parse

end LedgerConformance.Shell
