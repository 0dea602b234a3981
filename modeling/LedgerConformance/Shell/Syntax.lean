import LedgerConformance.Text.Raw

/-!
The language of scripts: words with their expansions, redirections, and
commands.
-/

namespace LedgerConformance.Shell

/-- What is made of the value of a parameter. Where a mark says so, an empty
value counts as none. -/
inductive Use where
  | plain
  | length
  | orElse (emptyToo : Bool)
  | orAssign (emptyToo : Bool)
  | orComplain (emptyToo : Bool)
  | ifPresent (emptyToo : Bool)
  /-- The value without what a pattern fits at its start or end. -/
  | trim (atEnd longest : Bool)
  | malformed
deriving DecidableEq, Repr

/-- How a redirection opens what its word names. -/
inductive Opening where
  | read
  | write (overwrite : Bool)
  | append
  | both
  /-- The word is the number of a descriptor, or a hyphen. -/
  | duplicate (input : Bool)
deriving DecidableEq, Repr

mutual

/-- A part of a word. What stands in quotes is not divided and no pattern. -/
inductive Part where
  | char (c : Char) (quoted : Bool)
  /-- The border of quotes, which keeps an empty word. -/
  | border
  | parameter (name : Raw) (use : Use) (word : List Part) (quoted : Bool)
  | output (body : Command) (quoted : Bool)
  | arithmetic (expression : List Part) (quoted : Bool)

inductive Redirect where
  | open (descriptor : Nat) (opening : Opening) (word : List Part)
  /-- A text that stands further below in the script, by its number. -/
  | document (descriptor : Nat) (number : Nat)

inductive Command where
  | skip
  | simple (line : Nat) (assignments words : List (List Part)) (redirects : List Redirect)
  | pipeline (line : Nat) (stages : List Command) (background : Bool)
  | redirected (line : Nat) (inner : Command) (redirects : List Redirect)
  | background (line : Nat) (inner : Command) (redirects : List Redirect)
  | subshell (line : Nat) (inner : Command) (redirects : List Redirect)
  | both (left right : Command)
  | either (left right : Command)
  | sequence (first second : Command)
  | negate (inner : Command)
  | choose (condition yes no : Command)
  | loop (expected : Bool) (condition body : Command)
  | forEach (line : Nat) (name : Raw) (items : List (List Part)) (body : Command)
  | select (line : Nat) (subject : List Part) (clauses : List (List (List Part) × Command))
  | define (line : Nat) (name : Raw) (body : Command)

end

abbrev Word : Type := List Part

instance : Inhabited Command := ⟨.skip⟩

def isNameStart (c : Char) : Bool := c.isAlpha || c == '_'

def isNameChar (c : Char) : Bool := isNameStart c || c.isDigit

/-- The name of a variable. -/
def isName : Raw → Bool
  | [] => false
  | c :: rest => isNameStart c && rest.all isNameChar

/-- The parameters that are no variables and have one character. -/
def isSpecial (c : Char) : Bool := c.isDigit || "#?$!-*@".toList.contains c

namespace Word

/-- The text of a word that has neither quotes nor expansions. -/
def plain? : Word → Option Raw
  | [] => some []
  | .char c false :: rest => (plain? rest).map (c :: ·)
  | _ => none

/-- The characters at the front of a word that are not quoted. -/
def front : Word → Raw
  | .char c false :: rest => c :: front rest
  | _ => []

/-- A word that begins with a name and an equals sign. -/
def isAssignment (w : Word) : Bool :=
  let name := (front w).takeWhile isNameChar
  isName name && ((front w).drop name.length).head? == some '='

/-- Whether anything in a word is quoted. -/
def isQuoted (w : Word) : Bool :=
  w.any fun
    | .border => true
    | .char _ quoted => quoted
    | _ => false

/-- The characters of a word without quotes; expansions stand for nothing. -/
def letters : Word → Raw
  | [] => []
  | .char c _ :: rest => c :: letters rest
  | _ :: rest => letters rest

end Word

end LedgerConformance.Shell
