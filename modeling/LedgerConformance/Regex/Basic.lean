import LedgerConformance.Text.Raw

/-!
Regular expressions over the bytes of a line, with ties to places and back
references. Matching follows all ways at once: from a set of places it computes the
set of places that an expression leads to, so the longest match is the last of them.
-/

namespace LedgerConformance

/-- A member of a set of characters. -/
inductive SetItem where
  | range (first last : Char)
  | class (name : String)
deriving DecidableEq, Repr

inductive Regex where
  | empty
  | any
  | literal (c : Char)
  | set (negated : Bool) (items : List SetItem)
  | group (number : Nat) (inner : Regex)
  | sequence (first second : Regex)
  | either (left right : Regex)
  | repeat (inner : Regex) (least : Nat) (most : Option Nat)
  | lineStart
  | lineEnd
  | wordStart
  | wordEnd
  /-- The border of a word, or any place but one. -/
  | border (wanted : Bool)
  | back (number : Nat)
  /-- A place that an expression leads on from, or does not. -/
  | ahead (wanted : Bool) (inner : Regex)
  /-- An expression for which capitals do not matter. -/
  | folded (inner : Regex)
deriving Repr

namespace Regex

def isWordChar (c : Char) : Bool := c.isAlphanum || c == '_'

/-- The classes that sets can name. -/
def classes : List (String × (Char → Bool)) := [
  ("alpha", Char.isAlpha), ("upper", Char.isUpper), ("lower", Char.isLower),
  ("digit", Char.isDigit), ("xdigit", Raw.isHexadecimal), ("space", Raw.isSpace),
  ("punct", fun c => 32 < c.toNat && c.toNat < 127 && !c.isAlphanum),
  ("alnum", Char.isAlphanum), ("print", fun c => 32 ≤ c.toNat && c.toNat < 127),
  ("graph", fun c => 32 < c.toNat && c.toNat < 127),
  ("cntrl", fun c => c.toNat < 32 || c.toNat == 127), ("blank", fun c => c == ' ' || c == '\t')]

def SetItem.contains (c : Char) : SetItem → Bool
  | .range first last => first ≤ c && c ≤ last
  | .class name => ((classes.lookup name).map fun test => test c).getD false

/-- A place in a line: the character before it, what is behind it, how far it is, and
what the groups have matched. -/
structure Place where
  before : Option Char
  rest : Raw
  index : Nat
  groups : List (Nat × Raw) := []
deriving DecidableEq

namespace Place

/-- The place behind the next character. -/
def next? (p : Place) : Option (Char × Place) :=
  match p.rest with
  | [] => none
  | c :: rest => some (c, { p with before := some c, rest, index := p.index + 1 })

/-- The place a number of characters further on. -/
def forward (p : Place) : (n : Nat) → Place
  | 0 => p
  | n + 1 =>
    match p.next? with
    | some (_, q) => q.forward n
    | none => p

def afterWord (p : Place) : Bool := (p.before.map isWordChar).getD false

def beforeWord (p : Place) : Bool := (p.rest.head?.map isWordChar).getD false

end Place

/-- Whether characters are equal, if capitals do not matter also those that differ in
that only. -/
def sameChar (fold : Bool) (a b : Char) : Bool :=
  a == b || (fold && a.toLower == b.toLower)

def inSet (fold : Bool) (items : List SetItem) (c : Char) : Bool :=
  items.any (SetItem.contains c) ||
    (fold && (items.any (SetItem.contains c.toLower) || items.any (SetItem.contains c.toUpper)))

/-- Passes over one character that satisfies a test. -/
def passing (test : Char → Bool) (p : Place) : List Place :=
  match p.next? with
  | some (c, q) => if test c then [q] else []
  | none => []

/-- Repeats a way from a set of places until it leads nowhere new. -/
def closure (way : Place → List Place) : (steps : Nat) → (found fresh : List Place) → List Place
  | 0, found, _ => found
  | steps + 1, found, fresh =>
    match ((fresh.flatMap way).eraseDups.filter fun p => !found.contains p) with
    | [] => found
    | fresh => closure way steps (found ++ fresh) fresh

/-- Takes a way some number of times. -/
def times (way : Place → List Place) : (n : Nat) → List Place → List Place
  | 0, places => places
  | n + 1, places => times way n (places.flatMap way).eraseDups

/-- Takes a way up to some number of times. -/
def upTo (way : Place → List Place) : (n : Nat) → (found fresh : List Place) → List Place
  | 0, found, _ => found
  | n + 1, found, fresh =>
    match ((fresh.flatMap way).eraseDups.filter fun p => !found.contains p) with
    | [] => found
    | fresh => upTo way n (found ++ fresh) fresh

/-- The places that an expression leads to. -/
def ways (fold : Bool) : Regex → Place → List Place
  | empty, p => [p]
  | any, p => passing (fun _ => true) p
  | literal c, p => passing (sameChar fold c) p
  | set negated items, p => passing (fun c => inSet fold items c != negated) p
  | group number inner, p =>
    (ways fold inner p).map fun q =>
      let text := p.rest.take (q.index - p.index)
      { q with groups := (number, text) :: q.groups.filter (·.1 != number) }
  | sequence first second, p => ((ways fold first p).flatMap (ways fold second)).eraseDups
  | either left right, p => (ways fold left p ++ ways fold right p).eraseDups
  | .repeat inner least most, p =>
    let start := times (ways fold inner) least [p]
    match most with
    | some m => upTo (ways fold inner) (m - least) start start
    | none => closure (ways fold inner) (p.rest.length + 1) start start
  | lineStart, p => if p.before.isNone then [p] else []
  | lineEnd, p => if p.rest.isEmpty then [p] else []
  | wordStart, p => if !p.afterWord && p.beforeWord then [p] else []
  | wordEnd, p => if p.afterWord && !p.beforeWord then [p] else []
  | border wanted, p => if (p.afterWord != p.beforeWord) == wanted then [p] else []
  | folded inner, p => ways true inner p
  | ahead wanted inner, p => if (ways fold inner p).isEmpty != wanted then [p] else []
  | back number, p =>
    match p.groups.lookup number with
    | some text =>
      let found := p.rest.take text.length
      let same := found.length == text.length &&
        (found.zip text).all fun (a, b) => sameChar fold a b
      if same then [p.forward text.length] else []
    | none => []

/-- The start of a line. -/
def start (line : Raw) : Place := ⟨none, line, 0, []⟩

/-- Where matches that begin at a place can end. -/
def ends (fold : Bool) (r : Regex) (p : Place) : List Nat :=
  ((ways fold r { p with groups := [] }).map (·.index)).eraseDups

end Regex

end LedgerConformance
