import LedgerConformance.Text.Raw

/-!
Patterns: an asterisk fits any text, a question mark any character, brackets one
of a set, and a backslash takes the meaning of the character behind it.
-/

namespace LedgerConformance.Shell.Pattern

/-- Classes of characters that sets can name. -/
def classes : List (String × (Char → Bool)) := [
  ("alnum", Char.isAlphanum), ("alpha", Char.isAlpha),
  ("blank", fun c => c == ' ' || c == '\t'), ("cntrl", fun c => c.toNat < 32 || c.toNat == 127),
  ("digit", Char.isDigit), ("graph", fun c => 32 < c.toNat && c.toNat < 127),
  ("lower", Char.isLower), ("print", fun c => 32 ≤ c.toNat && c.toNat < 127),
  ("punct", fun c => 32 < c.toNat && c.toNat < 127 && !c.isAlphanum),
  ("space", Raw.isSpace), ("upper", Char.isUpper), ("xdigit", Raw.isHexadecimal)]

/-- A class behind an opening bracket, and what comes behind it. -/
def class? (pattern : Raw) : Option ((Char → Bool) × Raw) :=
  match pattern with
  | ':' :: rest =>
    let name := rest.takeWhile Char.isAlpha
    match rest.drop name.length, classes.lookup (String.ofList name) with
    | ':' :: ']' :: rest, some test => some (test, rest)
    | _, _ => none
  | _ => none

/-- Bytes compare as signed numbers. -/
def rank (c : Char) : Int := if c.toNat < 128 then c.toNat else (c.toNat : Int) - 256

/-- Whether a character is in a set, and the pattern behind the set; there is none
if the set is not closed. -/
def inSet (chr : Char) : (steps : Nat) → (found : Bool) → Raw → Option (Bool × Raw)
  | 0, _, _ => none
  | _ + 1, _, [] => none
  | steps + 1, found, c :: rest =>
    let close (found : Bool) (rest : Raw) : Option (Bool × Raw) :=
      match rest with
      | ']' :: rest => some (found, rest)
      | rest => inSet chr steps found rest
    let single (c : Char) (rest : Raw) : Option (Bool × Raw) :=
      match rest with
      | '-' :: d :: after =>
        if d == ']' then close (found || chr == c) rest
        else
          let (d, after) := match d, after with
            | '\\', e :: after => (e, after)
            | d, after => (d, after)
          close (found || (rank c ≤ rank chr && rank chr ≤ rank d)) after
      | rest => close (found || chr == c) rest
    match c with
    | '[' =>
      match class? rest with
      | some (test, rest) => close (found || test chr) rest
      | none => single c rest
    | '\\' =>
      match rest with
      | d :: rest => single d rest
      | [] => none
    | c => single c rest

/-- Whether a pattern fits a text; the number of steps is at least their lengths. -/
def fits : (steps : Nat) → (pattern text : Raw) → Bool
  | 0, _, _ => false
  | _ + 1, [], text => text.isEmpty
  | steps + 1, c :: rest, text =>
    let plain (c : Char) (rest : Raw) : Bool :=
      match text with
      | d :: text => d == c && fits steps rest text
      | [] => false
    match c with
    | '\\' =>
      match rest with
      | d :: rest => plain d rest
      | [] => plain '\\' []
    | '?' =>
      match text with
      | _ :: text => fits steps rest text
      | [] => false
    | '*' =>
      fits steps rest text ||
        match text with
        | _ :: text => fits steps ('*' :: rest) text
        | [] => false
    | '[' =>
      match text with
      | [] => false
      | chr :: text =>
        let (inverted, set) := match rest with
          | '!' :: set => (true, set)
          | set => (false, set)
        match inSet chr (set.length + 1) false set with
        | some (found, behind) => found != inverted && fits steps behind text
        | none => chr == '[' && fits steps rest text
    | c => plain c rest

def isMatch (pattern text : Raw) : Bool := fits (pattern.length + text.length + 1) pattern text

/-- The text without the part at its front or end that a pattern fits; of several
parts the longest or the shortest. A pattern is held against a text up to the first
zero in it, and a search that goes forward ends there. -/
def trim (atEnd longest : Bool) (pattern text : Raw) : Raw :=
  let segment (t : Raw) : Raw := t.takeWhile (· != Char.ofNat 0)
  let places := if atEnd == longest then List.range ((segment text).length + 1)
    else (List.range (text.length + 1)).reverse
  let found := places.find? fun n =>
    isMatch pattern (segment (if atEnd then text.drop n else text.take n))
  match found with
  | some n => if atEnd then text.take n else text.drop n
  | none => text

end LedgerConformance.Shell.Pattern
