import LedgerConformance.Regex.Basic

/-!
Reading regular expressions. In basic ones operators have a backslash before them, in
extended ones they have none.
-/

namespace LedgerConformance.Regex

/-- How expressions are written. In basic ones operators have a backslash before them; the last
sort is extended, and knows more letters behind a backslash. -/
inductive Dialect where
  | basic
  | extended
  | perl
deriving DecidableEq, Repr

/-- Why an expression is refused. -/
inductive PatternError where
  | unmatchedBracket
  | emptyBracket
  | unmatchedOpen
  | unmatchedClose
  | unmatchedBrace
  | badBraceContent
  | badRange
  | badClass
  | badCollation
  | trailingBackslash
  | badBackReference
  | tooBig
  | nothingToRepeat
  | unknownGroup
deriving DecidableEq, Repr

namespace PatternError

/-- What is told in the two older dialects. -/
def plainMessage : PatternError → String
  | unmatchedBracket => "Unmatched [, [^, [:, [., or [="
  | emptyBracket => "Invalid regular expression"
  | unmatchedOpen => "Unmatched ( or \\("
  | unmatchedClose => "Unmatched ) or \\)"
  | unmatchedBrace => "Unmatched \\\x7b"
  | badBraceContent => "Invalid content of \\\x7b\\\x7d"
  | badRange => "Invalid range end"
  | badClass => "Invalid character class name"
  | badCollation => "Invalid collation character"
  | trailingBackslash => "Trailing backslash"
  | badBackReference => "Invalid back reference"
  | tooBig => "Regular expression too big"
  | nothingToRepeat => "Invalid preceding regular expression"
  | unknownGroup => "Invalid regular expression"

/-- What is told of expressions in the last dialect. -/
def perlMessage : PatternError → String
  | unmatchedBracket | emptyBracket => "missing terminating ] for character class"
  | unmatchedOpen => "missing closing parenthesis"
  | unmatchedClose => "unmatched closing parenthesis"
  | unmatchedBrace | badBraceContent => "numbers out of order in \x7b\x7d quantifier"
  | badRange => "range out of order in character class"
  | badClass => "unknown POSIX class name"
  | badCollation => "POSIX collating elements are not supported"
  | trailingBackslash => "\\ at end of pattern"
  | badBackReference => "reference to non-existent subpattern"
  | tooBig => "number too big in \x7b\x7d quantifier"
  | nothingToRepeat => "quantifier does not follow a repeatable item"
  | unknownGroup => "unrecognized character after (? or (?-"

def message : Dialect → PatternError → String
  | .perl, e => e.perlMessage
  | _, e => e.plainMessage

end PatternError

/-- What is told about an expression that can be read. -/
inductive Note where
  /-- An operator stands where it has nothing to repeat. -/
  | nothingToRepeat (operator : String)
  /-- A set is written like a class without its brackets; it is refused. -/
  | bareClass
  /-- A count with nothing to repeat is too large, or none at all; it is refused. -/
  | largeCount
  | badCount
deriving DecidableEq, Repr

namespace Note

def message (dialect : Dialect) : Note → String
  | nothingToRepeat operator => "warning: " ++ operator ++ " at start of expression"
  | bareClass =>
    if dialect == .perl then "POSIX named classes are supported only within a class"
    else "character class syntax is [[:space:]], not [:space:]"
  | largeCount => "regular expression too big"
  | badCount => "invalid content of \\\x7b\\\x7d"

def refuses : Note → Bool
  | nothingToRepeat _ => false
  | bareClass | largeCount | badCount => true

end Note

namespace Parser

/-- Reading stands at a text, inside some groups. -/
structure State where
  rest : Raw
  dialect : Dialect
  groups : Nat := 0
  /-- The groups that are closed, to which references may lead. -/
  closed : List Nat := []
  depth : Nat := 0
  /-- How many closing marks stand directly behind operators that have nothing to repeat. Such a
  mark ends its group, but another one is wanted for it. -/
  wanted : Nat := 0
  /-- What is to be told, last first. -/
  notes : List Note := []

namespace State

/-- Whether operators have no backslash before them. -/
def extended (s : State) : Bool := s.dialect != .basic

end State

abbrev Read (α : Type) : Type := StateT State (Except PatternError) α

def setRest (rest : Raw) : Read Unit := modify fun s => { s with rest }

def note (n : Note) : Read Unit := modify fun s => { s with notes := n :: s.notes }

/-! Sets. -/

/-- What stands in a set before ranges are seen: a character, or a name between brackets. -/
inductive Element where
  | char (c : Char)
  | class (name : Raw)
  | equivalent (name : Raw)
  | collating (name : Raw)

/-- The most characters of a name. -/
def longestName : Nat := 32

/-- A name up to its closing mark and bracket. -/
def named (mark : Char) : (steps : Nat) → Raw → Except PatternError (Raw × Raw)
  | 0, _ => .error .unmatchedBracket
  | steps + 1, c :: d :: rest =>
    if c == mark && d == ']' then .ok ([], rest)
    else do
      let (name, rest) ← named mark steps (d :: rest)
      return (c :: name, rest)
  | _ + 1, _ => .error .unmatchedBracket

/-- The next element of a set. A hyphen stands for itself at the start of a set, as the end of a
range, before the closing bracket, and if it is one of three. -/
def element (text : Raw) (first : Bool) : Except PatternError (Element × Raw) :=
  let name (mark : Char) (rest : Raw) (make : Raw → Element) :
      Except PatternError (Element × Raw) := do
    let (name, rest) ← named mark (longestName + 1) rest
    return (make name, rest)
  match text with
  | [] => .error .unmatchedBracket
  | '[' :: ':' :: rest => name ':' rest .class
  | '[' :: '=' :: rest => name '=' rest .equivalent
  | '[' :: '.' :: rest => name '.' rest .collating
  | '-' :: '-' :: '-' :: rest => .ok (.char '-', rest)
  | '-' :: rest =>
    if first || rest.head? == some ']' then .ok (.char '-', rest) else .error .badRange
  | c :: rest => .ok (.char c, rest)

namespace Element

/-- The character that an element is, as an end of a range. -/
def asEnd : Element → Except PatternError Char
  | char c | collating [c] => .ok c
  | collating _ => .error .badCollation
  | _ => .error .badRange

/-- An element on its own. -/
def asItem : Element → Except PatternError SetItem
  | char c | equivalent [c] | collating [c] => .ok (.range c c)
  | equivalent _ | collating _ => .error .badCollation
  | .class name =>
    let name := String.ofList name
    if (classes.lookup name).isSome then .ok (.class name) else .error .badClass

def canBeginRange : Element → Bool
  | char _ | collating _ => true
  | _ => false

end Element

/-- The items of a set up to its closing bracket. -/
def items : (steps : Nat) → (first : Bool) → Raw → List SetItem →
    Except PatternError (List SetItem × Raw)
  | 0, _, _, _ => .error .unmatchedBracket
  | steps + 1, first, text, done => do
    if text.head? == some ']' && !first then return (done.reverse, text.drop 1)
    let (start, rest) ← element text first
    let single : Except PatternError (List SetItem × Raw) := do
      items steps false rest ((← start.asItem) :: done)
    if !start.canBeginRange then single
    else
      match rest with
      | [] | ['-'] => throw .unmatchedBracket
      | '-' :: ']' :: _ | '-' :: '-' :: '-' :: _ => single
      | '-' :: rest =>
        let (last, rest) ← element rest true
        let first ← start.asEnd
        let last ← last.asEnd
        if last < first then throw .badRange
        items steps false rest (.range first last :: done)
      | _ => single

/-- A set written like a class without its brackets. -/
def isBareClass (text : Raw) : Bool :=
  let inner := text.takeWhile (· != ']')
  inner.head? == some ':' && inner.getLast? == some ':' && inner.any (· != ':') &&
    !inner.contains '-' && !inner.contains '['

/-- A set without backslashes, up to its closing bracket. -/
def withoutEscapes : Raw → Raw
  | '\\' :: c :: rest =>
    let plain : Raw := match c with
      | 'd' => "[:digit:]".toList
      | 'w' => "[:alnum:]_".toList
      | 's' => "[:space:]".toList
      | 'h' => "[:blank:]".toList
      | 't' => ['\t']
      | c => ['[', '.', c, '.', ']']
    plain ++ withoutEscapes rest
  | ']' :: rest => ']' :: rest
  | c :: rest => c :: withoutEscapes rest
  | [] => []

/-- A set behind its opening bracket. -/
def set (text : Raw) : Read Regex := do
  let (negated, inner) := match text with
    | '^' :: rest => (true, rest)
    | rest => (false, rest)
  if inner.isEmpty then throw .emptyBracket
  let inner := if (← get).dialect == .perl then withoutEscapes inner else inner
  let (found, rest) ← items (inner.length + 1) true inner []
  if isBareClass inner then note .bareClass
  setRest rest
  return .set negated found

/-! Repetitions. -/

/-- How often an expression may stand. -/
abbrev Count : Type := Nat × Option Nat

def mostRepeated : Nat := 32767

/-- A number between braces. -/
inductive Numeral where
  | missing
  | invalid
  | value (n : Nat)
deriving DecidableEq, Repr

namespace Numeral

/-- A number with one more character. -/
def push (n : Numeral) (c : Char) : Numeral :=
  if !c.isDigit then invalid
  else
    match n with
    | missing => value (Raw.digitsValue 10 [c])
    | invalid => invalid
    | value n => value (10 * n + Raw.digitsValue 10 [c])

end Numeral

/-- What ends a number between braces. -/
inductive Stop where
  | comma
  | close
  | ended
deriving DecidableEq, Repr

/-- A number up to a comma or the closing brace. -/
def numeral (extended : Bool) (n : Numeral) : Raw → Numeral × Stop × Raw
  | [] => (.invalid, .ended, [])
  | ',' :: rest => (n, .comma, rest)
  | '\\' :: c :: rest =>
    if !extended && c == '\x7d' then (n, .close, rest) else numeral extended .invalid rest
  | c :: rest =>
    if extended && c == '\x7d' then (n, .close, rest) else numeral extended (n.push c) rest

/-- The least and the greatest count between braces, and what is behind them. -/
def counts (extended : Bool) (text : Raw) : Except PatternError (Numeral × Numeral × Raw) :=
  match numeral extended .missing text with
  | (_, .ended, _) => .error .unmatchedBrace
  | (.missing, .close, _) => .error .badBraceContent
  | (low, .close, rest) => .ok (low, low, rest)
  | (low, .comma, rest) =>
    let low := if low == .missing then .value 0 else low
    if low == .invalid then .error .badBraceContent
    else
      match numeral extended .missing rest with
      | (_, .ended, _) => .error .unmatchedBrace
      | (high, .close, rest) => .ok (low, high, rest)
      | (_, .comma, _) => .error .badBraceContent

/-- Whether braces that hold no count stand for themselves: those in extended expressions that
are not closed, or do not hold numbers only. The last dialect wants a first number too. -/
def isPlainBrace (dialect : Dialect) (text : Raw) : Bool :=
  let strict := dialect == .perl
  match numeral true .missing text with
  | (_, .ended, _) | (.invalid, _, _) => true
  | (low, .close, _) => strict && low == .missing
  | (low, .comma, rest) =>
    let (high, stop, _) := numeral true .missing rest
    stop == .ended || high == .invalid || (strict && (low == .missing || stop == .comma))

/-- Looks for a closing mark directly behind an operator that has nothing to repeat. -/
def noteClosing (text : Raw) : Read Unit :=
  modify fun s =>
    if s.dialect == .extended && s.depth > 0 && text.head? == some ')' then
      { s with wanted := s.wanted + 1 }
    else s

/-- A count between braces; `none` says that the brace stands for itself, as all do that hold
none if there is nothing to repeat. -/
def braces (idle : Bool) (text : Raw) : Read (Option Count) := do
  let s ← get
  let extended := s.extended
  if idle then noteClosing text
  if extended && isPlainBrace s.dialect text then return none
  let found : Except PatternError (Count × Raw) := do
    let (low, high, rest) ← counts extended text
    match low, high with
    | .value low, .missing => return ((low, none), rest)
    | .value low, .value high =>
      if high < low then throw .badBraceContent
      return ((low, some high), rest)
    | _, _ => throw .badBraceContent
  match found with
  | .error e =>
    if !idle then throw e
    if !extended then note .badCount
    return none
  | .ok (count, rest) =>
    setRest rest
    return some count

/-- What an operator of repetition is called, and how often it repeats. -/
structure Operator where
  name : String
  count : Count

def bracesName : String := "\x7b...\x7d"

/-- An operator of repetition, if one comes next; `idle` says that there is nothing to repeat. -/
def operator? (idle : Bool) : Read (Option Operator) := do
  let s ← get
  let simple (rest : Raw) (count : Count) (name : String) : Read (Option Operator) := do
    if idle then noteClosing rest
    setRest rest
    return some ⟨name, count⟩
  let braced (rest : Raw) : Read (Option Operator) := do
    return (← braces idle rest).map fun count => ⟨bracesName, count⟩
  match s.rest, s.extended with
  | '*' :: rest, _ => simple rest (0, none) "*"
  | '+' :: rest, true | '\\' :: '+' :: rest, false => simple rest (1, none) "+"
  | '?' :: rest, true | '\\' :: '?' :: rest, false => simple rest (0, some 1) "?"
  | '\x7b' :: rest, true | '\\' :: '\x7b' :: rest, false => braced rest
  | _, _ => return none

/-- Passes over a mark behind an operator that says how eagerly it repeats. -/
def skipEagerness : Read Unit := do
  let s ← get
  if s.dialect == .perl then
    match s.rest with
    | '?' :: rest | '+' :: rest => setRest rest
    | _ => return

/-- Whether an expression is a tie to a place. -/
def isTie : Regex → Bool
  | .lineStart | .lineEnd | .wordStart | .wordEnd | .border _ => true
  | _ => false

/-- Applies the operators of repetition behind an expression. `fresh` says that only ties stand
before, and so does the mark of the result; a count ends that. There, and behind any tie, an
operator is `idle`. -/
def repeated : (steps : Nat) → (idle fresh : Bool) → Regex → Read (Regex × Bool)
  | 0, _, fresh, r => return (r, fresh)
  | steps + 1, idle, fresh, r => do
    match ← operator? idle with
    | none => return (r, fresh)
    | some ⟨name, least, most⟩ =>
      let isPerl := (← get).dialect == .perl
      if isPerl && idle then throw .nothingToRepeat
      let large := most.getD least > (if isPerl then 65535 else mostRepeated)
      if large && !idle then throw .tooBig
      if fresh then note (.nothingToRepeat name)
      if large then note .largeCount
      skipEagerness
      let simple := name != bracesName
      repeated steps (isPerl || idle && simple) (fresh && simple) (.repeat r least most)

/-! Expressions. -/

/-- Whether what comes ends an alternative. -/
def endsBranch (s : State) : Bool :=
  match s.rest, s.extended with
  | [], _ => true
  | '|' :: _, true => true
  | ')' :: _, true => s.depth > 0 || s.dialect == .perl
  | '\\' :: '|' :: _, false => true
  | '\\' :: ')' :: _, false => true
  | _, _ => false

/-- What a letter behind a backslash stands for, if it is no group or reference. -/
def escaped (dialect : Dialect) (c : Char) : Regex :=
  let word : List SetItem := [.class "alnum", .range '_' '_']
  let shared : Regex := match c with
    | 'b' => .border true
    | 'B' => .border false
    | 'w' => .set false word
    | 'W' => .set true word
    | 's' => .set false [.class "space"]
    | 'S' => .set true [.class "space"]
    | c => .literal c
  if dialect == .perl then
    match c with
    | 'd' => .set false [.class "digit"]
    | 'D' => .set true [.class "digit"]
    | 'h' => .set false [.class "blank"]
    | 'H' => .set true [.class "blank"]
    | 't' => .literal '\t'
    | 'f' => .literal '\x0c'
    | 'r' => .literal '\r'
    | 'n' => .literal '\n'
    | 'e' => .literal '\x1b'
    | 'a' => .literal '\x07'
    | 'N' => .any
    | 'A' => .lineStart
    | 'z' | 'Z' => .lineEnd
    | _ => shared
  else
    match c with
    | '<' => .wordStart
    | '>' => .wordEnd
    | '\x60' => .lineStart
    | '\'' => .lineEnd
    | _ => shared

/-- Whether a dollar sign is a tie: in a basic expression only at the end of a branch. -/
def isDollarTie (s : State) (behind : Raw) : Bool :=
  s.extended || endsBranch { s with rest := behind }

/-- A character by its hexadecimal number, and what is behind it. -/
def numbered (text : Raw) : Regex × Raw :=
  let (digits, rest) := match text with
    | '\x7b' :: text =>
      let digits := text.takeWhile (· != '\x7d')
      (digits, text.drop (digits.length + 1))
    | text =>
      let digits := (text.take 2).takeWhile Raw.isHexadecimal
      (digits, text.drop digits.length)
  (.literal (Char.ofNat (Raw.digitsValue 16 digits)), rest)

mutual

/-- Alternatives up to the end of a group. None of them can refer to a group of another. -/
def alternatives : (steps : Nat) → Read Regex
  | 0 => throw .tooBig
  | steps + 1 => do
    let closed := (← get).closed
    let left ← branch steps true true .empty
    let s ← get
    match s.rest, s.extended with
    | '|' :: rest, true | '\\' :: '|' :: rest, false =>
      StateT.set { s with rest, closed }
      let right ← alternatives steps
      modify fun t => { t with closed := s.closed ++ t.closed }
      return .either left right
    | _, _ => return left

/-- A sequence, of which some is read. `first` says that nothing stands before, and `fresh` that
only ties do: there operators repeat nothing, and in basic expressions stand for themselves. -/
def branch : (steps : Nat) → (first fresh : Bool) → Regex → Read Regex
  | 0, _, _, _ => throw .tooBig
  | steps + 1, first, fresh, done => do
    let s ← get
    if endsBranch s then return done
    let size := s.rest.length + 1
    let (blank, fresh) ← if s.extended && fresh then repeated size true fresh .empty
      else pure (.empty, fresh)
    if (← get).rest.length < s.rest.length then
      return ← branch steps false fresh (.sequence done blank)
    let r ← piece steps first
    let fresh := fresh && isTie r
    let (r, fresh) ← if fresh && !s.extended then pure (r, fresh)
      else repeated size (isTie r) fresh r
    branch steps false fresh (.sequence done r)

/-- One part of a sequence. -/
def piece : (steps : Nat) → (first : Bool) → Read Regex
  | 0, _ => throw .tooBig
  | steps + 1, first => do
    let s ← get
    match s.rest with
    | [] => return .empty
    | '.' :: rest =>
      setRest rest
      return .any
    | '[' :: rest => set rest
    | '^' :: rest =>
      setRest rest
      return if s.extended || first then .lineStart else .literal '^'
    | '$' :: rest =>
      setRest rest
      return if isDollarTie s rest then .lineEnd else .literal '$'
    | ['\\'] => throw .trailingBackslash
    | '\\' :: c :: rest =>
      if c == '(' && !s.extended then return ← grouped steps rest
      if c == 'x' && s.dialect == .perl then
        let (r, rest) := numbered rest
        setRest rest
        return r
      setRest rest
      if c.isDigit && c != '0' then
        let number := c.toNat - '0'.toNat
        if !s.closed.contains number then throw .badBackReference
        return .back number
      return escaped s.dialect c
    | '(' :: rest =>
      match s.dialect, rest with
      | .basic, _ =>
        setRest rest
        return .literal '('
      | .perl, '?' :: ':' :: rest => inner steps rest
      | .perl, '?' :: '=' :: rest => return .ahead true (← inner steps rest)
      | .perl, '?' :: '!' :: rest => return .ahead false (← inner steps rest)
      | .perl, '?' :: 'i' :: ':' :: rest => return .folded (← inner steps rest)
      | .perl, '?' :: 'i' :: ')' :: rest =>
        setRest rest
        return .folded (← alternatives steps)
      | .perl, '?' :: 'P' :: '<' :: rest => grouped steps ((rest.dropWhile (· != '>')).drop 1)
      | .perl, '?' :: _ => throw .unknownGroup
      | _, _ => grouped steps rest
    | c :: rest =>
      setRest rest
      if c == ')' then modify fun t => { t with wanted := t.wanted - 1 }
      return .literal c

/-- A group behind its opening mark. -/
def grouped : (steps : Nat) → Raw → Read Regex
  | 0, _ => throw .tooBig
  | steps + 1, rest => do
    let number := (← get).groups + 1
    modify fun s => { s with groups := number }
    let r ← inner steps rest
    modify fun s => { s with closed := number :: s.closed }
    return .group number r

/-- What stands between the marks of a group. -/
def inner : (steps : Nat) → Raw → Read Regex
  | 0, _ => throw .tooBig
  | steps + 1, rest => do
    let s ← get
    let close : Raw := if s.extended then [')'] else ['\\', ')']
    StateT.set { s with rest, depth := s.depth + 1 }
    let r ← alternatives steps
    let t ← get
    if !close.isPrefixOf t.rest then throw .unmatchedOpen
    StateT.set { t with rest := t.rest.drop close.length, depth := s.depth }
    return r

end

/-- Reads a whole expression; the second part holds what is to be told about it. -/
def whole (dialect : Dialect) (text : Raw) : Except PatternError (Regex × List Note) := do
  let (r, s) ← (alternatives (5 * text.length + 8)).run { rest := text, dialect }
  if !s.rest.isEmpty then throw .unmatchedClose
  if s.wanted > 0 then throw .unmatchedOpen
  return (r, s.notes.reverse)

end Parser

end LedgerConformance.Regex
