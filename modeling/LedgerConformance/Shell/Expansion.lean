import LedgerConformance.Shell.Arithmetic
import LedgerConformance.Shell.Fields
import LedgerConformance.Shell.Pattern
import LedgerConformance.Shell.Script

/-!
Expanding words: tildes, parameters, the output of commands and arithmetic, then
division into fields and the names of files that patterns fit.
-/

namespace LedgerConformance.Shell

abbrev Expand (α : Type) : Type := StateT Draft Sh α

namespace Expand

variable (k : Interpreter)

/-- Begins a region that is divided. -/
def newRegion (onlyBorders : Bool) : Expand Nat := do
  let d ← get
  set { d with regions := onlyBorders :: d.regions }
  return d.regions.length

def emit (cells : List Cell) : Expand Unit :=
  modify fun d => { d with cells := cells.reverse ++ d.cells }

/-- The result of an expansion; without quotes it is divided. -/
def emitResult (quoted : Bool) (text : Raw) : Expand Unit := do
  if quoted then emit (text.map fun c => .char c true none)
  else
    let region ← newRegion false
    emit (text.map fun c => .char c false (some region))

/-- The value of a parameter. Parameters that are several are joined, or keep
their borders where the result is divided. -/
def valueOf (s : Session) (name : Raw) (quoted divides : Bool) : Option Raw :=
  let joined (separator : Option Char) : Raw :=
    match separator with
    | some c => (s.parameters.intersperse [c]).flatten
    | none => s.parameters.flatten
  let separator : Option Char :=
    match s.value? "IFS".toList with
    | none => some ' '
    | some ifs => ifs.head?
  match name with
  | ['$'] => some (Raw.ofNat s.number)
  | ['?'] => some (Raw.ofNat s.status)
  | ['#'] => some (Raw.ofNat s.parameters.length)
  | ['!'] => if s.background == 0 then none else some (Raw.ofNat s.background)
  | ['-'] =>
    some ((optionLetters.map (·.1)).reverse.filter fun c => s.options.contains c)
  | ['@'] => some (joined (if divides then some parameterBorder else separator))
  | ['*'] => some (joined (if divides && !quoted then some parameterBorder else separator))
  | name =>
    if name.all Char.isDigit then
      match Raw.digitsValue 10 name with
      | 0 => some s.name
      | n + 1 => s.parameters[n]?
    else s.value? name

/-- The home directory of a user. -/
def home? (s : Session) (user : Raw) : Option Raw :=
  if user.isEmpty then s.value? "HOME".toList
  else if user == "root".toList then some "/root".toList
  else none

/-- The text of a word, without division. -/
def textOf (word : Word) (manner : Manner) : Sh (List Cell) := do
  let ((), draft) ← (k.expand word { manner with divides := false }).run {}
  return draft.cells.reverse

/-- Complains that a parameter has no value. -/
def complain (name : Raw) (text : Raw) : Sh Unit := Sh.fail (name ++ ": ".toList ++ text)

/-- Emits the value of a parameter. -/
def emitValue (name : Raw) (quoted : Bool) (value : Raw) : Expand Unit := do
  if quoted && name == ['@'] && !(← getThe Session).parameters.isEmpty then
    let region ← newRegion true
    emit (value.map fun c => .char c true (some region))
  else emitResult quoted value

def parameter (manner : Manner) (name : Raw) (use : Use) (word : Word) (quoted : Bool) :
    Expand Unit := do
  let value := valueOf (← getThe Session) name quoted manner.divides
  let missing (emptyToo : Bool) : Bool := value.isNone || (emptyToo && value == some [])
  let inner : Manner := { manner with tilde := true, inBraces := true }
  let required : Expand Raw := do
    match value with
    | some v => return v
    | none =>
      if ← Sh.hasOption 'u' then complain name "parameter not set".toList
      return []
  match use with
  | .malformed => Sh.fail "Bad substitution".toList
  | .plain =>
    let v ← required
    if value.isSome then emitValue name quoted v
  | .length => emitResult quoted (Raw.ofNat (← required).length)
  | .orElse emptyToo =>
    if missing emptyToo then k.expand word inner else emitValue name quoted (value.getD [])
  | .ifPresent emptyToo =>
    if missing emptyToo then emitResult quoted [] else k.expand word inner
  | .orAssign emptyToo =>
    if missing emptyToo then
      let text := Cell.text (← textOf k word { tilde := true })
      Sh.assign name text
      emitValue name quoted ((valueOf (← getThe Session) name quoted manner.divides).getD [])
    else emitValue name quoted (value.getD [])
  | .orComplain emptyToo =>
    if missing emptyToo then
      let text := Cell.text (← textOf k word { tilde := true })
      let default := "parameter not set".toList ++ (if emptyToo then " or null".toList else [])
      complain name (if word.isEmpty then default else text)
    else emitValue name quoted (value.getD [])
  | .trim atEnd longest =>
    let v ← required
    if value.isSome then
      let pattern := Cell.pattern (← textOf k word { tilde := true })
      emitValue name quoted (Pattern.trim atEnd longest pattern v)

/-- The output of commands, without line feeds at its end. -/
def outputOf (body : Command) : Sh Raw := do
  match body with
  | .skip => return []
  | body =>
    let (source, target) ← Sh.ask .pipe
    let child ← Sh.forkChild k false do
      Sh.ask (.close source)
      let _ ← Sh.ask (.duplicate target 1)
      Sh.ask (.close target)
      k.evaluate body { last := true }
    Sh.ask (.close target)
    let text ← Sh.act (Act.contents source)
    Sh.ask (.close source)
    let status ← Sh.awaitAll [child]
    modify fun s => { s with insertedStatus := status }
    let text := (text.toOption.getD []).filter (· != Char.ofNat 0)
    return Text.dropEndWhile (· == '\n') text

/-- The value of an arithmetic expression. -/
def arithmetic (expression : Raw) : Sh Raw := do
  let s ← get
  match Arithmetic.evaluate s.value? expression with
  | .ok (value, assigned) =>
    assigned.forM fun (name, value) => Sh.setVariable name (some (Raw.ofInt value)) false
    return Raw.ofInt value
  | .error (.notNumber text) => Sh.fail ("Illegal number: ".toList ++ text)
  | .error (.malformed reason) =>
    Sh.fail ("arithmetic expression: ".toList ++ reason.toList ++ ": \"".toList ++ expression ++
      ['"'])

/-- The directory that a tilde and the name behind it stand for, and how many
characters the name has. -/
def tilde? (s : Session) (assignment : Bool) (behind : Word) : Option (Raw × Nat) :=
  let name := (Word.front behind).takeWhile fun c => c != '/' && !(assignment && c == ':')
  let closed := match behind.drop name.length with
    | [] => true
    | .char _ false :: _ => true
    | _ => false
  if closed then (home? s name).map fun home => (home, name.length) else none

/-- Where in a word its expansion stands. -/
structure Position where
  /-- A tilde here stands for a directory. -/
  tilde : Bool
  /-- The equals sign of an assignment has been seen. -/
  afterEquals : Bool := false
  /-- The region of the text before this place. -/
  region : Option Nat := none

/-- Expands the parts of a word; `skipped` parts belong to a tilde before them. -/
def parts (manner : Manner) : Word → Position → (skipped : Nat) → Expand Unit
  | [], _, _ => return
  | _ :: rest, position, skipped + 1 => parts manner rest position skipped
  | part :: rest, position, 0 => do
    let next : Position := { position with tilde := false, region := none }
    match part with
    | .char c true =>
      emit [.char c true none]
      parts manner rest next 0
    | .char c false =>
      let found ← if c == '~' && position.tilde then
          pure (tilde? (← getThe Session) manner.assignment rest)
        else pure none
      match found with
      | some (home, length) =>
        emit (home.map fun c => .char c true none)
        parts manner rest next length
      | none =>
        let region ← if manner.inBraces then
            match position.region with
            | some region => pure (some region)
            | none => do pure (some (← newRegion false))
          else pure none
        emit [.char c false region]
        let equals := manner.assignment && c == '=' && !position.afterEquals
        parts manner rest
          { tilde := equals || (manner.assignment && c == ':')
            afterEquals := position.afterEquals || equals, region } 0
    | .border =>
      match rest with
      | .parameter ['@'] .plain _ true :: .border :: _ =>
        -- All parameters in quotes of their own may be no field at all.
        parameter k manner ['@'] .plain [] true
        parts manner rest next 2
      | _ =>
        emit [.border]
        parts manner rest next 0
    | .parameter name use word quoted =>
      parameter k manner name use word quoted
      parts manner rest next 0
    | .output body quoted =>
      emitResult quoted (← outputOf k body)
      parts manner rest next 0
    | .arithmetic expression quoted =>
      let text := Cell.text (← textOf k expression {})
      emitResult quoted (← arithmetic text)
      parts manner rest next 0

/-- Expands a word. -/
def word (w : Word) (manner : Manner) : Expand Unit :=
  parts k manner w { tilde := manner.tilde || manner.assignment } 0

end Expand

/-! Names of files. -/

namespace Glob

/-- A pattern without the backslashes that take the meaning of characters. -/
def unescape : Raw → Raw
  | '\\' :: c :: rest => c :: unescape rest
  | c :: rest => c :: unescape rest
  | [] => []

/-- The parts of a pattern between slashes. -/
def components : Raw → List Raw
  | [] => [[]]
  | '\\' :: '/' :: rest => [] :: components rest
  | '/' :: rest => [] :: components rest
  | '\\' :: c :: rest =>
    match components rest with
    | [] => [['\\', c]]
    | first :: others => ('\\' :: c :: first) :: others
  | c :: rest =>
    match components rest with
    | [] => [[c]]
    | first :: others => (c :: first) :: others

/-- Whether a set is closed. -/
def closesSet : Raw → Bool
  | '\\' :: _ :: ']' :: _ => true
  | '\\' :: _ :: rest => closesSet rest
  | _ :: ']' :: _ => true
  | _ :: rest => closesSet rest
  | [] => false

def isPattern : Raw → Bool
  | [] => false
  | '\\' :: _ :: rest => isPattern rest
  | c :: rest =>
    let inner := if rest.head? == some '!' then rest.drop 1 else rest
    c == '*' || c == '?' || (c == '[' && closesSet inner) || isPattern rest

/-- The paths that begin with a directory and fit components. -/
def paths : (components : List Raw) → (directory : Raw) → Sh (List Raw)
  | [], _ => return []
  | c :: rest, directory => do
    if isPattern c then
      match ← Sh.ask (.entries (if directory.isEmpty then ['.'] else directory)) with
      | .error _ => return []
      | .ok entries =>
        let entries := ['.'] :: ['.', '.'] :: entries
        let dotted := (unescape c).head? == some '.'
        let names := entries.filter fun e =>
          (dotted || e.head? != some '.') && Pattern.isMatch c e
        if rest.isEmpty then return names.map (directory ++ ·)
        let found ← names.mapM fun name => paths rest (directory ++ name ++ ['/'])
        return found.flatten
    else
      let path := directory ++ unescape c
      if rest.isEmpty then
        match ← Sh.ask (.examine path) with
        | .ok _ => return [path]
        | .error _ => return []
      else paths rest (path ++ ['/'])

/-- The names of files that a field fits, or the field itself. -/
def field (cells : List Cell) : Sh (List Raw) := do
  let pattern := Cell.pattern cells
  if !Cell.mayMatch cells || (← Sh.hasOption 'f') then return [Cell.text cells]
  let parts := components pattern
  if !parts.any isPattern then return [Cell.text cells]
  match ← paths parts [] with
  | [] => return [Cell.text cells]
  | found => return found.mergeSort Raw.le

end Glob

namespace Expand

variable (k : Interpreter)

/-- The fields of a word. -/
def fields (w : Word) : Sh (List Raw) := do
  let ((), draft) ← (k.expand w { divides := true, tilde := true }).run {}
  let cells := Division.fields (← get).separators none draft
  return (← cells.mapM Glob.field).flatten

/-- The text of a word that is not divided. -/
def text (w : Word) (manner : Manner) : Sh Raw := do return Cell.text (← textOf k w manner)

/-- The pattern that a word spells. -/
def pattern (w : Word) : Sh Raw := do return Cell.pattern (← textOf k w { tilde := true })

end Expand

end LedgerConformance.Shell
