import LedgerConformance.Shell.Reader

/-!
Reading words. Quotes, expansions in braces and arithmetic nest, and the
commands whose output is inserted are read by the parser that is handed in. A
number of steps bounds the reading; the length of the script is enough.
-/

namespace LedgerConformance.Shell.Words

open Parse

/-- What surrounds the characters that are read. -/
inductive Place where
  | base
  | double
  /-- Between braces; in quotes, and then in further quotes of their own, and perhaps in
  a text further below, with the line that ends it and whether tabs go. -/
  | braces (quoted inner : Bool) (text : Option (Raw × Bool))
  | arithmetic (depth : Nat)
  /-- In a text further below, which a line ends. -/
  | document (mark : Raw) (strip atStart : Bool)

namespace Place

def isQuoted : Place → Bool
  | base => false
  | braces quoted _ _ => quoted
  | _ => true

/-- The line that ends the text in which a place is, and whether tabs go. -/
def ending : Place → Option (Raw × Bool)
  | document mark strip _ => some (mark, strip)
  | braces _ _ text => text
  | _ => none

/-- The characters that a backslash takes the meaning of, if not all. -/
def escapable (p : Place) (c : Char) : Bool :=
  match p with
  | base => true
  | braces false _ _ => true
  | double | arithmetic _ => "\\\x60$\"".toList.contains c
  | braces true _ _ => "\\\x60$\"\x7d".toList.contains c
  | document .. => "\\\x60$".toList.contains c

end Place

/-- The character around an older form of a script whose output is inserted. -/
def backquote : Char := '\x60'

/-- The characters that end a word. -/
def endsWord (c : Char) : Bool := " \t\n;&|()<>".toList.contains c

def quotedChars (s : Raw) : List Part := s.map fun c => .char c true

/-- The text between older quotes of a script, as the script within reads it. -/
def backquoted (quoted : Bool) : (steps : Nat) → (done : Raw) → Parse Raw
  | 0, _ => refuse "EOF in backquote substitution"
  | steps + 1, done => do
    let _ ← ahead
    match ← take with
    | none => refuse "EOF in backquote substitution"
    | some '\\' =>
      match ← take with
      | none => refuse "EOF in backquote substitution"
      | some c =>
        if c == '\\' || c == backquote || c == '$' || (quoted && c == '"') then
          backquoted quoted steps (c :: done)
        else backquoted quoted steps (c :: '\\' :: done)
    | some c =>
      if c == backquote then return done.reverse else backquoted quoted steps (c :: done)

/-- What stands between single quotes. -/
def singleQuoted : Parse (List Part) := do
  let r ← get
  let inner := r.rest.takeWhile (· != '\'')
  let line := r.line + inner.count '\n'
  match r.rest.drop inner.length with
  | _ :: rest =>
    set { r with rest, line }
    return [.border] ++ quotedChars inner ++ [.border]
  | [] =>
    set { r with rest := [], line }
    refuse "Unterminated quoted string"

/-- The parser of the commands inside a word; the mark says whether a
parenthesis has to close them. -/
abbrev Inner : Type := Bool → Parse Command

/-- The commands of a script inside a word, up to its closing parenthesis. -/
def inserted (commands : Inner) : Parse Command := do
  let announced := (← get).announced
  modify fun r => { r with announced := [] }
  let body ← commands true
  modify fun r => { r with announced }
  return body

/-- The commands of an older form, which are a script of their own. -/
def insertedText (commands : Inner) (text : Raw) : Parse Command := do
  let outer ← get
  set { outer with
    rest := text, announced := [], active := [], pushed := none, line := 1 }
  let body ← commands false
  modify fun r =>
    { outer with documents := r.documents, nextDocument := r.nextDocument }
  return body

/-- The operator behind the name of a parameter in braces. -/
def useOf : Parse Use := do
  match ← ahead with
  | ':' :: c :: rest =>
    setRest rest
    match c with
    | '-' => return .orElse true
    | '+' => return .ifPresent true
    | '?' => return .orComplain true
    | '=' => return .orAssign true
    | _ => return .malformed
  | c :: rest =>
    setRest rest
    match c with
    | '\x7d' => return .plain
    | '-' => return .orElse false
    | '+' => return .ifPresent false
    | '?' => return .orComplain false
    | '=' => return .orAssign false
    | '%' => return .trim true (← accept '%')
    | '#' => return .trim false (← accept '#')
    | _ => return .malformed
  | [] => return .malformed

/-- The name and the use of a parameter behind an opening brace. -/
def header : Parse (Raw × Use) := do
  match ← ahead with
  | c :: rest =>
    if isNameStart c then
      let name ← takeWhile isNameChar
      return (name, ← useOf)
    else if c.isDigit then
      let name ← takeWhile Char.isDigit
      return (name, ← useOf)
    else if c == '#' then
      match rest with
      | d :: after =>
        if isNameChar d then
          setRest rest
          let name ← takeWhile (if d.isDigit then Char.isDigit else isNameChar)
          return (name, if (← ahead).head? == some '\x7d' then .length else .malformed)
        else if d != '\x7d' && after.head? == some '\x7d' then
          setRest after
          return if isSpecial d then ([d], .length) else ([], .malformed)
        else
          setRest rest
          return (['#'], ← useOf)
      | [] => return ([], .malformed)
    else if c == '\x7d' then return ([], .malformed)
    else
      setRest rest
      if isSpecial c then return ([c], ← useOf) else return ([], .malformed)
  | [] => return ([], .malformed)

/-- Whether the line that ends a text comes next; it is taken then, and otherwise only
the tabs that go are. -/
def takeEnding (mark : Raw) (strip : Bool) : Parse Bool := do
  let r ← get
  let rest := if strip then r.rest.dropWhile (· == '\t') else r.rest
  let behind := rest.drop mark.length
  setRest rest
  if mark.isPrefixOf rest && (behind.isEmpty || behind.head? == some '\n') then
    setRest (behind.drop 1)
    countLine
    return true
  else return false

/-- At the start of a line between braces: the text must not end there. -/
def checkEnding : Option (Raw × Bool) → Parse Unit
  | none => return
  | some (mark, strip) => do if ← takeEnding mark strip then refuse "Missing '\x7d'"

mutual

/-- The expansion behind a dollar sign; a lone one stands for itself. -/
def expansion (commands : Inner) :
    (steps : Nat) → (quoted : Bool) → (ending : Option (Raw × Bool)) → Parse (List Part)
  | 0, _, _ => refuse "Missing '\x7d'"
  | steps + 1, quoted, ending => do
    match ← ahead with
    | '(' :: rest =>
      setRest rest
      match ← ahead with
      | '(' :: rest =>
        setRest rest
        return [.arithmetic (← parts commands steps (.arithmetic 0) []) quoted]
      | _ => return [.output (← inserted commands) quoted]
    | '\x7b' :: rest =>
      setRest rest
      let (name, use) ← header
      match use with
      | .plain => return [.parameter name .plain [] quoted]
      | use =>
        let innerQuoted := match use with
          | .trim _ _ => false
          | _ => quoted
        let word ← parts commands steps (.braces innerQuoted false ending) []
        return [.parameter name use word quoted]
    | c :: rest =>
      if isNameStart c then
        let name ← takeWhile isNameChar
        return [.parameter name .plain [] quoted]
      else if isSpecial c then
        setRest rest
        return [.parameter [c] .plain [] quoted]
      else return [.char '$' quoted]
    | [] => return [.char '$' quoted]

/-- The parts up to the end of a place; those read come last first. -/
def parts (commands : Inner) : (steps : Nat) → Place → List Part → Parse (List Part)
  | 0, _, _ => refuse "Unterminated quoted string"
  | steps + 1, place, done => do
    match place with
    | .document mark strip true =>
      -- The line that ends the text is compared before anything is expanded.
      if ← takeEnding mark strip then return done.reverse
      else if (← get).rest.isEmpty then return done.reverse
      else parts commands steps (.document mark strip false) done
    | place =>
    let quoted := place.isQuoted
    match ← ahead with
    | [] =>
      match place with
      | .base | .document .. => return done.reverse
      | .arithmetic _ => refuse "Missing '))'"
      | .braces false _ _ => refuse "Missing '\x7d'"
      | .double => refuse "Unterminated quoted string"
      | .braces true _ text =>
        refuse (if text.isSome then "Missing '\x7d'" else "Unterminated quoted string")
    | c :: rest =>
      if c == '$' then
        setRest rest
        let found ← expansion commands steps quoted place.ending
        parts commands steps place (found.reverse ++ done)
      else if c == backquote then
        setRest rest
        let text ← backquoted quoted (rest.length + 1) []
        let body ← insertedText commands text
        parts commands steps place (.output body quoted :: done)
      else if c == '\\' then
        setRest rest
        match ← take with
        | none => parts commands steps place (.char '\\' true :: done)
        | some d =>
          if place.escapable d then parts commands steps place (.char d true :: done)
          else parts commands steps place (.char d true :: .char '\\' true :: done)
      else
        match place with
        | .base =>
          if endsWord c then return done.reverse
          else
            setRest rest
            if c == '"' then
              let inner ← parts commands steps .double []
              parts commands steps place (.border :: (inner.reverse ++ .border :: done))
            else if c == '\'' then
              parts commands steps place ((← singleQuoted).reverse ++ done)
            else parts commands steps place (.char c false :: done)
        | .double =>
          let _ ← take
          if c == '"' then return done.reverse
          else parts commands steps place (.char c true :: done)
        | .braces false inner text =>
          let _ ← take
          if c == '\n' then checkEnding text
          if c == '\x7d' then return done.reverse
          else if c == '"' then
            let found ← parts commands steps .double []
            let border := if text.isSome then [] else [.border]
            parts commands steps (.braces false inner text)
              (border ++ found.reverse ++ border ++ done)
          else if c == '\'' then
            parts commands steps (.braces false inner text) ((← singleQuoted).reverse ++ done)
          else parts commands steps (.braces false inner text) (.char c false :: done)
        | .braces true inner text =>
          let _ ← take
          if c == '\n' then checkEnding text
          if c == '\x7d' && !inner then return done.reverse
          else if c == '"' then
            parts commands steps (.braces true (!inner) text)
              (if text.isSome then done else .border :: done)
          else parts commands steps (.braces true inner text) (.char c true :: done)
        | .arithmetic depth =>
          let _ ← take
          if c == '(' then parts commands steps (.arithmetic (depth + 1)) (.char c true :: done)
          else if c == ')' then
            match depth with
            | 0 =>
              if ← accept ')' then return done.reverse
              else parts commands steps (.arithmetic 0) (.char c true :: done)
            | depth + 1 => parts commands steps (.arithmetic depth) (.char c true :: done)
          else parts commands steps (.arithmetic depth) (.char c true :: done)
        | .document mark strip _ =>
          let _ ← take
          parts commands steps (.document mark strip (c == '\n')) (.char c true :: done)

end

/-- A word at the front of the script. -/
def word (commands : Inner) : Parse Word := do
  parts commands (2 * (← get).rest.length + 2) .base []

/-- A word in which dollar signs stand for themselves: the line that ends a text. -/
def markParts : (steps : Nat) → List Part → Parse (List Part)
  | 0, done => return done.reverse
  | steps + 1, done => do
    match ← ahead with
    | [] => return done.reverse
    | c :: rest =>
      if endsWord c then return done.reverse
      else
        setRest rest
        if c == '\'' then markParts steps ((← singleQuoted).reverse ++ done)
        else if c == '"' then
          let inner ← takeWhile (· != '"')
          modify fun r => { r with line := r.line + inner.count '\n' }
          if ← accept '"' then
            markParts steps (.border :: ((quotedChars inner).reverse ++ .border :: done))
          else refuse "Unterminated quoted string"
        else if c == '\\' then
          match ← take with
          | none => markParts steps (.char '\\' true :: done)
          | some d => markParts steps (.char d true :: done)
        else markParts steps (.char c false :: done)

/-- The lines of a text that is taken as it stands. -/
def plainDocument (a : Announced) : (steps : Nat) → (done : Raw) → Parse Raw
  | 0, done => return done.reverse
  | steps + 1, done => do
    let r ← get
    if r.rest.isEmpty then return done.reverse
    let rest := if a.strip then r.rest.dropWhile (· == '\t') else r.rest
    let line := rest.takeWhile (· != '\n')
    let behind := rest.drop line.length
    set { r with rest := behind.drop 1, line := r.line + 1 }
    if line == a.mark then return done.reverse
    else plainDocument a steps ((behind.take 1).reverse ++ line.reverse ++ done)

/-- Reads the texts that were announced, once their lines come. -/
def documents (commands : Inner) : List Announced → Parse Unit
  | [] => return
  | a :: others => do
    let steps := 2 * (← get).rest.length + 2
    let text ← if a.expands then parts commands steps (.document a.mark a.strip true) []
      else do pure (quotedChars (← plainDocument a steps []))
    modify fun r => { r with documents := (a.number, text) :: r.documents }
    documents commands others

end LedgerConformance.Shell.Words
