import LedgerConformance.Shell.Words

/-!
The grammar of scripts. A script is read one complete command at a time, so
that what a command changes can be seen by the reading of those behind it.
-/

namespace LedgerConformance.Shell.Parser

open Parse

/-- What a token may be taken for: line feeds may come before it, and a word may
be reserved or stand for an alias. -/
structure Look where
  newlines : Bool := false
  reserved : Bool := false
  aliases : Bool := false

def Look.command : Look := ⟨false, true, true⟩

def Look.nextCommand : Look := ⟨true, true, true⟩

def reservedWords : List String :=
  ["!", "case", "do", "done", "elif", "else", "esac", "fi", "for", "if", "in", "then", "until",
    "while", "\x7b", "\x7d"]

/-- Commands whose faults end a script. -/
def specialCommands : List String :=
  [".", ":", "break", "continue", "eval", "exec", "exit", "export", "readonly", "return", "set",
    "shift", "times", "trap", "unset"]

/-- The parsers of what nests. -/
structure Grammar where
  /-- A list of commands inside another one; the mark lets it be empty. -/
  list : Bool → Parse Command
  command : Look → Parse Command

/-- Commands inside a word. -/
def Grammar.inner (g : Grammar) (closed : Bool) : Parse Command := do
  let body ← g.list true
  if closed then
    let r ← get
    match r.pushed with
    | some (.operator ")") => set { r with pushed := none }
    | t => unexpected (t.getD .endOfFile) (some (.operator ")"))
  return body

/-- The operator of a redirection, of which the first character is taken. -/
def redirection (first : Char) (descriptor : Option Nat) : Parse Token := do
  if first == '>' then
    let d := descriptor.getD 1
    if ← accept '>' then return .redirect d .append
    if ← accept '|' then return .redirect d (.write true)
    if ← accept '&' then return .redirect d (.duplicate false)
    return .redirect d (.write false)
  let d := descriptor.getD 0
  if ← accept '<' then return .document d (← accept '-')
  if ← accept '&' then return .redirect d (.duplicate true)
  if ← accept '>' then return .redirect d .both
  return .redirect d .read

/-- A word, or the redirection of which it is the descriptor. -/
def wordToken (g : Grammar) : Parse Token := do
  let w ← Words.word g.inner
  match ← ahead with
  | c :: rest =>
    if (c == '<' || c == '>') && !w.isQuoted then
      match w with
      | [] =>
        setRest rest
        redirection c none
      | [.char d _] =>
        if d.isDigit then
          setRest rest
          redirection c (some (d.toNat - '0'.toNat))
        else return .word w
      | _ => return .word w
    else return .word w
  | [] => return .word w

/-- Ends the aliases whose text has been read. -/
def leaveAliases : Parse Bool := do
  let r ← get
  let ended := r.active.filter fun a => r.rest.length ≤ a.2.1
  if ended.isEmpty then return false
  set { r with active := r.active.filter fun a => a.2.1 < r.rest.length }
  return ended.any (·.2.2)

/-- Drops blanks and a comment. -/
def skipBlanks : Parse Unit :=
  iterate (fun _ => do
    match ← ahead with
    | c :: rest =>
      if c == ' ' || c == '\t' then
        setRest rest
        return .inl ()
      else if c == '#' then
        setRest (rest.dropWhile (· != '\n'))
        return .inl ()
      else return .inr ()
    | [] => return .inr ()) bound ()

/-- The next token as it stands, and whether an alias before it lets it be one. -/
def rawToken (g : Grammar) : Parse (Token × Bool) := do
  let r ← get
  if let some t := r.pushed then
    set { r with pushed := none }
    return (t, false)
  skipBlanks
  let afterAlias ← leaveAliases
  let symbol (s : String) (rest : Raw) : Parse (Token × Bool) := do
    setRest rest
    return (.operator s, afterAlias)
  let double (c : Char) (rest : Raw) : Parse (Token × Bool) := do
    setRest rest
    if ← accept c then return (.operator (String.ofList [c, c]), afterAlias)
    return (.operator (String.ofList [c]), afterAlias)
  match ← ahead with
  | [] => return (.endOfFile, afterAlias)
  | '\n' :: rest =>
    setRest rest
    countLine
    return (.newline, afterAlias)
  | '&' :: rest => double '&' rest
  | '|' :: rest => double '|' rest
  | ';' :: rest => double ';' rest
  | '(' :: rest => symbol "(" rest
  | ')' :: rest => symbol ")" rest
  | _ => return (← wordToken g, afterAlias)

/-- Reads the texts that were announced on the lines above. -/
def takeDocuments (g : Grammar) : Parse Unit := do
  let announced := (← get).announced
  modify fun r => { r with announced := [] }
  Words.documents g.inner announced

/-- The next token, taken for what `look` lets it be. -/
def token (g : Grammar) (look : Look) : Parse Token :=
  iterate (fun look : Look => do
    let (t, afterAlias) ← rawToken g
    let look := { look with aliases := look.aliases || afterAlias }
    match t with
    | .newline =>
      if look.newlines then
        takeDocuments g
        return .inl look
      else return .inr t
    | .word w =>
      match Word.plain? w with
      | none => return .inr t
      | some text =>
        let name := Raw.toString text
        if look.reserved && reservedWords.contains name then return .inr (.reserved name)
        let r ← get
        if look.aliases && !r.active.any (·.1 == text) then
          match r.aliases.lookup text with
          | some value =>
            let blank := value.getLast? == some ' ' || value.getLast? == some '\t'
            set { r with
              rest := value ++ r.rest
              active := if value.isEmpty then r.active
                else (text, r.rest.length, blank) :: r.active }
            return .inl look
          | none => return .inr t
        else return .inr t
    | _ => return .inr t) bound look

def push (t : Token) : Parse Unit := modify fun r => { r with pushed := some t }

/-- Reads a token that has to come. -/
def expect (g : Grammar) (look : Look) (is : Token → Bool) (expected : Token) : Parse Unit := do
  let t ← token g look
  if is t then return
  unexpected t (some expected)

def expectReserved (g : Grammar) (look : Look) (name : String) : Parse Unit :=
  expect g look (Token.isReserved name) (.reserved name)

/-- The word of a redirection. -/
def redirectWord (g : Grammar) (descriptor : Nat) (opening : Opening) : Parse Redirect := do
  match ← token g {} with
  | .word w => return .open descriptor opening w
  | t => unexpected t none

/-- Announces a text that stands further below. -/
def announce (g : Grammar) (descriptor : Nat) (strip : Bool) : Parse Redirect := do
  skipBlanks
  let w ← Words.markParts bound []
  if w.isEmpty then unexpected (← rawToken g).1 none
  let r ← get
  let text : Announced := ⟨r.nextDocument, Word.letters w, strip, !Word.isQuoted w⟩
  set { r with nextDocument := r.nextDocument + 1, announced := r.announced ++ [text] }
  return .document descriptor r.nextDocument

/-- The redirection that a token begins. -/
def redirect? (g : Grammar) : Token → Parse (Option Redirect)
  | .redirect descriptor opening => do return some (← redirectWord g descriptor opening)
  | .document descriptor strip => do return some (← announce g descriptor strip)
  | t => do
    push t
    return none

/-- The redirections behind a compound command. -/
def redirects (g : Grammar) : Parse (List Redirect) :=
  iterate (fun (done : List Redirect) => do
    match ← redirect? g (← token g (if done.isEmpty then .command else {})) with
    | some r => return .inl (r :: done)
    | none => return .inr done.reverse) bound []

/-- The name of a function; the special commands cannot be replaced. -/
def functionName (w : Word) : Parse Raw := do
  match Word.plain? w with
  | some name =>
    if isName name && !specialCommands.contains (Raw.toString name) then return name
    refuse "Bad function name"
  | none => refuse "Bad function name"

/-- The parts of a simple command that have been read, last first. -/
structure Simple where
  assignments : List Word := []
  words : List Word := []
  redirects : List Redirect := []

def Simple.close (s : Simple) (line : Nat) : Command :=
  .simple line s.assignments.reverse s.words.reverse s.redirects.reverse

/-- A simple command, or a function, which begins like one. -/
def simple (g : Grammar) : Parse Command := do
  let line := (← get).line
  iterate (fun s : Simple => do
    let t ← token g { aliases := s.words.isEmpty }
    match t with
    | .word w =>
      if s.words.isEmpty && w.isAssignment then
        return .inl { s with assignments := w :: s.assignments }
      return .inl { s with words := w :: s.words }
    | .operator "(" =>
      match s.words, s.assignments, s.redirects with
      | [w], [], [] =>
        expect g {} (Token.isOperator ")") (.operator ")")
        let name ← functionName w
        let line := (← get).line
        return .inr (.define line name (← g.command .nextCommand))
      | _, _, _ =>
        push t
        return .inr (s.close line)
    | t =>
      match ← redirect? g t with
      | some r => return .inl { s with redirects := r :: s.redirects }
      | none => return .inr (s.close line)) bound {}

/-- The conditions and lists of a choice; those read come last first. -/
def branches (g : Grammar) : Parse Command := do
  let branch : Parse (Command × Command) := do
    let condition ← g.list false
    expectReserved g {} "then"
    return (condition, ← g.list false)
  let first ← branch
  let (read, last) ← iterate (fun read => do
    match ← token g {} with
    | .reserved "elif" => return .inl ((← branch) :: read)
    | .reserved "else" => return .inr (read, ← g.list false)
    | t =>
      push t
      return .inr (read, Command.skip)) bound [first]
  return read.foldl (fun no (condition, yes) => .choose condition yes no) last

/-- The words of a loop up to the end of the line. -/
def loopWords (g : Grammar) : Parse (List Word) :=
  iterate (fun done => do
    match ← token g {} with
    | .word w => return .inl (w :: done)
    | .newline | .operator ";" => return .inr done.reverse
    | t => unexpected t none) bound []

/-- All parameters, each one word. -/
def allParameters : Word := [.border, .parameter ['@'] .plain [] true, .border]

def forLoop (g : Grammar) (line : Nat) : Parse Command := do
  let name ← match ← token g {} with
    | .word w =>
      match (Word.plain? w).filter isName with
      | some name => pure name
      | none => refuse "Bad for loop variable"
    | _ => refuse "Bad for loop variable"
  let items ← match ← token g .nextCommand with
    | .reserved "in" => loopWords g
    | .operator ";" => pure [allParameters]
    | t =>
      push t
      pure [allParameters]
  expectReserved g .nextCommand "do"
  return .forEach line name items (← g.list false)

/-- The word that a token of a pattern stands for. -/
def patternWord : Token → Word
  | .word w => w
  | .reserved name => name.toList.map fun c => .char c false
  | _ => []

/-- The patterns of a clause, of which the first token is read. -/
def patterns (g : Grammar) (first : Token) : Parse (List Word) :=
  iterate (fun (t, done) => do
    let done := patternWord t :: done
    match ← token g {} with
    | .operator "|" => return .inl (← token g {}, done)
    | .operator ")" => return .inr done.reverse
    | t => unexpected t (some (.operator ")"))) bound (first, [])

def selection (g : Grammar) (line : Nat) : Parse Command := do
  let subject ← match ← token g {} with
    | .word w => pure w
    | t => unexpected t (some (.word []))
  expectReserved g .nextCommand "in"
  let clauses ← iterate (fun done => do
    match ← token g ⟨true, true, false⟩ with
    | .reserved "esac" => return .inr done.reverse
    | t =>
      let first ← if t.isOperator "(" then token g {} else pure t
      let patterns ← patterns g first
      let body ← g.list true
      let done := (patterns, body) :: done
      match ← token g ⟨true, true, false⟩ with
      | .reserved "esac" => return .inr done.reverse
      | .operator ";;" => return .inl done
      | t => unexpected t (some (.operator ";;"))) bound []
  return .select line subject clauses

/-- A compound command with its redirections. -/
def withRedirects (g : Grammar) (line : Nat) (c : Command) : Parse Command := do
  match ← redirects g, c with
  | [], c => return c
  | found, .subshell line inner _ => return .subshell line inner found
  | found, c => return .redirected line c found

def command (g : Grammar) (look : Look) : Parse Command := do
  let line := (← get).line
  let closed (c : Command) (name : String) : Parse Command := do
    expectReserved g {} name
    withRedirects g line c
  match ← token g look with
  | .reserved "if" => closed (← branches g) "fi"
  | .reserved "while" =>
    let condition ← g.list false
    expectReserved g {} "do"
    closed (.loop true condition (← g.list false)) "done"
  | .reserved "until" =>
    let condition ← g.list false
    expectReserved g {} "do"
    closed (.loop false condition (← g.list false)) "done"
  | .reserved "for" => closed (← forLoop g line) "done"
  | .reserved "case" => do withRedirects g line (← selection g line)
  | .operator "(" =>
    let body ← g.list false
    expect g {} (Token.isOperator ")") (.operator ")")
    withRedirects g line (.subshell line body [])
  | .reserved "\x7b" => closed (← g.list false) "\x7d"
  | .word w =>
    push (.word w)
    simple g
  | .redirect descriptor opening =>
    push (.redirect descriptor opening)
    simple g
  | .document descriptor strip =>
    push (.document descriptor strip)
    simple g
  | t => unexpected t none

/-- Commands joined by pipes, with a mark of negation before them. -/
def pipeline (g : Grammar) (look : Look) : Parse Command := do
  let t ← token g look
  let negated := t.isReserved "!"
  if !negated then push t
  let line := (← get).line
  let first ← command g (if negated then .command else {})
  let stages ← iterate (fun done => do
    match ← token g {} with
    | .operator "|" => return .inl ((← command g .nextCommand) :: done)
    | t =>
      push t
      return .inr done.reverse) bound [first]
  let c := match stages with
    | [single] => single
    | stages => .pipeline line stages false
  return if negated then .negate c else c

/-- Pipelines that depend on the success or failure of those before. -/
def conditional (g : Grammar) : Parse Command := do
  let first ← pipeline g {}
  iterate (fun left => do
    match ← token g {} with
    | .operator "&&" => return .inl (.both left (← pipeline g .nextCommand))
    | .operator "||" => return .inl (.either left (← pipeline g .nextCommand))
    | t =>
      push t
      return .inr left) bound first

/-- A command that is not waited for. -/
def inBackground : Command → Command
  | .pipeline line stages _ => .pipeline line stages true
  | .redirected line inner redirects => .background line inner redirects
  | c => .background 0 c []

/-- Adds a command to those before it. -/
def append (before : Option Command) (c : Command) : Command :=
  match before with
  | none => c
  | some b => .sequence b c

/-- A list of commands; at the top it ends with its line, inside another command
with a token that ends lists. -/
def list (g : Grammar) (top mayBeEmpty : Bool) : Parse Command := do
  let look : Look := ⟨!top, true, true⟩
  let (_, found) ← iterate (fun (state : Bool × Option Command) => do
    let (mayEnd, before) := state
    let t ← token g look
    match t with
    | .newline =>
      takeDocuments g
      return .inr (mayEnd, before)
    | .endOfFile =>
      takeDocuments g
      push t
      return .inr (mayEnd, before)
    | t =>
      push t
      if mayEnd && !top && t.endsList then return .inr (mayEnd, before)
      let c ← conditional g
      let t ← token g {}
      let c := if t.isOperator "&" then inBackground c else c
      let all := some (append before c)
      match t with
      | .operator "&" | .operator ";" => return .inl (true, all)
      | .newline =>
        push t
        return .inl (true, all)
      | .endOfFile =>
        takeDocuments g
        push t
        return .inr (true, all)
      | t =>
        if top then unexpected t none
        push t
        return .inr (true, all)) bound (mayBeEmpty, none)
  return found.getD .skip

/-- The grammar up to a depth of nesting. -/
def grammar : (depth : Nat) → Grammar
  | 0 => ⟨fun _ => refuse "nested too deeply", fun _ => refuse "nested too deeply"⟩
  | depth + 1 =>
    ⟨fun mayBeEmpty => list (grammar depth) false mayBeEmpty,
      fun look => command (grammar depth) look⟩

def deepest : Nat := 100000

/-- The next complete command; there is none at the end of a script. -/
def next : Parse (Option Command) := do
  modify fun r => { r with pushed := none, announced := [] }
  let g := grammar deepest
  let t ← token g .command
  match t with
  | .endOfFile =>
    push t
    return none
  | t =>
    push t
    return some (← list g true false)

/-- Whether all of the script has been read. -/
def atEnd (r : Reader) : Bool :=
  match r.pushed with
  | some .endOfFile => true
  | _ => false

end LedgerConformance.Shell.Parser
