import LedgerConformance.Program.Options
import LedgerConformance.Regex.Parser
import LedgerConformance.Shell.Pattern

/-!
The program that selects the lines of files that fit patterns.
-/

namespace LedgerConformance.Program.Grep

def table : OptionTable where
  letters := "EFGHILPRTUVZabchilnoqrsuvwxyz0123456789".toList.map (fun c => (c, .none)) ++
    "ABCDXdefm".toList.map fun c => (c, .required)
  words := [
    ("after-context", .required, "A"), ("basic-regexp", .none, "G"),
    ("before-context", .required, "B"), ("binary-files", .required, "binary-files"),
    ("byte-offset", .none, "b"), ("context", .required, "C"), ("color", .optional, "color"),
    ("colour", .optional, "color"), ("count", .none, "c"), ("devices", .required, "D"),
    ("directories", .required, "d"), ("exclude", .required, "exclude"),
    ("exclude-from", .required, "exclude-from"), ("exclude-dir", .required, "exclude-dir"),
    ("extended-regexp", .none, "E"), ("file", .required, "f"),
    ("files-with-matches", .none, "l"), ("files-without-match", .none, "L"),
    ("fixed-regexp", .none, "F"), ("fixed-strings", .none, "F"), ("help", .none, "help"),
    ("include", .required, "include"), ("ignore-case", .none, "i"),
    ("no-ignore-case", .none, "no-ignore-case"), ("initial-tab", .none, "T"),
    ("label", .required, "label"), ("line-buffered", .none, "line-buffered"),
    ("line-number", .none, "n"), ("line-regexp", .none, "x"), ("max-count", .required, "m"),
    ("no-filename", .none, "h"), ("no-group-separator", .none, "no-group-separator"),
    ("group-separator", .required, "group-separator"), ("no-messages", .none, "s"),
    ("null", .none, "Z"), ("null-data", .none, "z"), ("only-matching", .none, "o"),
    ("quiet", .none, "q"), ("recursive", .none, "r"), ("dereference-recursive", .none, "R"),
    ("regexp", .required, "e"), ("invert-match", .none, "v"), ("silent", .none, "q"),
    ("text", .none, "a"), ("binary", .none, "U"), ("unix-byte-offsets", .none, "u"),
    ("version", .none, "V"), ("with-filename", .none, "H"), ("word-regexp", .none, "w"),
    ("perl-regexp", .none, "P")]

inductive Listing where
  | nothing
  | matching
  | others
deriving DecidableEq, Repr

structure Settings where
  program : Raw
  /-- The letter of the sort of patterns, if one was given. -/
  dialect : Option Char := none
  fold : Bool := false
  invert : Bool := false
  words : Bool := false
  wholeLines : Bool := false
  counts : Bool := false
  listing : Listing := .nothing
  most : Option Nat := none
  /-- The most lines are below zero: no limit, but then no line is selected for not fitting. -/
  belowZero : Bool := false
  only : Bool := false
  quiet : Bool := false
  /-- Nothing is said about files that cannot be read. -/
  tolerant : Bool := false
  offsets : Bool := false
  numbers : Bool := false
  /-- Numbers have a fixed width in a file, and a tab stands before a line. -/
  aligns : Bool := false
  names : Option Bool := none
  after : Option Nat := none
  before : Option Nat := none
  /-- The lines around selected ones where nothing else is said, and digits that go on with it. -/
  around : Option Nat := none
  digits : Raw := []
  /-- Parts of the output are marked with colors. -/
  colors : Bool := false
  /-- Files with zeros are taken for text, or passed over. -/
  asText : Bool := false
  skipsBinary : Bool := false
  recursive : Bool := false
  skipsDirectories : Bool := false
  zeroNames : Bool := false
  zeroLines : Bool := false
  label : Raw := "(standard input)".toList
  separator : Option Raw := some ['-', '-']
  /-- Patterns for names of files, last first, and whether they let them in. -/
  rules : List (Raw × Bool) := []
  excludedDirectories : List Raw := []

/-! Matching a line. -/

/-- The ends of matches from a place on that count. -/
def endsAt (s : Settings) (patterns : List Regex) (line : Raw) (p : Regex.Place) : List Nat :=
  let all := (patterns.flatMap fun r => Regex.ends s.fold r p).eraseDups
  if s.wholeLines then if p.index == 0 then all.filter (· == line.length) else []
  else if s.words then
    if p.afterWord then []
    else all.filter fun e => !(((line.drop e).head?.map Regex.isWordChar).getD false)
  else all

/-- The first match from a place on, and of those the longest. -/
def findFrom (s : Settings) (patterns : List Regex) (line : Raw) :
    (steps : Nat) → Regex.Place → Option (Regex.Place × Nat)
  | 0, _ => none
  | steps + 1, p =>
    match (endsAt s patterns line p).max? with
    | some e => some (p, e)
    | none =>
      match p.next? with
      | some (_, q) => findFrom s patterns line steps q
      | none => none

def find (s : Settings) (patterns : List Regex) (line : Raw) : Option (Regex.Place × Nat) :=
  findFrom s patterns line (line.length + 1) (Regex.start line)

/-- All matches in a line that are not empty, with where they begin. -/
def allMatches (s : Settings) (patterns : List Regex) (line : Raw) :
    (steps : Nat) → Regex.Place → List (Nat × Raw)
  | 0, _ => []
  | steps + 1, p =>
    match findFrom s patterns line (line.length + 1) p with
    | none => []
    | some (q, e) =>
      if e == q.index then
        match q.next? with
        | some (_, next) => allMatches s patterns line steps next
        | none => []
      else
        (q.index, (line.drop q.index).take (e - q.index)) ::
          allMatches s patterns line steps (q.forward (e - q.index))

/-! Going through a file. -/

/-- Where the reading of a file stands. -/
structure Scan where
  number : Nat := 0
  offset : Nat := 0
  count : Nat := 0
  /-- Lines before this one that may have to be shown, the latest first. -/
  kept : List (Nat × Nat × Raw) := []
  /-- How many lines behind a selected one are still shown. -/
  pending : Nat := 0
  lastShown : Option Nat := none
  binary : Bool := false
  /-- The width of numbers. -/
  width : Nat := 0
  /-- A line was selected that is not shown because the file is no text. -/
  hides : Bool := false
  /-- Nothing more of the file matters. -/
  done : Bool := false

/-- What is shared by all files. -/
structure Shared where
  patterns : List Regex
  withNames : Bool
  /-- Lines were shown before. -/
  shown : Bool := false
  selected : Bool := false
  failed : Bool := false
  /-- Nothing more can be written, or has to be. -/
  stopped : Bool := false

/-- The parts of the output that have colors of their own. -/
inductive Part where
  | name
  | number
  | mark
  | matching

def Part.color : Part → Raw
  | name => "35".toList
  | number => "32".toList
  | mark => "36".toList
  | matching => "01;31".toList

/-- A part of the output, in its color if colors are wanted. -/
def painted (s : Settings) (part : Part) (text : Raw) : Raw :=
  if s.colors then
    let escape : Raw := ['\x1b', '[']
    let clear : Raw := escape ++ ['K']
    escape ++ part.color ++ ['m'] ++ clear ++ text ++ escape ++ ['m'] ++ clear
  else text

/-- A name of a file and the mark behind it. -/
def nameAnd (s : Settings) (name mark : Raw) : Raw :=
  painted s .name name ++ (if s.zeroNames then [Char.ofNat 0] else mark)

/-- What stands before a text of a line. -/
def lead (s : Settings) (withNames : Bool) (name : Raw) (width : Nat) (mark : Char)
    (number offset : Nat) (text : Raw) : Raw :=
  let mark := painted s .mark [mark]
  let numeral (n : Nat) : Raw :=
    let digits := Raw.ofNat n
    painted s .number (List.replicate (width - digits.length) ' ' ++ digits) ++ mark
  (if withNames then nameAnd s name mark else []) ++
    (if s.numbers then numeral number else []) ++
    (if s.offsets then numeral offset else []) ++
    (if s.aligns && (withNames || s.numbers || s.offsets) && !text.isEmpty then ['\t'] else [])

def lineEnd (s : Settings) : Char := if s.zeroLines then Char.ofNat 0 else '\n'

/-- Whether lines around selected ones are shown. -/
def hasContext (s : Settings) : Bool := s.after.isSome || s.before.isSome

/-- Whether lines are shown at all. -/
def showsLines (s : Settings) : Bool := !s.quiet && !s.counts && s.listing == .nothing

/-- A line with its matches in color. -/
def highlighted (s : Settings) (line : Raw) (found : List (Nat × Raw)) : Raw :=
  let (done, text) := found.foldl (fun (done, text) (at_, part) =>
    (at_ + part.length,
      text ++ (line.drop done).take (at_ - done) ++ painted s .matching part)) (0, ([] : Raw))
  text ++ line.drop done

/-- A line that is shown, or the parts of it that match, with a separator if it does not follow
the last one. -/
def shownLine (s : Settings) (sh : Shared) (name : Raw) (scan : Scan) (mark : Char)
    (number offset : Nat) (line : Raw) : Raw :=
  let follows := match scan.lastShown with
    | some n => n + 1 == number
    | none => !sh.shown
  let separator := if hasContext s && !follows then
      (s.separator.map fun t => painted s .mark t ++ ['\n']).getD []
    else []
  let lead := lead s sh.withNames name scan.width mark number
  let isMatching := (s.only || s.colors) && (mark == ':') != s.invert
  let found := if isMatching then allMatches s sh.patterns line (line.length + 2) (Regex.start line)
    else []
  separator ++
    if s.only then found.flatMap fun (at_, text) =>
      lead (offset + at_) text ++ painted s .matching text ++ [lineEnd s]
    else lead offset line ++ highlighted s line found ++ [lineEnd s]

/-- What a selected line shows, behind lines before it. -/
def selectedText (s : Settings) (sh : Shared) (name : Raw) (scan : Scan) (line : Raw) :
    Raw × Shared × Scan :=
  let earlier := if hasContext s then
      (scan.kept.take (s.before.getD 0)).reverse.filter fun (n, _, _) =>
        (scan.lastShown.map fun l => decide (l < n)).getD true
    else []
  let (text, sh, scan) := earlier.foldl (fun (text, sh, scan) (n, offset, l) =>
    (text ++ shownLine s sh name scan '-' n offset l, { sh with shown := true },
      { scan with lastShown := some n })) (([] : Raw), sh, scan)
  (text ++ shownLine s sh name scan ':' scan.number scan.offset line, { sh with shown := true },
    { scan with lastShown := some scan.number, pending := s.after.getD 0 })

/-- Goes over one line; `scan` holds its number and place. -/
def line (s : Settings) (name : Raw) (sh : Shared) (scan : Scan) (text : Raw) :
    Raw × Shared × Scan :=
  let exhausted := s.most == some scan.count
  let selects := !exhausted && !(s.belowZero && s.invert) &&
    ((find s sh.patterns text).isSome != s.invert)
  if selects then
    let sh := { sh with selected := true }
    let scan := { scan with count := scan.count + 1 }
    if s.quiet then ([], { sh with stopped := true }, { scan with done := true })
    else if s.listing != .nothing then ([], sh, { scan with done := true })
    else if s.counts then ([], sh, { scan with done := s.most == some scan.count })
    else if scan.binary && !s.asText then
      ([], sh, { scan with done := true, hides := true })
    else
      let (shown, sh, scan) := selectedText s sh name scan text
      let last := s.most == some scan.count && scan.pending == 0
      (shown, sh, { scan with done := last })
  else if scan.pending > 0 && showsLines s then
    let shown := shownLine s sh name scan '-' scan.number scan.offset text
    let scan := { scan with lastShown := some scan.number, pending := scan.pending - 1 }
    (shown, { sh with shown := true }, { scan with done := exhausted && scan.pending == 0 })
  else ([], sh, { scan with done := exhausted })

/-- Goes over lines in turn. -/
def lines (s : Settings) (name : Raw) : List Raw → Shared → Scan → Raw × Shared × Scan
  | [], sh, scan => ([], sh, scan)
  | text :: rest, sh, scan =>
    if scan.done then ([], sh, scan)
    else
      let (shown, sh, scan) := line s name sh { scan with number := scan.number + 1 } text
      let scan := { scan with
        kept := (scan.number, scan.offset, text) :: scan.kept.take (s.before.getD 0)
        offset := scan.offset + text.length + 1 }
      let (more, sh, scan) := lines s name rest sh scan
      (shown ++ more, sh, scan)

/-- Writes, and notes if that fails. -/
def put (s : Settings) (sh : Shared) (text : Raw) : Act Shared := do
  match ← Act.write 1 text with
  | none => return sh
  | some e =>
    complain s.program ("write error: " ++ e.describe)
    return { sh with failed := true, stopped := true }

/-- Whether bytes show that a file is no text. -/
def isBinary (s : Settings) (text : Raw) : Bool := !s.zeroLines && text.contains (Char.ofNat 0)

/-- Zeros end lines of a file that is no text. -/
def withoutZeros (text : Raw) : Raw := text.map fun c => if c == Char.ofNat 0 then '\n' else c

def reportFile (s : Settings) (sh : Shared) (name : Raw) (e : CallError) : Act Shared := do
  if !s.tolerant then complain s.program (Raw.toString name ++ ": " ++ e.describe)
  return { sh with failed := true }

/-- Reads a file line by line; `held` is the line that is not complete yet. What cannot be read
ends it. -/
def scanFile (s : Settings) (name : Raw) (descriptor : Nat) :
    (steps : Nat) → (held : Raw) → Shared → Scan → Act (Shared × Scan)
  | 0, _, sh, scan => return (sh, scan)
  | steps + 1, held, sh, scan => do
    match ← Act.read descriptor Act.blockSize with
    | .error e => return (← reportFile s sh name e, scan)
    | .ok [] =>
      if held.isEmpty then return (sh, scan)
      let (shown, sh, scan) := lines s name [held] sh scan
      return (← put s sh shown, scan)
    | .ok block =>
      let scan := { scan with binary := scan.binary || isBinary s block }
      if scan.binary && s.skipsBinary && !s.asText then return (sh, { scan with done := true })
      let block := if scan.binary && !s.asText then withoutZeros block else block
      let pieces := Raw.splitOn (lineEnd s) (held ++ block)
      let (shown, sh, scan) := lines s name pieces.dropLast sh scan
      let sh ← put s sh shown
      if scan.done || sh.stopped then return (sh, scan)
      scanFile s name descriptor steps (pieces.getLast?.getD []) sh scan

/-- What is told about a file behind its lines. -/
def summary (s : Settings) (sh : Shared) (name : Raw) (scan : Scan) : Raw :=
  if s.quiet then []
  else
    let count := if s.counts && s.listing == .nothing then
        (if sh.withNames then nameAnd s name (painted s .mark [':']) else []) ++
          Raw.ofNat scan.count ++ ['\n']
      else []
    let listed := match s.listing with
      | .nothing => false
      | .matching => scan.count > 0
      | .others => scan.count == 0
    count ++ (if listed then nameAnd s name ['\n'] else [])

def inputDescriptor : Nat := 3

/-- The width of the numbers in a file: the greatest one fits by the size of the file. -/
def numberWidth (s : Settings) (descriptor : Nat) : Act Nat := do
  if !s.aligns then return 0
  match ← Act.ask (.examineOpen descriptor) with
  | .ok (.file size) => return (Raw.ofNat (if s.numbers then size + 1 else size)).length
  | _ => return 19

/-- Searches what a descriptor leads to. -/
def searchOpen (s : Settings) (sh : Shared) (name : Raw) (descriptor : Nat) : Act Shared := do
  if let .error e := ← Act.ask (.examineOpen descriptor) then return ← reportFile s sh name e
  let showsAll := showsLines s && (s.most.map fun m => decide (m > 1)).getD true
  if showsAll && (← Act.ask (.overlap descriptor 1)) then
    if !s.tolerant then
      complain s.program (Raw.toString name ++ ": input file is also the output")
    return { sh with failed := true }
  let width ← numberWidth s descriptor
  let (sh, scan) ← scanFile s name descriptor Act.manyBlocks [] sh { width }
  if scan.hides then complain s.program (Raw.toString name ++ ": binary file matches")
  put s { sh with shown := sh.shown || scan.hides } (summary s sh name scan)

/-- Whether a pattern fits a name. One from the arguments fits from any of its parts on. -/
def fitsName (isArgument : Bool) (pattern name : Raw) : Bool :=
  let parts := Raw.splitOn '/' name
  if isArgument then
    (List.range parts.length).any fun n =>
      Shell.Pattern.isMatch pattern (['/'].intercalate (parts.drop n))
  else Shell.Pattern.isMatch pattern (parts.getLast?.getD [])

/-- Whether a file is searched: the last pattern that fits its name says so, and if none does the
opposite of the first one holds. -/
def isWanted (s : Settings) (isArgument : Bool) (name : Raw) : Bool :=
  match s.rules.find? fun (pattern, _) => fitsName isArgument pattern name with
  | some (_, wanted) => wanted
  | none => ((s.rules.getLast?.map fun (_, wanted) => !wanted)).getD true

def isWantedDirectory (s : Settings) (isArgument : Bool) (name : Raw) : Bool :=
  !s.excludedDirectories.any fun pattern => fitsName isArgument pattern name

/-- Searches a file, if it is wanted once it is open. -/
def searchFile (s : Settings) (sh : Shared) (isArgument : Bool) (path name : Raw) : Act Shared :=
  Act.withFile inputDescriptor path .read (reportFile s sh name)
    (if isWanted s isArgument path then searchOpen s sh name inputDescriptor else pure sh)

/-- Searches what is below a directory, in the order of names. -/
def searchTree (s : Settings) : (steps : Nat) → (path name : Raw) → Shared → Act Shared
  | 0, _, _, sh => return sh
  | steps + 1, path, name, sh => do
    if sh.stopped then return sh
    match ← Act.ask (.entries path) with
    | .error e => reportFile s sh name e
    | .ok entries =>
      let slash (p : Raw) : Raw := if p.isEmpty || p.getLast? == some '/' then p else p ++ ['/']
      (entries.mergeSort Raw.le).foldlM (fun sh entry => do
        match ← Act.ask (.examine (slash path ++ entry)) with
        | .ok .directory =>
          if isWantedDirectory s false entry then
            searchTree s steps (slash path ++ entry) (slash name ++ entry) sh
          else return sh
        | _ => searchFile s sh false (slash path ++ entry) (slash name ++ entry)) sh

/-- Searches one of the arguments. -/
def search (s : Settings) (sh : Shared) (name : Raw) : Act Shared := do
  if sh.stopped then return sh
  if name == ['-'] then searchOpen s sh s.label 0
  else
    match ← Act.ask (.examine name) with
    | .ok .directory =>
      if s.skipsDirectories || !isWantedDirectory s true name then return sh
      else if s.recursive then searchTree s Act.manyBlocks name name sh
      else
        let sh ← reportFile s sh name (.file .isDirectory)
        put s sh (summary s sh name {})
    | _ => searchFile s sh true name name

/-! The arguments. -/

/-- A number of lines around selected ones. -/
def contextLength (text : Raw) : Option Nat :=
  if !text.isEmpty && text.all Char.isDigit then some (Raw.digitsValue 10 text) else none

/-- What is wrong with an option: a message, lines below it, and how it ends. -/
structure Fault where
  text : String
  more : List String := []
  status : Nat := 2

instance : Coe String Fault := ⟨fun text => { text }⟩

/-- The lines that say how the program is used. -/
def usageLines (program : Raw) : List String :=
  let name := (Raw.splitOn '/' program).getLast?.getD []
  ["Usage: " ++ Raw.toString name ++ " [OPTION]... PATTERNS [FILE]...", usageHint name]

/-- What is done with directories; the word may be cut short. -/
def directories (s : Settings) (value : Raw) : Except Fault Settings :=
  let words := ["read", "recurse", "skip"]
  let found := match words.filter fun w => w.toList == value with
    | [] => words.filter fun w => value.isPrefixOf w.toList
    | equal => equal
  match found with
  | ["read"] => .ok s
  | ["skip"] => .ok { s with skipsDirectories := true }
  | ["recurse"] => .ok { s with recursive := true }
  | _ =>
    .error {
      text := (if found.isEmpty then "invalid" else "ambiguous") ++ " argument " ++
        Text.Quotation.quoted value ++ " for '--directories'"
      more := "Valid arguments are:" :: words.map (fun w => "  - '" ++ w ++ "'") ++
        usageLines s.program
      status := 1 }

/-- Adds an option to the settings. -/
def add (s : Settings) (o : GivenOption) : Except Fault Settings :=
  let value := o.argument.getD []
  let length : Except Fault (Option Nat) :=
    match contextLength value with
    | some n => .ok (some n)
    | none => .error (Raw.toString value ++ ": invalid context length argument")
  let dialect (c : Char) : Except Fault Settings :=
    if s.dialect.any (· != c) then .error "conflicting matchers specified"
    else .ok { s with dialect := some c }
  match o.name with
  | "E" => dialect 'E'
  | "F" => dialect 'F'
  | "P" => dialect 'P'
  | "G" => dialect 'G'
  | "H" => .ok { s with names := some true }
  | "h" => .ok { s with names := some false }
  | "I" => .ok { s with skipsBinary := true, asText := false }
  | "L" => .ok { s with listing := .others }
  | "l" => .ok { s with listing := .matching }
  | "R" | "r" => .ok { s with recursive := true }
  | "Z" => .ok { s with zeroNames := true }
  | "z" => .ok { s with zeroLines := true }
  | "T" => .ok { s with aligns := true }
  | "a" => .ok { s with asText := true, skipsBinary := false }
  | "b" => .ok { s with offsets := true }
  | "c" => .ok { s with counts := true }
  | "i" | "y" => .ok { s with fold := true }
  | "no-ignore-case" => .ok { s with fold := false }
  | "n" => .ok { s with numbers := true }
  | "o" => .ok { s with only := true }
  | "q" => .ok { s with quiet := true }
  | "s" => .ok { s with tolerant := true }
  | "v" => .ok { s with invert := true }
  | "w" => .ok { s with words := true }
  | "x" => .ok { s with wholeLines := true }
  | "A" => length.map fun n => { s with after := n }
  | "B" => length.map fun n => { s with before := n }
  | "C" => length.map fun n => { s with around := n }
  | "m" =>
    let (belowZero, digits) := match value with
      | '-' :: digits => (true, digits)
      | digits => (false, digits)
    match contextLength digits with
    | some n =>
      if belowZero && n != 0 then .ok { s with most := none, belowZero := true }
      else .ok { s with most := some n, belowZero := false }
    | none => .error "invalid max count"
  | "d" => directories s value
  | "D" =>
    if value == "read".toList || value == "skip".toList then .ok s
    else .error "unknown devices method"
  | "binary-files" =>
    match Raw.toString value with
    | "binary" => .ok { s with asText := false, skipsBinary := false }
    | "text" => .ok { s with asText := true, skipsBinary := false }
    | "without-match" => .ok { s with skipsBinary := true, asText := false }
    | _ => .error "unknown binary-files type"
  | "label" => .ok { s with label := value }
  | "include" => .ok { s with rules := (value, true) :: s.rules }
  | "exclude" => .ok { s with rules := (value, false) :: s.rules }
  | "exclude-dir" =>
    let trimmed := (value.reverse.dropWhile (· == '/')).reverse
    .ok { s with excludedDirectories := trimmed :: s.excludedDirectories }
  | "color" => .ok { s with colors := ["always", "yes", "force"].contains (Raw.toString value) }
  | "no-group-separator" => .ok { s with separator := none }
  | "group-separator" => .ok { s with separator := some value }
  | _ => .ok s

/-- Digits among the options spell a number of lines around selected ones. -/
def addDigit (s : Settings) (c : Char) : Settings :=
  let digits := s.digits ++ [c]
  { s with digits, around := some (Raw.digitsValue 10 digits) }

/-- The contents of a file that an option names. -/
def optionFile (s : Settings) (name : Raw) : Act (Option Raw) := do
  let failed (e : CallError) : Act (Option Raw) := do
    complain s.program (Raw.toString name ++ ": " ++ e.describe)
    return none
  let all (descriptor : Nat) : Act (Option Raw) := do
    match ← Act.contents descriptor with
    | .ok text => return some text
    | .error e => failed e
  if name == ['-'] then all 0
  else Act.withFile inputDescriptor name .read failed (all inputDescriptor)

/-- The names that the lines of a file hold, without blanks behind them. -/
def namesIn (text : Raw) : List Raw :=
  (Raw.lines text).filterMap fun line =>
    match (line.reverse.dropWhile Raw.isSpace).reverse with
    | [] => none
    | name => some name

/-- Follows the options in turn, with the patterns that they give; `error` holds how a fault in
one of them ends the program. -/
def follow (s : Settings) (patterns : List Raw) :
    List GivenOption → Act (Except Nat (Settings × List Raw))
  | [] => return .ok (s, patterns)
  | o :: rest => do
    let value := o.argument.getD []
    match o.name.toList with
    | [c] => if c.isDigit then return ← follow (addDigit s c) patterns rest
    | _ => pure ()
    let s := { s with digits := [] }
    match o.name with
    | "e" => follow s (patterns ++ Raw.splitOn '\n' value) rest
    | "f" =>
      match ← optionFile s value with
      | some text => follow s (patterns ++ Raw.lines text) rest
      | none => return .error 2
    | "u" =>
      complain s.program "warning: --unix-byte-offsets (-u) is obsolete"
      follow s patterns rest
    | "exclude-from" =>
      match ← optionFile s value with
      | some text =>
        follow { s with rules := (namesIn text).reverse.map (·, false) ++ s.rules } patterns rest
      | none => return .error 2
    | _ =>
      match add s o with
      | .ok s => follow s patterns rest
      | .error fault =>
        complain s.program fault.text
        fault.more.forM Act.complain
        return .error fault.status

/-- How patterns are written that are no plain texts. -/
def patternDialect (s : Settings) : Regex.Dialect :=
  match s.dialect with
  | some 'P' => .perl
  | some 'E' => .extended
  | _ => .basic

/-- Reads a pattern. -/
def compile (s : Settings) (text : Raw) : Except Regex.PatternError (Regex × List Regex.Note) :=
  if s.dialect == some 'F' then
    .ok (text.foldr (fun c r => .sequence (.literal c) r) .empty, [])
  else Regex.Parser.whole (patternDialect s) text

def usage (program : Raw) : Act Nat := do
  (usageLines program).forM Act.complain
  return 2

/-- Searches files for patterns that have been read. -/
def searchAll (s : Settings) (patterns : List Regex) (files : List Raw) : Act Nat := do
  let (files, implied) := if files.isEmpty then
      if s.recursive then ([['.']], true) else ([['-']], false)
    else (files, false)
  let several ← if files.length > 1 then pure true
    else if s.recursive then
      match files with
      | [name] => do pure ((← Act.ask (.examine name)).toOption == some .directory)
      | _ => pure true
    else pure false
  let sh : Shared := { patterns, withNames := s.names.getD several }
  let sh ← if implied then searchTree s Act.manyBlocks ['.'] [] sh
    else files.foldlM (search s) sh
  return if sh.failed && !(s.quiet && sh.selected) then 2 else if sh.selected then 0 else 1

/-- Tells the notes on patterns up to one that refuses them; says whether there is none. -/
def tellNotes (s : Settings) : List Regex.Note → Act Bool
  | [] => return true
  | note :: rest => do
    complain s.program (note.message (patternDialect s))
    if note.refuses then return false else tellNotes s rest

/-- Whether it is clear before any file is read that nothing is selected. -/
def selectsNothing (s : Settings) (texts : List Raw) : Bool :=
  s.listing != .others &&
    (s.most == some 0 || (if s.invert then texts == [[]] && !s.wholeLines && !s.words
      else texts.isEmpty))

/-- Reads the patterns and searches the files. -/
def start (s : Settings) (texts files : List Raw) : Act Nat := do
  let texts := texts.eraseDups
  if selectsNothing s texts then return 1
  if s.dialect == some 'P' && texts.length > 1 then
    complain s.program "the -P option only supports a single pattern"
    return 2
  let read := texts.map (compile s)
  let faults := read.filterMap fun r => match r with
    | .error e => some e
    | .ok _ => none
  if !faults.isEmpty then
    faults.forM fun e => complain s.program (e.message (patternDialect s))
    return 2
  let patterns := read.filterMap Except.toOption
  if !(← tellNotes s (patterns.flatMap (·.2))) then return 2
  searchAll s (patterns.map (·.1)) files

def run (program : Raw) (args : List Raw) : Act Nat := do
  let given := table.read args
  match ← follow { program } [] given.options with
  | .error status => return status
  | .ok (s, patterns) =>
    let s := { s with
      after := s.after <|> s.around
      before := s.before <|> s.around
      listing := if s.quiet then .nothing else s.listing }
    match given.fault with
    | some text =>
      complain program text
      usage program
    | none =>
      if isGiven given.options "e" || isGiven given.options "f" then
        start s patterns given.operands
      else
        match given.operands with
        | [] => usage program
        | text :: files => start s (Raw.splitOn '\n' text) files

end LedgerConformance.Program.Grep
