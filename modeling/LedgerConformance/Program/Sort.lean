import LedgerConformance.Program.Options
import LedgerConformance.Program.Sort.Key

/-!
The program that sorts lines, merges files that are sorted, and checks whether one is.
-/

namespace LedgerConformance.Program.Sort

def table : OptionTable where
  letters := "bcCdfghimMnrRsuVz".toList.map (fun c => (c, .none)) ++
    "koStTy".toList.map fun c => (c, .required)
  words := [
    ("ignore-leading-blanks", .none, "b"), ("check", .optional, "check"),
    ("compress-program", .required, "compress-program"), ("debug", .none, "debug"),
    ("dictionary-order", .none, "d"), ("ignore-case", .none, "f"),
    ("files0-from", .required, "files0-from"), ("general-numeric-sort", .none, "g"),
    ("ignore-nonprinting", .none, "i"), ("key", .required, "k"), ("merge", .none, "m"),
    ("month-sort", .none, "M"), ("numeric-sort", .none, "n"),
    ("human-numeric-sort", .none, "h"), ("version-sort", .none, "V"),
    ("random-sort", .none, "R"), ("random-source", .required, "random-source"),
    ("sort", .required, "sort"), ("output", .required, "o"), ("reverse", .none, "r"),
    ("stable", .none, "s"), ("batch-size", .required, "batch-size"),
    ("buffer-size", .required, "buffer-size"), ("field-separator", .required, "t"),
    ("temporary-directory", .required, "T"), ("unique", .none, "u"),
    ("zero-terminated", .none, "z"), ("parallel", .required, "parallel"),
    ("help", .none, "help"), ("version", .none, "version")]

/-- What is wrong with the arguments: a message, lines below it, and how it ends. -/
structure Fault where
  text : String
  more : List String := []
  status : Nat := 2

def fault {α : Type} (text : String) : Except Fault α := .error { text }

structure Settings where
  /-- The order of lines, and of keys that have none of their own. -/
  order : Key := {}
  keys : List Key := []
  separator : Option Char := none
  check : Option Char := none
  output : Option Raw := none
  compressor : Option Raw := none
  merges : Bool := false
  stable : Bool := false
  unique : Bool := false
  zeros : Bool := false
  /-- A file with the names of the files. -/
  names : Option Raw := none
  files : List Raw := []

open Text.Quotation

/-! Keys as texts. -/

/-- A number at the front of a text, and what is left. -/
def readCount (text : Raw) : Option (Nat × Raw) :=
  let digits := match text.dropWhile Raw.isSpace with
    | '+' :: rest => rest
    | rest => rest
  match digits.takeWhile Char.isDigit with
  | [] => none
  | all => some (Raw.digitsValue 10 all, digits.drop all.length)

/-- A number that has to be there. -/
def count (what : String) (text : Raw) : Except Fault (Nat × Raw) :=
  match readCount text with
  | some found => .ok found
  | none => fault (what ++ ": invalid count at start of " ++ quoted text)

def badKey {α : Type} (what : String) (spec : Raw) : Except Fault α :=
  fault (what ++ ": invalid field specification " ++ quoted spec)

/-- A number that is counted from one, as one that is counted from zero. -/
def fromOne (what : String) (spec : Raw) : Nat → Except Fault Nat
  | 0 => badKey what spec
  | n + 1 => .ok n

/-- A number of characters behind a point, if there is a point. -/
def charCount (text : Raw) : Except Fault (Option Nat × Raw) :=
  match text with
  | '.' :: rest => (count "invalid number after '.'" rest).map fun (n, rest) => (some n, rest)
  | text => .ok (none, text)

/-- A key: where it begins, and behind a comma where it ends. -/
def readKey (spec : Raw) : Except Fault Key := do
  let (field, rest) ← count "invalid number at field start" spec
  let field ← fromOne "field number is zero" spec field
  let (char, rest) ← charCount rest
  let char ← match char with
    | some n => fromOne "character offset is zero" spec n
    | none => pure 0
  let (key, rest) := Key.addLetters true false rest { startField := field, startChar := char }
  let (key, rest) ← match rest with
    | ',' :: rest =>
      let (field, rest) ← count "invalid number after ','" rest
      let field ← fromOne "field number is zero" spec field
      let (char, rest) ← charCount rest
      pure (Key.addLetters false true rest { key with limit := some (field, char.getD 0) })
    | rest => pure (key, rest)
  if rest.isEmpty then return key else badKey "stray character in field spec" spec

/-- The start of a key in the old form, counted from zero behind a plus sign. -/
def readOldStart (text : Raw) : Option Key := do
  let (field, rest) ← readCount text
  let (char, rest) ← match rest with
    | '.' :: rest => readCount rest
    | rest => some (0, rest)
  let (key, rest) := Key.addLetters true false rest { startField := field, startChar := char }
  if rest.isEmpty then return key else none

/-- The end of such a key behind a hyphen. -/
def readOldEnd (key : Key) (spec : Raw) : Except Fault Key := do
  let (field, rest) ← count "invalid number after '-'" (spec.drop 1)
  let (char, rest) ← charCount rest
  let char := char.getD 0
  let field := if char == 0 then field - 1 else field
  let (key, rest) := Key.addLetters false true rest { key with limit := some (field, char) }
  if rest.isEmpty then return key else badKey "stray character in field spec" spec

/-! The arguments. -/

def hint (program : Raw) : String := usageHint program

/-- The meaning of a word that may be cut short, of some that are allowed. -/
def choose (program : Raw) (option : String) (words : List (String × Char)) (text : Raw) :
    Except Fault Char :=
  let found : List (String × Char) := match words.filter fun w => w.1.toList == text with
    | [] => words.filter fun w => text.isPrefixOf w.1.toList
    | equal => equal
  match (found.map (·.2)).eraseDups with
  | [c] => .ok c
  | all =>
    let sort := if all.isEmpty then "invalid" else "ambiguous"
    let meanings := (words.map (·.2)).eraseDups
    let listed := meanings.map fun m =>
      "  - " ++ ", ".intercalate ((words.filter (·.2 == m)).map fun w => "'" ++ w.1 ++ "'")
    .error {
      text := sort ++ " argument " ++ quoted text ++ " for '" ++ option ++ "'"
      more := "Valid arguments are:" :: listed ++ [hint program]
      status := 1 }

/-- A number of an option, of which letters may follow. -/
def checkNumber (option : String) (units : String) (text : Raw) : Except Fault Nat :=
  match readCount text with
  | none => fault ("invalid " ++ option ++ " argument " ++ quoted text)
  | some (n, rest) =>
    if rest.isEmpty || (rest.length == 1 && rest.all units.toList.contains) then
      if n < 18446744073709551616 then .ok n
      else fault (option ++ " argument " ++ quoted text ++ " too large")
    else fault ("invalid suffix in " ++ option ++ " argument " ++ quoted text)

def bufferUnits : String := "bEgGkKmMPQRtTYZ%"

/-- Adds an option to the settings. -/
def add (program : Raw) (s : Settings) (o : GivenOption) : Except Fault Settings := do
  let value := o.argument.getD []
  let orderBy (c : Char) : Settings :=
    { s with order := (s.order.addLetter true true c).getD s.order }
  let checkBy (c : Char) : Except Fault Settings :=
    if s.check.isSome && s.check != some c then fault "options '-cC' are incompatible"
    else .ok { s with check := some c }
  match o.name with
  | "sort" =>
    return orderBy (← choose program "--sort" [("general-numeric", 'g'), ("human-numeric", 'h'),
      ("month", 'M'), ("numeric", 'n'), ("random", 'R'), ("version", 'V')] value)
  | "check" =>
    match o.argument with
    | none => checkBy 'c'
    | some value =>
      checkBy (← choose program "--check"
        [("quiet", 'C'), ("silent", 'C'), ("diagnose-first", 'c')] value)
  | "c" => checkBy 'c'
  | "C" => checkBy 'C'
  | "compress-program" =>
    if s.compressor.isSome && s.compressor != some value then
      fault "multiple compress programs specified"
    else return { s with compressor := some value }
  | "files0-from" => return { s with names := some value }
  | "k" =>
    let key ← readKey value
    return { s with keys := s.keys ++ [key] }
  | "m" => return { s with merges := true }
  | "o" =>
    if s.output.isSome && s.output != some value then fault "multiple output files specified"
    else return { s with output := some value }
  | "s" => return { s with stable := true }
  | "S" =>
    let _ ← checkNumber "-S" bufferUnits value
    return s
  | "buffer-size" =>
    let _ ← checkNumber "--buffer-size" bufferUnits value
    return s
  | "t" =>
    let separator ← match value with
      | [] => fault "empty tab"
      | [c] => pure c
      | ['\\', '0'] => pure (Char.ofNat 0)
      | _ => fault ("multi-character tab " ++ quoted value)
    if s.separator.isSome && s.separator != some separator then fault "incompatible tabs"
    else return { s with separator := some separator }
  | "u" => return { s with unique := true }
  | "z" => return { s with zeros := true }
  | "batch-size" =>
    let n ← checkNumber "--batch-size" "" value
    if n < 2 then
      .error {
        text := "invalid --batch-size argument " ++ quoted value
        more := [Raw.toString program ++ ": minimum --batch-size argument is '2'"] }
    else return s
  | "parallel" =>
    let n ← checkNumber "--parallel" "" value
    if n == 0 then fault "number in parallel must be nonzero" else return s
  | name =>
    match name.toList with
    | [c] => return orderBy c
    | _ => return s

/-- Reads arguments in turn: keys in the old form may stand among the files. -/
def readArguments (program : Raw) : (steps : Nat) → List Raw → Settings → Except Fault Settings
  | 0, _, s => .ok s
  | steps + 1, args, s => do
    let isOldEnd (text : Raw) : Bool :=
      match text with
      | '-' :: c :: _ => c.isDigit
      | _ => false
    let old := match args with
      | ('+' :: text) :: rest => (readOldStart text).map fun key => (key, rest)
      | _ => none
    match args, old with
    | [], _ => return s
    | _, some (key, rest) =>
      let (key, rest) ← match rest with
        | spec :: rest' =>
          if isOldEnd spec then (readOldEnd key spec).map fun key => (key, rest')
          else pure (key, rest)
        | [] => pure (key, [])
      readArguments program steps rest { s with keys := s.keys ++ [key] }
    | args, none =>
      let (given, rest) := table.next args
      let s ← given.options.foldlM (add program) s
      match given.fault with
      | some text => .error { text, more := [hint program] }
      | none => readArguments program steps rest { s with files := s.files ++ given.operands }

/-- The order that the settings ask for. -/
def Settings.lineOrder (s : Settings) : Order :=
  let keys := s.keys.map fun k =>
    if k.isPlain && !k.reversed then k.withOrderOf s.order else k
  let keys := if keys.isEmpty && !s.order.isPlain then [s.order] else keys
  { keys
    separator := s.separator
    stable := s.stable
    unique := s.unique
    reversed := s.order.reversed }

/-- What is wrong with the settings as a whole. -/
def Settings.validate (s : Settings) : Except Fault Unit := do
  match s.lineOrder.keys.findSome? Key.conflict? with
  | some letters => fault ("options '-" ++ letters ++ "' are incompatible")
  | none => pure ()
  match s.check with
  | none => pure ()
  | some c =>
    let letter := String.ofList [c]
    match s.files with
    | _ :: second :: _ =>
      fault ("extra operand " ++ Raw.toString (always second) ++ " not allowed with -" ++ letter)
    | _ => if s.output.isSome then fault ("options '-" ++ letter ++ "o' are incompatible")

/-! Reading and writing. -/

/-- Ends the program with a fault of a file. -/
def failWith {α : Type} (program : Raw) (what : String) (name : Raw) (e : CallError) : Act α := do
  complain program (what ++ ": " ++ fileName name ++ ": " ++ e.describe)
  Act.exit 2

def inputDescriptor : Nat := 3

def lineEnd (s : Settings) : Char := if s.zeros then Char.ofNat 0 else '\n'

/-- The lines of a text; the last one need not be closed. -/
def linesOf (s : Settings) (text : Raw) : List Raw :=
  let pieces := Raw.splitOn (lineEnd s) text
  if pieces.getLast? == some [] then pieces.dropLast else pieces

/-- All of a file. -/
def contentsOf (program name : Raw) : Act Raw := do
  let all (descriptor : Nat) : Act Raw := do
    match ← Act.contents descriptor with
    | .ok text => return text
    | .error .badDescriptor => failWith program "stat failed" name .badDescriptor
    | .error e => failWith program "read failed" name e
  if name == ['-'] then all 0
  else
    Act.withFile inputDescriptor name .read (failWith program "open failed" name)
      (all inputDescriptor)

/-- The names of files that a file holds, each closed by a zero. -/
def namesFrom (program : Raw) (source : Raw) : Act (List Raw) := do
  let text ← contentsOf program source
  let zero := Char.ofNat 0
  let pieces := Raw.splitOn zero text
  let names := if pieces.getLast? == some [] then pieces.dropLast else pieces
  let stop (text : String) : Act (List Raw) := do
    complain program text
    Act.exit 2
  if names.isEmpty then stop ("no input from " ++ Raw.toString (always source))
  else if source == ['-'] && names.contains ['-'] then
    stop "when reading file names from stdin, no file name of '-' allowed"
  else
    match names.findIdx? List.isEmpty with
    | some i =>
      stop (fileName source ++ ":" ++ toString (i + 1) ++ ": invalid zero-length file name")
    | none => return names

/-- Ends the program if one of the files cannot be read. -/
def checkFiles (program : Raw) (files : List Raw) : Act Unit :=
  files.forM fun name => do
    if name != ['-'] then
      match ← Act.ask (.examine name) with
      | .error e => failWith program "cannot read" name e
      | .ok _ => pure ()

/-- Writes lines to the output, which has been emptied. -/
def writeLines (program : Raw) (s : Settings) (lines : List Raw) : Act Nat := do
  match ← Act.write 1 (lines.flatMap fun l => l ++ [lineEnd s]) with
  | none => return 0
  | some e =>
    let name := (s.output.map fileName).getD "'standard output'"
    complain program ("fflush failed: " ++ name ++ ": " ++ e.describe)
    complain program "write error"
    return 2

/-- Looks for lines that are out of order. -/
def checkOrder (program : Raw) (s : Settings) (letter : Char) (name : Raw) : Act Nat := do
  let text ← contentsOf program name
  match s.lineOrder.disorder? 1 (linesOf s text) with
  | none => return 0
  | some (number, line) =>
    if letter == 'c' then
      let _ ← Act.write 2 (program ++ ": ".toList ++ name ++ ":".toList ++ Raw.ofNat number ++
        ": disorder: ".toList ++ line ++ [lineEnd s])
    return 1

/-- Opens the output, which is there before anything is read and emptied behind that. -/
def openOutput (program : Raw) (s : Settings) (access : Access) : Act Unit := do
  match s.output with
  | none => pure ()
  | some name =>
    match ← Act.ask (.open 1 name access) with
    | some e => failWith program "open failed" name e
    | none => pure ()

def perform (program : Raw) (s : Settings) : Act Nat := do
  let files := if s.files.isEmpty then [['-']] else s.files
  match s.check with
  | some letter => checkOrder program s letter (files.headD ['-'])
  | none =>
    checkFiles program files
    openOutput program s { writes := true, creates := true }
    let texts ← files.mapM fun name => (linesOf s) <$> contentsOf program name
    openOutput program s .write
    let order := s.lineOrder
    writeLines program s (if s.merges then order.merge texts else order.sort texts.flatten)

def run (program : Raw) (args : List Raw) : Act Nat := do
  let stop (f : Fault) : Act Nat := do
    complain program f.text
    f.more.forM Act.complain
    return f.status
  match readArguments program (args.length + 1) args {} with
  | .error f => stop f
  | .ok s =>
    let s ← match s.names, s.files with
      | some _, name :: _ => do
        let _ ← stop {
          text := "extra operand " ++ Raw.toString (always name)
          more := ["file operands cannot be combined with --files0-from", hint program] }
        Act.exit 2
      | some source, [] => do pure { s with files := ← namesFrom program source }
      | none, _ => pure s
    match s.validate with
    | .error f => stop f
    | .ok () => perform program s

end LedgerConformance.Program.Sort
