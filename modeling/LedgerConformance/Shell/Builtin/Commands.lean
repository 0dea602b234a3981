import LedgerConformance.Shell.Lookup

/-!
Commands about commands: aliases, what names stand for, and scripts inside scripts.
-/

namespace LedgerConformance.Shell.Builtin

variable (k : Interpreter)

/-- The place of an alias among others. -/
def aliasOrder (name : Raw) : Nat :=
  name.foldl (fun n c => n + c.toNat) ((name.headD ' ').toNat * 16) % 39

def aliasText (name value : Raw) : Raw := name ++ '=' :: quote value

def setAliases (args : List Raw) : Sh Nat := do
  match args with
  | [] =>
    let all := (← get).aliases.mergeSort fun a b => aliasOrder a.1 ≤ aliasOrder b.1
    all.forM fun (name, value) => Sh.put (aliasText name value ++ ['\n'])
    return 0
  | args =>
    let results ← args.mapM fun arg => do
      -- The sign that divides name and value is not the first character.
      let rest := arg.drop 1
      let name := arg.take 1 ++ rest.takeWhile (· != '=')
      match arg.drop name.length with
      | _ :: value =>
        modify fun s =>
          if s.aliases.any (·.1 == name) then
            { s with aliases := s.aliases.map fun a => if a.1 == name then (name, value) else a }
          else { s with aliases := s.aliases ++ [(name, value)] }
        pure true
      | [] =>
        match (← get).aliases.lookup name with
        | some value =>
          Sh.put (aliasText name value ++ ['\n'])
          pure true
        | none =>
          complain ("alias: ".toList ++ name ++ " not found".toList)
          pure false
    return if results.all id then 0 else 1

def unalias (args : List Raw) : Sh Nat := do
  let (found, args) ← options "a" args
  if !found.isEmpty then
    modify fun s => { s with aliases := [] }
    return 0
  let results ← args.mapM fun name => do
    if (← get).aliases.any (·.1 == name) then
      modify fun s => { s with aliases := s.aliases.filter (·.1 != name) }
      pure true
    else
      complain ("unalias: ".toList ++ name ++ " not found".toList)
      pure false
  return if results.all id then 0 else 1

/-- Notes that the place of a program is known. -/
def remember (name : Raw) : Sh Unit := do
  if !name.contains '/' then
    modify fun s => s.noteLocated name

/-- The order in which known places are shown. -/
def placeOrder (name : Raw) : Nat :=
  let first := (name.head?.map Char.toNat).getD 0
  (name.foldl (fun n c => n + c.toNat) (16 * first) % 32768) % 31

/-- Says what a name stands for, at length or such that it can be used. -/
def describe (path name : Raw) (verbose : Bool) : Sh Nat := do
  let s ← get
  let tell (long short : Raw) : Sh Nat := do
    Sh.put ((if verbose then name ++ long else short) ++ ['\n'])
    return 0
  if Parser.reservedWords.contains (String.ofList name) then
    return ← tell " is a shell keyword".toList name
  if let some value := s.aliases.lookup name then
    return ← tell (" is an alias for ".toList ++ value)
      ("alias ".toList ++ aliasText name value)
  match ← Sh.locate path name true with
  | .function _ => tell " is a shell function".toList name
  | .builtin =>
    tell (" is a ".toList ++ (if isSpecialCommand name then "special " else "").toList ++
      "shell builtin".toList) name
  | .program found =>
    match ← Sh.ask (.examine found) with
    | .ok _ =>
      let tracked := s.located.contains name
      if path == (← Sh.searchPath) then remember name
      tell ((if tracked then " is a tracked alias for " else " is ").toList ++ found) found
    | .error _ =>
      if verbose then Sh.put (name ++ ": not found\n".toList)
      return 127
  | .missing _ =>
    if verbose then Sh.put (name ++ ": not found\n".toList)
    return 127

def type (args : List Raw) : Sh Nat := do
  let path ← Sh.searchPath
  let results ← args.mapM fun name => describe path name true
  return results.foldl (· ||| ·) 0

/-- Describes a command; running one has been taken care of before. -/
def command (args : List Raw) : Sh Nat := do
  let (found, args) ← options "pvV" args
  let path ← if found.any (·.1 == 'p') then pure Sh.defaultPath else Sh.searchPath
  match (found.filter (·.1 != 'p')).getLast?, args with
  | some (c, _), name :: _ => describe path name (c == 'V')
  | _, _ => return 0

/-- Notes where programs are. -/
def hash (args : List Raw) : Sh Nat := do
  let (found, args) ← options "rv" args
  if found.any (·.1 == 'r') then
    modify fun s => { s with located := [] }
    return 0
  let path ← Sh.searchPath
  if args.isEmpty then
    let known := (← get).located.mergeSort fun a b => placeOrder a ≤ placeOrder b
    known.forM fun name => do
      match ← Sh.search path name with
      | .ok found => Sh.put (found ++ ['\n'])
      | .error _ => pure ()
    return 0
  let results ← args.mapM fun name => do
    match ← Sh.locate path name true with
    | .missing reason =>
      Sh.warn (name ++ ": ".toList ++ reason)
      pure 1
    | .program _ =>
      remember name
      pure 0
    | _ => pure 0
  return results.foldl max 0

/-- Carries out its arguments as a script. -/
def eval (setting : Setting) (args : List Raw) : Sh Nat := do
  if args.isEmpty then return 0
  Sh.evaluateText k (args.intersperse [' ']).flatten { tested := setting.tested }
  return (← get).status

/-- The file of a script: one without a slash is looked for. -/
def scriptFile (name : Raw) : Sh Raw := do
  if name.contains '/' then return name
  match ← Sh.search (← Sh.searchPath) name with
  | .ok found => return found
  | .error _ => Sh.fail (name ++ ": not found".toList)

/-- The private descriptor through which scripts are read. -/
def scriptDescriptor : Nat := 63

/-- The content of a script. -/
def scriptText (path : Raw) : Sh Raw := do
  match ← Sh.ask (.open scriptDescriptor path .read) with
  | some e =>
    let reason := if Sh.isMissing e then "No such file".toList else Raw.ofString e.describe
    Sh.fail ("cannot open ".toList ++ path ++ ": ".toList ++ reason)
  | none =>
    let text ← Sh.act (Act.contents scriptDescriptor)
    Sh.ask (.close scriptDescriptor)
    return text.toOption.getD []

/-- Carries out a file as part of this script. -/
def dot (args : List Raw) : Sh Nat := do
  let (_, args) ← options "" args
  match args with
  | [] => return 0
  | name :: _ =>
    let path ← scriptFile name
    let text ← scriptText path
    modify fun s => { s with command := some path }
    Sh.evaluateAll k { rest := text } {} true
    modify fun s => if s.skip == .return then { s with skip := .nothing } else s
    return (← get).status

/-- Puts a program in the place of the shell; without one nothing happens. -/
def exec (args : List Raw) : Sh Nat := do
  if args.isEmpty then return 0
  Sh.become (← Sh.searchPath) args

/-- Runs a command of the shell. -/
def run (setting : Setting) (name : Raw) (args : List Raw) : Sh Nat := do
  match String.ofList name with
  | "." => dot k args
  | ":" | "true" => return 0
  | "false" => return 1
  | "[" => Test.run true args
  | "test" => Test.run false args
  | "alias" => setAliases args
  | "unalias" => unalias args
  | "bg" | "fg" => moveJob args
  | "break" => leaveLoops .break args
  | "continue" => leaveLoops .continue args
  | "cd" | "chdir" => changeDirectory args
  | "command" => command args
  | "echo" => echo args
  | "eval" => eval k setting args
  | "exec" => exec args
  | "exit" => exitScript args
  | "export" => mark true args
  | "readonly" => mark false args
  | "getopts" => getopts args
  | "hash" => hash args
  | "jobs" => jobs args
  | "kill" => kill args
  | "local" => localVariables args
  | "printf" => Printf.run args
  | "pwd" => showDirectory args
  | "read" => readFields args
  | "return" => returnFrom args
  | "set" => setOptions args
  | "shift" => shiftParameters args
  | "times" => times
  | "trap" => trap args
  | "type" => type args
  | "ulimit" => limits args
  | "umask" => mask args
  | "unset" => unsetNames args
  | "wait" => wait args
  | _ => return 127

end LedgerConformance.Shell.Builtin
