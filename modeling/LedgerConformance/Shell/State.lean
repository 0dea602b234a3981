import LedgerConformance.Process.Signal
import LedgerConformance.Process.Task
import LedgerConformance.Shell.Parser

/-!
The state of a shell, and the monad in which scripts are carried out: requests to
the system, the state, and the ways in which a script breaks off.
-/

namespace LedgerConformance.Shell

structure Variable where
  value : Option Raw
  exported : Bool := false
  readonly : Bool := false

/-- What is passed over until a loop or function ends. -/
inductive Skip where
  | nothing
  | break
  | continue
  | return
deriving DecidableEq, Repr

/-- How a script breaks off. -/
inductive Escape where
  /-- A fault, which has been told. -/
  | fault
  /-- The script asks for its end. -/
  | exit
  /-- Nothing is left to be done. -/
  | finish
deriving DecidableEq, Repr

/-- Processes that were started together, the last one first. -/
structure Job where
  processes : List (Nat × Option Ending)
  /-- The script has heard of its end. -/
  told : Bool := false

/-- What a shell knows while it carries out a script. -/
structure Session where
  name : Raw
  parameters : List Raw := []
  bindings : List (Raw × Variable) := []
  /-- The variables that functions and commands hide, the innermost first. -/
  hidden : List (List (Raw × Option Variable)) := []
  functions : List (Raw × Command) := []
  aliases : List (Raw × Raw) := []
  /-- The letters of the options that are set. -/
  options : List Char := []
  /-- The options without letters that are set. -/
  longOptions : List String := []
  status : Nat := 0
  /-- The status of the last command whose output was inserted. -/
  insertedStatus : Nat := 0
  /-- The status that a trap began with. -/
  savedStatus : Option Nat := none
  skip : Skip := .nothing
  skipCount : Nat := 0
  loops : Nat := 0
  /-- How many functions are being carried out. -/
  calls : Nat := 0
  faultLine : Nat := 1
  /-- How far the script has been read. -/
  readLine : Nat := 1
  /-- The command that messages name. -/
  command : Option Raw := none
  traps : List (Nat × Raw) := []
  /-- The numbers of the first shell and of the last background command. -/
  number : Nat := 0
  background : Nat := 0
  jobs : List (Nat × Job) := []
  /-- How deep this shell is below the first one. -/
  level : Nat := 0
  /-- Output that has not been written yet, the latest first. -/
  pending : List Raw := []
  /-- Texts that stand below commands. -/
  documents : List (Nat × Word) := []
  nextDocument : Nat := 0
  /-- Where the reading of option letters stands in its argument. -/
  optionOffset : Option Nat := none
  /-- The directory as it was entered. -/
  directory : Raw := []
  /-- How many commands have been carried out. -/
  carriedOut : Nat := 0
  /-- The programs whose place is known. -/
  located : List Raw := []

abbrev Sh (α : Type) : Type := ExceptT Escape (StateT Session Act) α

/-- Characters with what an expansion knows about them: whether they are quoted,
and the region in which they may be divided into fields. -/
inductive Cell where
  | char (c : Char) (quoted : Bool) (region : Option Nat)
  /-- The border of quotes. -/
  | border

/-- What an expansion has made so far, the latest first. -/
structure Draft where
  cells : List Cell := []
  /-- The regions that are divided: whether only at the borders of parameters. -/
  regions : List Bool := []

/-- How a word is expanded. -/
structure Manner where
  /-- The result is divided into fields. -/
  divides : Bool := false
  /-- A tilde at the front stands for a directory. -/
  tilde : Bool := false
  /-- So does one behind the first equals sign or a colon. -/
  assignment : Bool := false
  /-- The word stands in braces without quotes, so its own text is divided too. -/
  inBraces : Bool := false

/-- How a command is carried out. -/
structure Setting where
  /-- Nothing comes behind it. -/
  last : Bool := false
  /-- Its failure is looked at, so it does not end the script. -/
  tested : Bool := false

/-- What commands and words need of each other. -/
structure Interpreter where
  evaluate : Command → Setting → Sh Unit
  expand : Word → Manner → StateT Draft Sh Unit

namespace Sh

def act {α : Type} (a : Act α) : Sh α := ExceptT.lift (fun s => do return (← a, s))

def ask (request : Request) : Sh request.Answer := act (Act.ask request)

/-- After this many commands a script counts as a long one. -/
def longScript : Nat := 200000

/-- The time that a command takes. Those of a long script take more, so that one without an end
comes to its limit. -/
def tick : Sh Unit := do
  modify fun s => { s with carriedOut := s.carriedOut + 1 }
  ask (.spend (if (← get).carriedOut < longScript then 3 else 100))

def hasOption (letter : Char) : Sh Bool := do return (← get).options.contains letter

def setStatus (status : Nat) : Sh Unit := modify fun s => { s with status }

def shown (line : Nat) : Raw := Raw.ofNat line

/-- A message with the script and the line that it is about. -/
def message (text : Raw) : Sh Raw := do
  let s ← get
  let start := s.name ++ ": ".toList ++ Raw.ofNat s.faultLine ++ ": ".toList
  let start := match s.command with
    | some c => start ++ c ++ ": ".toList
    | none => start
  return start ++ text ++ ['\n']

/-- Tells of something on the stream of faults. -/
def warn (text : Raw) : Sh Unit := do
  let _ ← act (Act.write 2 (← message text))

/-- Output, which is written when the command ends. -/
def put (text : Raw) : Sh Unit := modify fun s => { s with pending := text :: s.pending }

def putText (text : String) : Sh Unit := put (Raw.ofString text)

/-- Writes the output; the answer says whether that failed. -/
def flush : Sh Bool := do
  let s ← get
  match s.pending with
  | [] => return false
  | pending =>
    set { s with pending := [] }
    return (← act (Act.write 1 pending.reverse.flatten)).isSome

/-- Breaks off with a message; what was put before is still written. -/
def failWith {α : Type} (status : Nat) (text : Raw) : Sh α := do
  warn text
  let _ ← flush
  setStatus status
  throw .fault

def fail {α : Type} (text : Raw) : Sh α := failWith 2 text

/-- The program of a second shell that begins with the state of this one. -/
def toTask (body : Sh Unit) (s : Session) : Task :=
  body.run s fun (_, s) => .exit s.status

/-- Starts a second shell beside this one. -/
def fork (body : Sh Unit) : Sh Nat := do
  let s ← get
  act (Act.fork (toTask body s))

end Sh

/-! Variables. -/

/-- The letters of options in the order of their names. -/
def optionLetters : List (Char × String) := [
  ('e', "errexit"), ('f', "noglob"), ('I', "ignoreeof"), ('i', "interactive"),
  ('m', "monitor"), ('n', "noexec"), ('s', "stdin"), ('x', "xtrace"), ('v', "verbose"),
  ('V', "vi"), ('E', "emacs"), ('C', "noclobber"), ('a', "allexport"), ('b', "notify"),
  ('u', "nounset"), ('p', "privileged")]

/-- The options without letters. -/
def longOptionNames : List String := ["nolog", "debug"]

/-- Separators of fields, if nothing else is said. -/
def defaultSeparators : Raw := " \t\n".toList

namespace Session

def find? (s : Session) (name : Raw) : Option Variable := s.bindings.lookup name

/-- The value of a variable. -/
def value? (s : Session) (name : Raw) : Option Raw := (s.find? name).bind (·.value)

/-- Puts a variable in its place; `none` takes it away. -/
def put (s : Session) (name : Raw) (v : Option Variable) : Session :=
  let others := s.bindings.filter (·.1 != name)
  { s with
    bindings := match v with
      | some v => (name, v) :: others
      | none => others }

/-- Notes that the place of a program is known. -/
def noteLocated (s : Session) (name : Raw) : Session :=
  { s with located := s.located.filter (· != name) ++ [name] }

def separators (s : Session) : Raw := (s.value? "IFS".toList).getD defaultSeparators

/-- What a program that is started gets to know. -/
def environment (s : Session) : List Raw :=
  s.bindings.filterMap fun (name, v) =>
    match v.value with
    | some value => if v.exported then some (name ++ '=' :: value) else none
    | none => none

end Session

namespace Sh

/-- The greatest number that commands take. -/
def greatestNumber : Nat := 2147483647

/-- A number with a plus sign and blanks around it, as far as they are there. -/
def number? (text : Raw) : Option Nat :=
  let digits := match text.dropWhile Raw.isSpace with
    | '+' :: rest => rest
    | rest => rest
  let all := digits.takeWhile Char.isDigit
  let n := Raw.digitsValue 10 all
  if all.isEmpty || !(digits.drop all.length).all Raw.isSpace || n > greatestNumber then none
  else some n

/-- The place of the reading of options must be a number. -/
def checkPlace (name : Raw) (value : Option Raw) : Sh Unit := do
  if name == "OPTIND".toList && (number? (value.getD [])).isNone then
    fail ("Illegal number: ".toList ++ value.getD [])

/-- Sets a variable, unless it may not change. -/
def setVariable (name : Raw) (value : Option Raw) (exported : Bool) : Sh Unit := do
  let s ← get
  let old := (s.find? name).getD { value := none }
  if old.readonly then fail (name ++ ": is read only".toList)
  checkPlace name value
  let all := s.options.contains 'a'
  let s := s.put name (some { old with value, exported := old.exported || exported || all })
  set (if name == "OPTIND".toList then { s with optionOffset := none }
    else if name == "PATH".toList then { s with located := [] }
    else s)

def assign (name value : Raw) : Sh Unit := do
  if !isName name then fail (name ++ ": bad variable name".toList)
  setVariable name (some value) false

/-- Takes a variable away. -/
def unsetVariable (name : Raw) : Sh Unit := do
  let s ← get
  match s.find? name with
  | none => return
  | some v =>
    if v.readonly then fail (name ++ ": is read only".toList)
    checkPlace name none
    set (s.put name none)

/-- Splits `name=value`. -/
def splitAssignment (text : Raw) : Raw × Option Raw :=
  let name := text.takeWhile (· != '=')
  match text.drop name.length with
  | _ :: value => (name, some value)
  | [] => (name, none)

/-- The name under which the options are hidden. -/
def optionsName : Raw := ['-']

/-- Remembers a variable, so that it comes back when the innermost command ends. -/
def hide (name : Raw) : Sh Unit := do
  let s ← get
  match s.hidden with
  | [] => return
  | inner :: outer =>
    if inner.any (·.1 == name) then return
    let old := if name == optionsName then some { value := some s.options } else s.find? name
    set { s with hidden := ((name, old) :: inner) :: outer }

def enterScope : Sh Unit := modify fun s => { s with hidden := [] :: s.hidden }

/-- Brings back what was hidden since a number of scopes. -/
def leaveScopes (depth : Nat) : Sh Unit := do
  let s ← get
  let gone := s.hidden.take (s.hidden.length - depth)
  let back (s : Session) (name : Raw) (v : Option Variable) : Session :=
    if name == optionsName then { s with options := ((v.bind (·.value)).getD []) } else s.put name v
  let s := gone.flatten.foldl (fun s (name, v) => back s name v) s
  set { s with hidden := s.hidden.drop gone.length }

end Sh

end LedgerConformance.Shell
