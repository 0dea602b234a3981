/-!
Options of a command line. An option has a long name and perhaps a letter; it
is either a switch or takes one value, which follows it as the next argument
or is attached to it. Nothing may be given twice, and nothing else is allowed.
-/

namespace LedgerConformance.CommandLine

/-- What is wrong with the arguments. -/
inductive UsageError where
  | noCommand
  | unknownCommand (name : String)
  | unexpected (argument : String)
  | missingValue (option : String)
  | needlessValue (option : String)
  | repeated (option : String)
  | required (option : String)
  | conflict (first second : String)
  | badValue (option value : String)
deriving DecidableEq, Repr

def UsageError.message : UsageError → String
  | noCommand => "a command is required"
  | unknownCommand name => "unknown command '" ++ name ++ "'"
  | unexpected argument => "unexpected argument '" ++ argument ++ "'"
  | missingValue option => "a value is required for '--" ++ option ++ "'"
  | needlessValue option => "'--" ++ option ++ "' takes no value"
  | repeated option => "'--" ++ option ++ "' is given more than once"
  | required option => "'--" ++ option ++ "' is required"
  | conflict first second => "'--" ++ first ++ "' cannot be used with '--" ++ second ++ "'"
  | badValue option value => "invalid value '" ++ value ++ "' for '--" ++ option ++ "'"

/-- An option that a command knows. -/
structure Known where
  name : String
  letter : Option Char := none
  takesValue : Bool := true
deriving DecidableEq, Repr

/-- The options that were given, with the values of those that take one. -/
structure Options where
  entries : List (String × String) := []
deriving DecidableEq, Repr

namespace Options

def value? (o : Options) (name : String) : Option String := o.entries.lookup name

def has (o : Options) (name : String) : Bool := (o.value? name).isSome

def insert (o : Options) (name value : String) : Except UsageError Options :=
  if o.has name then .error (.repeated name) else .ok ⟨(name, value) :: o.entries⟩

end Options

/-- The arguments read so far. -/
structure Reading where
  options : Options := {}
  /-- An option whose value is the next argument. -/
  pending : Option String := none
  /-- A double dash was read, so that no option may follow. -/
  closed : Bool := false
deriving DecidableEq, Repr

namespace Reading

/-- Stores a value that is attached to an option, or waits for it. -/
def store (r : Reading) (k : Known) (attached : Option String) : Except UsageError Reading :=
  match attached with
  | some value => return { r with options := ← r.options.insert k.name value }
  | none =>
    if k.takesValue then .ok { r with pending := some k.name }
    else return { r with options := ← r.options.insert k.name "" }

/-- An option by its long name; a value may follow an equals sign. -/
def long (known : List Known) (r : Reading) (body : List Char) : Except UsageError Reading :=
  let name := String.ofList (body.takeWhile (· != '='))
  let attached := match body.dropWhile (· != '=') with
    | [] => none
    | _ :: value => some (String.ofList value)
  match known.find? (·.name == name) with
  | none => .error (.unexpected ("--" ++ name))
  | some k =>
    if attached.isSome && !k.takesValue then .error (.needlessValue name)
    else r.store k attached

/-- Letters behind one dash: switches, and at the end an option with its value. -/
def letters (known : List Known) (r : Reading) : List Char → Except UsageError Reading
  | [] => .ok r
  | c :: rest =>
    match known.find? (·.letter == some c) with
    | none => .error (.unexpected (String.ofList ['-', c]))
    | some k =>
      if k.takesValue then
        match rest with
        | [] => r.store k none
        | '=' :: value => r.store k (some (String.ofList value))
        | value => r.store k (some (String.ofList value))
      else do letters known (← r.store k none) rest

/-- Reads one argument. A lone dash is a value like any other. -/
def step (known : List Known) (r : Reading) (argument : String) : Except UsageError Reading :=
  match argument.toList, r.closed, r.pending with
  | _, true, _ => .error (.unexpected argument)
  | '-' :: _ :: _, false, some name => .error (.missingValue name)
  | _, false, some name =>
    return { options := ← r.options.insert name argument }
  | ['-', '-'], false, none => .ok { r with closed := true }
  | '-' :: '-' :: body, false, none => r.long known body
  | '-' :: c :: rest, false, none => r.letters known (c :: rest)
  | _, false, none => .error (.unexpected argument)

end Reading

namespace Options

/-- The options that a list of arguments gives. -/
def read (known : List Known) (arguments : List String) : Except UsageError Options := do
  let r ← arguments.foldlM (Reading.step known) {}
  match r.pending with
  | some name => throw (.missingValue name)
  | none => return r.options

/-- The greatest number that is accepted. -/
def greatest : Nat := 0xFFFFFFFFFFFFFFFF

/-- A number in decimal digits, perhaps behind a plus sign. -/
def number? (text : String) : Option Nat :=
  let digits := match text.toList with
    | '+' :: digits => digits
    | digits => digits
  if digits.isEmpty || !digits.all Char.isDigit then none
  else
    let n := digits.foldl (fun n c => 10 * n + (c.toNat - '0'.toNat)) 0
    if n ≤ greatest then some n else none

/-- The value of an option as `read` sees it. -/
def parsed? {α : Type} (o : Options) (read : String → Option α) (name : String) :
    Except UsageError (Option α) :=
  match o.value? name with
  | none => .ok none
  | some text =>
    match read text with
    | some value => .ok (some value)
    | none => .error (.badValue name text)

/-- A path is not empty. -/
def path? (o : Options) (name : String) : Except UsageError (Option String) :=
  o.parsed? (fun text => if text.isEmpty then none else some text) name

def requiredPath (o : Options) (name : String) : Except UsageError String := do
  match ← o.path? name with
  | some path => return path
  | none => throw (.required name)

def number (o : Options) (name : String) (default : Nat) : Except UsageError Nat :=
  return (← o.parsed? number? name).getD default

/-- Two options that exclude each other. -/
def exclusive (o : Options) (first second : String) : Except UsageError Unit :=
  if o.has first && o.has second then .error (.conflict first second) else .ok ()

end Options

end LedgerConformance.CommandLine
