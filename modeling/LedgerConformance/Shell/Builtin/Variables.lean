import LedgerConformance.Shell.Builtin.Basic

/-!
Commands that set, show and read variables, options and parameters.
-/

namespace LedgerConformance.Shell.Builtin

/-- Variables with a mark, in the order of their names. -/
def listed (s : Session) (p : Variable → Bool) : List (Raw × Variable) :=
  (s.bindings.filter fun v => p v.2).mergeSort fun a b => Raw.le a.1 b.1

/-- A variable as it could be set again. -/
def assignmentText (name : Raw) (v : Variable) : Raw :=
  match v.value with
  | some value => name ++ '=' :: quote value
  | none => name

def showVariables (word : String) (p : Variable → Bool) : Sh Unit := do
  let s ← get
  (listed s p).forM fun (name, v) =>
    Sh.put (word.toList ++ assignmentText name v ++ ['\n'])

/-- Marks variables, and sets them where a value is given. -/
def mark (exported : Bool) (args : List Raw) : Sh Nat := do
  let (found, args) ← options "p" args
  let word := if exported then "export " else "readonly "
  if args.isEmpty || !found.isEmpty then
    showVariables word fun v => if exported then v.exported else v.readonly
    return 0
  args.forM fun arg => do
    let (name, value) := Sh.splitAssignment arg
    if !isName name then Sh.fail (name ++ ": bad variable name".toList)
    match value with
    | some value => Sh.setVariable name (some value) exported
    | none => pure ()
    modify fun s =>
      let v := (s.find? name).getD { value := none }
      s.put name (some { v with
        exported := v.exported || exported, readonly := v.readonly || !exported })
  return 0

def localVariables (args : List Raw) : Sh Nat := do
  if (← get).calls == 0 then Sh.fail "not in a function".toList
  args.forM fun arg => do
    let (name, value) := Sh.splitAssignment arg
    if name == Sh.optionsName then Sh.hide name
    else
      if !isName name then Sh.fail (name ++ ": bad variable name".toList)
      Sh.hide name
      match value with
      | some value => Sh.setVariable name (some value) false
      | none => pure ()
  return 0

def unsetNames (args : List Raw) : Sh Nat := do
  let (found, args) ← options "vf" args
  let functions := match found.getLast? with
    | some (c, _) => c == 'f'
    | none => false
  args.forM fun name => do
    if functions then
      modify fun s => { s with functions := s.functions.filter (·.1 != name) }
    else
      if !isName name then Sh.fail (name ++ ": bad variable name".toList)
      Sh.unsetVariable name
  return 0

/-! Options. -/

/-- Sets or clears an option. -/
def setOption (on : Bool) (letter : Char) : Sh Unit :=
  modify fun s =>
    let others := s.options.filter (· != letter)
    { s with options := if on then letter :: others else others }

def showOptions (on : Bool) : Sh Unit := do
  let s ← get
  let names := optionLetters.map (fun (c, name) => (name, s.options.contains c)) ++
    longOptionNames.map fun name => (name, s.longOptions.contains name)
  if on then
    Sh.putText "Current option settings\n"
    names.forM fun (name, isOn) =>
      Sh.putText (name ++ "".pushn ' ' (16 - name.length) ++ (if isOn then "on\n" else "off\n"))
  else
    names.forM fun (name, isOn) =>
      Sh.putText ((if isOn then "set -o " else "set +o ") ++ name ++ "\n")

def setNamedOption (on : Bool) (name : Raw) : Sh Unit := do
  let text := String.ofList name
  match optionLetters.find? (·.2 == text) with
  | some (letter, _) => setOption on letter
  | none =>
    if longOptionNames.contains text then
      modify fun s =>
        let others := s.longOptions.filter (· != text)
        { s with longOptions := if on then text :: others else others }
    else Sh.fail ("Illegal option ".toList ++ (if on then "-o " else "+o ").toList ++ name)

/-- The option letters of one argument; the arguments behind it may be used up. -/
def optionWord (on : Bool) : Raw → List Raw → Sh (List Raw)
  | [], rest => return rest
  | 'o' :: letters, rest => do
    match rest with
    | [] =>
      showOptions on
      optionWord on letters []
    | name :: rest =>
      setNamedOption on name
      optionWord on letters rest
  | letter :: letters, rest => do
    if (optionLetters.lookup letter).isNone then
      Sh.fail ("Illegal option ".toList ++ [if on then '-' else '+', letter])
    setOption on letter
    optionWord on letters rest

/-- Options and then parameters, which are none if nothing says otherwise. -/
def setWords : (steps : Nat) → List Raw → Sh (Option (List Raw))
  | 0, _ => return none
  | steps + 1, args => do
    match args with
    | [] => return none
    | ['-', '-'] :: rest => return some rest
    | ['-'] :: rest =>
      setOption false 'x'
      setOption false 'v'
      return if rest.isEmpty then none else some rest
    | ('-' :: letters) :: rest => do setWords steps (← optionWord true letters rest)
    | ('+' :: letters) :: rest => do setWords steps (← optionWord false letters rest)
    | args => return some args

def setParameters (parameters : List Raw) : Sh Unit :=
  modify fun s => { s with parameters, optionOffset := none }

def setOptions (args : List Raw) : Sh Nat := do
  if args.isEmpty then
    showVariables "" fun v => v.value.isSome
    return 0
  match ← setWords (args.length + 1) args with
  | some parameters => setParameters parameters
  | none => pure ()
  return 0

def shiftParameters (args : List Raw) : Sh Nat := do
  let n ← match args with
    | [] => pure 1
    | a :: _ => number a
  let s ← get
  if n > s.parameters.length then Sh.fail "can't shift that many".toList
  setParameters (s.parameters.drop n)
  return 0

/-! Reading a line. -/

/-- A line from the input as it is divided; a backslash takes the meaning of the
character behind it. The status says whether the input ended first. -/
def readLine (plain : Bool) : (steps : Nat) → (escaped : Bool) → Draft → Sh (Draft × Nat)
  | 0, _, draft => return (draft, 1)
  | steps + 1, escaped, draft => do
    match ← Sh.ask (.read 0 1 .untilSignal) with
    | .ok [c] =>
      let region := draft.regions.length - 1
      if escaped then
        if c == '\n' then readLine plain steps false draft
        else
          readLine plain steps false
            ⟨.char c true none :: draft.cells, false :: draft.regions⟩
      else if c == '\\' && !plain then readLine plain steps true draft
      else if c == '\n' then return (draft, 0)
      else if c == Char.ofNat 0 then readLine plain steps false draft
      else
        readLine plain steps false
          { draft with cells := .char c false (some region) :: draft.cells }
    | _ => return (draft, 1)

/-- Sets variables to fields; those without one become empty. -/
def assignFields : List Raw → List Raw → Sh Unit
  | [], _ => return
  | name :: names, fields => do
    Sh.assign name (fields.head?.getD [])
    assignFields names (fields.drop 1)

def readFields (args : List Raw) : Sh Nat := do
  let (found, names) ← options "p:r" args
  if names.isEmpty then Sh.fail "arg count".toList
  let plain := found.any (·.1 == 'r')
  let (draft, status) ← readLine plain manySteps false { regions := [false] }
  let cells := Division.fields (← get).separators (some names.length) draft
  assignFields names (cells.map Cell.text)
  return status

/-! Reading options of a script. -/

/-- The word at which the reading of options stands, and where in it. -/
def optionPlace (s : Session) (args : List Raw) : Nat × Raw :=
  let index := match (s.value? "OPTIND".toList).bind Sh.number? with
    | some n => max n 1
    | none => 1
  let inner := match s.optionOffset with
    | some offset => if index ≤ 1 then [] else (args.getD (index - 2) []).drop offset
    | none => []
  (index, inner)

/-- Sets the variables by which options are handed over. -/
def handOver (name : Raw) (found : Char) (argument : Option Raw) (index : Nat)
    (offset : Option Nat) : Sh Unit := do
  match argument with
  | some value => Sh.setVariable "OPTARG".toList (some value) false
  | none => Sh.unsetVariable "OPTARG".toList
  Sh.setVariable "OPTIND".toList (some (Raw.ofNat index)) false
  modify fun s => { s with optionOffset := offset }
  Sh.assign name [found]

def getopts (args : List Raw) : Sh Nat := do
  let (_, args) ← options "" args
  match args with
  | spec :: name :: given =>
    let s ← get
    let given := if given.isEmpty then s.parameters else given
    let (index, inner) := optionPlace s given
    let silent := spec.head? == some ':'
    -- The word that is read next, and the number of the one behind it.
    let (inner, index, ended) :=
      if !inner.isEmpty then (inner, index, false)
      else
        match given.drop (index - 1) with
        | ('-' :: c :: more) :: _ =>
          if c == '-' && more.isEmpty then ([], index + 1, true) else (c :: more, index + 1, false)
        | _ => ([], index, true)
    match inner, ended with
    | c :: more, false =>
      let word := given.getD (index - 2) []
      let offset (rest : Raw) : Option Nat :=
        some (word.length - rest.length)
      match (if c == ':' then [] else spec.dropWhile (· != c)) with
      | [] =>
        if silent then handOver name '?' (some [c]) index (offset more)
        else
          complain ("Illegal option -".toList ++ [c])
          handOver name '?' none index (offset more)
        return 0
      | _ :: ':' :: _ =>
        match more, given.drop (index - 1) with
        | [], [] =>
          if silent then handOver name ':' (some [c]) index (offset more)
          else
            complain ("No arg for -".toList ++ [c] ++ " option".toList)
            handOver name '?' none index (offset more)
        | [], value :: _ => handOver name c (some value) (index + 1) none
        | more, _ => handOver name c (some more) index none
        return 0
      | _ =>
        handOver name c (some []) index (offset more)
        return 0
    | _, _ =>
      Sh.setVariable "OPTIND".toList (some (Raw.ofNat index)) false
      modify fun s => { s with optionOffset := none }
      Sh.assign name ['?']
      return 1
  | _ => Sh.fail "Usage: getopts optstring var [arg...]".toList

end LedgerConformance.Shell.Builtin
