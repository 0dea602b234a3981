import LedgerConformance.Shell.Evaluate

/-!
The shell as a program: its arguments say which options are set, where the script
is found and what its parameters are.
-/

namespace LedgerConformance.Shell.Start

/-- Where the script comes from. -/
structure Source where
  /-- The script is an argument. -/
  fromArgument : Bool := false
  rest : List Raw

/-- The letters of one argument. -/
def letters (on : Bool) : Raw → Source → Sh Source
  | [], source => return source
  | 'c' :: more, source => letters on more { source with fromArgument := true }
  | 'l' :: more, source => letters on more source
  | 'o' :: more, source => do
    letters on more { source with rest := ← Builtin.optionWord on ['o'] source.rest }
  | c :: more, source => do
    let _ ← Builtin.optionWord on [c] []
    letters on more source

/-- The options before the script. -/
def options : (steps : Nat) → Source → Sh Source
  | 0, source => return source
  | steps + 1, source => do
    match source.rest with
    | ['-'] :: rest | ['-', '-'] :: rest => return { source with rest }
    | ('-' :: text) :: rest => do options steps (← letters true text { source with rest })
    | ('+' :: text) :: rest => do options steps (← letters false text { source with rest })
    | _ => return source

/-- More levels than a script reaches. -/
def deepest : Nat := 1000000000

def k : Interpreter := interpreter deepest

/-- A variable that is there from the start. -/
def preset (name value : String) : Sh Unit := do
  if ((← get).find? name.toList).isNone then Sh.setVariable name.toList (some value.toList) false

/-- The variables that a shell begins with. -/
def setUp (environment : List Raw) : Sh Unit := do
  environment.forM fun text => do
    let (name, value) := Sh.splitAssignment text
    if isName name then Sh.setVariable name value true
  modify fun s => s.put "IFS".toList (some { value := some defaultSeparators })
  modify fun s => s.put "OPTIND".toList (some { value := some ['1'] })
  let (number, parent) ← Sh.ask .identity
  modify fun s => (s.put "PPID".toList (some { value := some (Raw.ofNat parent) }))
  modify fun s => { s with number, optionOffset := none }
  preset "PATH" (String.ofList Sh.defaultPath)
  preset "PS1" "# "
  preset "PS2" "> "
  preset "PS4" "+ "
  let place ← Sh.ask .location
  modify fun s => { s with directory := place }
  Sh.setVariable "PWD".toList (some place) true

/-- Carries out a script from a descriptor or file. -/
def runText (text : Raw) : Sh Unit := do
  modify fun s => { s with faultLine := 1 }
  Sh.evaluateAll k { rest := text } {} true

/-- Reads the arguments and carries out the script. -/
def body (environment args : List Raw) : Sh Unit := do
  setUp environment
  let source ← options (args.length + 1) { rest := args }
  let fromInput := (← get).options.contains 's'
  match source.rest with
  | [] =>
    if source.fromArgument then Sh.fail "-c requires an argument".toList
    Builtin.setOption true 's'
    let text ← Sh.act (Act.contents 0)
    runText (text.toOption.getD [])
  | first :: rest =>
    if source.fromArgument then
      match rest with
      | [] => pure ()
      | name :: parameters => modify fun s => { s with name, parameters }
      modify fun s => { s with faultLine := 1 }
      Sh.evaluateText k first { last := !fromInput }
      if fromInput then
        let text ← Sh.act (Act.contents 0)
        runText (text.toOption.getD [])
    else if fromInput then
      modify fun s => { s with parameters := source.rest }
      let text ← Sh.act (Act.contents 0)
      runText (text.toOption.getD [])
    else
      let text ← Builtin.scriptText first
      modify fun s => { s with name := first, parameters := rest }
      runText text

/-- The shell as a program with its arguments and environment. -/
def task (argv environment : List Raw) : Task :=
  let start : Session := { name := argv.headD [], faultLine := 0 }
  Sh.toTask (Sh.enclosed k (body environment (argv.drop 1))) start

end LedgerConformance.Shell.Start
