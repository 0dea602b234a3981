import LedgerConformance.Shell.Builtin.Commands
import LedgerConformance.Shell.Redirection

/-!
Carrying out commands. Each command leaves its status in the state; what breaks
off a script passes through as an escape.
-/

namespace LedgerConformance.Shell

namespace Evaluate

variable (k : Interpreter)

/-- Notes the line of the command that is carried out. -/
def atLine (line : Nat) : Sh Unit := modify fun s => { s with faultLine := line }

/-- Carries out a body and then something that must not be left out. -/
def ensuring {α : Type} (body : Sh α) (cleanup : Sh Unit) : Sh α := do
  match ← Sh.attempt body with
  | .ok a =>
    cleanup
    return a
  | .error e =>
    cleanup
    throw e

/-- Whether any trap would be lost with the shell. -/
def hasTraps : Sh Bool := do return (← get).traps.any fun t => !t.2.isEmpty

/-- Expands words up to the first that gives a field. -/
def firstFields : List Word → Sh (List Raw × List Word)
  | [] => return ([], [])
  | w :: rest => do
    match ← Expand.fields k w with
    | [] => firstFields rest
    | fields => return (fields, rest)

/-- What the first words of a command say: all fields so far, how many of them
only introduce the command, and the words that are left. -/
structure Start where
  fields : List Raw
  skipped : Nat := 0
  rest : List Word
  /-- Functions are passed over. -/
  noFunctions : Bool := false
  /-- Programs are looked for in the usual directories only. -/
  usualPath : Bool := false
  /-- Whether the first command is one of the shell, and a special one. -/
  special : Option Bool := none
  assigns : Bool := false
  replaces : Bool := false

/-- The field at a place, for which further words may have to be expanded. -/
def fieldAt (s : Start) (index : Nat) : Sh (Option Raw × Start) := do
  match s.fields[index]? with
  | some f => return (some f, s)
  | none =>
    let (more, rest) ← firstFields k s.rest
    let s := { s with fields := s.fields ++ more, rest }
    return (s.fields[index]?, s)

/-- Reads the options of a command that introduces another one; none is left if the
introduction stands for itself. -/
def introduced (s : Start) : Sh (Option Start) :=
  Sh.iterate (fun (s, index) => do
    let (field, s) ← fieldAt k s index
    match field with
    | none => return .inr none
    | some ['-', '-'] =>
      let (next, s) ← fieldAt k s (index + 1)
      return .inr (next.map fun _ => { s with skipped := index + 1 })
    | some ('-' :: c :: more) =>
      if (c :: more).all (· == 'p') then return .inl ({ s with usualPath := true }, index + 1)
      return .inr (some s)
    | some _ => return .inr (some { s with skipped := index })) (fun _ => pure none)
    manySteps (s, s.skipped + 1)

/-- Finds out what kind of command the first words name. -/
def begin (words : List Word) : Sh Start := do
  let (fields, rest) ← firstFields k words
  Sh.iterate (fun (s : Start) => do
    match s.fields[s.skipped]? with
    | none => return .inr s
    | some name =>
      let isFunction := !s.noFunctions && ((← get).functions.lookup name).isSome
      if isFunction || name.contains '/' || !isBuiltin name then
        return .inr { s with assigns := false, replaces := false }
      let s := { s with
        special := some (s.special.getD (isSpecialCommand name))
        assigns := takesAssignments name
        replaces := name == "exec".toList }
      if name != "command".toList then return .inr s
      match ← introduced k s with
      | none => return .inr s
      | some next =>
        if next.skipped == s.skipped then return .inr next
        return .inl { next with noFunctions := true }) pure manySteps
    { fields, rest }

/-- The remaining words of a command; assignments among the arguments of commands
that take them are not divided. -/
def remaining (s : Start) : Sh (List Raw) := do
  let more ← s.rest.mapM fun w => do
    if s.assigns && Word.isAssignment w then
      return [← Expand.text k w { assignment := true }]
    else Expand.fields k w
  return s.fields ++ more.flatten

/-- Makes the assignments before a command; those of most commands end with it. -/
def assignments (words : List Word) (temporary exported : Bool) : Sh (List Raw) :=
  words.mapM fun w => do
    let text ← Expand.text k w { assignment := true }
    let (name, value) := Sh.splitAssignment text
    if temporary then Sh.hide name
    Sh.setVariable name (some (value.getD [])) (temporary || exported)
    return text

/-- The text before commands that are traced. -/
def traceMark : Sh Raw := do
  let text := ((← get).value? "PS4".toList).getD []
  let inner : Words.Inner := fun _ => return .skip
  let read := Words.parts inner (2 * text.length + 2) (.document [] false false) []
  match read.run { rest := text } with
  | .ok (word, _) => Expand.text k word {}
  | .error _ => return text

/-- Shows a command before it is carried out. -/
def trace (descriptor : Nat) (words : List Raw) : Sh Unit := do
  if !(← Sh.hasOption 'x') then return
  let text := (← traceMark k) ++ (words.intersperse [' ']).flatten ++ ['\n']
  let _ ← Sh.act (Act.write descriptor text)

/-- Runs a command of the shell. Faults of special commands end the script. -/
def builtin (setting : Setting) (special : Bool) (name : Raw) (args : List Raw) : Sh Unit := do
  let outer := (← get).command
  modify fun s => { s with command := some name }
  let result ← Sh.attempt do
    let status ← Builtin.run k setting name args
    if ← Sh.flush then
      Sh.warn (name ++ ": I/O error".toList)
      Sh.setStatus (status ||| 1)
    else Sh.setStatus status
  modify fun s => { s with command := outer, pending := [] }
  match result with
  | .ok () => return
  | .error .fault => if special then throw .fault
  | .error e => throw e

/-- The most functions that can be carried out inside each other. -/
def deepestCall : Nat := 1000

/-- Calls a function. -/
def call (setting : Setting) (definition : Command) (args : List Raw) : Sh Unit := do
  match definition with
  | .define _ _ body =>
    let outer ← get
    if outer.calls ≥ deepestCall then
      Sh.fail ("Maximum function recursion depth (".toList ++ Raw.ofNat deepestCall ++
        ") reached".toList)
    set { outer with
      parameters := args, loops := 0, calls := outer.calls + 1, optionOffset := none }
    ensuring (k.evaluate body { tested := setting.tested }) (modify fun s => { s with
      parameters := outer.parameters
      loops := outer.loops
      calls := outer.calls
      optionOffset := outer.optionOffset
      skip := if s.skip == .return then .nothing else s.skip })
  | _ => return

/-- Runs a program, in the place of the shell if nothing comes behind it. -/
def program (setting : Setting) (path : Raw) (argv : List Raw) : Sh Unit := do
  if setting.last && !(← hasTraps) then Sh.become path argv
  let child ← Sh.forkChild k false (Sh.become path argv)
  Sh.setStatus (← Sh.awaitAll [child])

/-- Runs what the words of a command name. -/
def dispatch (setting : Setting) (start : Start) (argv : List Raw) : Sh Unit := do
  match argv with
  | [] => Sh.setStatus (← get).insertedStatus
  | name :: args =>
    let path ← if start.usualPath then pure Sh.defaultPath else Sh.searchPath
    match ← Sh.locate path name (!start.noFunctions) with
    | .function definition => call k setting definition args
    | .builtin => builtin k setting (start.special == some true) name args
    | .program _ =>
      if !name.contains '/' then modify fun s => s.noteLocated name
      program k setting path argv
    | .missing reason =>
      Sh.warn (name ++ ": ".toList ++ reason)
      Sh.setStatus 127

/-- A command with its words, assignments and redirections. -/
def simple (setting : Setting) (line : Nat) (assigned words : List Word)
    (redirects : List Redirect) : Sh Unit := do
  atLine line
  modify fun s => { s with insertedStatus := 0 }
  let start ← begin k words
  let all ← remaining k start
  let argv := all.drop start.skipped
  let temporary := !argv.isEmpty && start.special != some true
  let depth := (← get).hidden.length
  if temporary then Sh.enterScope
  ensuring (do
    let ready ← redirects.mapM (Redirection.prepare k)
    let (saved, failed) ← Redirection.apply k ready
    let restore := if start.replaces && !failed then Redirection.forget saved
      else Redirection.restore saved
    ensuring (do
      if failed then
        if start.special == some true then throw .fault
      else
        let texts ← assignments k assigned temporary (start.replaces && argv.length > 1)
        trace k (((saved.lookup 2).join).getD 2) (texts ++ all)
        dispatch k setting start argv) restore) (Sh.leaveScopes depth)

/-! Commands made of others. -/

/-- What a loop does with the end that was asked for: whether it goes on, and
whether its status stays. -/
def afterBody : Sh Skip := do
  let s ← get
  match s.skip with
  | .nothing => return .nothing
  | .return => return .return
  | kind =>
    if s.skipCount ≤ 1 then
      set { s with skip := .nothing, skipCount := 0 }
      return kind
    set { s with skipCount := s.skipCount - 1 }
    return .break

def loop (setting : Setting) (expected : Bool) (condition body : Command) : Sh Unit := do
  modify fun s => { s with loops := s.loops + 1 }
  let status ← Sh.iterate (fun status => do
    k.evaluate condition { tested := true }
    let found := (← get).status
    match ← afterBody with
    | .return => return .inr found
    | .break => return .inr status
    | .continue => return .inl status
    | .nothing =>
      if (found == 0) != expected then return .inr status
      k.evaluate body { tested := setting.tested }
      let status := (← get).status
      match ← afterBody with
      | .nothing | .continue => return .inl status
      | _ => return .inr status) pure manySteps 0
  modify fun s => { s with loops := s.loops - 1, status }

def forEach (setting : Setting) (line : Nat) (name : Raw) (items : List Word) (body : Command) :
    Sh Unit := do
  atLine line
  let fields := (← items.mapM (Expand.fields k)).flatten
  modify fun s => { s with loops := s.loops + 1 }
  let status ← Sh.iterate (fun (left, status) => do
    match left with
    | [] => return .inr status
    | field :: rest =>
      Sh.setVariable name (some field) false
      k.evaluate body { tested := setting.tested }
      let status := (← get).status
      match ← afterBody with
      | .nothing | .continue => return .inl (rest, status)
      | _ => return .inr status) (fun (_, status) => pure status) (fields.length + 1) (fields, 0)
  modify fun s => { s with loops := s.loops - 1, status }

/-- Carries out the first clause with a pattern that fits. -/
def select (setting : Setting) (line : Nat) (subject : Word)
    (clauses : List (List Word × Command)) : Sh Unit := do
  atLine line
  let text ← Expand.text k subject { tilde := true }
  let found : Option Command ← Sh.iterate (fun left => do
    match left with
    | [] => return .inr none
    | (patterns, body) :: rest =>
      let fits ← Sh.iterate (fun patterns => do
        match patterns with
        | [] => return .inr false
        | p :: others =>
          if Pattern.isMatch (← Expand.pattern k p) text then return .inr true
          return .inl others) (fun _ => pure false) (patterns.length + 1) patterns
      if fits then return .inr (some body)
      return .inl rest) (fun _ => pure none) (clauses.length + 1) clauses
  match found with
  | none | some .skip => Sh.setStatus 0
  | some body => k.evaluate body setting

/-- Redirections that stay until the shell ends. -/
def redirectForGood (redirects : List Redirect) : Sh Unit := do
  let ready ← redirects.mapM (Redirection.prepare k)
  ready.forM (Redirection.perform k)

/-- Takes the input away from a command in the background. -/
def withoutInput : Sh Unit := do
  let _ ← Sh.ask (.open 0 "/dev/null".toList .read)

def subshell (setting : Setting) (line : Nat) (inner : Command) (redirects : List Redirect) :
    Sh Unit := do
  atLine line
  let body : Sh Unit := do
    redirectForGood k redirects
    k.evaluate inner { setting with last := true }
  if setting.last && !(← hasTraps) then
    Sh.beginChild false
    body
  else
    let child ← Sh.forkChild k false body
    Sh.setStatus (← Sh.awaitAll [child])

def background (line : Nat) (inner : Command) (redirects : List Redirect) : Sh Unit := do
  if line > 0 then atLine line
  let child ← Sh.forkChild k true do
    withoutInput
    redirectForGood k redirects
    k.evaluate inner { last := true }
  let _ ← Sh.addJob [child]
  modify fun s => { s with background := child, status := 0 }

/-- Looks for the program of a stage before it is started, if its name is plain. -/
def locateStage : Command → Sh Unit
  | .simple _ _ (w :: _) _ => do
    match Word.plain? w with
    | none => return
    | some name =>
      if isName name then
        if let .program _ := ← Sh.locate (← Sh.searchPath) name true then
          modify fun s => s.noteLocated name
  | _ => return

/-- Starts the stages of a pipeline; the answer holds their numbers in order. -/
def stages (setting : Setting) (inBackground : Bool) (commands : List Command) : Sh (List Nat) :=
  Sh.iterate (fun (left, source, started) => do
    match left with
    | [] => return .inr started
    | c :: rest =>
      locateStage c
      let pipe ← if rest.isEmpty then pure none else do pure (some (← Sh.ask .pipe))
      let child ← Sh.forkChild k inBackground do
        if inBackground && started.isEmpty then withoutInput
        if let some (next, _) := pipe then Sh.ask (.close next)
        if let some (d : Nat) := source then
          let _ ← Sh.ask (.duplicate d 0)
          Sh.ask (.close d)
        if let some (_, target) := pipe then
          let _ ← Sh.ask (.duplicate target 1)
          Sh.ask (.close target)
        k.evaluate c { setting with last := true }
      if let some (d : Nat) := source then Sh.ask (.close d)
      if let some (_, target) := pipe then Sh.ask (.close target)
      return .inl (rest, pipe.map (·.1), started ++ [child])) (fun (_, _, started) => pure started)
    (commands.length + 1) (commands, none, [])

def pipeline (setting : Setting) (commands : List Command) (inBackground : Bool) : Sh Unit := do
  let started ← stages k setting inBackground commands
  if inBackground then
    let _ ← Sh.addJob started.reverse
    modify fun s => { s with background := started.getLast?.getD 0, status := 0 }
  else Sh.setStatus (← Sh.awaitAll started)

/-- Ends the script if a failure does that and nobody looks at it. -/
def checkFailure (setting : Setting) : Sh Unit := do
  if !setting.tested && (← Sh.hasOption 'e') && (← get).status != 0 then throw .finish

/-- A command whose redirections end with it. -/
def redirected (setting : Setting) (line : Nat) (inner : Command) (redirects : List Redirect) :
    Sh Unit := do
  atLine line
  let ready ← redirects.mapM (Redirection.prepare k)
  let (saved, failed) ← Redirection.apply k ready
  ensuring (do
    if !failed then k.evaluate inner { tested := setting.tested }) (Redirection.restore saved)
  if failed then checkFailure setting

/-- Carries out a command. -/
def command (c : Command) (setting : Setting) : Sh Unit := do
  Sh.tick
  if !(← Sh.hasOption 'n') then
    Sh.runTraps k
    match c with
    | .skip => pure ()
    | .simple line assigned words redirects =>
      simple k setting line assigned words redirects
      Sh.runTraps k
      checkFailure setting
    | .pipeline _ commands inBackground =>
      pipeline k setting commands inBackground
      Sh.runTraps k
      checkFailure setting
    | .subshell line inner redirects =>
      subshell k setting line inner redirects
      Sh.runTraps k
      checkFailure setting
    | .background line inner redirects => background k line inner redirects
    | .redirected line inner redirects => redirected k setting line inner redirects
    | .negate inner =>
      k.evaluate inner { tested := true }
      modify fun s =>
        if s.skip == .nothing then { s with status := if s.status == 0 then 1 else 0 } else s
    | .both left right =>
      k.evaluate left { tested := true }
      let s ← get
      if s.status == 0 && s.skip == .nothing then k.evaluate right setting
    | .either left right =>
      k.evaluate left { tested := true }
      let s ← get
      if s.status != 0 && s.skip == .nothing then k.evaluate right setting
    | .sequence first second =>
      k.evaluate first { tested := setting.tested }
      if (← get).skip == .nothing then k.evaluate second setting
    | .choose condition yes no =>
      k.evaluate condition { tested := true }
      let s ← get
      if s.skip == .nothing then
        if s.status == 0 then k.evaluate yes setting
        else
          match no with
          | .skip => Sh.setStatus 0
          | no => k.evaluate no setting
    | .loop expected condition body => loop k setting expected condition body
    | .forEach line name items body => forEach k setting line name items body
    | .select line subject clauses => select k setting line subject clauses
    | .define line name body =>
      modify fun s => { s with
        functions := (name, .define line name body) :: s.functions.filter (·.1 != name)
        status := 0 }
    Sh.runTraps k
  if setting.last then throw .finish

end Evaluate

/-- The interpreter, which can go as deep as the number of steps says. -/
def interpreter : (steps : Nat) → Interpreter
  | 0 => ⟨fun _ _ => throw .finish, fun _ _ => return⟩
  | steps + 1 =>
    ⟨fun c setting => Evaluate.command (interpreter steps) c setting,
      fun w manner => Expand.word (interpreter steps) w manner⟩

end LedgerConformance.Shell
