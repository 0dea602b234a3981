import LedgerConformance.Shell.State

/-!
Texts as scripts, traps, the end of a shell, and the shells that are started
beside it.
-/

namespace LedgerConformance.Shell

variable (k : Interpreter)

/-- More commands than any script gets through. -/
def manySteps : Nat := 1000000000

namespace Sh

/-- Repeats a step until it gives a result. -/
def iterate {α β : Type} (step : β → Sh (β ⊕ α)) (last : β → Sh α) : (steps : Nat) → β → Sh α
  | 0, b => last b
  | steps + 1, b => do
    match ← step b with
    | .inl next => iterate step last steps next
    | .inr result => return result

/-- What a step comes to if it breaks off. -/
def attempt {α : Type} (body : Sh α) : Sh (Except Escape α) := fun s next =>
  body s fun (result, s) => next (.ok result, s)

/-- Reads the next command of a script. -/
def parseNext (r : Reader) : Sh (Option Command × Reader) := do
  let s ← get
  let r := { r with
    aliases := s.aliases, nextDocument := s.nextDocument, documents := [] }
  match Parser.next.run r with
  | .error e =>
    set { s with faultLine := e.line }
    fail ("Syntax error: ".toList ++ Raw.ofString e.message)
  | .ok (c, r) =>
    set { s with
      documents := r.documents ++ s.documents
      nextDocument := if r.documents.isEmpty then s.nextDocument else r.nextDocument
      readLine := r.line }
    return (c, r)

/-- Shows what has been read of a script, if that is wanted. -/
def showRead (before after : Raw) : Sh Unit := do
  if ← hasOption 'v' then
    let _ ← act (Act.write 2 (before.take (before.length - after.length)))

/-- Carries out the commands of a reader one after the other; `shows` says that they
may be shown as they are read. -/
def evaluateAll (reader : Reader) (setting : Setting) (shows : Bool) : Sh Unit := do
  let outer := (← get).readLine
  let status ← iterate (fun (status, before) => do
    match ← parseNext before with
    | (none, r) =>
      if shows then showRead before.rest r.rest
      return .inr status
    | (some c, r) =>
      if shows then showRead before.rest r.rest
      k.evaluate c { setting with last := setting.last && Parser.atEnd r }
      let s ← get
      let status := match c with
        | .skip => status
        | _ => s.status
      if s.skip != .nothing then return .inr status
      return .inl (status, r)) (fun (status, _) => pure status) manySteps (0, reader)
  modify fun s => { s with status, readLine := outer }

/-- Carries out a text. -/
def evaluateText (text : Raw) (setting : Setting) : Sh Unit := do
  evaluateAll k { rest := text } setting false

/-- Runs the traps of the signals that were caught. -/
def runTraps : Sh Unit := do
  let s ← get
  if s.traps.all fun t => t.1 == 0 || t.2.isEmpty then return
  let signals ← ask .caught
  if signals.isEmpty then return
  let before := s.savedStatus
  let status := before.getD s.status
  set { s with savedStatus := some status }
  let ordered := signals.mergeSort (· ≤ ·)
  ordered.forM fun signal => do
    let s ← get
    match s.traps.lookup signal with
    | none => return
    | some action =>
      evaluateText k action {}
      modify fun s => if s.skip == .return then s else { s with status }
  modify fun s => { s with savedStatus := before }

/-- Settles the status with which a shell breaks off. -/
def settleStatus (escape : Escape) : Sh Unit := do
  let s ← get
  let status := match escape, s.savedStatus with
    | .exit, some status => status
    | _, _ => s.status
  set { s with status, savedStatus := none, skip := .nothing, loops := 0 }

/-- Ends the shell: the trap for the end is run, and the output is written. -/
def leave : Sh Unit := do
  let s ← get
  match s.traps.lookup 0 with
  | none => pure ()
  | some action =>
    set { s with
      savedStatus := some s.status, traps := s.traps.filter (·.1 != 0), skip := .nothing }
    match ← attempt (evaluateText k action {}) with
    | .ok () => settleStatus .exit
    | .error escape => settleStatus escape
  let _ ← flush
  let s ← get
  act (Act.exit s.status)

/-- The body of a shell that ends however it breaks off. -/
def enclosed (body : Sh Unit) : Sh Unit := do
  match ← attempt body with
  | .ok () => leave k
  | .error escape =>
    settleStatus escape
    leave k

/-! Shells beside this one. -/

/-- What a shell that was started forgets. -/
def beginChild (background : Bool) : Sh Unit := do
  let s ← get
  let cleared := s.traps.filter fun t => !t.2.isEmpty
  set { s with
    level := s.level + 1
    skip := .nothing
    jobs := []
    traps := s.traps.filter fun t => t.2.isEmpty }
  cleared.forM fun (signal, _) => do
    if signal != 0 then let _ ← ask (.onSignal signal .default)
  if background then
    let _ ← ask (.onSignal Signal.interrupt .ignore)
    let _ ← ask (.onSignal Signal.quit .ignore)

/-- Starts a shell beside this one. -/
def forkChild (background : Bool) (body : Sh Unit) : Sh Nat :=
  fork (enclosed k do
    beginChild background
    body)

/-- The status that the end of a process counts as. -/
def statusOf : Ending → Nat
  | .status n => n
  | .signal n => n + 128

/-- The lowest number that no job has; one whose end was told makes room. -/
def freeJob (jobs : List (Nat × Job)) : Nat :=
  ((List.range (jobs.length + 1)).map (· + 1)).find? (fun n => (jobs.lookup n).isNone) |>.getD 1

def Job.isDone (j : Job) : Bool := j.processes.all (·.2.isSome)

/-- Adds a job. -/
def addJob (processes : List Nat) : Sh Nat := do
  let s ← get
  let jobs := s.jobs.filter fun j => !(Job.isDone j.2 && j.2.told)
  let number := freeJob jobs
  set { s with jobs := (number, { processes := processes.map fun p => (p, none) }) :: jobs }
  return number

/-- Notes the end of a process. -/
def noteEnding (process : Nat) (ending : Ending) : Sh Unit :=
  modify fun s => { s with
    jobs := s.jobs.map fun (n, j) => (n, { j with
      processes := j.processes.map fun (p, e) => (p, if p == process then some ending else e) }) }

/-- Tells of a signal that ended a command, as far as that is of interest. -/
def tellSignal : Ending → Sh Unit
  | .status _ => return
  | .signal n => do
    if n == Signal.interrupt || n == Signal.brokenPipe then return
    let _ ← act (Act.write 2 (Raw.ofString (Signal.description n ++ "\n")))

/-- Waits for processes that were started together and are not a job; the status
is that of the last one. -/
def awaitAll (processes : List Nat) : Sh Nat := do
  let last := processes.getLast?
  iterate (fun (left, status) => do
    if left.isEmpty then return .inr status
    match ← ask (.await none .always) with
    | .ended process ending =>
      if left.contains process then
        tellSignal ending
        let status := if some process == last then statusOf ending else status
        return .inl (left.filter (· != process), status)
      else
        noteEnding process ending
        return .inl (left, status)
    | _ => return .inr status) (fun (_, status) => pure status) manySteps (processes, 0)

end Sh

end LedgerConformance.Shell
