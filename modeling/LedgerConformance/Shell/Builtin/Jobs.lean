import LedgerConformance.Shell.Builtin.Basic

/-!
Commands for processes: waiting for those in the background, sending signals, and
saying what signals do.
-/

namespace LedgerConformance.Shell.Builtin

open Sh (statusOf)

/-- The number of a signal that a text names or spells. -/
def signalNumber? (text : Raw) : Option Nat :=
  match plainNumber? text with
  | some n => if n ≤ Signal.last then some n else none
  | none => Signal.ofName? (String.ofList text)

/-! Jobs. -/

/-- The job that a text names. -/
def findJob (text : Raw) : Sh (Nat × Job) := do
  let s ← get
  let missing : Sh (Nat × Job) := Sh.fail ("No such job: ".toList ++ text)
  match text with
  | '%' :: rest =>
    let latest := s.jobs.head?
    let second := (s.jobs.drop 1).head?
    if rest.isEmpty || rest == ['%'] || rest == ['+'] then
      match latest with
      | some j => return j
      | none => Sh.fail "No current job".toList
    else if rest == ['-'] then
      match second with
      | some j => return j
      | none => Sh.fail "No previous job".toList
    else
      match (plainNumber? rest).bind fun n => (s.jobs.lookup n).map fun j => (n, j) with
      | some j => return j
      | none => missing
  | _ => missing

/-- Takes notice of what has ended, without waiting. -/
def pollJobs : Sh Unit :=
  Sh.iterate (fun (_ : Unit) => do
    match ← Sh.ask (.await none .never) with
    | .ended process ending =>
      Sh.noteEnding process ending
      return .inl ()
    | _ => return .inr ()) (fun _ => pure ()) manySteps ()

/-- Waits until a condition on the jobs holds; a signal ends it with its status. -/
def waitUntil (done : Session → Bool) : Sh (Option Nat) :=
  Sh.iterate (fun (_ : Unit) => do
    if done (← get) then return .inr none
    match ← Sh.ask (.await none .untilSignal) with
    | .ended process ending =>
      Sh.noteEnding process ending
      return .inl ()
    | .noChild => return .inr none
    | .none => return .inr (some 0)) (fun _ => pure none) manySteps ()

/-- Marks jobs whose end the script has heard of. -/
def markTold (p : Nat × Job → Bool) : Sh Unit :=
  modify fun s => { s with
    jobs := s.jobs.map fun (n, j) => if p (n, j) then (n, { j with told := true }) else (n, j) }

/-- The status of a job that has ended: that of its last process. -/
def jobStatus (j : Job) : Nat :=
  match j.processes with
  | (_, some ending) :: _ => statusOf ending
  | _ => 0

/-- The status of a wait that a signal ended. -/
def interruptedStatus : Sh Nat := do
  return 128 + ((← Sh.ask .pendingSignal).getD 0)

/-- Waits for one job or process of the background. -/
def waitFor (text : Raw) : Sh (Nat × Bool) := do
  let found ← if text.head? == some '%' then do pure (some (← findJob text))
    else do
      let process ← number text
      pure ((← get).jobs.find? fun (_, j) => (j.processes.head?.map (·.1)) == some process)
  match found with
  | none => return (127, false)
  | some (n, _) =>
    let isDone (s : Session) : Bool := ((s.jobs.lookup n).map Sh.Job.isDone).getD true
    match ← waitUntil isDone with
    | some _ => return (← interruptedStatus, true)
    | none =>
      markTold fun j => j.1 == n
      return ((((← get).jobs.lookup n).map jobStatus).getD 127, false)

def wait (args : List Raw) : Sh Nat := do
  let (_, args) ← options "" args
  match args with
  | [] =>
    match ← waitUntil fun s => s.jobs.all fun j => Sh.Job.isDone j.2 with
    | some _ => interruptedStatus
    | none =>
      markTold fun _ => true
      return 0
  | args =>
    Sh.iterate (fun (left, status) => do
      match left with
      | [] => return .inr status
      | a :: rest =>
        let (status, ended) ← waitFor a
        return if ended then .inr status else .inl (rest, status)) (fun (_, status) => pure status)
      (args.length + 1) (args, 127)

/-- What a job is doing. -/
def jobState (j : Job) : Raw :=
  if !Sh.Job.isDone j then "Running".toList
  else
    match j.processes with
    | (_, some (.status 0)) :: _ => "Done".toList
    | (_, some (.status n)) :: _ => "Done(".toList ++ Raw.ofNat n ++ [')']
    | (_, some (.signal n)) :: _ => Raw.ofString (Signal.description n)
    | _ => []

/-- Shows a job; those that have ended are forgotten then. -/
def showJob (numbersOnly : Bool) (n : Nat) : Sh Unit := do
  let s ← get
  match s.jobs.lookup n with
  | none => return
  | some j =>
    if numbersOnly then
      match j.processes.getLast? with
      | some (process, _) => Sh.put (Raw.ofNat process ++ ['\n'])
      | none => pure ()
    else
      let mark := if (s.jobs.head?.map (·.1)) == some n then '+'
        else if ((s.jobs.drop 1).head?.map (·.1)) == some n then '-'
        else ' '
      let line := '[' :: Raw.ofNat n ++ [']', ' ', mark, ' '] ++ jobState j
      Sh.put (line ++ List.replicate (max 1 (33 - line.length)) ' ' ++ ['\n'])
    if Sh.Job.isDone j then set { s with
      jobs := s.jobs.filter (·.1 != n)
      pending := (← get).pending }

def jobs (args : List Raw) : Sh Nat := do
  let (found, args) ← options "lp" args
  pollJobs
  let s ← get
  let numbers ← if args.isEmpty then pure (s.jobs.map (·.1))
    else args.mapM fun a => do return (← findJob a).1
  numbers.forM (showJob (found.any (·.1 == 'p')))
  return 0

/-- Job control is never on, so no job can be moved. -/
def moveJob (args : List Raw) : Sh Nat := do
  let (_, args) ← options "" args
  let (n, _) ← findJob (args.headD ['%'])
  Sh.fail ("job %".toList ++ Raw.ofNat n ++ " not created under job control".toList)

/-! Signals. -/

def killUsage {α : Type} : Sh α :=
  Sh.fail ("Usage: kill [-s sigspec | -signum | -sigspec] [pid | job]... or\n" ++
    "kill -l [exitstatus]").toList

/-- Names of signals. -/
def listSignals (args : List Raw) : Sh Nat := do
  match args with
  | [] =>
    Sh.putText "0\n"
    (List.range Signal.last).forM fun n => Sh.putText (Signal.name (n + 1) ++ "\n")
    return 0
  | a :: _ =>
    let n ← number a
    let n := if n > 128 then n - 128 else n
    if n == 0 || n > Signal.last then
      Sh.fail ("invalid signal number or exit status: ".toList ++ a)
    Sh.putText (Signal.name n ++ "\n")
    return 0

/-- Sends a signal to one process or job. -/
def sendSignal (signal : Nat) (target : Raw) : Sh Bool := do
  let process : Int ← match target with
    -- A job stands for a group of processes, of which it would be the first.
    | '%' :: _ =>
      let (_, j) ← findJob target
      pure (-(((j.processes.getLast?.map (·.1)).getD 0 : Nat) : Int))
    | '-' :: rest => do pure (-((← number rest : Nat) : Int))
    | target => do pure ((← number target : Nat) : Int)
  match ← Sh.ask (.kill process signal) with
  | none => return true
  | some _ =>
    Sh.warn "No such process\n".toList
    return false

def kill (args : List Raw) : Sh Nat := do
  let (signal, list, targets) ← match args with
    | [] => killUsage
    | first :: rest =>
      match first with
      | '-' :: text =>
        match signalNumber? text with
        | some n => if n > 0 || text == ['0'] then pure (some n, false, rest) else killUsage
        | none =>
          let (found, rest) ← options "ls:" args
          let signal ← match (found.filter (·.1 == 's')).getLast? with
            | some (_, name) =>
              match signalNumber? name with
              | some n => pure (some n)
              | none => Sh.fail ("invalid signal number or name: ".toList ++ name)
            | none => pure none
          pure (signal, found.any (·.1 == 'l'), rest)
      | _ => pure (none, false, args)
  if list then
    if signal.isSome then killUsage
    listSignals targets
  else
    if targets.isEmpty then killUsage
    let sent ← targets.mapM (sendSignal (signal.getD 15))
    return if sent.all id then 0 else 1

/-- Says what is done when a signal comes. -/
def setTrap (action : Option Raw) (signal : Nat) : Sh Unit := do
  modify fun s =>
    let others := s.traps.filter (·.1 != signal)
    { s with traps := match action with
      | some text => (signal, text) :: others
      | none => others }
  if signal != 0 then
    let behaviour := match action with
      | none => SignalAction.default
      | some [] => .ignore
      | some _ => .catch
    let _ ← Sh.ask (.onSignal signal behaviour)

def showTraps : Sh Unit := do
  let s ← get
  let ordered := s.traps.mergeSort fun a b => a.1 ≤ b.1
  ordered.forM fun (signal, action) =>
    Sh.put ("trap -- ".toList ++ quote action ++ Raw.ofString (" " ++ Signal.name signal ++ "\n"))

def trap (args : List Raw) : Sh Nat := do
  let (_, args) ← options "" args
  match args with
  | [] =>
    showTraps
    return 0
  | first :: rest =>
    let single := rest.isEmpty || (plainNumber? first).any (· ≤ Signal.last)
    let action := if single || first == ['-'] then none else some first
    Sh.iterate (fun left => do
      match left with
      | [] => return .inr 0
      | name :: rest =>
        match signalNumber? name with
        | none =>
          complain ("trap: ".toList ++ name ++ ": bad trap".toList)
          return .inr 1
        | some signal =>
          setTrap action signal
          return .inl rest) (fun _ => pure 0) (args.length + 1) (if single then args else rest)

/-- The times that the shell and its children took, which are not measured. -/
def times : Sh Nat := do
  Sh.putText "0m0.000000s 0m0.000000s\n0m0.000000s 0m0.000000s\n"
  return 0

/-- Nothing is limited. -/
def limits (args : List Raw) : Sh Nat := do
  let _ ← options "HSatfdscmlpnvwr" args
  Sh.putText "unlimited\n"
  return 0

end LedgerConformance.Shell.Builtin
