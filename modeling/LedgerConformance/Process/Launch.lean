import LedgerConformance.Command.Tool
import LedgerConformance.Program.Table

/-!
Starting programs and waiting for them. Whether a program has ended is looked
at in fixed intervals, and one that overruns its bound is killed together with
all that it started. After a program has ended its output is read for a while,
because what it left in the background may still write.
-/

namespace LedgerConformance.Launch

/-- Microseconds until a started program does anything. -/
def startup : Nat := 1000

def pollInterval : Nat := 20000

/-- How long output is read after the end. -/
def drainTime : Nat := 500000

/-- The first look at or after a time. -/
def nextPoll (time : Nat) : Nat := (time + pollInterval - 1) / pollInterval * pollInterval

/-- More steps than any run takes. -/
def manySteps : Nat := 1000000000

/-- The directories in which programs are looked for. -/
def directories : List String := ["/usr/bin/", "/bin/"]

/-- The program at a path. -/
def programAt (fs : FileSystem) (path : String) : Except FileError String := do
  match ← fs.node path with
  | .program name => return name
  | _ => throw .permissionDenied

/-- The program that a name or path stands for. A name that leads to something else
may not be run, and one that leads nowhere is not found. -/
def findProgram (fs : FileSystem) (name : String) : Except FileError String :=
  if name.toList.contains '/' then programAt fs name
  else if name.isEmpty then .error .notFound
  else if name.utf8ByteSize > FileSystem.longestName then .error .nameTooLong
  else
    let results := directories.map fun d => programAt fs (d ++ name)
    match results.find? Except.isOk with
    | some found => found
    | none =>
      let denied := results.any fun
        | .error .permissionDenied => true
        | _ => false
      .error (if denied then .permissionDenied else .notFound)

/-- The number of the process that is started. -/
def mainNumber : Nat := 50

def environment : List Raw :=
  ["PATH=/usr/local/sbin:/usr/local/bin:/usr/sbin:/usr/bin:/sbin:/bin".toList, "HOME=/root".toList]

/-- The world in which a program is started: its input is empty, and what it writes
is collected. -/
def start (fs : FileSystem) (task : Task) : World :=
  let process : Process :=
    { number := mainNumber, parent := 0, ready := startup, task
      descriptors := [(0, 1), (1, 2), (2, 3)], working := fs.working }
  { files := fs
    openFiles := [
      (1, ⟨.device .null, true, false, false, 0⟩), (2, ⟨.sink .out, false, true, false, 0⟩),
      (3, ⟨.sink .err, false, true, false, 0⟩)]
    processes := [process] }

/-- How the started process ended, if it has. -/
def ending? (w : World) : Option Ending :=
  (w.processes.find? fun p => p.number == mainNumber).bind (·.ending)

/-- What a stream has received before a time. -/
def written (w : World) (sink : Sink) (before : Nat) : String :=
  let early := w.received.filter fun (time, s, _) => s == sink && time < before
  Raw.toString (early.reverse.map (·.2.2)).flatten

/-- Runs a program for no longer than a bound. -/
def run (fs : FileSystem) (task : Task) (timeout : Command.Bound) :
    Command.Ended × FileSystem :=
  let killPoll := nextPoll timeout.microseconds
  let hasEnded (w : World) : Bool := (ending? w).isSome
  let w := World.run Program.load (killPoll + 1) hasEnded manySteps (start fs task)
  match ending? w with
  | none =>
    ({ stdout := written w .out killPoll, stderr := written w .err killPoll, timedOut := true
       duration := 1000 * killPoll }, { w.files with working := fs.working })
  | some ending =>
    let endPoll := nextPoll w.now
    let last := endPoll + drainTime
    let w := World.run Program.load last (fun w => w.processes.all fun p => !p.isAlive) manySteps w
    let exitCode := match ending with
      | .status n => some (n : Int)
      | .signal _ => none
    ({ exitCode, stdout := written w .out last, stderr := written w .err last
       duration := 1000 * endPoll }, { w.files with working := fs.working })

/-- Starts a program and waits for it. -/
def launch : Command.Launch := fun argv timeout => do
  match argv with
  | [] => throw .emptyCommand
  | name :: _ =>
    if argv.any fun s => s.toList.contains (Char.ofNat 0) then throw .zeroByte
    let fs ← get
    match findProgram fs name with
    | .error e => throw (.file e)
    | .ok program =>
      let task := Program.load program (argv.map Raw.ofString) environment
      let (ended, files) := run fs task timeout
      set files
      return ended

end LedgerConformance.Launch
