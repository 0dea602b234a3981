import LedgerConformance.Process.Signal
import LedgerConformance.Process.Task

/-!
The system that programs run in: files, open files with their positions, pipes,
and processes, each with the time at which it goes on. Of those that can go on
the one with the least time does, so a run is determined by what it starts with.
-/

namespace LedgerConformance

/-- A stream that is collected outside. -/
inductive Sink where
  | out
  | err
deriving DecidableEq, Repr

/-- What bytes are read from or written to. -/
inductive Target where
  | file (names : List String)
  | directory
  | device (device : Device)
  | pipe (number : Nat)
  | sink (sink : Sink)
deriving DecidableEq, Repr

/-- An open file; processes share it with those that they start. -/
structure OpenFile where
  target : Target
  reads : Bool
  writes : Bool
  appends : Bool := false
  offset : Nat := 0
deriving Repr

structure Process where
  number : Nat
  parent : Nat
  /-- The time in microseconds at which it goes on. -/
  ready : Nat
  task : Task
  /-- Descriptors and the open files that they stand for. -/
  descriptors : List (Nat × Nat)
  working : List String
  mask : Nat := 18
  actions : List (Nat × SignalAction) := []
  caught : List Nat := []
  stopped : Bool := false
  ending : Option Ending := none

/-- What a descriptor is used for, by number. -/
structure World where
  files : FileSystem
  openFiles : List (Nat × OpenFile) := []
  pipes : List (Nat × Raw) := []
  /-- All processes, those included that have ended and were not waited for. -/
  processes : List Process := []
  now : Nat := 0
  /-- What the collected streams received, the latest first. -/
  received : List (Nat × Sink × Raw) := []
  nextNumber : Nat := 100

/-- The program that is started by a name, with arguments and an environment. -/
abbrev Loader : Type := String → List Raw → List Raw → Task

namespace Process

def action (p : Process) (signal : Nat) : SignalAction :=
  (p.actions.lookup signal).getD .default

def isAlive (p : Process) : Bool := p.ending.isNone

/-- Puts a value in the place of one with its key, or in front. -/
def setKey {α : Type} (key : Nat) (value : α) (entries : List (Nat × α)) : List (Nat × α) :=
  (key, value) :: entries.filter (·.1 != key)

def eraseKey {α : Type} (key : Nat) (entries : List (Nat × α)) : List (Nat × α) :=
  entries.filter (·.1 != key)

end Process

/-- What comes of a request: it has to wait, it is answered after some time, or
the process ends. -/
inductive Reply (α : Type) where
  | blocked
  | answer (value : α) (world : World) (process : Process) (cost : Nat)
  | ended (ending : Ending)

namespace World

open Process

/-- Microseconds that requests take. -/
def callCost : Nat := 2

def forkCost : Nat := 60

def childDelay : Nat := 200

def loadCost : Nat := 600

/-- The most that a pipe holds. -/
def pipeCapacity : Nat := 65536

/-- Descriptors from here on do not outlive a change of the program. -/
def firstPrivate : Nat := 10

/-- The lowest descriptor from `first` on that is not used. -/
def freeDescriptor (used : List (Nat × Nat)) : (steps : Nat) → (first : Nat) → Nat
  | 0, first => first
  | steps + 1, first =>
    if (used.lookup first).isSome then freeDescriptor used steps (first + 1) else first

def openFile? (w : World) (p : Process) (descriptor : Nat) : Option (Nat × OpenFile) := do
  let number ← p.descriptors.lookup descriptor
  let file ← w.openFiles.lookup number
  return (number, file)

/-- Forgets open files that no process has, and pipes without them. -/
def tidy (w : World) : World :=
  let used := w.processes.flatMap fun p => p.descriptors.map (·.2)
  let openFiles := w.openFiles.filter fun f => used.contains f.1
  { w with
    openFiles
    pipes := w.pipes.filter fun q => openFiles.any fun f => f.2.target == .pipe q.1 }

def setProcess (w : World) (p : Process) : World :=
  { w with processes := w.processes.map fun q => if q.number == p.number then p else q }

/-- Whether any process has an end of a pipe. -/
def hasEnd (w : World) (pipe : Nat) (wanted : OpenFile → Bool) : Bool :=
  w.processes.any fun p => p.descriptors.any fun d =>
    match w.openFiles.lookup d.2 with
    | some f => f.target == .pipe pipe && wanted f
    | none => false

/-- The files as a process sees them. -/
def view (w : World) (p : Process) : FileSystem := { w.files with working := p.working }

/-- Gives a descriptor to an open file. -/
def attach (w : World) (p : Process) (descriptor : Nat) (file : OpenFile) : World × Process :=
  let number := w.nextNumber
  ({ w with openFiles := (number, file) :: w.openFiles, nextNumber := number + 1 },
    { p with descriptors := setKey descriptor number p.descriptors })

/-- The target of a path, which comes about if it may. -/
def resolve (w : World) (p : Process) (path : String) (access : Access) :
    Except FileError (World × Target) := do
  let fs := w.view p
  match fs.node path with
  | .ok (.directory _) =>
    if access.writes then throw .isDirectory
    return (w, .directory)
  | .ok (.device d) => return (w, .device d)
  | .ok (.program _) =>
    if access.writes then throw .permissionDenied
    return (w, .device .null)
  | .ok (.file _) =>
    if access.fresh then throw .alreadyExists
    let names ← fs.locate path
    if access.empties then
      return ({ w with files := { w.files with root := fs.root.insert names (.file .empty) } },
        .file names)
    return (w, .file names)
  | .error .notFound =>
    if access.creates then
      let names ← fs.target path
      return ({ w with files := { w.files with root := fs.root.insert names (.file .empty) } },
        .file names)
    throw .notFound
  | .error e => throw e

/-- Opens a path at a descriptor. -/
def openAt (w : World) (p : Process) (descriptor : Nat) (path : Raw) (access : Access) :
    Except CallError (World × Process) :=
  let path := Raw.toString path
  match Path.descriptor? path with
  | some source =>
    match w.openFile? p source with
    | some (_, file) =>
      .ok (w.attach p descriptor { file with reads := access.reads, writes := access.writes })
    | none => .error (.file .notFound)
  | none =>
    match w.resolve p path access with
    | .error e => .error (.file e)
    | .ok (w, target) =>
      .ok (w.attach p descriptor ⟨target, access.reads, access.writes, access.appends, 0⟩)

/-- The content of a file. -/
def content (w : World) (names : List String) : ByteArray :=
  match w.files.root.find? names with
  | some (.file content) => content
  | _ => .empty

def setOpenFile (w : World) (number : Nat) (file : OpenFile) : World :=
  { w with openFiles := w.openFiles.map fun f => if f.1 == number then (number, file) else f }

def read (w : World) (p : Process) (descriptor count : Nat) (patience : Patience) :
    Reply (Except CallError Raw) :=
  let failed (e : CallError) : Reply (Except CallError Raw) := .answer (.error e) w p callCost
  match w.openFile? p descriptor with
  | none => failed .badDescriptor
  | some (number, file) =>
    if !file.reads then failed .badDescriptor
    else
      match file.target with
      | .file names =>
        let bytes := Raw.ofBytes ((w.content names).extract file.offset (file.offset + count))
        .answer (.ok bytes)
          (w.setOpenFile number { file with offset := file.offset + bytes.length }) p callCost
      | .directory => failed (.file .isDirectory)
      | .device .zero | .device .full =>
        .answer (.ok (List.replicate count (Char.ofNat 0))) w p (callCost + count / 1000)
      | .device .null | .sink _ => .answer (.ok []) w p callCost
      | .pipe pipe =>
        match w.pipes.lookup pipe with
        | some (c :: rest) =>
          let held := c :: rest
          .answer (.ok (held.take count))
            { w with pipes := setKey pipe (held.drop count) w.pipes } p callCost
        | _ =>
          if !w.hasEnd pipe (·.writes) then .answer (.ok []) w p callCost
          else if patience == .untilSignal && !p.caught.isEmpty then failed .interrupted
          else .blocked

def write (w : World) (p : Process) (descriptor : Nat) (bytes : Raw) :
    Reply (Option CallError) :=
  let failed (e : CallError) : Reply (Option CallError) := .answer (some e) w p callCost
  match w.openFile? p descriptor with
  | none => failed .badDescriptor
  | some (number, file) =>
    if !file.writes then failed .badDescriptor
    else
      match file.target with
      | .file names =>
        let old := w.content names
        let offset := if file.appends then old.size else file.offset
        let new := Node.file (FileSystem.overwrite old offset (Raw.toBytes bytes))
        let w := { w with files := { w.files with root := w.files.root.insert names new } }
        .answer none
          (w.setOpenFile number { file with offset := offset + bytes.length }) p callCost
      | .directory => failed .badDescriptor
      | .device .full => failed (.file .noSpace)
      | .device _ => .answer none w p callCost
      | .sink sink =>
        .answer none { w with received := (w.now, sink, bytes) :: w.received } p callCost
      | .pipe pipe =>
        if !w.hasEnd pipe (·.reads) then
          match p.action Signal.brokenPipe with
          | .default => .ended (.signal Signal.brokenPipe)
          | .ignore => failed .brokenPipe
          | .catch =>
            .answer (some .brokenPipe) w
              { p with caught := p.caught ++ [Signal.brokenPipe] } callCost
        else
          let held := (w.pipes.lookup pipe).getD []
          if held.length + bytes.length > pipeCapacity then .blocked
          else .answer none { w with pipes := setKey pipe (held ++ bytes) w.pipes } p callCost

def foundAt (node : Node) : Found :=
  match node with
  | .file content => .file content.size
  | .directory _ => .directory
  | .device _ => .device
  | .program _ => .program

def foundOpen (w : World) (file : OpenFile) : Found :=
  match file.target with
  | .file names => .file (w.content names).size
  | .directory => .directory
  | .device _ => .device
  | .pipe _ | .sink _ => .pipe

def examineOpen (w : World) (p : Process) (descriptor : Nat) : Except CallError Found :=
  match w.openFile? p descriptor with
  | some (_, file) => .ok (w.foundOpen file)
  | none => .error .badDescriptor

def examine (w : World) (p : Process) (path : Raw) : Except CallError Found :=
  let path := Raw.toString path
  match Path.descriptor? path with
  | some descriptor =>
    match w.openFile? p descriptor with
    | some (_, file) => .ok (w.foundOpen file)
    | none => .error (.file .notFound)
  | none =>
    match (w.view p).node path with
    | .ok node => .ok (foundAt node)
    | .error e => .error (.file e)

def entries (w : World) (p : Process) (path : Raw) : Except CallError (List Raw) :=
  match (w.view p).node (Raw.toString path) with
  | .ok (.directory entries) => .ok (entries.map fun e => Raw.ofString e.1)
  | .ok _ => .error (.file .notDirectory)
  | .error e => .error (.file e)

def overlap (w : World) (p : Process) (source target : Nat) : Bool :=
  match w.openFile? p source, w.openFile? p target with
  | some (_, s), some (_, t) =>
    match s.target, t.target with
    | .file a, .file b => a == b && s.offset < (w.content a).size
    | _, _ => false
  | _, _ => false

/-- What a signal does to a process. -/
def signalled (p : Process) (signal : Nat) : Process :=
  if signal == 0 || !p.isAlive then p
  else if signal == Signal.kill then { p with ending := some (.signal signal) }
  else if signal == Signal.stop then { p with stopped := true }
  else
    let p := if signal == Signal.resume then { p with stopped := false } else p
    match p.action signal with
    | .ignore => p
    | .catch => if p.caught.contains signal then p else { p with caught := p.caught ++ [signal] }
    | .default =>
      if Signal.isHarmless signal then p
      else if Signal.stops signal then { p with stopped := true }
      else { p with ending := some (.signal signal) }

/-- The children of a process that ended have nobody to wait for them, and what
it held open is closed. -/
def settle (w : World) : World :=
  let gone := (w.processes.filter fun p => !p.isAlive).map (·.number)
  let processes := w.processes.map fun p =>
    let p := if p.isAlive then p else { p with descriptors := [] }
    if gone.contains p.parent then { p with parent := 1 } else p
  { w with processes := processes.filter fun p => p.isAlive || p.parent != 1 }.tidy

/-- Tells the parent of a process that ended, if it wants to know. -/
def tellParent (w : World) (p : Process) : World :=
  { w with
    processes := w.processes.map fun q =>
      if q.number == p.parent then signalled q Signal.child else q }

/-- The processes that a number stands for: one, or all of them. -/
def addressed (w : World) (number : Int) : List Process :=
  w.processes.filter fun q =>
    (q.number : Int) == number || number == 0 || number == -1 || (number < 0 &&
      w.processes.any fun r => (-(r.number : Int)) == number && r.parent == 0)

def kill (w : World) (p : Process) (number : Int) (signal : Nat) : Reply (Option CallError) :=
  let reached := w.addressed number
  if reached.isEmpty then .answer (some (.file .notFound)) w p callCost
  else
    let isReached (q : Process) : Bool := reached.any (·.number == q.number)
    let w := { w with
      processes := w.processes.map fun q => if isReached q then signalled q signal else q }
    let killed := w.processes.filter fun q => isReached q && !q.isAlive
    let w := killed.foldl tellParent w
    let p := if isReached p then signalled p signal else p
    match p.ending with
    | some ending => .answer none w { p with ending := some ending } callCost
    | none => .answer none w p callCost

def await (w : World) (p : Process) (process : Option Nat) (patience : Patience) :
    Reply Awaited :=
  let children := w.processes.filter fun q =>
    q.parent == p.number && (process.isNone || process == some q.number)
  let ended := children.filter fun q => !q.isAlive
  match ended.mergeSort fun a b => a.ready ≤ b.ready with
  | q :: _ =>
    match q.ending with
    | some ending =>
      .answer (.ended q.number ending)
        { w with processes := w.processes.filter (·.number != q.number) } p callCost
    | none => .answer .none w p callCost
  | [] =>
    if children.isEmpty then .answer .noChild w p callCost
    else if patience == .never || (patience == .untilSignal && !p.caught.isEmpty) then
      .answer .none w p callCost
    else .blocked

/-- The program that a path leads to. -/
def program (w : World) (p : Process) (path : Raw) : Except FileError String := do
  match ← (w.view p).node (Raw.toString path) with
  | .program name => return name
  | _ => throw .permissionDenied

/-- Answers a request. -/
def perform (w : World) (p : Process) : (request : Request) → Reply request.Answer
  | .spend micros => .answer () w p micros
  | .identity => .answer (p.number, p.parent) w p 0
  | .await process patience => w.await p process patience
  | .open descriptor path access =>
    match w.openAt p descriptor path access with
    | .ok (w, p) => .answer none w p callCost
    | .error e => .answer (some e) w p callCost
  | .duplicate source target =>
    match p.descriptors.lookup source with
    | none => .answer (some .badDescriptor) w p callCost
    | some number =>
      .answer none w { p with descriptors := setKey target number p.descriptors } callCost
  | .save descriptor =>
    match p.descriptors.lookup descriptor with
    | none => .answer none w p callCost
    | some number =>
      let copy := freeDescriptor p.descriptors (p.descriptors.length + 1) firstPrivate
      .answer (some copy) w { p with descriptors := setKey copy number p.descriptors } callCost
  | .close descriptor =>
    .answer () w { p with descriptors := eraseKey descriptor p.descriptors } callCost
  | .pipe =>
    let number := w.nextNumber
    let w := { w with pipes := (number, []) :: w.pipes, nextNumber := number + 1 }
    let source := freeDescriptor p.descriptors (p.descriptors.length + 1) firstPrivate
    let (w, p) := w.attach p source ⟨.pipe number, true, false, false, 0⟩
    let target := freeDescriptor p.descriptors (p.descriptors.length + 1) firstPrivate
    let (w, p) := w.attach p target ⟨.pipe number, false, true, false, 0⟩
    .answer (source, target) w p callCost
  | .read descriptor count patience => w.read p descriptor count patience
  | .write descriptor bytes => w.write p descriptor bytes
  | .overlap source target => .answer (w.overlap p source target) w p callCost
  | .examine path => .answer (w.examine p path) w p callCost
  | .examineOpen descriptor => .answer (w.examineOpen p descriptor) w p callCost
  | .entries path => .answer (w.entries p path) w p callCost
  | .enter path =>
    let fs := w.view p
    match fs.node (Raw.toString path), fs.locate (Raw.toString path) with
    | .ok (.directory _), .ok names => .answer none w { p with working := names } callCost
    | .ok _, _ => .answer (some (.file .notDirectory)) w p callCost
    | .error e, _ => .answer (some (.file e)) w p callCost
  | .location =>
    .answer (Raw.ofString ("/" ++ "/".intercalate p.working)) w p callCost
  | .mask new => .answer p.mask w { p with mask := new.getD p.mask } callCost
  | .kill process signal => w.kill p process signal
  | .onSignal signal action =>
    .answer (p.action signal) w { p with actions := setKey signal action p.actions } callCost
  | .caught => .answer p.caught w { p with caught := [] } 0
  | .pendingSignal => .answer p.caught.head? w p 0
  | .become path _ _ =>
    match w.program p path with
    | .error e => .answer (.file e) w p callCost
    | .ok _ => .ended (.status 0)

/-- A process that becomes another program. -/
def loaded (p : Process) (task : Task) : Process :=
  { p with
    task
    ready := p.ready + loadCost
    descriptors := p.descriptors.filter (·.1 < firstPrivate)
    actions := p.actions.filter fun a => a.2 == .ignore
    caught := [] }

/-- The end of a process. -/
def finish (w : World) (p : Process) (ending : Ending) : World :=
  (tellParent (w.setProcess { p with ending := some ending, ready := w.now }) p).settle

/-- One step of a process, unless it has to wait. -/
def advance (load : Loader) (w : World) (p : Process) : Option World :=
  let time := max p.ready w.now
  let w := { w with now := time }
  let p := { p with ready := time }
  match p.task with
  | .exit status => some (w.finish p (.status (status % 256)))
  | .fork child next =>
    let number := w.nextNumber
    let second := { p with
      number, parent := p.number, task := child, ready := time + childDelay, caught := [] }
    let first := { p with task := next number, ready := time + forkCost }
    let w := (w.setProcess first)
    some { w with processes := w.processes ++ [second], nextNumber := number + 1 }
  | .ask (.become path arguments environment) next =>
    match w.program p path with
    | .ok name => some (w.setProcess (loaded p (load name arguments environment))).tidy
    | .error e => some (w.setProcess { p with task := next (.file e), ready := time + callCost })
  | .ask request next =>
    match w.perform p request with
    | .blocked => none
    | .ended ending => some (w.finish p ending)
    | .answer value w p cost =>
      let p := { p with task := next value, ready := p.ready + cost }
      match p.ending with
      | some ending => some (w.finish p ending)
      | none =>
        let w := w.setProcess p
        match request with
        | .close _ | .duplicate .. => some w.tidy
        | .kill .. => some w.settle
        | _ => some w

/-- The processes that could go on, the one with the least time first. -/
def queue (w : World) : List Process :=
  let alive := w.processes.filter fun p => p.isAlive && !p.stopped
  match alive with
  | [p] => [p]
  | alive => alive.mergeSort fun a b => max a.ready w.now ≤ max b.ready w.now

/-- One step before a time, if any process can take one. -/
def step (load : Loader) (w : World) (limit : Nat) : Option World :=
  (w.queue.takeWhile fun p => max p.ready w.now < limit).findSome? (w.advance load)

/-- Goes on until a time, or until `done` is reached. -/
def run (load : Loader) (limit : Nat) (done : World → Bool) : (steps : Nat) → World → World
  | 0, w => w
  | steps + 1, w =>
    if done w then w
    else
      match w.step load limit with
      | some w => run load limit done steps w
      | none => w

end World

end LedgerConformance
