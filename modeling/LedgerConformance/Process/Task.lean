import LedgerConformance.FileSystem.Tree
import LedgerConformance.Text.Raw

/-!
Programs as trees of requests. A running program either ends, splits into two,
or asks the system for something and goes on with the answer. Programs are
written in a monad whose actions are such requests.
-/

namespace LedgerConformance

/-- How a program ended. -/
inductive Ending where
  | status (status : Nat)
  | signal (signal : Nat)
deriving DecidableEq, Repr

/-- What a signal does to a program. -/
inductive SignalAction where
  | default
  | ignore
  | catch
deriving DecidableEq, Repr

/-- Why a request failed. -/
inductive CallError where
  | file (reason : FileError)
  | badDescriptor
  | brokenPipe
  | interrupted
deriving DecidableEq, Repr

def CallError.describe : CallError → String
  | file reason => reason.describe.1
  | badDescriptor => "Bad file descriptor"
  | brokenPipe => "Broken pipe"
  | interrupted => "Interrupted system call"

/-- How a file is opened. -/
structure Access where
  reads : Bool := false
  writes : Bool := false
  creates : Bool := false
  /-- The file must not be there yet. -/
  fresh : Bool := false
  empties : Bool := false
  appends : Bool := false

namespace Access

def read : Access := { reads := true }

def write : Access := { writes := true, creates := true, empties := true }

def append : Access := { writes := true, creates := true, appends := true }

def both : Access := { reads := true, writes := true, creates := true }

end Access

/-- What is at a path. -/
inductive Found where
  | file (size : Nat)
  | directory
  | device
  | pipe
  | program
deriving DecidableEq, Repr

/-- What became of the children of a program. -/
inductive Awaited where
  | ended (process : Nat) (ending : Ending)
  | noChild
  /-- None has ended yet, or a signal came first. -/
  | none
deriving DecidableEq, Repr

/-- How long a program waits. -/
inductive Patience where
  | never
  | always
  /-- Until a signal is caught. -/
  | untilSignal
deriving DecidableEq, Repr

/-- What a program asks for. -/
inductive Request where
  /-- Time in microseconds. -/
  | spend (micros : Nat)
  | identity
  | await (process : Option Nat) (patience : Patience)
  | open (descriptor : Nat) (path : Raw) (access : Access)
  | duplicate (source target : Nat)
  /-- A private copy of a descriptor. -/
  | save (descriptor : Nat)
  | close (descriptor : Nat)
  | pipe
  | read (descriptor count : Nat) (patience : Patience)
  | write (descriptor : Nat) (bytes : Raw)
  /-- Whether reading from one descriptor would meet what is written to another. -/
  | overlap (source target : Nat)
  | examine (path : Raw)
  | examineOpen (descriptor : Nat)
  | entries (path : Raw)
  | enter (path : Raw)
  | location
  | mask (new : Option Nat)
  | kill (process : Int) (signal : Nat)
  | onSignal (signal : Nat) (action : SignalAction)
  /-- The signals that were caught since the last time. -/
  | caught
  /-- One of them, which stays. -/
  | pendingSignal
  /-- Becomes another program, which never answers unless that fails. -/
  | become (path : Raw) (arguments environment : List Raw)

/-- What the system answers. -/
@[reducible]
def Request.Answer : Request → Type
  | spend _ | close _ => Unit
  | identity => Nat × Nat
  | save _ => Option Nat
  | await .. => Awaited
  | «open» .. | duplicate .. | write .. | enter _ => Option CallError
  | pipe => Nat × Nat
  | read .. => Except CallError Raw
  | overlap .. => Bool
  | examine _ => Except CallError Found
  | examineOpen _ => Except CallError Found
  | entries _ => Except CallError (List Raw)
  | location => Raw
  | mask _ => Nat
  | kill .. => Option CallError
  | onSignal .. => SignalAction
  | caught => List Nat
  | pendingSignal => Option Nat
  | become .. => CallError

/-- A program from some moment on. -/
inductive Task where
  | exit (status : Nat)
  /-- A second program goes on beside the first, which learns its number. -/
  | fork (child : Task) (next : Nat → Task)
  | ask (request : Request) (next : request.Answer → Task)

instance : Inhabited Task := ⟨.exit 0⟩

/-- Part of a program: a value, and what is done with it. -/
def Act (α : Type) : Type := (α → Task) → Task

namespace Act

instance : Monad Act where
  pure a := fun next => next a
  bind act f := fun next => act fun a => f a next

def ask (request : Request) : Act request.Answer := fun next => .ask request next

/-- Ends the program, whatever comes behind. -/
def exit {α : Type} (status : Nat) : Act α := fun _ => .exit status

/-- Starts a program beside this one. -/
def fork (child : Task) : Act Nat := fun next => .fork child next

/-- The program that an action is. -/
def toTask (act : Act Nat) : Task := act .exit

def spend (micros : Nat) : Act Unit := ask (.spend micros)

def read (descriptor count : Nat) : Act (Except CallError Raw) :=
  ask (.read descriptor count .always)

/-- The number of bytes that are written at once. -/
def pieceSize : Nat := 4096

/-- Writes bytes piece by piece; what cannot be written ends it. -/
def writeAll (descriptor : Nat) : (steps : Nat) → Raw → Act (Option CallError)
  | 0, _ => pure none
  | steps + 1, bytes => do
    match ← ask (.write descriptor (bytes.take pieceSize)) with
    | some e => pure (some e)
    | none =>
      match bytes.drop pieceSize with
      | [] => pure none
      | rest => writeAll descriptor steps rest

/-- Writes bytes, if there are any. -/
def write (descriptor : Nat) (bytes : Raw) : Act (Option CallError) :=
  if bytes.isEmpty then pure none else writeAll descriptor (bytes.length + 1) bytes

/-- Writes a line of text to the stream of faults. -/
def complain (line : String) : Act Unit := do
  let _ ← write 2 (Raw.ofString (line ++ "\n"))

/-- The size of the pieces in which files are read. -/
def blockSize : Nat := 65536

/-- More pieces than any input has. -/
def manyBlocks : Nat := 1000000000

/-- Reads a descriptor to its end, piece by piece. -/
def readAll (descriptor : Nat) : (steps : Nat) → (done : List Raw) → Act (Except CallError Raw)
  | 0, done => pure (.ok done.reverse.flatten)
  | steps + 1, done => do
    match ← read descriptor blockSize with
    | .error e => pure (.error e)
    | .ok [] => pure (.ok done.reverse.flatten)
    | .ok piece => readAll descriptor steps (piece :: done)

/-- All that a descriptor still holds. -/
def contents (descriptor : Nat) : Act (Except CallError Raw) :=
  readAll descriptor manyBlocks []

/-- Opens a file, and closes it behind what is done with it. -/
def withFile {α : Type} (descriptor : Nat) (path : Raw) (access : Access)
    (failed : CallError → Act α) (act : Act α) : Act α := do
  match ← ask (.open descriptor path access) with
  | some e => failed e
  | none =>
    let result ← act
    ask (.close descriptor)
    return result

end Act

end LedgerConformance
