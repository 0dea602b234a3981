/-!
Signals: their numbers, names and descriptions, and what they do to a program
that does not say otherwise.
-/

namespace LedgerConformance.Signal

/-- Names and descriptions by number, from one on. -/
def table : List (String × String) := [
  ("HUP", "Hangup"), ("INT", "Interrupt"), ("QUIT", "Quit"), ("ILL", "Illegal instruction"),
  ("TRAP", "Trace/breakpoint trap"), ("ABRT", "Aborted"), ("BUS", "Bus error"),
  ("FPE", "Floating point exception"), ("KILL", "Killed"), ("USR1", "User defined signal 1"),
  ("SEGV", "Segmentation fault"), ("USR2", "User defined signal 2"), ("PIPE", "Broken pipe"),
  ("ALRM", "Alarm clock"), ("TERM", "Terminated"), ("16", "Stack fault"),
  ("CHLD", "Child exited"), ("CONT", "Continued"), ("STOP", "Stopped (signal)"),
  ("TSTP", "Stopped"), ("TTIN", "Stopped (tty input)"), ("TTOU", "Stopped (tty output)"),
  ("URG", "Urgent I/O condition"), ("XCPU", "CPU time limit exceeded"),
  ("XFSZ", "File size limit exceeded"), ("VTALRM", "Virtual timer expired"),
  ("PROF", "Profiling timer expired"), ("WINCH", "Window changed"), ("IO", "I/O possible"),
  ("PWR", "Power failure"), ("SYS", "Bad system call")]

/-- The largest number of a signal. -/
def last : Nat := 64

/-- The first and last number of the signals without a meaning of their own. -/
def firstFree : Nat := 34

def interrupt : Nat := 2

def quit : Nat := 3

def kill : Nat := 9

def brokenPipe : Nat := 13

def child : Nat := 17

def resume : Nat := 18

def stop : Nat := 19

/-- The name of a signal; zero stands for the end of a script. -/
def name (n : Nat) : String :=
  if n == 0 then "EXIT"
  else if n < firstFree then
    match table[n - 1]? with
    | some (name, _) => name
    | none => toString n
  else if n == firstFree then "RTMIN"
  else if n == last then "RTMAX"
  else if n < 50 then "RTMIN+" ++ toString (n - firstFree)
  else "RTMAX-" ++ toString (last - n)

def description (n : Nat) : String :=
  match table[n - 1]? with
  | some (_, description) => description
  | none =>
    if n < firstFree then "Unknown signal " ++ toString n
    else "Real-time signal " ++ toString (n - firstFree)

/-- The number of a name, in capitals or not. -/
def ofName? (s : String) : Option Nat :=
  let wanted := s.toList.map Char.toUpper
  (List.range (last + 1)).find? fun n => (name n).toList == wanted

/-- Signals that do nothing unless they are asked for. -/
def isHarmless (n : Nat) : Bool := n == child || n == resume || n == 23 || n == 28

/-- Signals that stop a program without ending it. -/
def stops (n : Nat) : Bool := stop ≤ n && n ≤ 22

end LedgerConformance.Signal
