import LedgerConformance.Program.Options

/-!
The program that writes files one behind the other, with lines numbered and
special characters shown if that is asked for.
-/

namespace LedgerConformance.Program.Cat

def table : OptionTable where
  letters := "AbeEnstTuv".toList.map fun c => (c, .none)
  words := [
    ("number-nonblank", .none, "b"), ("number", .none, "n"), ("squeeze-blank", .none, "s"),
    ("show-nonprinting", .none, "v"), ("show-ends", .none, "E"), ("show-tabs", .none, "T"),
    ("show-all", .none, "A"), ("help", .none, "help"), ("version", .none, "version")]

/-- What is shown. -/
structure Style where
  numbers : Bool := false
  /-- Empty lines have no number. -/
  onlyFilled : Bool := false
  squeezes : Bool := false
  ends : Bool := false
  tabs : Bool := false
  controls : Bool := false

def Style.isPlain (s : Style) : Bool := !(s.numbers || s.squeezes || s.ends || s.tabs || s.controls)

def Style.add (s : Style) (o : GivenOption) : Style :=
  match o.name with
  | "A" => { s with controls := true, ends := true, tabs := true }
  | "b" => { s with numbers := true, onlyFilled := true }
  | "e" => { s with controls := true, ends := true }
  | "E" => { s with ends := true }
  | "n" => { s with numbers := true }
  | "s" => { s with squeezes := true }
  | "t" => { s with controls := true, tabs := true }
  | "T" => { s with tabs := true }
  | "v" => { s with controls := true }
  | _ => s

/-- Where in the text the writing stands. -/
structure Place where
  /-- Line feeds that came last, at the start of a line; there is none inside one. -/
  feeds : Option Nat := some 0
  number : Nat := 0
  /-- A carriage return waits to be seen before a line feed. -/
  waiting : Bool := false

/-- The number of a line. -/
def numberText (n : Nat) : Raw :=
  let digits := Raw.ofNat n
  List.replicate (6 - digits.length) ' ' ++ digits ++ ['\t']

/-- A character as it is shown. -/
def shown (s : Style) (c : Char) : Raw :=
  let low (n : Nat) : Raw :=
    if n == 127 then ['^', '?'] else if n < 32 then ['^', Char.ofNat (n + 64)] else [Char.ofNat n]
  if c == '\t' then if s.tabs then ['^', 'I'] else [c]
  else if !s.controls then [c]
  else if c.toNat < 128 then low c.toNat
  else 'M' :: '-' :: low (c.toNat - 128)

/-- The number before a line, if it has one. -/
def opening (s : Style) (p : Place) (filled : Bool) : Raw × Place :=
  if s.numbers && (filled || !s.onlyFilled) then
    (numberText (p.number + 1), { p with number := p.number + 1 })
  else ([], p)

/-- A line feed. -/
def feed (s : Style) (p : Place) : Raw × Place :=
  let ended : Raw := if s.ends then ['$', '\n'] else ['\n']
  match p.feeds with
  | none => (ended, { p with feeds := some 0 })
  | some n =>
    if n ≥ 1 && s.squeezes then ([], { p with feeds := some 2 })
    else
      let (start, p) := opening s p false
      (start ++ ended, { p with feeds := some (n + 1) })

/-- Any other character. -/
def letter (s : Style) (p : Place) (text : Raw) : Raw × Place :=
  match p.feeds with
  | none => (text, p)
  | some _ =>
    let (start, p) := opening s p true
    (start ++ text, { p with feeds := none })

/-- One character; a carriage return before a line feed is shown where ends are. -/
def step (s : Style) (p : Place) (c : Char) : Raw × Place :=
  let (before, p) :=
    if p.waiting then
      letter s { p with waiting := false } (if c == '\n' then ['^', 'M'] else ['\r'])
    else ([], p)
  if c == '\r' && s.ends && !s.controls then (before, { p with waiting := true })
  else
    let (text, p) := if c == '\n' then feed s p else letter s p (shown s c)
    (before ++ text, p)

/-- A piece of the text. -/
def piece (s : Style) (p : Place) (text : Raw) : Raw × Place :=
  if s.isPlain then (text, p)
  else
    let (done, p) := text.foldl (fun (done, p) c =>
      let (t, p) := step s p c
      (t.reverse ++ done, p)) ([], p)
    (done.reverse, p)

/-- How the copying of a file came out. -/
structure Copied where
  place : Place
  failed : Bool := false
  /-- Nothing more can be written. -/
  ended : Bool := false

/-- Copies a descriptor to its end. -/
def copy (program name : Raw) (s : Style) (descriptor : Nat) : (steps : Nat) → Place → Act Copied
  | 0, p => return { place := p }
  | steps + 1, p => do
    match ← Act.read descriptor Act.blockSize with
    | .error e =>
      complainOf program name e
      return { place := p, failed := true }
    | .ok [] => return { place := p }
    | .ok text =>
      let (text, p) := piece s p text
      match ← Act.write 1 text with
      | some e =>
        complain program ("write error: " ++ e.describe)
        return { place := p, failed := true, ended := true }
      | none => copy program name s descriptor steps p

def inputDescriptor : Nat := 3

/-- Copies a file, or the input. -/
def file (program name : Raw) (s : Style) (p : Place) : Act Copied := do
  let copied (descriptor : Nat) : Act Copied := do
    if ← Act.ask (.overlap descriptor 1) then
      complain program (Text.Quotation.fileName name ++ ": input file is output file")
      return { place := p, failed := true }
    copy program name s descriptor Act.manyBlocks p
  if name == ['-'] then copied 0
  else
    Act.withFile inputDescriptor name .read (fun e => do
      complainOf program name e
      return { place := p, failed := true }) (copied inputDescriptor)

/-- Copies files one after the other. -/
def files (program : Raw) (s : Style) : List Raw → Place → (failed : Bool) → Act Nat
  | [], p, failed => do
    let rest : Raw := if p.waiting then ['\r'] else []
    let e ← Act.write 1 rest
    return if failed || e.isSome then 1 else 0
  | name :: rest, p, failed => do
    let done ← file program name s p
    if done.ended then return 1
    files program s rest done.place (failed || done.failed)

def run (program : Raw) (args : List Raw) : Act Nat := do
  let given := table.read args
  match given.fault with
  | some text => usageError program 1 text
  | none =>
    let operands := given.operands
    let style := given.options.foldl Style.add {}
    match ← Act.ask (.examineOpen 1) with
    | .error e =>
      complain program ("standard output: " ++ e.describe)
      return 1
    | .ok _ =>
      let names := if operands.isEmpty then [['-']] else operands
      let status ← files program style names {} false
      match names.contains ['-'], ← Act.ask (.examineOpen 0) with
      | true, .error e =>
        complain program ("closing standard input: " ++ e.describe)
        return 1
      | _, _ => return status

end LedgerConformance.Program.Cat
