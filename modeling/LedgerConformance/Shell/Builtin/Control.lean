import LedgerConformance.Shell.Builtin.Basic

/-!
Commands that end loops, functions and scripts, and those that move to another
directory.
-/

namespace LedgerConformance.Shell.Builtin

/-- Ends the script. -/
def exitScript (args : List Raw) : Sh Nat := do
  match args with
  | [] => throw .exit
  | a :: _ =>
    let status ← number a
    modify fun s => { s with savedStatus := some status }
    throw .exit

/-- Ends a function. -/
def returnFrom (args : List Raw) : Sh Nat := do
  let status ← match args with
    | [] => do pure (← get).status
    | a :: _ => number a
  modify fun s => { s with skip := .return }
  return status

/-- Ends a number of loops, or goes on with the last of them. -/
def leaveLoops (kind : Skip) (args : List Raw) : Sh Nat := do
  let n ← match args with
    | [] => pure 1
    | a :: _ => number a
  if n == 0 then Sh.fail ("Illegal number: ".toList ++ (args.headD []))
  let s ← get
  let n := min n s.loops
  if n > 0 then set { s with skip := kind, skipCount := n }
  return 0

/-! Directories. -/

/-- A directory that is reached from another one by a path, without dots in it. -/
def normalized (from_ path : Raw) : Raw :=
  let start := if path.head? == some '/' then [] else Raw.splitOn '/' from_
  let names := (start ++ Raw.splitOn '/' path).foldl (fun names s =>
    if s.isEmpty || s == ['.'] then names
    else if s == ['.', '.'] then names.dropLast
    else names ++ [s]) []
  let root := if "//".toList.isPrefixOf path && !"///".toList.isPrefixOf path then "//" else "/"
  root.toList ++ (names.intersperse ['/']).flatten

/-- Notes the directory that was entered. -/
def noteDirectory (directory : Raw) : Sh Unit := do
  let old := (← get).directory
  Sh.setVariable "OLDPWD".toList (some old) true
  modify fun s => { s with directory }
  Sh.setVariable "PWD".toList (some directory) true

/-- Enters a directory; the answer says whether that was possible. -/
def enter (physical : Bool) (path : Raw) : Sh Bool := do
  let s ← get
  let target := if physical then path else normalized s.directory path
  match ← Sh.ask (.enter target) with
  | some _ => return false
  | none =>
    let place ← Sh.ask .location
    noteDirectory (if physical then place else target)
    return true

/-- Whether a path begins with a dot as a name of its own. -/
def startsWithDots (path : Raw) : Bool :=
  match Raw.splitOn '/' path with
  | first :: _ => first == ['.'] || first == ['.', '.']
  | [] => false

/-- The directories of a search path that hold a directory of a name. -/
def searched (directories : List Raw) (name : Raw) : Sh (Option (Raw × Bool)) := do
  Sh.iterate (fun left => do
    match left with
    | [] => return .inr none
    | d :: rest =>
      let path := if d.isEmpty then name else d ++ '/' :: name
      match ← Sh.ask (.examine path) with
      | .ok .directory => return .inr (some (path, !d.isEmpty))
      | _ => return .inl rest) (fun _ => pure none) (directories.length + 1) directories

def changeDirectory (args : List Raw) : Sh Nat := do
  let (found, args) ← options "LP" args
  let physical := found.getLast?.map (·.1) == some 'P'
  let s ← get
  let (target, tells) := match args with
    | [] => ((s.value? "HOME".toList).getD [], false)
    | ['-'] :: _ => ((s.value? "OLDPWD".toList).getD [], true)
    | a :: _ => (a, false)
  let direct := target.head? == some '/' || startsWithDots target
  let directories := Raw.splitOn ':' ((s.value? "CDPATH".toList).getD [])
  let (path, tells) ← if direct then pure (target, tells)
    else
      match ← searched directories (if target.isEmpty then ['.'] else target) with
      | some (path, other) => pure (path, tells || other)
      | none => pure (target, tells)
  if !(← enter physical path) then Sh.fail ("can't cd to ".toList ++ target)
  if tells then Sh.put ((← get).directory ++ ['\n'])
  return 0

def showDirectory (args : List Raw) : Sh Nat := do
  let (found, _) ← options "LP" args
  if found.getLast?.map (·.1) == some 'P' then Sh.put ((← Sh.ask .location) ++ ['\n'])
  else Sh.put ((← get).directory ++ ['\n'])
  return 0

/-! The permissions of new files. -/

/-- Three bits as letters. -/
def permissionLetters (bits : Nat) : Raw :=
  (if bits / 4 % 2 == 1 then ['r'] else []) ++ (if bits / 2 % 2 == 1 then ['w'] else []) ++
    (if bits % 2 == 1 then ['x'] else [])

/-- The bit of each class of users that are named: the owner's, the group's, the others'. -/
def userBits (named : Raw) : Nat :=
  let bit (name : Char) (value : Nat) : Nat :=
    if named.contains 'a' || named.contains name then value else 0
  bit 'u' 64 + bit 'g' 8 + bit 'o' 1

/-- The three bits that a letter behind an operator stands for, where `old` is what is allowed
before the changes: a permission, those of a class, or running what somebody may run. -/
def letterBits (old : Nat) : Char → Nat
  | 'r' => 4
  | 'w' => 2
  | 'x' => 1
  | 'u' => old / 64 % 8
  | 'g' => old / 8 % 8
  | 'o' => old % 8
  | 'X' => if old &&& 73 == 0 then 0 else 1
  | _ => 0

/-- Changes what is allowed by symbolic permissions: classes of users, then operators with their
letters, then a comma before the next classes. Without a class all are meant, and classes
without an operator change nothing at the end. -/
def permissions (old : Nat) : (steps : Nat) → (users allowed : Nat) → Raw → Option Nat
  | _, _, allowed, [] => some allowed
  | 0, _, _, _ => none
  | steps + 1, users, allowed, text =>
    let named := text.takeWhile fun c => "augo".toList.contains c
    let users := users ||| userBits named
    let users := if users == 0 then 73 else users
    match text.drop named.length with
    | [] => some allowed
    | operator :: rest =>
      let letters := rest.takeWhile fun c => "rwxugoXs".toList.contains c
      let bits := letters.foldl (fun bits c => bits ||| letterBits old c) 0 * users
      let allowed? := match operator with
        | '-' => some (allowed &&& (511 - bits))
        | '=' => some (bits ||| (allowed &&& (511 - users * 7)))
        | '+' => some (allowed ||| bits)
        | _ => none
      match allowed?, rest.drop letters.length with
      | none, _ => none
      | some allowed, ',' :: rest => permissions old steps 0 allowed rest
      | some allowed, rest => permissions old steps users allowed rest

def mask (args : List Raw) : Sh Nat := do
  let (found, args) ← options "S" args
  match args with
  | [] =>
    let value ← Sh.ask (.mask none)
    if found.isEmpty then
      let digits := Nat.toDigits 8 value
      Sh.put (List.replicate (4 - digits.length) '0' ++ digits ++ ['\n'])
    else
      let part (scale : Nat) : Raw := permissionLetters (7 - value / scale % 8)
      Sh.put ("u=".toList ++ part 64 ++ ",g=".toList ++ part 8 ++ ",o=".toList ++ part 1 ++ ['\n'])
    return 0
  | a :: _ =>
    if (a.head?.map Char.isDigit).getD false then
      if !a.all Raw.isOctal then Sh.fail ("Illegal number: ".toList ++ a)
      let _ ← Sh.ask (.mask (some (Raw.digitsValue 8 a % 512)))
      return 0
    else
      let allowed := 511 - (← Sh.ask (.mask none))
      match permissions allowed a.length 0 allowed a with
      | some allowed =>
        let _ ← Sh.ask (.mask (some (511 - allowed)))
        return 0
      | none => Sh.fail ("Illegal mode: ".toList ++ a)

end LedgerConformance.Shell.Builtin
