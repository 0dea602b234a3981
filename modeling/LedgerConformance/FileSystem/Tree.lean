import LedgerConformance.FileSystem.Path

/-!
A file system as a value: a tree from the root, and the names that lead to the
working directory. Beside files and directories it holds a few devices and the
programs that can be started.
-/

namespace LedgerConformance

/-- Why a file or directory cannot be used. -/
inductive FileError where
  | notFound
  | permissionDenied
  | alreadyExists
  | notDirectory
  | isDirectory
  | noSpace
  | nameTooLong
  | notText
  | zeroInName
deriving DecidableEq, Repr

/-- What the system says about an error, and its number. -/
def FileError.describe : FileError → String × Nat
  | notFound => ("No such file or directory", 2)
  | permissionDenied => ("Permission denied", 13)
  | alreadyExists => ("File exists", 17)
  | notDirectory => ("Not a directory", 20)
  | isDirectory => ("Is a directory", 21)
  | noSpace => ("No space left on device", 28)
  | nameTooLong => ("File name too long", 36)
  | notText | zeroInName => ("Invalid argument", 22)

def FileError.message : FileError → String
  | notText => "stream did not contain valid UTF-8"
  | zeroInName => "file name contained an unexpected NUL byte"
  | e => e.describe.1 ++ " (os error " ++ toString e.describe.2 ++ ")"

/-- A device: one is empty, one full of zeros, and one takes nothing. -/
inductive Device where
  | null
  | zero
  | full
deriving DecidableEq, Repr

inductive Node where
  | file (content : ByteArray)
  | directory (entries : List (String × Node))
  | device (device : Device)
  /-- A program that can be started, under its own name. -/
  | program (name : String)
deriving Inhabited

namespace Node

def isDirectory : Node → Bool
  | directory _ => true
  | _ => false

/-- The node at the end of a sequence of names. -/
def find? : List String → Node → Option Node
  | [], node => some node
  | name :: rest, directory entries =>
    match entries.lookup name with
    | some node => find? rest node
    | none => none
  | _ :: _, _ => none

/-- Puts an entry in the place of one with its name, or behind the others. -/
def setEntry (name : String) (node : Node) : List (String × Node) → List (String × Node)
  | [] => [(name, node)]
  | (other, n) :: rest =>
    if other == name then (name, node) :: rest else (other, n) :: setEntry name node rest

/-- Puts a node at the end of a sequence of names; missing directories come about. -/
def insert (node : Node) : List String → Node → Node
  | [], new => new
  | name :: rest, new =>
    let entries := match node with
      | directory entries => entries
      | _ => []
    let below := (entries.lookup name).getD (directory [])
    directory (setEntry name (below.insert rest new) entries)

/-- Removes the entry at the end of a sequence of names. -/
def erase (node : Node) : List String → Node
  | [] => node
  | [name] =>
    match node with
    | directory entries => directory (entries.filter (·.1 != name))
    | node => node
  | name :: rest =>
    match node with
    | directory entries =>
      match entries.lookup name with
      | some below => directory (setEntry name (below.erase rest) entries)
      | none => directory entries
    | node => node

end Node

/-- The programs that can be started. -/
def programNames : List String :=
  ["sh", "cat", "sort", "grep", "sleep", "echo", "printf", "true", "false"]

/-- What is there before anything else. -/
def systemRoot : Node :=
  let programs : Node := .directory (programNames.map fun name => (name, .program name))
  let empty (names : List String) : List (String × Node) := names.map fun n => (n, .directory [])
  .directory ([
    ("bin", programs), ("dev", .directory [
      ("full", .device .full), ("null", .device .null), ("stdin", .device .null),
      ("zero", .device .zero)]),
    ("usr", .directory (("bin", programs) :: ("local", .directory (empty ["bin", "lib", "sbin"])) ::
      empty ["include", "lib", "sbin", "share"]))] ++
    empty ["boot", "etc", "home", "lib", "media", "mnt", "opt", "proc", "root", "run", "sbin",
      "srv", "sys", "tmp", "var", "work"])

structure FileSystem where
  root : Node := systemRoot
  /-- The names that lead to the working directory. -/
  working : List String := ["work"]
deriving Inhabited

namespace FileSystem

def longestName : Nat := 255

def longestPath : Nat := 4095

/-- One step from the node at the end of `here`. -/
def step (root : Node) (here : List String) (segment : String) :
    Except FileError (List String) :=
  match root.find? here with
  | some (.directory entries) =>
    if segment == "" || segment == "." then .ok here
    else if segment == ".." then .ok here.dropLast
    else if segment.utf8ByteSize > longestName then .error .nameTooLong
    else if (entries.lookup segment).isSome then .ok (here ++ [segment])
    else .error .notFound
  | some _ => .error .notDirectory
  | none => .error .notFound

def segments (path : String) : List String := (Path.segments path.toList).map String.ofList

/-- What is wrong with the text of a path. -/
def checkPath (path : String) : Except FileError Unit :=
  if path.toList.contains (Char.ofNat 0) then .error .zeroInName
  else if path.isEmpty then .error .notFound
  else if path.utf8ByteSize > longestPath then .error .nameTooLong
  else .ok ()

/-- Where a path starts. -/
def start (fs : FileSystem) (path : String) : List String :=
  if Path.isAbsolute path then [] else fs.working

/-- The names that lead to what is at a path. -/
def locate (fs : FileSystem) (path : String) : Except FileError (List String) := do
  checkPath path
  (segments path).foldlM (step fs.root) (fs.start path)

/-- The node that a path leads to. -/
def node (fs : FileSystem) (path : String) : Except FileError Node := do
  match fs.root.find? (← fs.locate path) with
  | some node => return node
  | none => throw .notFound

def isFile (fs : FileSystem) (path : String) : Bool :=
  match fs.node path with
  | .ok (.file _) | .ok (.program _) => true
  | _ => false

def isDirectory (fs : FileSystem) (path : String) : Bool :=
  match fs.node path with
  | .ok node => node.isDirectory
  | .error _ => false

def contains (fs : FileSystem) (path : String) : Bool := (fs.node path).isOk

def read (fs : FileSystem) (path : String) : Except FileError ByteArray := do
  match ← fs.node path with
  | .file content => return content
  | .directory _ => throw .isDirectory
  | .device _ | .program _ => return .empty

def readText (fs : FileSystem) (path : String) : Except FileError String := do
  match String.fromUTF8? (← fs.read path) with
  | some text => return text
  | none => throw .notText

/-- The directory and the name of something that may be put there. -/
def place (fs : FileSystem) (path : String) : Except FileError (List String × String) := do
  checkPath path
  let segments := Text.dropEndWhile (· == "") (segments path)
  let above ← segments.dropLast.foldlM (step fs.root) (fs.start path)
  match fs.root.find? above with
  | some (.directory _) => return (above, (segments.getLast?).getD "")
  | some _ => throw .notDirectory
  | none => throw .notFound

/-- Where a file can be written, which may exist; its directory has to. -/
def target (fs : FileSystem) (path : String) : Except FileError (List String) := do
  let (above, name) ← fs.place path
  if path.toList.getLast? == some '/' || name == "" || name == "." || name == ".." then
    throw .isDirectory
  if name.utf8ByteSize > longestName then throw .nameTooLong
  match fs.root.find? (above ++ [name]) with
  | some (.directory _) => throw .isDirectory
  | some (.program _) => throw .permissionDenied
  | _ => return above ++ [name]

/-- Replaces what is at the end of a sequence of names; a device takes or refuses it. -/
def put (fs : FileSystem) (names : List String) (content : ByteArray) :
    Except FileError FileSystem :=
  match fs.root.find? names with
  | some (.device .null) | some (.device .zero) => .ok fs
  | some (.device .full) => if content.isEmpty then .ok fs else .error .noSpace
  | _ => .ok { fs with root := fs.root.insert names (.file content) }

/-- Puts bytes into a content at a place; a gap before it is filled with zeros. -/
def overwrite (content : ByteArray) (offset : Nat) (bytes : ByteArray) : ByteArray :=
  if bytes.isEmpty then content
  else
    let gap : ByteArray := ⟨(List.replicate (offset - content.size) 0).toArray⟩
    content.extract 0 offset ++ gap ++ bytes ++ content.extract (offset + bytes.size) content.size

/-- Writes into what is at the end of a sequence of names; a device takes or refuses it. -/
def putAt (fs : FileSystem) (names : List String) (offset : Nat) (bytes : ByteArray) :
    Except FileError FileSystem :=
  match fs.root.find? names with
  | some (.file content) =>
    .ok { fs with root := fs.root.insert names (.file (overwrite content offset bytes)) }
  | _ => fs.put names bytes

/-- Writes a file. -/
def write (fs : FileSystem) (path : String) (content : ByteArray) :
    Except FileError FileSystem := do
  fs.put (← fs.target path) content

def writeText (fs : FileSystem) (path text : String) : Except FileError FileSystem :=
  fs.write path text.toUTF8

/-- Makes one directory. -/
def makeDirectory (fs : FileSystem) (path : String) : Except FileError FileSystem := do
  if fs.contains path then throw .alreadyExists
  let (above, name) ← fs.place path
  if name.utf8ByteSize > longestName then throw .nameTooLong
  return { fs with root := fs.root.insert (above ++ [name]) (.directory []) }

/-- Makes a directory with all that enclose it; `bound` limits how many there are. -/
def makeDirectoriesWithin (fs : FileSystem) (path : String) :
    (bound : Nat) → Except FileError FileSystem
  | 0 => .error .notFound
  | bound + 1 =>
    if path.isEmpty || fs.isDirectory path then .ok fs
    else
      match fs.makeDirectory path with
      | .ok fs => .ok fs
      | .error .notFound => do
        match Path.parent? path with
        | none => throw .notFound
        | some parent =>
          let fs ← makeDirectoriesWithin fs parent bound
          if fs.isDirectory path then return fs else fs.makeDirectory path
      | .error e => .error e

/-- Makes a directory with all that enclose it. -/
def makeDirectories (fs : FileSystem) (path : String) : Except FileError FileSystem :=
  fs.makeDirectoriesWithin path (path.length + 1)

/-- Makes the directories that enclose a path. -/
def makeParents (fs : FileSystem) (path : String) : Except FileError FileSystem :=
  fs.makeDirectories ((Path.parent? path).getD "")

/-- Makes an empty file, or empties one, and answers the names that lead to it. -/
def create (fs : FileSystem) (path : String) : Except FileError (FileSystem × List String) := do
  let names ← fs.target path
  return (← fs.put names .empty, names)

/-- The tree below the working directory. -/
def workingTree (fs : FileSystem) : Node := (fs.root.find? fs.working).getD (.directory [])

/-- Puts a tree in the place of the working directory. -/
def withWorkingTree (fs : FileSystem) (tree : Node) : FileSystem :=
  { fs with root := fs.root.insert fs.working tree }

end FileSystem

end LedgerConformance
