import LedgerConformance.Calendar.Timestamp
import LedgerConformance.CommandLine.Program
import LedgerConformance.FileSystem.Changes
import LedgerConformance.Process.Launch
import Std.Time.DateTime.Timestamp

/-!
The executable. It reads the working directory, lets a program work on it as a
value, and then prints and writes what the program leaves.
-/

namespace LedgerConformance.CommandLine

/-- The variable that names the external implementation. -/
def externalVariable : String := "PTACONF_EXTERNAL_BIN"

/-- Reads a file or a directory; what cannot be read is left out. -/
partial def loadEntry (entry : IO.FS.DirEntry) : IO (Option (String × Node)) := do
  try
    match (← entry.path.metadata).type with
    | .dir =>
      let entries ← (← entry.path.readDir).toList.filterMapM loadEntry
      return some (entry.fileName, .directory entries)
    | .file => return some (entry.fileName, .file (← IO.FS.readBinFile entry.path))
    | _ => return none
  catch _ => return none

/-- Adds a file outside the working directory, if it can be read. -/
def loadElsewhere (fs : FileSystem) (path : String) : IO FileSystem := do
  try
    let names := (FileSystem.segments path).filter (! ·.isEmpty)
    return { fs with root := fs.root.insert names (.file (← IO.FS.readBinFile path)) }
  catch _ => return fs

/-- The working directory, and the files that arguments name from the root. -/
def loadFiles (arguments : List String) : IO FileSystem := do
  let entries ← (← (← IO.currentDir).readDir).toList.filterMapM loadEntry
  let fs := ({} : FileSystem).withWorkingTree (.directory entries)
  (arguments.filter fun a => Path.isAbsolute a && !fs.contains a).foldlM loadElsewhere fs

def apply : Change → IO Unit
  | .file path content => IO.FS.writeBinFile path content
  | .directory path => IO.FS.createDirAll path

def currentTime : IO String := do
  let millis := (← Std.Time.Timestamp.now).toMillisecondsSinceUnixEpoch.val.toNat
  return Timestamp.write (millis / 1000) (millis % 1000)

/-- A number that tells this process from others. -/
def processLabel : IO String := do
  let bytes ← IO.getRandomBytes 3
  return toString (bytes.toList.foldl (fun n b => 256 * n + b.toNat) 0)

def environment : IO Environment := do
  return {
    timestamp := ← currentTime
    processLabel := ← processLabel
    externalProgram := ← IO.getEnv externalVariable
    launch := Launch.launch }

/-- Runs a program on the working directory. -/
def execute (program : Program) (arguments : List String) : IO UInt32 := do
  let files ← loadFiles arguments
  let ending := program.run (← environment) files arguments
  (files.changes ending.files).forM apply
  IO.print ending.output
  IO.eprint ending.messages
  return .ofNat ending.exitCode

end LedgerConformance.CommandLine

open LedgerConformance.CommandLine in
/-- The word `generate-benchmark` in front chooses the program for synthetic ledgers. -/
def main (arguments : List String) : IO UInt32 :=
  match arguments with
  | "generate-benchmark" :: rest => execute .benchmark rest
  | arguments => execute .conformance arguments
