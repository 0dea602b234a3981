import LedgerConformance.FileSystem.Tree

/-!
What has to be written so that one tree becomes another one. Nothing is ever
removed, and a directory comes before what is in it.
-/

namespace LedgerConformance

/-- A file or a directory that has to be put at a path. -/
inductive Change where
  | file (path : String) (content : ByteArray)
  | directory (path : String)

namespace Node

mutual

/-- The changes at a path where `before` stands and the node shall stand. -/
def changes (path : String) (before : Option Node) : Node → List Change
  | .file content =>
    match before with
    | some (.file old) => if old == content then [] else [.file path content]
    | _ => [.file path content]
  | .directory entries =>
    match before with
    | some (.directory old) => changesAmong path old entries
    | _ => .directory path :: changesAmong path [] entries
  | .device _ | .program _ => []

def changesAmong (path : String) (old : List (String × Node)) : List (String × Node) → List Change
  | [] => []
  | (name, node) :: rest =>
    changes (Path.join path name) (old.lookup name) node ++ changesAmong path old rest

end

end Node

/-- What has to be written below the working directory. -/
def FileSystem.changes (before after : FileSystem) : List Change :=
  after.workingTree.changes "" (some before.workingTree)

end LedgerConformance
