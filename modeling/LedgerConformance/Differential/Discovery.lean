import LedgerConformance.FileSystem.Tree

/-!
Finding ledgers. A source is a file or a directory, seen from the working
directory if it exists there and otherwise from the directory of the
configuration; one name stands for the directory that encloses the latter.
-/

namespace LedgerConformance.Differential

/-- The extensions of ledger files. -/
def ledgerExtensions : List String := ["beancount", "ledger", "journal"]

def isLedger (path : String) : Bool := (Path.extension? path).any (ledgerExtensions.contains ·)

mutual

/-- The paths of the ledgers in a node; a single file counts as its path says. -/
def ledgersIn (path : String) : Node → List String
  | .directory entries => ledgersAmong path entries
  | .file _ | .device _ | .program _ => if isLedger path then [path] else []

/-- The paths of the ledgers among the entries of a directory. Below a source no limit on
the length of a path is modelled. -/
def ledgersAmong (path : String) : List (String × Node) → List String
  | [] => []
  | (name, node) :: rest => ledgersIn (Path.join path name) node ++ ledgersAmong path rest

end

/-- The source that stands for everything around the configuration. -/
def conformanceSource : String := "conformance"

def sourceRoot (fs : FileSystem) (source configDir : String) : String :=
  if source == conformanceSource then (Path.parent? configDir).getD configDir
  else if fs.contains source then source
  else Path.join configDir source

/-- The paths of all inputs of a source, sorted; a file is taken as it is. -/
def discover (fs : FileSystem) (source configDir : String) : List String :=
  let root := sourceRoot fs source configDir
  match fs.node root with
  | .ok (.file _) | .ok (.program _) => [root]
  | .ok (.directory entries) => (ledgersAmong root entries).mergeSort Path.le
  | .ok (.device _) | .error _ => []

end LedgerConformance.Differential
