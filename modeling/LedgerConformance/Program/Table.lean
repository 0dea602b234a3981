import LedgerConformance.Process.World
import LedgerConformance.Program.Cat
import LedgerConformance.Program.Echo
import LedgerConformance.Program.Grep
import LedgerConformance.Program.Printf
import LedgerConformance.Program.Sleep
import LedgerConformance.Program.Sort
import LedgerConformance.Shell.Start

/-!
The programs that can be started, by name.
-/

namespace LedgerConformance.Program

/-- The program of a name with its arguments, the first of which is the name that it
was started by, and its environment. -/
def load : Loader := fun name argv environment =>
  let program := argv.headD []
  let args := argv.drop 1
  match name with
  | "sh" => Shell.Start.task argv environment
  | "cat" => (Cat.run program args).toTask
  | "echo" => (Echo.run program args).toTask
  | "grep" => (Grep.run program args).toTask
  | "printf" => (Printf.run program args).toTask
  | "sort" => (Sort.run program args).toTask
  | "sleep" => (Sleep.run program args).toTask
  | "true" => .exit 0
  | _ => .exit 1

end LedgerConformance.Program
