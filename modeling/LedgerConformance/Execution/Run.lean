import LedgerConformance.Command.Tool
import LedgerConformance.Execution.Reference
import LedgerConformance.Verdict

/-!
Running cases. A skipped case is not run, a fault is an ordinary failure, and
a run may stop after the first failure.
-/

namespace LedgerConformance

/-- What is under test. -/
inductive Implementation where
  | reference
  | tool (tool : Command.Tool)
deriving Repr

namespace Implementation

def name : Implementation → String
  | reference => Reference.name
  | tool t => t.name

/-- The outcome of a case without a judgement. -/
def observe (i : Implementation) (launch : Command.Launch) (c : Case) : Attempt Fault Outcome :=
  match i with
  | reference => do Attempt.ofExcept (Reference.observe (← get) c)
  | tool t => t.observe launch c

end Implementation

namespace Run

/-- The result of a case that was run. -/
def judge (c : Case) : Except Fault Outcome → Result
  | .ok o =>
    let result := match Verdict.evaluate c o with
      | none => Result.of c .pass none o.duration
      | some mismatch => Result.of c .fail (some mismatch) o.duration
    { result with exitCode := o.exitCode, timedOut := o.timedOut }
  | .error fault =>
    Result.of c .fail (some ⟨"Executor error: " ++ fault.message, .object [], .object []⟩) 0

/-- The result of a case. -/
def execute (observe : Case → Attempt Fault Outcome) (c : Case) : StateM FileSystem Result :=
  if c.skip then return Result.skipped c else return judge c (← (observe c).run)

/-- The start of a list up to the first item that satisfies `p`, this one included. -/
def takeThrough {α : Type} (p : α → Bool) : List α → List α
  | [] => []
  | a :: rest => if p a then [a] else a :: takeThrough p rest

/-- The results of cases in order; `failFast` ends a run with the first failure. -/
def results {σ : Type} (execute : Case → StateM σ Result) (failFast : Bool) :
    List Case → StateM σ (List Result)
  | [] => return []
  | c :: rest => do
    let result ← execute c
    if failFast && !result.passed then return [result]
    return result :: (← results execute failFast rest)

end Run

/-- The results of a run, and how many cases were left out by an early end. -/
structure RunReport where
  implementation : String
  results : List Result
  notRun : Nat := 0
deriving Repr

namespace RunReport

/-- The report of a run of some cases, of which the results are the given ones. -/
def of (implementation : String) (cases : List Case) (results : List Result) : RunReport :=
  { implementation, results, notRun := cases.length - results.length }

def summary (r : RunReport) : Summary := Summary.ofResults r.results

def allPassed (r : RunReport) : Bool := r.summary.allPassed

end RunReport

namespace Run

/-- Runs cases against an implementation. -/
def run (i : Implementation) (launch : Command.Launch) (failFast : Bool) (cases : List Case) :
    StateM FileSystem RunReport := do
  let results ← results (execute (i.observe launch)) failFast cases
  return RunReport.of i.name cases results

end Run

end LedgerConformance
