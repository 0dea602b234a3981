import LedgerConformance.Catalogue.Filter
import LedgerConformance.Catalogue.Load
import LedgerConformance.CommandLine.LogFile
import LedgerConformance.CommandLine.Options
import LedgerConformance.CommandLine.Session
import LedgerConformance.Execution.Run
import LedgerConformance.Report.Document

/-!
The command that runs the cases of a catalogue against one implementation, or
lists them. It fails unless every case that was run passes.
-/

namespace LedgerConformance.CommandLine

/-- The formats of reports. -/
inductive ReportFormat where
  | tap
  | json
deriving DecidableEq, Repr

namespace ReportFormat

def ofName? : String → Option ReportFormat
  | "tap" => some tap
  | "json" => some json
  | _ => none

def render (verbose : Bool) (results : List Result) : ReportFormat → String
  | tap => Report.Tap.render verbose results
  | json => Report.Document.render verbose results

end ReportFormat

/-- Which implementation is under test. -/
inductive Subject where
  | reference
  | external
deriving DecidableEq, Repr

def Subject.ofName? : String → Option Subject
  | "reference" => some reference
  | "external" => some external
  | _ => none

structure RunCases where
  manifest : String
  filter : Filter := {}
  format : ReportFormat := .tap
  verbose : Bool := false
  failFast : Bool := false
  list : Bool := false
  subject : Subject := .reference
  /-- How many workers are asked for; the results do not depend on them. -/
  jobs : Nat := 1
  externalProgram : Option String := none
  timeoutSeconds : Nat := 30
  output : Option String := none
  log : Option String := none
deriving DecidableEq, Repr

namespace RunCases

def known : List Known :=
  [{ name := "manifest" }, { name := "suite" }, { name := "tags" }, { name := "test" },
    { name := "format" }, { name := "verbose", letter := some 'v', takesValue := false },
    { name := "fail-fast", takesValue := false }, { name := "list", takesValue := false },
    { name := "impl" }, { name := "jobs" }, { name := "external-bin" },
    { name := "timeout-secs" }, { name := "output" }, { name := "log" }]

def ofArguments (arguments : List String) : Except UsageError RunCases := do
  let o ← Options.read known arguments
  return {
    manifest := ← o.requiredPath "manifest"
    filter :=
      { testId := o.value? "test", suite := o.value? "suite", tags := commaList (o.value? "tags") }
    format := (← o.parsed? ReportFormat.ofName? "format").getD .tap
    verbose := o.has "verbose"
    failFast := o.has "fail-fast"
    list := o.has "list"
    subject := (← o.parsed? Subject.ofName? "impl").getD .reference
    jobs := ← o.number "jobs" 1
    externalProgram := o.value? "external-bin"
    timeoutSeconds := ← o.number "timeout-secs" 30
    output := ← o.path? "output"
    log := ← o.path? "log" }

/-- The program of the external implementation when nothing names one. -/
def defaultExternal : String := "rledger"

def implementation (c : RunCases) (env : Environment) : Implementation :=
  match c.subject with
  | .reference => .reference
  | .external =>
    let program := (c.externalProgram.or env.externalProgram).getD defaultExternal
    .tool (Command.Tool.external program (.ofSeconds c.timeoutSeconds))

def listing (cases : List Case) : String :=
  let line (c : Case) := c.id ++ ": " ++ c.description ++ (if c.skip then " [SKIP]" else "") ++ "\n"
  String.join (cases.map line) ++ "\nTotal: " ++ toString cases.length ++ " tests\n"

def startEntry (c : RunCases) (implementation : String) (selected : Nat) : Log.Entry :=
  { level := .info
    event := "run_start"
    implementation := some implementation
    details := some (Json.sorted [("manifest", .string c.manifest), ("selected", .nat selected),
      ("jobs", .nat c.jobs)]) }

def endEntry (report : RunReport) : Log.Entry :=
  { level := if report.allPassed then .info else .error
    event := "run_end"
    implementation := some report.implementation
    outcome := some (if report.allPassed then .pass else .fail)
    details := some (Json.sorted report.summary.fields) }

/-- What is logged behind a run. -/
def closingEntries (report : RunReport) : List Log.Entry :=
  report.results.map (Log.Entry.ofResult · report.implementation) ++ [endEntry report]

/-- Everything that is logged about a run. -/
def logEntries (c : RunCases) (selected : Nat) (report : RunReport) : List Log.Entry :=
  c.startEntry report.implementation selected :: closingEntries report

/-- The log of a run of an implementation before anything is in it. -/
def emitter (env : Environment) (implementation : String) : Log.Emitter :=
  { runId := implementation ++ "-" ++ env.processLabel, timestamp := env.timestamp }

/-- Starts the log of a run. -/
def startLog (c : RunCases) (env : Environment) (implementation : String) (selected : Nat)
    (path : String) : Action LogFile := do
  let log ← LogFile.create path (emitter env implementation)
  log.emit (c.startEntry implementation selected)

/-- Runs the selected cases and reports on them. -/
def runSelected (c : RunCases) (env : Environment) (selected : List Case) : Action Unit := do
  let implementation := c.implementation env
  let log ← c.log.mapM (c.startLog env implementation.name selected.length)
  Action.remark ("Running " ++ toString selected.length ++ " tests against " ++ implementation.name)
  let report ← Action.withFiles (Run.run implementation env.launch c.failFast selected)
  if report.notRun > 0 then
    Action.remark ("Fail-fast: " ++ toString report.notRun ++ " tests not run")
  if let some log := log then log.finish (closingEntries report)
  Action.deliver c.output (c.format.render c.verbose report.results)
  unless report.allPassed do Action.giveUp

def perform (c : RunCases) (env : Environment) : Action Unit := do
  let catalogue ← Action.ofExcept .load (Catalogue.load (← Action.files) c.manifest)
  for path in catalogue.missing do
    Action.remark ("Warning: " ++ path ++ " not found, suite skipped")
  let selected := c.filter.select catalogue.cases
  if selected.isEmpty then
    Action.remark "No tests match the given filters"
    Action.giveUp
  else if c.list then Action.print (listing selected)
  else c.runSelected env selected

end RunCases

end LedgerConformance.CommandLine
