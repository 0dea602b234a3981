import LedgerConformance.Catalogue.Load
import LedgerConformance.CommandLine.LogFile
import LedgerConformance.CommandLine.Options
import LedgerConformance.CommandLine.Session
import LedgerConformance.Differential.Discovery
import LedgerConformance.Differential.Report

/-!
The command that gives the same inputs to several implementations and compares
what they do. It fails unless all of them agree on every input.
-/

namespace LedgerConformance.CommandLine

open LedgerConformance.Differential

structure CompareTools where
  config : String
  group : Option String := none
  implementations : List String := []
  /-- A single input. -/
  file : Option String := none
  /-- Where inputs are looked for. -/
  source : String := conformanceSource
  /-- A catalogue whose cases are the inputs. -/
  manifest : Option String := none
  comparison : String := defaultComparison
  report : Option String := none
  limit : Option Nat := none
  verbose : Bool := false
  timestamp : Option String := none
  timeoutSeconds : Nat := 30
  log : Option String := none
deriving DecidableEq, Repr

namespace CompareTools

def known : List Known :=
  [{ name := "config" }, { name := "group" }, { name := "impls" }, { name := "file" },
    { name := "inputs" }, { name := "manifest" }, { name := "comparison" }, { name := "report" },
    { name := "limit" }, { name := "verbose", letter := some 'v', takesValue := false },
    { name := "timestamp" }, { name := "timeout-secs" }, { name := "log" }]

def ofArguments (arguments : List String) : Except UsageError CompareTools := do
  let o ← Options.read known arguments
  o.exclusive "group" "impls"
  o.exclusive "file" "inputs"
  o.exclusive "file" "manifest"
  return {
    config := ← o.requiredPath "config"
    group := o.value? "group"
    implementations := commaList (o.value? "impls")
    file := ← o.path? "file"
    source := (o.value? "inputs").getD conformanceSource
    manifest := ← o.path? "manifest"
    comparison := (o.value? "comparison").getD defaultComparison
    report := ← o.path? "report"
    limit := ← o.parsed? Options.number? "limit"
    verbose := o.has "verbose"
    timestamp := o.value? "timestamp"
    timeoutSeconds := ← o.number "timeout-secs" 30
    log := ← o.path? "log" }

/-- The configuration in a file. -/
def loadConfig (fs : FileSystem) (path : String) : Except ConfigError Config :=
  match fs.readText path with
  | .error reason => .error (.unreadable path reason.message)
  | .ok text =>
    match Config.parse? text with
    | some config => .ok config
    | none => .error (.malformed path)

def runner (c : CompareTools) (fs : FileSystem) : Except ConfigError Runner := do
  let config ← loadConfig fs c.config
  let names ← config.resolve c.implementations c.group
  Runner.ofConfig config names c.comparison (.ofSeconds c.timeoutSeconds)

/-- The inputs before the limit: the single one, the cases that are not skipped, or what is
found. -/
def inputs (c : CompareTools) (fs : FileSystem) : Except LoadError (List LedgerInput) :=
  match c.file, c.manifest with
  | some path, _ => .ok [.ofFile path]
  | none, some manifest => do
    let catalogue ← Catalogue.load fs manifest
    return (catalogue.cases.filter (! ·.skip)).map .ofCase
  | none, none =>
    .ok ((discover fs c.source ((Path.parent? c.config).getD ".")).map .ofFile)

def limited (c : CompareTools) (inputs : List LedgerInput) : List LedgerInput :=
  match c.limit with
  | some n => inputs.take n
  | none => inputs

/-- What is said about an input in the messages. -/
def progress (number total : Nat) (checked : Checked) : List String :=
  let (status, remarks) : String × List String := match checked.result with
    | .ok check =>
      (if check.agrees then "OK" else "DIVERGE", check.differences.map (·.message))
    | .error problem => ("ERROR", [problem.message])
  ("[" ++ toString number ++ "/" ++ toString total ++ "] " ++ checked.input.label ++ " ... " ++
    status) :: remarks.map ("  - " ++ ·)

def inputEntry (checked : Checked) : Log.Entry :=
  let (mark, details) : Log.Mark × List (String × Json) := match checked.result with
    | .ok check =>
      if check.agrees then (.agree, [])
      else (.diverge, [("differences", .array (check.differences.map Difference.toJson))])
    | .error problem => (.error, [("error", .string problem.message)])
  { level := .info
    event := "differential_input"
    testId := some checked.input.label
    kind := some checked.input.kind.name
    outcome := some mark
    details := some (.object details) }

def endEntry (report : Report) : Log.Entry :=
  { level := .info
    event := "differential_end"
    outcome := some (if report.isClean then .agree else .diverge)
    details := some (Json.sorted report.summary.fields) }

/-- What entries are stamped with, and reports. -/
def stamp (c : CompareTools) (env : Environment) : String := c.timestamp.getD env.timestamp

/-- A log while the inputs are checked; nothing more goes to one that failed. -/
inductive Logging where
  | off
  | on (log : LogFile)
  | failed (cause : Failure)

namespace Logging

def start (log : Option LogFile) : Logging :=
  match log with
  | some log => on log
  | none => off

/-- Writes an entry. A failure is kept for later. -/
def record (e : Log.Entry) : Logging → Action Logging
  | on log => tryCatch (return on (← log.emit e)) fun cause => return failed cause
  | logging => return logging

/-- The log, unless it has failed. -/
def log? : Logging → Action (Option LogFile)
  | off => return none
  | on log => return some log
  | failed cause => throw cause

end Logging

/-- A checked input gets a remark, if remarks are wanted, and an entry in the log. -/
def observe (c : CompareTools) (total place : Nat) (checked : Checked) :
    StateT Logging Action Unit := do
  if c.verbose then (progress (place + 1) total checked).forM fun line => Action.remark line
  set (← (← get).record (inputEntry checked))

/-- Compares the implementations on inputs and reports on them. -/
def runOn (c : CompareTools) (env : Environment) (runner : Runner) (inputs : List LedgerInput) :
    Action Unit := do
  Action.remark ("Testing " ++ toString inputs.length ++ " inputs with implementations: " ++
    ", ".intercalate runner.names)
  let log ← c.log.mapM fun path =>
    LogFile.create path { runId := "differential", timestamp := c.stamp env }
  let check (input : LedgerInput) : StateT Logging Action (Except InputProblem Check) :=
    Action.withFiles (runner.check env.launch input).run
  let (report, logging) ←
    (Report.observing runner (c.stamp env) check (c.observe inputs.length) inputs).run (.start log)
  let log ← logging.log?
  let counts := report.summary
  Action.remark ("Results: " ++ toString counts.matching ++ " matching, " ++
    toString counts.diverging ++ " diverging, " ++ toString counts.errors ++ " errors")
  Action.remark ("Total inputs: " ++ toString counts.totalInputs)
  if let some log := log then log.finish [endEntry report]
  Action.deliver c.report (report.render ++ "\n")
  if let some path := c.report then Action.remark ("Report written to: " ++ path)
  unless report.isClean do Action.giveUp

def perform (c : CompareTools) (env : Environment) : Action Unit := do
  let fs ← Action.files
  let runner ← Action.ofExcept .config (c.runner fs)
  let inputs := c.limited (← Action.ofExcept .load (c.inputs fs))
  if inputs.isEmpty then
    Action.remark "No input files found"
    Action.giveUp
  else c.runOn env runner inputs

end CompareTools

end LedgerConformance.CommandLine
