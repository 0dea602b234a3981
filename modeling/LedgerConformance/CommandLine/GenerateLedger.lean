import LedgerConformance.Benchmark.Ledger
import LedgerConformance.CommandLine.Options
import LedgerConformance.CommandLine.Session

/-!
The command that writes a synthetic ledger. A preset takes precedence over the
single counts.
-/

namespace LedgerConformance.CommandLine

open Benchmark

structure GenerateLedger where
  /-- Everything but the first day. -/
  config : Config := {}
  startDate : String := "2020-01-01"
  output : Option String := none
deriving DecidableEq, Repr

namespace GenerateLedger

def known : List Known :=
  [{ name := "transactions", letter := some 'n' }, { name := "accounts", letter := some 'a' },
    { name := "commodities", letter := some 'c' }, { name := "start-date" },
    { name := "complexity" }, { name := "output", letter := some 'o' }, { name := "seed" },
    { name := "preset" }]

def ofArguments (arguments : List String) : Except UsageError GenerateLedger := do
  let o ← Options.read known arguments
  let standard : Config := {}
  let config : Config := {
    transactions := ← o.number "transactions" standard.transactions
    accounts := ← o.number "accounts" standard.accounts
    commodities := ← o.number "commodities" standard.commodities
    complexity := (← o.parsed? Complexity.ofName? "complexity").getD standard.complexity
    seed := .ofNat (← o.number "seed" standard.seed.toNat) }
  let preset ← o.parsed? Preset.ofName? "preset"
  return {
    config := (preset.map (·.apply config)).getD config
    startDate := (o.value? "start-date").getD standard.startDate.toText
    output := ← o.path? "output" }

def perform (c : GenerateLedger) : Action Unit := do
  match Date.ofText? c.startDate with
  | none => throw (.startDate c.startDate)
  | some startDate =>
    let content := generate { c.config with startDate }
    Action.deliver c.output content
    if let some path := c.output then
      Action.remark ("Generated " ++ path ++ " (" ++ toString content.utf8ByteSize ++ " bytes, " ++
        toString c.config.transactions ++ " transactions)")

end GenerateLedger

end LedgerConformance.CommandLine
