import LedgerConformance.Decimal.Floating
import LedgerConformance.Program.Options

/-!
The program that lets time pass.
-/

namespace LedgerConformance.Program.Sleep

def table : OptionTable where
  letters := []
  words := [("help", .none, "help"), ("version", .none, "version")]

/-- Seconds that a letter behind a number stands for. -/
def unit? : Raw → Option Nat
  | [] | ['s'] => some 1
  | ['m'] => some 60
  | ['h'] => some 3600
  | ['d'] => some 86400
  | _ => none

/-- The longest time that matters, in microseconds. -/
def longest : Nat := 1000000000000000

/-- The microseconds that an argument names. -/
def micros? (text : Raw) : Option Nat := do
  let (value, rest) ← Floating.read? .extended text
  let unit ← unit? rest
  match value with
  | .finite negative mantissa exponent =>
    if negative && mantissa != 0 then none
    else
      let (n, d) := Floating.timesPower 2 (mantissa * unit * 1000000) exponent
      some (min longest ((n + d - 1) / d))
  | .infinite false => some longest
  | _ => none

def run (program : Raw) (args : List Raw) : Act Nat := do
  let given := table.read args
  match given.fault, args with
  | some text, _ => usageError program 1 text
  | none, [] => usageError program 1 "missing operand"
  | none, _ =>
    let operands := given.operands
    let wrong := operands.filter fun o => (micros? o).isNone
    if wrong.isEmpty then
      Act.spend ((operands.filterMap micros?).foldl (· + ·) 0)
      return 0
    wrong.forM fun o => complain program ("invalid time interval " ++ Text.Quotation.quoted o)
    Act.complain (usageHint program)
    return 1

end LedgerConformance.Program.Sleep
