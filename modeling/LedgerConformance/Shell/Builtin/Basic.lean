import LedgerConformance.Shell.Expansion

/-!
What the commands of the shell itself have in common: reading of their options
and numbers, and the quoting of texts that can be read again.
-/

namespace LedgerConformance.Shell.Builtin

/-- The options of a command and the arguments behind them. A colon behind a
letter says that the option has an argument. -/
def optionsFrom (spec : Raw) : (steps : Nat) → List Raw → List (Char × Raw) →
    Sh (List (Char × Raw) × List Raw)
  | 0, args, found => return (found.reverse, args)
  | steps + 1, args, found => do
    match args with
    | ('-' :: c :: more) :: rest =>
      if c == '-' && more.isEmpty then return (found.reverse, rest)
      match spec.dropWhile (· != c) with
      | [] => Sh.fail ("Illegal option -".toList ++ [c])
      | _ :: ':' :: _ =>
        match more, rest with
        | [], [] => Sh.fail ("No arg for -".toList ++ [c] ++ " option".toList)
        | [], value :: rest => optionsFrom spec steps rest ((c, value) :: found)
        | more, rest => optionsFrom spec steps rest ((c, more) :: found)
      | _ =>
        let rest := if more.isEmpty then rest else ('-' :: more) :: rest
        optionsFrom spec steps rest ((c, []) :: found)
    | args => return (found.reverse, args)

/-- The options of a command and the arguments behind them. -/
def options (spec : String) (args : List Raw) : Sh (List (Char × Raw) × List Raw) :=
  optionsFrom spec.toList (args.flatten.length + args.length + 1) args []

/-- A number that is nothing but digits. -/
def plainNumber? (text : Raw) : Option Nat :=
  if !text.isEmpty && text.all Char.isDigit then some (Raw.digitsValue 10 text) else none

def number (text : Raw) : Sh Nat :=
  match Sh.number? text with
  | some n => return n
  | none => Sh.fail ("Illegal number: ".toList ++ text)

/-- A text in quotes, such that it can be read again. -/
def quoteFrom : (steps : Nat) → Raw → Raw
  | 0, _ => []
  | steps + 1, text =>
    let plain := text.takeWhile (· != '\'')
    let rest := text.drop plain.length
    let marks := rest.takeWhile (· == '\'')
    let quoted := '\'' :: plain ++ ['\'']
    match marks with
    | [] => quoted
    | marks =>
      let quoted := quoted ++ '"' :: marks ++ ['"']
      match rest.drop marks.length with
      | [] => quoted
      | rest => quoted ++ quoteFrom steps rest

def quote (text : Raw) : Raw := quoteFrom (text.length + 1) text

/-- A message of its own on the stream of faults. -/
def complain (text : Raw) : Sh Unit := do
  let _ ← Sh.act (Act.write 2 (text ++ ['\n']))

end LedgerConformance.Shell.Builtin
