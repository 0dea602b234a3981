import LedgerConformance.Shell.Arithmetic
import LedgerConformance.Shell.Builtin.Basic

/-!
The command that tests texts, numbers and files.
-/

namespace LedgerConformance.Shell.Builtin.Test

/-- What an argument can be beside an operand. -/
inductive Role where
  | unary
  | binary
  | negation
  | conjunction
  | disjunction
  | openParenthesis
  | closeParenthesis
deriving DecidableEq, Repr

def unaries : List String :=
  ["-r", "-w", "-x", "-e", "-f", "-d", "-c", "-b", "-p", "-u", "-g", "-k", "-s", "-t", "-z", "-n",
    "-h", "-O", "-G", "-L", "-S"]

def binaries : List String :=
  ["=", "!=", "<", ">", "-eq", "-ne", "-ge", "-gt", "-le", "-lt", "-nt", "-ot", "-ef"]

/-- What an argument is, if it is no operand. -/
def role? (text : Raw) : Option Role :=
  let s := String.ofList text
  if unaries.contains s then some .unary
  else if binaries.contains s then some .binary
  else
    match s with
    | "!" => some .negation
    | "-a" => some .conjunction
    | "-o" => some .disjunction
    | "(" => some .openParenthesis
    | ")" => some .closeParenthesis
    | _ => none

/-- What an argument is at its place: an operator in the place of an operand is one. -/
def lex (args : List Raw) : Option Role :=
  match args with
  | [] => none
  | s :: rest =>
    match role? s with
    | some .unary =>
      match rest with
      | [] => none
      | [_] => some .unary
      | t :: _ => if role? t == some .binary then none else some .unary
    | some .openParenthesis => if rest.isEmpty then none else some .openParenthesis
    | found => found

def malformed {α : Type} (operator : Raw) (text : String) : Sh α :=
  Sh.fail (if operator.isEmpty then text.toList else operator ++ ": ".toList ++ text.toList)

/-- A whole number with blanks around it. -/
def integer (text : Raw) : Sh Int := do
  let trimmed := text.dropWhile Raw.isSpace
  let (negative, digits) := match trimmed with
    | '-' :: rest => (true, rest)
    | '+' :: rest => (false, rest)
    | rest => (false, rest)
  let all := digits.takeWhile Char.isDigit
  let value : Int := if negative then -(Raw.digitsValue 10 all : Int) else Raw.digitsValue 10 all
  if all.isEmpty || !(digits.drop all.length).all Raw.isSpace ||
      value < Arithmetic.least || Arithmetic.greatest < value then
    Sh.fail ("Illegal number: ".toList ++ text)
  return value

def unary (operator : Raw) (operand : Raw) : Sh Bool := do
  let found : Sh (Option Found) := do return (← Sh.ask (.examine operand)).toOption
  match String.ofList operator with
  | "-z" => return operand.isEmpty
  | "-n" => return !operand.isEmpty
  | "-t" =>
    let _ ← integer operand
    return false
  | "-e" | "-r" | "-w" | "-O" | "-G" => return (← found).isSome
  | "-f" =>
    match ← found with
    | some (.file _) | some .program => return true
    | _ => return false
  | "-d" => return (← found) == some .directory
  | "-c" => return (← found) == some .device
  | "-p" => return (← found) == some .pipe
  | "-x" =>
    match ← found with
    | some .directory | some .program => return true
    | _ => return false
  | "-s" =>
    match ← found with
    | some (.file size) => return size > 0
    | some .directory | some .program => return true
    | _ => return false
  | _ => return false

def binary (left : Raw) (operator : Raw) (right : Raw) : Sh Bool := do
  let compare (test : Int → Int → Bool) : Sh Bool := do
    let a ← integer left
    let b ← integer right
    return test a b
  match String.ofList operator with
  | "=" => return left == right
  | "!=" => return left != right
  | "<" => return Raw.le left right && left != right
  | ">" => return Raw.le right left && left != right
  | "-eq" => compare (· == ·)
  | "-ne" => compare (· != ·)
  | "-ge" => compare (fun a b => decide (a ≥ b))
  | "-gt" => compare (fun a b => decide (a > b))
  | "-le" => compare (fun a b => decide (a ≤ b))
  | "-lt" => compare (fun a b => decide (a < b))
  | "-ef" =>
    match ← Sh.ask (.examine left), ← Sh.ask (.examine right) with
    | .ok a, .ok b => return a == b && left == right
    | _, _ => return false
  | _ => return false

/-- A value and the arguments from its last one on. -/
abbrev Read : Type := Bool × List Raw

mutual

/-- Alternatives, of which the first begins with `args`; `role` says what its first
argument is. -/
def alternatives : (steps : Nat) → (role : Option Role) → List Raw → Sh Read
  | 0, _, args => return (false, args)
  | steps + 1, role, args => do
    let (value, args) ← conjunctions steps role args
    if lex (args.drop 1) == some .disjunction then
      let rest := args.drop 2
      let (other, args) ← alternatives steps (lex rest) rest
      return (value || other, args)
    return (value, args)

def conjunctions : (steps : Nat) → (role : Option Role) → List Raw → Sh Read
  | 0, _, args => return (false, args)
  | steps + 1, role, args => do
    let (value, args) ← negations steps role args
    if lex (args.drop 1) == some .conjunction then
      let rest := args.drop 2
      let (other, args) ← conjunctions steps (lex rest) rest
      return (value && other, args)
    return (value, args)

def negations : (steps : Nat) → (role : Option Role) → List Raw → Sh Read
  | 0, _, args => return (false, args)
  | steps + 1, role, args => do
    if role == some .negation then
      let rest := args.drop 1
      if rest.isEmpty then return (true, args)
      let (value, args) ← negations steps (lex rest) rest
      return (!value, args)
    primary steps role args

def primary : (steps : Nat) → (role : Option Role) → List Raw → Sh Read
  | 0, _, args => return (false, args)
  | steps + 1, role, args => do
    match args with
    | [] => return (false, [])
    | first :: rest =>
      if role == some .openParenthesis then
        if lex rest == some .closeParenthesis then return (false, rest)
        let (value, args) ← alternatives steps (lex rest) rest
        if lex (args.drop 1) == some .closeParenthesis then return (value, args.drop 1)
        malformed [] "closing paren expected"
      else if role == some .unary then
        match rest with
        | [] => malformed first "argument expected"
        | operand :: _ => return (← unary first operand, rest)
      else if lex rest == some .binary then
        match rest with
        | operator :: right :: more => return (← binary first operator right, right :: more)
        | operator :: [] => malformed operator "argument expected"
        | [] => return (!first.isEmpty, args)
      else return (!first.isEmpty, args)

end

/-- Evaluates arguments, the first of which is of some role. -/
def evaluate (role : Option Role) (args : List Raw) : Sh Bool := do
  let (value, left) ← alternatives (4 * args.length + 8) role args
  match left with
  | first :: _ :: _ => malformed first "unexpected operator"
  | _ => return value

/-- The value of arguments; few of them have rules of their own. -/
def value : (steps : Nat) → List Raw → Sh Bool
  | 0, _ => return false
  | steps + 1, args => do
    let inner (args : List Raw) : Sh Bool := do
      match args with
      | ['('] :: rest =>
        if rest.getLast? == some [')'] then evaluate (lex rest.dropLast) rest.dropLast
        else evaluate (lex args) args
      | ['!'] :: rest => return !(← value steps rest)
      | args => evaluate (lex args) args
    match args with
    | [] => return false
    | [_, operator, _] =>
      if role? operator == some .binary then evaluate none args else inner args
    | [_, _, _, _] => inner args
    | args => evaluate (lex args) args

/-- Tests its arguments; `bracket` says that a closing bracket has to come last. -/
def run (bracket : Bool) (args : List Raw) : Sh Nat := do
  let args ← if bracket then
      if (args.getLast?.bind List.head?) == some ']' then pure args.dropLast
      else Sh.fail "missing ]".toList
    else pure args
  return if ← value (args.length + 1) args then 0 else 1

end LedgerConformance.Shell.Builtin.Test
