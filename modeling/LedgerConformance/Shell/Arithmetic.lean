import LedgerConformance.Shell.Syntax

/-!
Arithmetic in scripts: whole numbers of 64 bits that wrap around, variables and
assignments. Where the value of an operand does not matter it is read, but
nothing in it is carried out.
-/

namespace LedgerConformance.Shell.Arithmetic

inductive Symbol where
  | number (value : Int)
  | variable (name : Raw)
  | operator (text : String)
  | unknown
deriving DecidableEq, Repr

/-- Why an expression has no value. -/
inductive Fault where
  | malformed (reason : String)
  | notNumber (text : Raw)
deriving Repr

def least : Int := -9223372036854775808

def greatest : Int := 9223372036854775807

/-- The number of 64 bits that a number wraps around to. -/
def wrap (i : Int) : Int := Int.bmod i 18446744073709551616

/-- A number is cut to what 64 bits hold. -/
def clamp (i : Int) : Int := max least (min greatest i)

/-- A number without a sign at the front of a text: hexadecimal, octal or decimal. -/
def digits (text : Raw) : Option (Nat × Raw) :=
  match text with
  | '0' :: x :: c :: rest =>
    if (x == 'x' || x == 'X') && Raw.isHexadecimal c then
      let all := (c :: rest).takeWhile Raw.isHexadecimal
      some (Raw.digitsValue 16 all, (c :: rest).drop all.length)
    else octal (x :: c :: rest)
  | '0' :: rest => octal rest
  | text =>
    match text.takeWhile Char.isDigit with
    | [] => none
    | all => some (Raw.digitsValue 10 all, text.drop all.length)
where
  /-- The digits behind a leading zero. -/
  octal (rest : Raw) : Option (Nat × Raw) :=
    let all := rest.takeWhile Raw.isOctal
    some (Raw.digitsValue 8 all, rest.drop all.length)

/-- The number that a whole text spells, with blanks around it and a sign. -/
def number? (text : Raw) : Option Int :=
  let text := text.dropWhile Raw.isSpace
  let (negative, text) := match text with
    | '-' :: rest => (true, rest)
    | '+' :: rest => (false, rest)
    | text => (false, text)
  match digits text with
  | some (n, rest) =>
    let value : Int := if negative then -(n : Int) else n
    if rest.all Raw.isSpace && clamp value == value then some value else none
  | none => none

/-- The operators, longer ones before those that they begin with. -/
def operators : List String :=
  [">>=", "<<=", ">=", ">>", "<=", "<<", "||", "|=", "&&", "&=", "!=", "==", "*=", "/=", "%=",
    "+=", "-=", "^=", ">", "<", "|", "&", "!", "=", "*", "/", "%", "+", "-", "^", "~", "(", ")",
    "?", ":"]

/-- The symbols of an expression. -/
def symbols : (steps : Nat) → Raw → List Symbol
  | 0, _ => []
  | _ + 1, [] => []
  | steps + 1, c :: rest =>
    let text := c :: rest
    if c == ' ' || c == '\t' || c == '\n' then symbols steps rest
    else if c.isDigit then
      match digits text with
      | some (n, rest) => .number (min greatest n) :: symbols steps rest
      | none => [.unknown]
    else if isNameStart c then
      let name := text.takeWhile isNameChar
      .variable name :: symbols steps (text.drop name.length)
    else
      match operators.find? fun o => o.toList.isPrefixOf text with
      | some o => .operator o :: symbols steps (text.drop o.length)
      | none => [.unknown]

/-- How strongly operators with two operands bind; the least number is strongest. -/
def rank? : Symbol → Option Nat
  | .operator o =>
    match o with
    | "*" | "/" | "%" => some 0
    | "+" | "-" => some 1
    | "<<" | ">>" => some 2
    | "<" | "<=" | ">" | ">=" => some 3
    | "==" | "!=" => some 4
    | "&" => some 5
    | "^" => some 6
    | "|" => some 7
    | _ => none
  | _ => none

def truth (b : Bool) : Int := if b then 1 else 0

/-- The bits of a number. -/
def bits (i : Int) : Nat := (i % 18446744073709551616).toNat

/-- The value of an operator. -/
def operate (o : String) (a b : Int) : Except Fault Int :=
  match o with
  | "*" => .ok (wrap (a * b))
  | "/" => if b == 0 then .error (.malformed "division by zero") else .ok (wrap (a.tdiv b))
  | "%" => if b == 0 then .error (.malformed "division by zero") else .ok (wrap (a.tmod b))
  | "+" => .ok (wrap (a + b))
  | "-" => .ok (wrap (a - b))
  | "<<" => .ok (wrap (a * (Nat.pow 2 (b % 64).toNat : Nat)))
  | ">>" => .ok (a / (Nat.pow 2 (b % 64).toNat : Nat))
  | "<" => .ok (truth (a < b))
  | "<=" => .ok (truth (a ≤ b))
  | ">" => .ok (truth (a > b))
  | ">=" => .ok (truth (a ≥ b))
  | "==" => .ok (truth (a == b))
  | "!=" => .ok (truth (a != b))
  | "&" => .ok (wrap (bits a &&& bits b))
  | "^" => .ok (wrap (bits a ^^^ bits b))
  | "|" => .ok (wrap (bits a ||| bits b))
  | _ => .error (.malformed "expecting EOF")

/-- The reading of an expression: the symbols that are left, and the variables
that were assigned, the latest first. -/
structure State where
  rest : List Symbol
  assigned : List (Raw × Int) := []

abbrev Calc (α : Type) : Type := StateT State (Except Fault) α

variable (lookup : Raw → Option Raw)

def malformed {α : Type} (reason : String) : Calc α := throw (.malformed reason)

/-- The value of a variable; without one it is zero. -/
def valueOf (name : Raw) : Calc Int := do
  match (← get).assigned.lookup name with
  | some value => return value
  | none =>
    match lookup name with
    | none => return 0
    | some text =>
      if text.all Raw.isSpace then return 0
      match number? text with
      | some value => return value
      | none => throw (.notNumber text)

def assign (name : Raw) (value : Int) : Calc Int := do
  modify fun s => { s with assigned := (name, value) :: s.assigned }
  return value

def head : Calc (Option Symbol) := do return (← get).rest.head?

def drop (n : Nat) : Calc Unit := modify fun s => { s with rest := s.rest.drop n }

/-- Reads an operator if it comes next. -/
def accept (o : String) : Calc Bool := do
  if (← head) == some (.operator o) then
    drop 1
    return true
  return false

def assignments : List (String × String) :=
  [("*=", "*"), ("/=", "/"), ("%=", "%"), ("+=", "+"), ("-=", "-"), ("<<=", "<<"), (">>=", ">>"),
    ("&=", "&"), ("^=", "^"), ("|=", "|")]

mutual

/-- An assignment or what it could assign; `idle` says that nothing is carried out. -/
def assignment : (steps : Nat) → (idle : Bool) → Calc Int
  | 0, _ => malformed "expecting primary"
  | steps + 1, idle => do
    match (← get).rest with
    | .variable name :: .operator o :: _ =>
      if o == "=" then
        drop 2
        let value ← assignment steps idle
        if idle then return value else assign name value
      else
        match assignments.lookup o with
        | some o =>
          drop 2
          let value ← assignment steps idle
          if idle then return value
          else do
            let value ← operate o (← valueOf lookup name) value
            assign name value
        | none => condition steps idle
    | _ => condition steps idle

def condition : (steps : Nat) → (idle : Bool) → Calc Int
  | 0, _ => malformed "expecting primary"
  | steps + 1, idle => do
    let a ← disjunction steps idle
    if ← accept "?" then
      let b ← assignment steps (idle || a == 0)
      if !(← accept ":") then malformed "expecting ':'"
      let c ← condition steps (idle || a != 0)
      return if a != 0 then b else c
    return a

def disjunction : (steps : Nat) → (idle : Bool) → Calc Int
  | 0, _ => malformed "expecting primary"
  | steps + 1, idle => do
    let a ← conjunction steps idle
    if ← accept "||" then
      let b ← disjunction steps (idle || a != 0)
      return truth (a != 0 || b != 0)
    return a

def conjunction : (steps : Nat) → (idle : Bool) → Calc Int
  | 0, _ => malformed "expecting primary"
  | steps + 1, idle => do
    let a ← operand steps idle
    let a ← operations steps idle 8 a
    if ← accept "&&" then
      let b ← conjunction steps (idle || a == 0)
      return truth (a != 0 && b != 0)
    return a

/-- The operators behind an operand that bind more strongly than `limit`. -/
def operations : (steps : Nat) → (idle : Bool) → (limit : Nat) → Int → Calc Int
  | 0, _, _, _ => malformed "expecting primary"
  | steps + 1, idle, limit, a => do
    match ← head with
    | some (.operator o) =>
      match rank? (.operator o) with
      | some rank =>
        if rank < limit then
          drop 1
          let b ← operand steps idle
          let b ← operations steps idle rank b
          let a ← if idle then pure b else operate o a b
          operations steps idle limit a
        else return a
      | none => return a
    | _ => return a

def operand : (steps : Nat) → (idle : Bool) → Calc Int
  | 0, _ => malformed "expecting primary"
  | steps + 1, idle => do
    match ← head with
    | some (.number n) =>
      drop 1
      return n
    | some (.variable name) =>
      drop 1
      if idle then return 0 else valueOf lookup name
    | some (.operator "(") =>
      drop 1
      let value ← assignment steps idle
      if ← accept ")" then return value
      malformed "expecting ')'"
    | some (.operator "+") =>
      drop 1
      operand steps idle
    | some (.operator "-") =>
      drop 1
      return wrap (-(← operand steps idle))
    | some (.operator "!") =>
      drop 1
      return truth ((← operand steps idle) == 0)
    | some (.operator "~") =>
      drop 1
      return wrap (-(← operand steps idle) - 1)
    | _ => malformed "expecting primary"

end

/-- The value of an expression, and the variables that it assigns in order. -/
def evaluate (expression : Raw) : Except Fault (Int × List (Raw × Int)) := do
  let rest := symbols (expression.length + 1) expression
  let steps := 10 * rest.length + 10
  let (value, s) ← (assignment lookup steps false).run { rest }
  if s.rest.isEmpty then return (value, s.assigned.reverse)
  throw (.malformed "expecting EOF")

end LedgerConformance.Shell.Arithmetic
