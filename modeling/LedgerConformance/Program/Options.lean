import LedgerConformance.Process.Task
import LedgerConformance.Text.Quotation

/-!
Options of programs: letters behind a hyphen and words behind two of them, which
may stand anywhere before two hyphens alone.
-/

namespace LedgerConformance.Program

/-- Whether an option has an argument. -/
inductive Arity where
  | none
  | required
  | optional
deriving DecidableEq, Repr

/-- The options of a program: its letters, and its words with the letters or names that
they stand for. -/
structure OptionTable where
  letters : List (Char × Arity)
  words : List (String × Arity × String) := []

/-- An option that was found, by its letter or name, with its argument. -/
structure GivenOption where
  name : String
  argument : Option Raw := .none

/-- The options and the other arguments, up to a fault if there is one. -/
structure Given where
  options : List GivenOption := []
  operands : List Raw := []
  fault : Option String := .none

namespace Given

/-- What was found before something else. -/
def before (first later : Given) : Given where
  options := first.options ++ later.options
  operands := first.operands ++ later.operands
  fault := first.fault.orElse fun _ => later.fault

end Given

namespace OptionTable

/-- The words that a text begins; one that it is itself stands for all. -/
def wordsFor (t : OptionTable) (text : String) : List (String × Arity × String) :=
  match t.words.filter fun w => w.1 == text with
  | [] => t.words.filter fun w => text.toList.isPrefixOf w.1.toList
  | equal => equal

/-- A word with its argument behind an equals sign or in the next argument. -/
def readWord (t : OptionTable) (text : Raw) (rest : List Raw) : Given × List Raw :=
  let name := text.takeWhile (· != '=')
  let value := match text.drop name.length with
    | _ :: v => some v
    | [] => .none
  let shown := "'--" ++ Raw.toString text ++ "'"
  let found := t.wordsFor (Raw.toString name)
  let same := (found.map fun w => (w.2.1, w.2.2)).eraseDups
  match same with
  | [] => ({ fault := some ("unrecognized option '--" ++ Raw.toString text ++ "'") }, rest)
  | [(arity, key)] =>
    let full := match found with
      | w :: _ => "'--" ++ w.1 ++ "'"
      | [] => shown
    match arity, value with
    | .none, some _ =>
      ({ fault := some ("option " ++ full ++ " doesn't allow an argument") }, rest)
    | .required, .none =>
      match rest with
      | v :: rest => ({ options := [⟨key, some v⟩] }, rest)
      | [] => ({ fault := some ("option " ++ full ++ " requires an argument") }, [])
    | _, value => ({ options := [⟨key, value⟩] }, rest)
  | _ =>
    ({ fault := some ("option " ++ shown ++ " is ambiguous; possibilities:" ++
      String.join (found.map fun w => " '--" ++ w.1 ++ "'")) }, rest)

/-- The letters of one argument. -/
def readLetters (t : OptionTable) : Raw → List Raw → Given × List Raw
  | [], rest => ({}, rest)
  | c :: more, rest =>
    let name := String.ofList [c]
    match t.letters.lookup c with
    | .none => ({ fault := some ("invalid option -- '" ++ name ++ "'") }, rest)
    | some .none =>
      let (later, rest) := readLetters t more rest
      (Given.before { options := [⟨name, .none⟩] } later, rest)
    | some .optional =>
      ({ options := [⟨name, if more.isEmpty then .none else some more⟩] }, rest)
    | some .required =>
      match more, rest with
      | [], v :: rest => ({ options := [⟨name, some v⟩] }, rest)
      | [], [] => ({ fault := some ("option requires an argument -- '" ++ name ++ "'") }, [])
      | more, rest => ({ options := [⟨name, some more⟩] }, rest)

/-- The first of some arguments, with the one behind it if that belongs to it. -/
def next (t : OptionTable) : List Raw → Given × List Raw
  | [] => ({}, [])
  | ['-', '-'] :: rest => ({ operands := rest }, [])
  | ('-' :: '-' :: text) :: rest => t.readWord text rest
  | ('-' :: c :: more) :: rest => t.readLetters (c :: more) rest
  | operand :: rest => ({ operands := [operand] }, rest)

/-- Reads arguments up to the first fault. -/
def readFrom (t : OptionTable) : (steps : Nat) → List Raw → Given
  | 0, _ => {}
  | steps + 1, args =>
    let (found, rest) := t.next args
    if found.fault.isSome || rest.isEmpty then found else found.before (readFrom t steps rest)

def read (t : OptionTable) (args : List Raw) : Given := t.readFrom (args.length + 1) args

end OptionTable

/-- Whether an option was given. -/
def isGiven (options : List GivenOption) (name : String) : Bool := options.any (·.name == name)

/-- A fault of a program, told with the name that it was started by. -/
def complain (program : Raw) (text : String) : Act Unit :=
  Act.complain (Raw.toString program ++ ": " ++ text)

/-- The hint below a fault in the arguments. -/
def usageHint (program : Raw) : String :=
  "Try '" ++ Raw.toString program ++ " --help' for more information."

/-- A fault of a program with a file. -/
def complainOf (program name : Raw) (e : CallError) : Act Unit :=
  complain program (Text.Quotation.fileName name ++ ": " ++ e.describe)

/-- Ends a program with a fault in its arguments. -/
def usageError (program : Raw) (status : Nat) (text : String) : Act Nat := do
  complain program text
  Act.complain (usageHint program)
  return status

end LedgerConformance.Program
