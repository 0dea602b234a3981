import LedgerConformance.Decimal.Floating
import LedgerConformance.Text.Numeral
import LedgerConformance.Text.Version

/-!
Keys of lines: which part of a line they are, and how two of them compare.
-/

namespace LedgerConformance.Program.Sort

/-- Characters of a key that do not count. -/
inductive Ignored where
  | none
  /-- All but letters, digits and blanks. -/
  | punctuation
  | unprintable
deriving DecidableEq, Repr

/-- A part of lines and its order. The start is a number of fields and of characters
that are passed over; the end is one of fields that belong to the key and of
characters of the next one. -/
structure Key where
  startField : Nat := 0
  startChar : Nat := 0
  /-- The end of the line unless one is given. -/
  limit : Option (Nat × Nat) := Option.none
  skipsStartBlanks : Bool := false
  skipsEndBlanks : Bool := false
  ignored : Ignored := .none
  folds : Bool := false
  general : Bool := false
  human : Bool := false
  month : Bool := false
  numeric : Bool := false
  random : Bool := false
  version : Bool := false
  reversed : Bool := false
deriving Repr

namespace Key

/-- Whether nothing is said about the order but its direction. -/
def isPlain (k : Key) : Bool :=
  !(k.skipsStartBlanks || k.skipsEndBlanks || k.ignored != .none || k.folds || k.general ||
    k.human || k.month || k.numeric || k.random || k.version)

/-- A key with the order of another. -/
def withOrderOf (k order : Key) : Key :=
  { order with startField := k.startField, startChar := k.startChar, limit := k.limit }

/-- Adds the letter of an order; a blank letter counts for the sides that are named. -/
def addLetter (k : Key) (atStart atEnd : Bool) : Char → Option Key
  | 'b' => some { k with
      skipsStartBlanks := k.skipsStartBlanks || atStart
      skipsEndBlanks := k.skipsEndBlanks || atEnd }
  | 'd' => some { k with ignored := .punctuation }
  | 'f' => some { k with folds := true }
  | 'g' => some { k with general := true }
  | 'h' => some { k with human := true }
  | 'i' => some { k with ignored := if k.ignored == .none then .unprintable else k.ignored }
  | 'M' => some { k with month := true }
  | 'n' => some { k with numeric := true }
  | 'R' => some { k with random := true }
  | 'r' => some { k with reversed := true }
  | 'V' => some { k with version := true }
  | _ => Option.none

/-- Adds letters as long as they name orders. -/
def addLetters (atStart atEnd : Bool) : Raw → Key → Key × Raw
  | [], k => (k, [])
  | c :: rest, k =>
    match k.addLetter atStart atEnd c with
    | some k => addLetters atStart atEnd rest k
    | Option.none => (k, c :: rest)

/-- The letters of orders that do not go together. -/
def conflict? (k : Key) : Option String :=
  let count := [k.numeric, k.general, k.human, k.month,
    k.version || k.random || k.ignored != .none].countP id
  if count ≤ 1 then Option.none
  else some (String.ofList ([
    (k.ignored == .punctuation, 'd'), (k.folds, 'f'), (k.general, 'g'), (k.human, 'h'),
    (k.ignored == .unprintable, 'i'), (k.month, 'M'), (k.numeric, 'n'), (k.random, 'R'),
    (k.version, 'V')].filterMap fun (given, c) => if given then some c else Option.none))

end Key

/-! The part of a line. -/

def isBlank (c : Char) : Bool := c == ' ' || c == '\t' || c == '\n'

/-- A line behind some of its fields. A field ends before its separator; where none
is given, blanks belong to the field behind them. -/
def behindFields (separator : Option Char) : Nat → Raw → Raw
  | 0, text => text
  | n + 1, text =>
    if text.isEmpty then []
    else
      match separator with
      | some s => behindFields separator n ((text.dropWhile (· != s)).drop 1)
      | Option.none => behindFields separator n ((text.dropWhile isBlank).dropWhile (!isBlank ·))

/-- What is behind some whole fields, with the separator before it. -/
def behindWholeFields (separator : Option Char) : Nat → Raw → Raw
  | 0, text => text
  | 1, text =>
    match separator with
    | some s => text.dropWhile (· != s)
    | Option.none => behindFields separator 1 text
  | n + 1, text => behindWholeFields separator n (behindFields separator 1 text)

namespace Key

/-- The part of a line from where a key begins. -/
def fromStart (separator : Option Char) (k : Key) (line : Raw) : Raw :=
  let text := behindFields separator (min k.startField (line.length + 1)) line
  let text := if k.skipsStartBlanks then text.dropWhile isBlank else text
  text.drop k.startChar

/-- The part of a line from where a key ends. -/
def fromEnd (separator : Option Char) (k : Key) (line : Raw) : Raw :=
  match k.limit with
  | Option.none => []
  | some (fields, 0) => behindWholeFields separator (min (fields + 1) (line.length + 2)) line
  | some (fields, chars) =>
    let text := behindFields separator (min fields (line.length + 1)) line
    let text := if k.skipsEndBlanks then text.dropWhile isBlank else text
    text.drop chars

/-- The part of a line that a key is. -/
def part (separator : Option Char) (k : Key) (line : Raw) : Raw :=
  let front := k.fromStart separator line
  front.take (front.length - (k.fromEnd separator line).length)

/-- The characters of a key that count. -/
def counted (k : Key) (text : Raw) : Raw :=
  let text := match k.ignored with
    | .none => text
    | .punctuation => text.filter fun c => c.isAlphanum || isBlank c
    | .unprintable => text.filter fun c => ' ' ≤ c && c ≤ '~'
  if k.folds then text.map Char.toUpper else text

end Key

/-! Comparing. -/

/-- The order of bytes. -/
def compareBytes : Raw → Raw → Ordering
  | [], [] => .eq
  | [], _ :: _ => .lt
  | _ :: _, [] => .gt
  | a :: as, b :: bs => (compare a b).then (compareBytes as bs)

/-- A floating point number times a power of two that makes both whole. -/
def wholeValue (negative : Bool) (mantissa : Nat) (exponent least : Int) : Int :=
  let n : Int := (mantissa * Nat.pow 2 (exponent - least).toNat : Nat)
  if negative then -n else n

/-- The order of what was read as floating point numbers: texts that are none come
first, then what is not a number. -/
def compareFloating (a b : Option Floating) : Ordering :=
  let rank : Option Floating → Nat
    | Option.none => 0
    | some (.notNumber true) => 1
    | some (.notNumber false) => 2
    | some (.infinite true) => 3
    | some (.finite ..) => 4
    | some (.infinite false) => 5
  (compare (rank a) (rank b)).then
    (match a, b with
    | some (.finite n m e), some (.finite n' m' e') =>
      compare (wholeValue n m e (min e e')) (wholeValue n' m' e' (min e e'))
    | _, _ => .eq)

namespace Key

/-- The order of two keys without its direction. -/
def compareParts (k : Key) (a b : Raw) : Ordering :=
  let a := k.counted a
  let b := k.counted b
  let a' := a.dropWhile isBlank
  let b' := b.dropWhile isBlank
  if k.numeric then (Text.Numeral.read a').order (Text.Numeral.read b')
  else if k.general then
    let value (text : Raw) : Option Floating := (Floating.read? .extended text).map (·.1)
    compareFloating (value a) (value b)
  else if k.human then
    (compare (Text.Numeral.unitRank a') (Text.Numeral.unitRank b')).then
      ((Text.Numeral.read a').order (Text.Numeral.read b'))
  else if k.month then compare (Text.Numeral.month a') (Text.Numeral.month b')
  else if k.version then Text.Version.order a b
  else compareBytes a b

def compareLines (separator : Option Char) (k : Key) (a b : Raw) : Ordering :=
  let o := k.compareParts (k.part separator a) (k.part separator b)
  if k.reversed then o.swap else o

end Key

/-- What decides about lines. -/
structure Order where
  keys : List Key := []
  separator : Option Char := Option.none
  /-- Lines that compare equal keep their order, or only the first of them stays. -/
  stable : Bool := false
  unique : Bool := false
  reversed : Bool := false

namespace Order

/-- The first key that tells lines apart. -/
def compareKeys (o : Order) (a b : Raw) : Ordering :=
  o.keys.foldl (fun found k => found.then (k.compareLines o.separator a b)) .eq

/-- The order of lines: by the keys, and at last by their bytes. -/
def compareLines (o : Order) (a b : Raw) : Ordering :=
  let last := compareBytes a b
  let last := if o.reversed then last.swap else last
  if o.keys.isEmpty then last
  else
    let found := o.compareKeys a b
    if o.unique || o.stable then found else found.then last

def le (o : Order) (a b : Raw) : Bool := o.compareLines a b != .gt

/-- Leaves out lines that compare equal to the one before. -/
def dedupe (o : Order) : List Raw → List Raw
  | [] => []
  | line :: rest => line :: (go line rest)
where
  go (last : Raw) : List Raw → List Raw
    | [] => []
    | line :: rest =>
      if o.compareLines line last == .eq then go last rest else line :: go line rest

def sort (o : Order) (lines : List Raw) : List Raw :=
  let sorted := lines.mergeSort o.le
  if o.unique then o.dedupe sorted else sorted

/-- Merges two lists of lines; of equal ones those of the first come first. -/
def mergeTwo (o : Order) (a b : List Raw) : List Raw := List.merge a b o.le

/-- Merges lists of lines that are sorted. -/
def merge (o : Order) (lists : List (List Raw)) : List Raw :=
  let merged := lists.foldl o.mergeTwo []
  if o.unique then o.dedupe merged else merged

/-- The first line that stands behind one that it should come before, with its number. -/
def disorder? (o : Order) : (number : Nat) → List Raw → Option (Nat × Raw)
  | number, a :: b :: rest =>
    let c := o.compareLines a b
    if c == .gt || (o.unique && c == .eq) then some (number + 1, b)
    else disorder? o (number + 1) (b :: rest)
  | _, _ => Option.none

end Order

end LedgerConformance.Program.Sort
