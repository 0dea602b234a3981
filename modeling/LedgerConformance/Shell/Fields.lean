import LedgerConformance.Shell.State

/-!
Dividing what an expansion made into fields. Only regions that come from
expansions without quotes are divided, at the separators of the script or, where
parameters keep their borders, at these borders.
-/

namespace LedgerConformance.Shell

/-- The border between two parameters. -/
def parameterBorder : Char := Char.ofNat 0

namespace Cell

/-- The characters of cells. -/
def text (cells : List Cell) : Raw :=
  cells.filterMap fun
    | .char c _ _ => some c
    | .border => none

/-- The pattern that cells spell; what is quoted stands for itself. -/
def pattern (cells : List Cell) : Raw :=
  cells.flatMap fun
    | .char c true _ => ['\\', c]
    | .char c false _ => [c]
    | .border => []

/-- Whether a character in the cells could belong to a pattern. -/
def mayMatch (cells : List Cell) : Bool :=
  cells.any fun
    | .char c false _ => c == '*' || c == '?' || c == '['
    | _ => false

end Cell

/-- The state of dividing cells, the field at hand and those closed, both last first. -/
structure Division where
  field : List Cell := []
  closed : List (List Cell) := []
  /-- Blanks that separate have just been seen. -/
  afterBlank : Bool := false
  /-- The region at hand, and whether it and the one before keep borders only. -/
  region : Option Nat := none
  onlyBorders : Bool := false
  afterBorders : Bool := false
  /-- How many fields may still be closed; all the rest belongs to the last. -/
  left : Option Nat := none
  /-- The length to which the last field is cut. -/
  cut : Option Nat := none

namespace Division

/-- Enters the region of a cell. -/
def enter (regions : List Bool) (d : Division) (region : Nat) : Division :=
  if d.region == some region then d
  else
    let keepsBorders (n : Nat) : Bool := regions.getD (regions.length - 1 - n) false
    { d with
      region := some region
      afterBorders := region > 0 && keepsBorders (region - 1)
      onlyBorders := keepsBorders region
      afterBlank := false }

/-- One cell of a region that is divided. -/
def step (separators : Raw) (d : Division) (cell : Cell) (c : Char) : Division :=
  let separates := c == parameterBorder || (!d.onlyBorders && separators.contains c)
  let blank := separates && (c == parameterBorder || defaultSeparators.contains c)
  let keep (d : Division) : Division := { d with field := cell :: d.field }
  match d.left with
  | some 0 =>
    if blank then keep { d with cut := some (d.cut.getD d.field.length) }
    else
      let d := if separates && d.afterBlank then d else { d with cut := none }
      keep { d with afterBlank := false }
  | left =>
    -- Behind blanks a separator that is none belongs to them.
    if d.afterBlank && blank then { d with field := [] }
    else if d.afterBlank && separates then { d with field := [], afterBlank := false }
    else if d.afterBlank then { d with field := [cell], afterBlank := false }
    else if separates then
      let afterBlank := if d.afterBorders || d.onlyBorders then d.afterBlank else blank
      if d.field.isEmpty && afterBlank then { d with afterBlank := false }
      else if left == some 1 then
        { keep d with afterBlank, left := some 0, cut := some d.field.length }
      else
        { d with
          field := [], closed := d.field.reverse :: d.closed, afterBlank
          left := left.map (· - 1) }
    else keep { d with afterBlank := false }

/-- The fields of a draft; with a bound the last one takes what is left. -/
def fields (separators : Raw) (bound : Option Nat) (draft : Draft) : List (List Cell) :=
  let start : Division := { left := bound }
  let d := draft.cells.reverse.foldl (fun d cell =>
    match cell with
    | .char c _ (some region) => step separators (enter draft.regions d region) cell c
    | cell => { d with field := cell :: d.field }) start
  let field := match d.cut with
    | some n => (d.field.reverse).take n
    | none => d.field.reverse
  let last := match draft.regions with
    | true :: _ => true
    | _ => !field.isEmpty
  (if last then field :: d.closed else d.closed).reverse

end Division

end LedgerConformance.Shell
