import LedgerConformance.Text.Blank

/-!
Paths as texts. A path is a leading part, which is a slash, a dot or nothing,
and segments between slashes. Empty segments and dots in the body of a path
name nothing.
-/

namespace LedgerConformance.Path

def segments (s : List Char) : List (List Char) := Text.splitOnChar '/' s

/-- The leading part of a path and its body. -/
def divide (path : List Char) : List Char × List Char :=
  match path with
  | '/' :: body => (['/'], body)
  | ['.'] => (['.'], [])
  | '.' :: '/' :: body => (['.'], '/' :: body)
  | body => ([], body)

def namesNothing (segment : List Char) : Bool := segment == [] || segment == ['.']

/-- The segments of the body, last first, beginning with one that names something. -/
def reversedBody (path : String) : List (List Char) :=
  (segments (divide path.toList).2).reverse.dropWhile namesNothing

/-- The path of what encloses a path; the empty path and the root have none. -/
def parent? (path : String) : Option String :=
  let lead := (divide path.toList).1
  match reversedBody path with
  | [] => if lead == ['.'] then some "" else none
  | _ :: rest =>
    let kept := (rest.dropWhile namesNothing).reverse
    some (String.ofList (lead ++ ['/'].intercalate kept))

/-- The last segment, unless it leads upwards. -/
def fileName? (path : String) : Option String :=
  match reversedBody path with
  | [] => none
  | last :: _ => if last == ['.', '.'] then none else some (String.ofList last)

/-- What follows the last dot of the file name, unless the dot is its first character. -/
def extension? (path : String) : Option String :=
  match (fileName? path).map fun name => name.toList.reverse with
  | none => none
  | some reversed =>
    match reversed.dropWhile (· != '.') with
    | _ :: _ :: _ => some (String.ofList (reversed.takeWhile (· != '.')).reverse)
    | _ => none

def isAbsolute (path : String) : Bool := path.toList.head? == some '/'

/-- A path seen from another one; an absolute path stays as it is. -/
def join (base path : String) : String :=
  if isAbsolute path then path
  else if base.isEmpty || base.toList.getLast? == some '/' then base ++ path
  else base ++ "/" ++ path

/-- The descriptor that a path names. -/
def descriptor? (path : String) : Option Nat :=
  let numbered (start : String) : Option Nat :=
    if start.toList.isPrefixOf path.toList then
      let digits := String.ofList (path.toList.drop start.length)
      digits.toNat?.filter fun number => toString number == digits
    else none
  match path with
  | "/dev/stdin" => some 0
  | "/dev/stdout" => some 1
  | "/dev/stderr" => some 2
  | _ => (numbered "/dev/fd/").orElse fun _ => numbered "/proc/self/fd/"

/-- What paths are ordered by: the root, a leading dot, a step up, and names. -/
inductive Component where
  | root
  | here
  | up
  | name (value : String)
deriving DecidableEq, Repr

namespace Component

def rank : Component → Nat
  | root => 0
  | here => 1
  | up => 2
  | name _ => 3

def before (a b : Component) : Bool :=
  match a, b with
  | name s, name t => s < t
  | a, b => a.rank < b.rank

end Component

def components (path : String) : List Component :=
  let (lead, body) := divide path.toList
  let first := match lead with
    | ['/'] => [.root]
    | ['.'] => [.here]
    | _ => []
  first ++ ((segments body).filter (! namesNothing ·)).map fun s =>
    if s == ['.', '.'] then .up else .name (String.ofList s)

def componentsLe : List Component → List Component → Bool
  | [], _ => true
  | _ :: _, [] => false
  | a :: as, b :: bs => a.before b || (a == b && componentsLe as bs)

/-- The order of paths, component by component. -/
def le (a b : String) : Bool := componentsLe (components a) (components b)

end LedgerConformance.Path
