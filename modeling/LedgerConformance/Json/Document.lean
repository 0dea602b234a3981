import LedgerConformance.Json.Token

/-!
What a JSON text says before it is taken as a value: fields stand as they are
written, repeated keys included, and a part that has no value is kept as
`unreadable`. Such a part spoils only what looks at it. Containers may be
nested 127 deep.
-/

namespace LedgerConformance.Json

inductive Document where
  | null
  | bool (value : Bool)
  | number (value : Number)
  | string (value : String)
  | array (items : List Document)
  | object (fields : List (String × Document))
  | unreadable
deriving Repr, Inhabited

namespace Document

def greatestDepth : Nat := 127

/-- A container that is not closed yet, with its contents newest first. The
key of an object is the one whose value is still to come. -/
inductive Frame where
  | array (items : List Document)
  | object (fields : List (Option String × Document)) (key : Option String)

/-- What has to come next. -/
inductive Awaits where
  | value
  | itemOrClose
  | key
  | keyOrClose
  | colon
  | separator
  | nothing (result : Document)

structure State where
  stack : List Frame := []
  awaits : Awaits := .value

/-- Puts a finished value where it belongs. -/
def State.finish (stack : List Frame) (v : Document) : State :=
  match stack with
  | [] => ⟨[], .nothing v⟩
  | .array items :: rest => ⟨.array (v :: items) :: rest, .separator⟩
  | .object fields key :: rest => ⟨.object ((key, v) :: fields) none :: rest, .separator⟩

/-- The fields in written order, unless a key has no value. -/
def readableFields (done : List (String × Document)) :
    List (Option String × Document) → Option (List (String × Document))
  | [] => some done
  | (some key, v) :: rest => readableFields ((key, v) :: done) rest
  | (none, _) :: _ => none

/-- The document of a container that is closed while `enclosing` others are open. -/
def ofFrame (enclosing : Nat) (frame : Frame) : Document :=
  if greatestDepth ≤ enclosing then unreadable
  else
    match frame with
    | .array items => array items.reverse
    | .object fields _ =>
      match readableFields [] fields with
      | some fields => object fields
      | none => unreadable

def State.closeArray (stack : List Frame) : Option State :=
  match stack with
  | .array items :: rest => some (State.finish rest (ofFrame rest.length (.array items)))
  | _ => none

def State.closeObject (stack : List Frame) : Option State :=
  match stack with
  | .object fields key :: rest =>
    some (State.finish rest (ofFrame rest.length (.object fields key)))
  | _ => none

/-- A token that starts a value. -/
def State.startValue (stack : List Frame) : Token → Option State
  | .null => some (.finish stack null)
  | .bool b => some (.finish stack (bool b))
  | .number n => some (.finish stack (n.elim unreadable number))
  | .string s => some (.finish stack (s.elim unreadable string))
  | .openArray => some ⟨.array [] :: stack, .itemOrClose⟩
  | .openObject => some ⟨.object [] none :: stack, .keyOrClose⟩
  | _ => none

/-- A token that is the key of the innermost object. -/
def State.takeKey (stack : List Frame) : Token → Option State
  | .string key =>
    match stack with
    | .object fields _ :: rest => some ⟨.object fields key :: rest, .colon⟩
    | _ => none
  | _ => none

/-- Takes in one token; `none` when it may not stand there. -/
def State.step (s : State) (t : Token) : Option State :=
  match s.awaits, t with
  | .value, t => State.startValue s.stack t
  | .itemOrClose, .closeArray => State.closeArray s.stack
  | .itemOrClose, t => State.startValue s.stack t
  | .key, t => State.takeKey s.stack t
  | .keyOrClose, .closeObject => State.closeObject s.stack
  | .keyOrClose, t => State.takeKey s.stack t
  | .colon, .colon => some { s with awaits := .value }
  | .separator, .comma =>
    match s.stack with
    | .array _ :: _ => some { s with awaits := .value }
    | .object _ _ :: _ => some { s with awaits := .key }
    | [] => none
  | .separator, .closeArray => State.closeArray s.stack
  | .separator, .closeObject => State.closeObject s.stack
  | _, _ => none

def State.run (s : State) : List Token → Option State
  | [] => some s
  | t :: rest =>
    match s.step t with
    | some s => s.run rest
    | none => none

def ofTokens? (tokens : List Token) : Option Document :=
  match State.run {} tokens with
  | some ⟨_, .nothing v⟩ => some v
  | _ => none

/-- The document that a text holds, or `none` when it is malformed. -/
def read? (s : List Char) : Option Document := (Token.ofText? s).bind ofTokens?

mutual

/-- The value of a document: keys sorted, of repeated keys the last. -/
def toJson? : Document → Option Json
  | null => some .null
  | bool b => some (.bool b)
  | number n => some (.number n)
  | string s => some (.string s)
  | array items => (toItems? items).map .array
  | object fields => (toFields? fields).map Json.sorted
  | unreadable => none

def toItems? : List Document → Option (List Json)
  | [] => some []
  | item :: rest =>
    match item.toJson?, toItems? rest with
    | some item, some rest => some (item :: rest)
    | _, _ => none

def toFields? : List (String × Document) → Option (List (String × Json))
  | [] => some []
  | (key, v) :: rest =>
    match v.toJson?, toFields? rest with
    | some v, some rest => some ((key, v) :: rest)
    | _, _ => none

end

mutual

/-- A value seen as the document that says it. -/
def ofJson : Json → Document
  | .null => null
  | .bool b => bool b
  | .number n => number n
  | .string s => string s
  | .array items => array (ofItems items)
  | .object fields => object (ofFields fields)

def ofItems : List Json → List Document
  | [] => []
  | item :: rest => ofJson item :: ofItems rest

def ofFields : List (String × Json) → List (String × Document)
  | [] => []
  | (key, v) :: rest => (key, ofJson v) :: ofFields rest

end

end Document

/-- The value that a text holds. -/
def parse? (s : String) : Option Json := (Document.read? s.toList).bind Document.toJson?

end LedgerConformance.Json
