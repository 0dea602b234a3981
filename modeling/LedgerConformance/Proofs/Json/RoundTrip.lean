import LedgerConformance.Json.Document
import LedgerConformance.Proofs.Json.Fields
import LedgerConformance.Proofs.Json.Tokens

/-!
Values read back from their texts. The reader of documents takes the tokens of a
value wherever a value may stand, and puts it where it belongs. What comes out is the
value with its numbers read back and the keys of its objects in order.
-/

namespace LedgerConformance.Json

/-- The number that its text stands for; one whose text stands for none is kept. -/
def Number.reread (n : Number) : Number := n.reread?.getD n

mutual

/-- The value with its numbers read back from their texts. -/
def reread : Json → Json
  | null => null
  | bool b => bool b
  | number n => number n.reread
  | string s => string s
  | array items => array (rereadItems items)
  | object fields => object (rereadFields fields)

def rereadItems : List Json → List Json
  | [] => []
  | item :: rest => item.reread :: rereadItems rest

def rereadFields : List (String × Json) → List (String × Json)
  | [] => []
  | (key, value) :: rest => (key, value.reread) :: rereadFields rest

end

theorem rereadItems_eq (items : List Json) : rereadItems items = items.map reread := by
  induction items with
  | nil => rfl
  | cons item rest ih => rw [rereadItems, ih, List.map_cons]

theorem rereadFields_eq (fields : List (String × Json)) :
    rereadFields fields = fields.map fun field => (field.1, field.2.reread) := by
  induction fields with
  | nil => rfl
  | cons field rest ih => rw [rereadFields, ih, List.map_cons]

mutual

/-- The value with the keys of every object in order, of repeated keys the last. -/
def normal : Json → Json
  | null => null
  | bool b => bool b
  | number n => number n
  | string s => string s
  | array items => array (normalItems items)
  | object fields => sorted (normalFields fields)

def normalItems : List Json → List Json
  | [] => []
  | item :: rest => item.normal :: normalItems rest

def normalFields : List (String × Json) → List (String × Json)
  | [] => []
  | (key, value) :: rest => (key, value.normal) :: normalFields rest

end

theorem normalItems_eq (items : List Json) : normalItems items = items.map normal := by
  induction items with
  | nil => rfl
  | cons item rest ih => rw [normalItems, ih, List.map_cons]

theorem normalFields_eq (fields : List (String × Json)) :
    normalFields fields = fields.map fun field => (field.1, field.2.normal) := by
  induction fields with
  | nil => rfl
  | cons field rest ih => rw [normalFields, ih, List.map_cons]

mutual

/-- A value whose keys are in order stays as it is. -/
theorem normal_normal : ∀ v : Json, v.normal.normal = v.normal
  | null => rfl
  | bool _ => rfl
  | number _ => rfl
  | string _ => rfl
  | array items => by rw [normal, normal, normalItems_normalItems items]
  | object fields => by
    rw [normal, sorted_eq, normal, normalFields_eq, ← sortedFields_map, ← normalFields_eq,
      normalFields_normalFields fields, sorted_eq, sortedFields_sortedFields]

theorem normalItems_normalItems : ∀ items : List Json,
    normalItems (normalItems items) = normalItems items
  | [] => rfl
  | item :: rest => by
    rw [normalItems, normalItems, normal_normal item, normalItems_normalItems rest]

theorem normalFields_normalFields : ∀ fields : List (String × Json),
    normalFields (normalFields fields) = normalFields fields
  | [] => rfl
  | (key, value) :: rest => by
    rw [normalFields, normalFields, normal_normal value, normalFields_normalFields rest]

end

namespace Document

mutual

/-- A value that is seen as a document is the value of that document. -/
theorem toJson?_ofJson : ∀ v : Json, (ofJson v).toJson? = some v.normal
  | .null => rfl
  | .bool _ => rfl
  | .number _ => rfl
  | .string _ => rfl
  | .array items => by rw [ofJson, toJson?, toItems?_ofItems items, normal, Option.map_some]
  | .object fields => by rw [ofJson, toJson?, toFields?_ofFields fields, normal, Option.map_some]

theorem toItems?_ofItems : ∀ items : List Json, toItems? (ofItems items) = some (normalItems items)
  | [] => rfl
  | item :: rest => by rw [ofItems, toItems?, toJson?_ofJson item, toItems?_ofItems rest, normalItems]

theorem toFields?_ofFields : ∀ fields : List (String × Json),
    toFields? (ofFields fields) = some (normalFields fields)
  | [] => rfl
  | (key, value) :: rest => by
    rw [ofFields, toFields?, toJson?_ofJson value, toFields?_ofFields rest, normalFields]

end

theorem ofFields_eq (fields : List (String × Json)) :
    ofFields fields = fields.map fun field => (field.1, ofJson field.2) := by
  induction fields with
  | nil => rfl
  | cons field rest ih => rw [ofFields, ih, List.map_cons]

/-! ### The reader of documents -/

/-- The tokens lead from any place where a value may stand to the state in which the
document has been put there. -/
def Fills (found : List Token) (doc : Document) (stack : List Frame) : Prop :=
  ∀ rest, State.run ⟨stack, .value⟩ (found ++ rest) = State.run (State.finish stack doc) rest

/-- In an array that is just open, items are read as behind a comma. -/
theorem run_itemOrClose (stack : List Frame) (item : Json) (items : List Json)
    (rest : List Token) :
    State.run ⟨stack, .itemOrClose⟩ (itemTokens (item :: items) ++ rest) =
      State.run ⟨stack, .value⟩ (itemTokens (item :: items) ++ rest) := by
  cases items <;> cases item <;> rfl

theorem run_keyOrClose (stack : List Frame) (field : String × Json)
    (fields : List (String × Json)) (rest : List Token) :
    State.run ⟨stack, .keyOrClose⟩ (fieldTokens (field :: fields) ++ rest) =
      State.run ⟨stack, .key⟩ (fieldTokens (field :: fields) ++ rest) := by
  cases fields <;> rfl

theorem run_items {stack : List Frame} {item : Json} {items : List Json}
    (h : ∀ v ∈ item :: items, ∀ done,
      Fills v.tokens (ofJson v.reread) (.array done :: stack)) (done : List Document)
    (rest : List Token) :
    State.run ⟨.array done :: stack, .value⟩
        (itemTokens (item :: items) ++ .closeArray :: rest) =
      State.run (State.finish stack (ofFrame stack.length
        (.array ((ofItems (rereadItems (item :: items))).reverse ++ done)))) rest := by
  induction items generalizing item done with
  | nil =>
    rw [itemTokens, h item List.mem_cons_self]
    rfl
  | cons second items ih =>
    obtain ⟨hitem, hothers⟩ := List.forall_mem_cons.mp h
    have hdone : (ofItems (rereadItems (item :: second :: items))).reverse ++ done =
        (ofItems (rereadItems (second :: items))).reverse ++ ofJson item.reread :: done := by
      simp [rereadItems, ofItems]
    rw [itemTokens, List.append_assoc, hitem, hdone, ← ih hothers]
    · rfl
    · simp

/-- The fields of an object whose key has been read, with the last one on top. -/
def pushed (done : List (Option String × Document)) (fields : List (String × Json)) :
    List (Option String × Document) :=
  fields.foldl (fun done field => (some field.1, ofJson field.2.reread) :: done) done

theorem run_fields {stack : List Frame} {field : String × Json} {fields : List (String × Json)}
    (h : ∀ f ∈ field :: fields, ∀ done key,
      Fills f.2.tokens (ofJson f.2.reread) (.object done key :: stack))
    (done : List (Option String × Document)) (key : Option String) (rest : List Token) :
    State.run ⟨.object done key :: stack, .key⟩
        (fieldTokens (field :: fields) ++ .closeObject :: rest) =
      State.run (State.finish stack (ofFrame stack.length
        (.object (pushed done (field :: fields)) none))) rest := by
  induction fields generalizing field done key with
  | nil =>
    obtain ⟨name, value⟩ := field
    have hvalue := h (name, value) List.mem_cons_self done (some name) (.closeObject :: rest)
    exact hvalue
  | cons second fields ih =>
    obtain ⟨name, value⟩ := field
    obtain ⟨hfield, hothers⟩ := List.forall_mem_cons.mp h
    have hvalue := hfield done (some name) (.comma :: (fieldTokens (second :: fields) ++
      .closeObject :: rest))
    have hrest := ih hothers ((some name, ofJson value.reread) :: done) none
    rw [fieldTokens, List.append_assoc]
    · exact hvalue.trans hrest
    · simp

theorem readableFields_pushed (fields : List (String × Json))
    (done : List (Option String × Document)) (read : List (String × Document)) :
    readableFields read (pushed done fields) =
      readableFields (ofFields (rereadFields fields) ++ read) done := by
  induction fields generalizing done with
  | nil => rfl
  | cons field rest ih =>
    obtain ⟨name, value⟩ := field
    have hrest := ih ((some name, ofJson value.reread) :: done)
    exact hrest

/-- The tokens of a readable value put it where it may stand, unless the containers
around it are too many. -/
theorem fills_tokens {depth : Nat} {v : Json} (h : Readable depth v) :
    ∀ stack : List Frame, stack.length + depth ≤ greatestDepth →
      Fills v.tokens (ofJson v.reread) stack := by
  induction h with
  | null depth => exact fun _ _ _ => rfl
  | bool depth b => exact fun _ _ _ => rfl
  | string depth s => exact fun _ _ _ => rfl
  | @number depth n hread =>
    intro stack _ rest
    obtain ⟨m, hm⟩ := Option.isSome_iff_exists.mp hread
    simp [tokens, reread, Number.reread, hm, ofJson, State.run, State.step, State.startValue]
  | @array depth items _ ih =>
    intro stack hdepth rest
    have hroom : ¬ greatestDepth ≤ stack.length := by omega
    have hitems : ∀ v ∈ items, ∀ done,
        Fills v.tokens (ofJson v.reread) (.array done :: stack) := by
      intro v hv done
      apply ih v hv
      rw [List.length_cons]
      omega
    have hdoc : ofFrame stack.length (.array ((ofItems (rereadItems items)).reverse ++ [])) =
        ofJson (Json.array items).reread := by
      rw [ofFrame, if_neg hroom, List.append_nil, List.reverse_reverse]
      rfl
    have hopen : State.run ⟨stack, .value⟩ ((Json.array items).tokens ++ rest) =
        State.run ⟨.array [] :: stack, .itemOrClose⟩ (itemTokens items ++ .closeArray :: rest) := by
      rw [tokens, List.append_assoc]
      rfl
    rw [hopen, ← hdoc]
    cases items with
    | nil => rfl
    | cons item items => rw [run_itemOrClose, run_items hitems]
  | @object depth fields _ ih =>
    intro stack hdepth rest
    have hroom : ¬ greatestDepth ≤ stack.length := by omega
    have hfields : ∀ f ∈ fields, ∀ done key,
        Fills f.2.tokens (ofJson f.2.reread) (.object done key :: stack) := by
      intro f hf done key
      apply ih f hf
      rw [List.length_cons]
      omega
    have hdoc : ofFrame stack.length (.object (pushed [] fields) none) =
        ofJson (Json.object fields).reread := by
      rw [ofFrame, if_neg hroom]
      simp only [readableFields_pushed, readableFields, List.append_nil]
      rfl
    have hopen : State.run ⟨stack, .value⟩ ((Json.object fields).tokens ++ rest) =
        State.run ⟨.object [] none :: stack, .keyOrClose⟩
          (fieldTokens fields ++ .closeObject :: rest) := by
      rw [tokens, List.append_assoc]
      rfl
    rw [hopen, ← hdoc]
    cases fields with
    | nil => rfl
    | cons field fields => rw [run_keyOrClose, run_fields hfields]

/-- The text of a readable value is read as the value with its numbers read back. -/
theorem read?_compactChars {v : Json} (h : Readable greatestDepth v) :
    read? v.compactChars = some (ofJson v.reread) := by
  have hrun := fills_tokens h [] (by simp) []
  rw [read?, Token.ofText?_compactChars h, Option.bind_some, ofTokens?]
  rw [List.append_nil] at hrun
  rw [hrun]
  rfl

end Document

/-- The text of a readable value is read back, with the keys of its objects in order. -/
theorem parse?_compact {v : Json} (h : Readable Document.greatestDepth v) :
    parse? v.compact = some v.reread.normal := by
  rw [parse?, compact, String.toList_ofList, Document.read?_compactChars h, Option.bind_some,
    Document.toJson?_ofJson]

end LedgerConformance.Json
