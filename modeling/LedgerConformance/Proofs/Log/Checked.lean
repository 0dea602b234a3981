import LedgerConformance.Proofs.Log.Lines

/-!
Lines that pass the check. The check looks at the fields of an object as they stand, and
an entry is read from the same object by other rules. What the check asks of a field
holds of what is read there, except that a field which has to be there may hold a null,
and a null is read as a missing value.
-/

namespace LedgerConformance

namespace Json

/-! ### What a field was read from -/

variable {v : Option Json}

theorem required_string_iff {s : String} :
    Decode.required Decode.string (v.map .ofJson) = some s ↔ v = some (.string s) := by
  rcases v with - | v
  · simp [Decode.required]
  · cases v <;> simp [Decode.required, Decode.string, Document.ofJson]

/-- Nothing is read where there is no field, and where there is a null. -/
theorem maybe_eq_none_iff {α : Type} {read : Document → Option α} :
    Decode.maybe read (v.map .ofJson) = some none ↔ v = none ∨ v = some .null := by
  rcases v with - | v
  · simp [Decode.maybe]
  · cases v <;> simp [Decode.maybe, Decode.optional, Document.ofJson]

theorem maybe_string_iff {s : String} :
    Decode.maybe Decode.string (v.map .ofJson) = some (some s) ↔ v = some (.string s) := by
  rcases v with - | v
  · simp [Decode.maybe]
  · cases v <;> simp [Decode.maybe, Decode.optional, Decode.string, Document.ofJson]

end Json

namespace Log

open Json

namespace Entry

/-! ### What an entry was read from -/

/-- The fields of an object that the check looks at are read as those of an entry. -/
structure ReadFrom (doc : Json) (e : Entry) : Prop where
  timestamp : Decode.required Decode.string ((doc.get? "timestamp").map .ofJson) = some e.timestamp
  traceId : Decode.required Decode.string ((doc.get? "trace_id").map .ofJson) = some e.traceId
  level : Decode.required (Decode.word Level.ofName?) ((doc.get? "level").map .ofJson) =
    some e.level
  event : Decode.required Decode.string ((doc.get? "event").map .ofJson) = some e.event
  testId : Decode.maybe Decode.string ((doc.get? "test_id").map .ofJson) = some e.testId
  kind : Decode.maybe Decode.string ((doc.get? "kind").map .ofJson) = some e.kind
  outcome : Decode.maybe (Decode.word Mark.ofName?) ((doc.get? "outcome").map .ofJson) =
    some e.outcome

theorem ReadFrom.of_decode {doc : Json} {e : Entry} (hobject : doc.isObject = true)
    (h : decode (.ofJson doc) = some e) : ReadFrom doc e := by
  obtain ⟨fields, rfl⟩ : ∃ fields, doc = .object fields := by
    cases doc <;> simp_all [isObject]
  obtain ⟨found, hrecord, h⟩ := Option.bind_eq_some_iff.mp h
  -- No field has a second name, so each is found by its own.
  have hnames : fieldNames = fieldNames.flatten.map fun name => [name] := rfl
  rw [hnames, Document.ofJson] at hrecord
  rw [record_object hrecord, Document.ofFields_eq] at h
  simp only [lookup_map] at h
  obtain ⟨timestamp, htimestamp, h⟩ := Option.bind_eq_some_iff.mp h
  obtain ⟨traceId, htraceId, h⟩ := Option.bind_eq_some_iff.mp h
  obtain ⟨level, hlevel, h⟩ := Option.bind_eq_some_iff.mp h
  obtain ⟨event, hevent, h⟩ := Option.bind_eq_some_iff.mp h
  obtain ⟨suite, -, h⟩ := Option.bind_eq_some_iff.mp h
  obtain ⟨testId, htestId, h⟩ := Option.bind_eq_some_iff.mp h
  obtain ⟨implementation, -, h⟩ := Option.bind_eq_some_iff.mp h
  obtain ⟨kind, hkind, h⟩ := Option.bind_eq_some_iff.mp h
  obtain ⟨outcome, houtcome, h⟩ := Option.bind_eq_some_iff.mp h
  obtain ⟨exitCode, -, h⟩ := Option.bind_eq_some_iff.mp h
  obtain ⟨duration, -, h⟩ := Option.bind_eq_some_iff.mp h
  obtain ⟨details, -, h⟩ := Option.bind_eq_some_iff.mp h
  cases h
  exact ⟨htimestamp, htraceId, hlevel, hevent, htestId, hkind, houtcome⟩

theorem textField?_eq_some_iff {doc : Json} {field s : String} :
    textField? doc field = some s ↔ doc.get? field = some (.string s) := by
  rw [textField?, Option.bind_eq_some_iff]
  constructor
  · rintro ⟨v, hv, hs⟩
    cases v <;> simp_all [Json.toString?]
  · intro h
    exact ⟨_, h, rfl⟩

theorem textField?_of_maybe {doc : Json} {field : String} {s : Option String}
    (h : Decode.maybe Decode.string ((doc.get? field).map .ofJson) = some s) :
    textField? doc field = s := by
  cases s with
  | none =>
    rcases maybe_eq_none_iff.mp h with hv | hv
    · rw [textField?, hv]
      rfl
    · rw [textField?, hv]
      rfl
  | some s => exact textField?_eq_some_iff.mpr (maybe_string_iff.mp h)

/-! ### What is asked of it -/

theorem mem_map_of_find? {α : Type} {name : α → String} {all : List α} {s : String} {a : α}
    (h : all.find? (name · == s) = some a) : s ∈ all.map name := by
  have hname : name a = s := by simpa using List.find?_some h
  exact hname ▸ List.mem_map_of_mem (List.mem_of_find?_eq_some h)

variable {doc : Json} {e : Entry}

theorem ReadFrom.known_level (h : ReadFrom doc e) :
    ∀ s ∈ textField? doc "level", s ∈ Level.all.map Level.name := by
  intro s hs
  have hlevel := h.level
  rw [textField?_eq_some_iff.mp hs] at hlevel
  have hfound : Level.ofName? s = some e.level := hlevel
  exact mem_map_of_find? hfound

theorem ReadFrom.known_outcome (h : ReadFrom doc e) :
    ∀ s ∈ textField? doc "outcome", s ∈ Mark.all.map Mark.name := by
  intro s hs
  have houtcome := h.outcome
  rw [textField?_eq_some_iff.mp hs] at houtcome
  obtain ⟨mark, hfound, -⟩ : ∃ mark, Mark.ofName? s = some mark ∧ some mark = e.outcome :=
    Option.map_eq_some_iff.mp houtcome
  exact mem_map_of_find? hfound

theorem unknownWords_eq_nil_iff :
    unknownWords doc = [] ↔
      ∀ vocabulary ∈ vocabularies, ∀ s ∈ textField? doc vocabulary.1, s ∈ vocabulary.2 := by
  rw [unknownWords, List.filterMap_eq_nil_iff]
  apply forall₂_congr
  rintro ⟨field, allowed⟩ -
  dsimp only
  cases textField? doc field <;> simp

theorem ReadFrom.unknownWords_eq_nil_iff (h : ReadFrom doc e) :
    unknownWords doc = [] ↔ ∀ kind ∈ e.kind, kind ∈ Kind.all.map Kind.name := by
  rw [Entry.unknownWords_eq_nil_iff]
  simp only [vocabularies, List.forall_mem_cons, textField?_of_maybe h.kind]
  exact ⟨fun hknown => hknown.2.2.1, fun hkind => ⟨h.known_level, h.known_outcome, hkind, by simp⟩⟩

theorem ReadFrom.missingFields_eq_nil (h : ReadFrom doc e) : missingFields doc = [] := by
  have htimestamp := required_string_iff.mp h.timestamp
  have htraceId := required_string_iff.mp h.traceId
  have hevent := required_string_iff.mp h.event
  have hlevel : (doc.get? "level").isNone = false := by
    cases hv : doc.get? "level" with
    | none =>
      have hread := h.level
      rw [hv] at hread
      cases hread
    | some v => rfl
  simp [missingFields, requiredFields, htimestamp, htraceId, hevent, hlevel]

/-- What a line that passes shows of its entry. A test result has the fields that it needs,
and lacks the value of one where the line has a null. -/
structure Checked (doc : Json) (e : Entry) : Prop where
  traceId : Text.contains e.traceId "::" = true
  event : Text.isBlankText e.event = false
  kind : ∀ kind ∈ e.kind, kind ∈ Kind.all.map Kind.name
  testId : e.event = "test_result" →
    ∃ v, doc.get? "test_id" = some v ∧ (e.testId = none ↔ v = .null)
  outcome : e.event = "test_result" →
    ∃ v, doc.get? "outcome" = some v ∧ (e.outcome = none ↔ v = .null)

theorem isSome_get?_iff {α : Type} {read : Document → Option α} {field : String} {a : Option α}
    (h : Decode.maybe read ((doc.get? field).map .ofJson) = some a) :
    (doc.get? field).isSome = true ↔ ∃ v, doc.get? field = some v ∧ (a = none ↔ v = .null) := by
  rw [Option.isSome_iff_exists]
  apply exists_congr
  intro v
  rw [iff_self_and]
  intro hv
  rw [hv] at h
  constructor
  · rintro rfl
    simpa using maybe_eq_none_iff.mp h
  · rintro rfl
    have hnone : a = none := (Option.some.inj h).symm
    exact hnone

theorem ReadFrom.incompleteResults_eq_nil_iff (h : ReadFrom doc e) :
    incompleteResults doc = [] ↔
      (e.event = "test_result" →
        (doc.get? "test_id").isSome = true ∧ (doc.get? "outcome").isSome = true) := by
  rw [incompleteResults, textField?_eq_some_iff.mpr (required_string_iff.mp h.event)]
  by_cases hevent : e.event = "test_result"
  · cases hid : doc.get? "test_id" <;> cases hmark : doc.get? "outcome" <;>
      simp [hevent, hid, hmark]
  · simp [hevent]

/-- Nothing is wrong with an object that an entry was read from exactly if the entry is as
the check asks. -/
theorem ReadFrom.problems_eq_nil_iff (h : ReadFrom doc e) : problems doc = [] ↔ Checked doc e := by
  have hid := textField?_eq_some_iff.mpr (required_string_iff.mp h.traceId)
  have hevent := textField?_eq_some_iff.mpr (required_string_iff.mp h.event)
  simp only [problems, List.append_eq_nil_iff, h.missingFields_eq_nil, h.unknownWords_eq_nil_iff,
    h.incompleteResults_eq_nil_iff, blankEvents, badTraceIds, hid, hevent,
    isSome_get?_iff h.testId, isSome_get?_iff h.outcome]
  constructor
  · rintro ⟨⟨⟨⟨-, hkind⟩, hblank⟩, hcolons⟩, hresult⟩
    exact ⟨by simpa using hcolons, by simpa using hblank, hkind, fun he => (hresult he).1,
      fun he => (hresult he).2⟩
  · intro hchecked
    exact ⟨⟨⟨⟨trivial, hchecked.kind⟩, by simp [hchecked.event]⟩, by simp [hchecked.traceId]⟩,
      fun he => ⟨hchecked.testId he, hchecked.outcome he⟩⟩

end Entry

/-- A line passes exactly if its object can be read as an entry that is as the check asks: the
trace identifier has its colons, the event is not blank, a kind is a known one, and the line of
a test result has the fields of one, where the entry lacks what is null. -/
theorem checkLine_eq_ok_iff (line : String) (e : Entry) :
    checkLine line = .ok e ↔
      ∃ doc, parse? line = some doc ∧ doc.isObject = true ∧
        Entry.decode (.ofJson doc) = some e ∧ Entry.Checked doc e := by
  unfold checkLine
  constructor
  · intro h
    split at h
    · cases h
    · rename_i doc hparse
      split at h
      · rename_i hobject
        split at h
        · rename_i hproblems
          split at h
          · rename_i found hdecode
            cases h
            have hread := Entry.ReadFrom.of_decode hobject hdecode
            exact ⟨doc, hparse, hobject, hdecode, hread.problems_eq_nil_iff.mp hproblems⟩
          · cases h
        · cases h
      · cases h
  · rintro ⟨doc, hparse, hobject, hdecode, hchecked⟩
    have hread := Entry.ReadFrom.of_decode hobject hdecode
    simp only [hparse, hobject, if_true, hread.problems_eq_nil_iff.mpr hchecked, hdecode]

/-- The line of a test result whose test and outcome are null passes, and is read as a test
result that lacks both. -/
theorem checkLine_nullOutcome :
    ((checkLine ("\x7b\"timestamp\":\"t\",\"trace_id\":\"run::001\",\"level\":\"info\"," ++
        "\"event\":\"test_result\",\"test_id\":null,\"outcome\":null\x7d")).toOption.map
          fun e => (e.event, e.testId, e.outcome)) = some ("test_result", none, none) := by
  decide +kernel

end Log

end LedgerConformance
