import LedgerConformance.Log.Validation
import LedgerConformance.Proofs.Json.Floats
import LedgerConformance.Proofs.Json.Records
import LedgerConformance.Proofs.Steps

/-!
The line of an entry, and what the check says about it. The writer leaves out what an
entry lacks, and the reader asks for fields by their names; what is said about a line
is what is wrong with its entry, whatever texts the entry holds.
-/

namespace LedgerConformance.Log

open Json

namespace Entry

/-! ### Fields -/

/-- The fields of an entry in the order in which they are written. -/
def parts (e : Entry) : List (String × Option Json) :=
  [("timestamp", some (.string e.timestamp)), ("trace_id", some (.string e.traceId)),
    ("level", some (.string e.level.name)), ("event", some (.string e.event)),
    ("suite", e.suite.map .string), ("test_id", e.testId.map .string),
    ("implementation", e.implementation.map .string), ("kind", e.kind.map .string),
    ("outcome", e.outcome.map fun mark => .string mark.name),
    ("exit_code", e.exitCode.map .int),
    ("duration_ms", e.duration.map fun x => .number (.float x)), ("details", e.details)]

theorem map_fst_parts (e : Entry) : e.parts.map (fun part => [part.1]) = fieldNames := rfl

theorem nodup_parts (e : Entry) : (e.parts.map Prod.fst).Nodup := by
  have hnames : e.parts.map Prod.fst = fieldNames.flatten := rfl
  rw [hnames]
  decide

theorem toJson_eq (e : Entry) : e.toJson = .object (present e.parts) := by
  simp [toJson, parts, present, fieldIf, Option.map_map, Function.comp_def]

/-! ### Reading back -/

/-- An entry whose numbers can be read back, and whose details are no deeper than a line
may be. -/
structure Writable (e : Entry) : Prop where
  exitCode : ∀ code ∈ e.exitCode, -0x80000000 ≤ code ∧ code < 0x80000000
  duration : ∀ x ∈ e.duration, x.Moderate
  details : ∀ v ∈ e.details, v ≠ .null ∧ Readable 126 v

/-- The entry as its line is read: of the duration what its digits say, and the details
with their keys in order. -/
def reread (e : Entry) : Entry :=
  { e with
    duration := e.duration.bind fun x => (Number.float x).reread.toBinary64?
    details := e.details.map fun v => v.reread.normal }

theorem fits_of_int32 {code : Int} (h : -0x80000000 ≤ code ∧ code < 0x80000000) :
    Number.Fits code := by
  obtain ⟨hlow, hhigh⟩ := h
  exact ⟨by omega, by omega⟩

theorem Writable.readable {e : Entry} (h : e.Writable) :
    Readable Document.greatestDepth e.toJson := by
  have hparts : ∀ part ∈ e.parts, ∀ v ∈ part.2, Readable 126 v := by
    have htext : ∀ s : Option String, ∀ v ∈ s.map Json.string, Readable 126 v := by
      intro s v hv
      obtain ⟨text, -, rfl⟩ := Option.mem_map.mp hv
      exact .string 126 text
    have hmark : ∀ v ∈ e.outcome.map fun mark => Json.string mark.name, Readable 126 v := by
      intro v hv
      obtain ⟨mark, -, rfl⟩ := Option.mem_map.mp hv
      exact .string 126 mark.name
    have hcode : ∀ v ∈ e.exitCode.map Json.int, Readable 126 v := by
      intro v hv
      obtain ⟨code, hcode, rfl⟩ := Option.mem_map.mp hv
      exact .number 126 (by rw [Number.reread?_int (fits_of_int32 (h.exitCode code hcode))]; rfl)
    have hduration : ∀ v ∈ e.duration.map fun x => Json.number (.float x), Readable 126 v := by
      intro v hv
      obtain ⟨x, hx, rfl⟩ := Option.mem_map.mp hv
      obtain ⟨y, hy⟩ := Number.reread?_float (h.duration x hx)
      exact .number 126 (by rw [hy]; rfl)
    have hdetails : ∀ v ∈ e.details, Readable 126 v := fun v hv => (h.details v hv).2
    simp only [parts, List.forall_mem_cons]
    exact ⟨htext (some _), htext (some _), htext (some _), htext (some _), htext _, htext _,
      htext _, htext _, hmark, hcode, hduration, hdetails, by simp⟩
  rw [toJson_eq]
  refine Readable.object (?_ : ∀ field ∈ present e.parts, Readable 126 field.2)
  intro field hfield
  obtain ⟨part, hpart, hmem⟩ := List.mem_flatMap.mp hfield
  have hvalue := hparts part hpart
  unfold fieldIf at hmem
  split at hmem
  · rename_i v hv
    rw [List.mem_singleton.mp hmem]
    exact hvalue v hv
  · cases hmem

/-- What the line of an entry is read as. -/
def document (e : Entry) : Json := e.toJson.reread.normal

theorem get?_document (e : Entry) (key : String) :
    e.document.get? key = (e.parts.lookup key).join.map fun v => v.reread.normal := by
  rw [document, toJson_eq, get?_reread_normal e.nodup_parts]

theorem maybe_string (s : Option String) :
    Decode.maybe Decode.string
      ((s.map Json.string).map fun v => .ofJson v.reread.normal) = some s := by
  cases s <;> rfl

theorem ofName?_level (level : Level) : Level.ofName? level.name = some level := by
  cases level <;> decide

theorem maybe_mark (mark : Option Mark) :
    Decode.maybe (Decode.word Mark.ofName?)
      ((mark.map fun mark => Json.string mark.name).map fun v => .ofJson v.reread.normal) =
        some mark := by
  rcases mark with - | mark
  · rfl
  · cases mark <;> rfl

theorem maybe_int32 {code : Option Int}
    (h : ∀ i ∈ code, -0x80000000 ≤ i ∧ i < 0x80000000) :
    Decode.maybe Decode.int32 ((code.map Json.int).map fun v => .ofJson v.reread.normal) =
      some code := by
  cases code with
  | none => rfl
  | some i =>
    obtain ⟨hlow, hhigh⟩ := h i rfl
    have hread : (Number.int i).reread = .int i := by
      rw [Number.reread, Number.reread?_int (fits_of_int32 ⟨hlow, hhigh⟩), Option.getD_some]
    simp only [Option.map_some, Json.int, Json.reread, hread, Json.normal, Document.ofJson]
    rw [maybe_some _ (by simp), Decode.int32, decide_eq_true hlow, decide_eq_true hhigh]
    rfl

theorem maybe_float {duration : Option Binary64} (h : ∀ x ∈ duration, x.Moderate) :
    Decode.maybe Decode.float
      ((duration.map fun x => Json.number (.float x)).map fun v => .ofJson v.reread.normal) =
        some (duration.bind fun x => (Number.float x).reread.toBinary64?) := by
  cases duration with
  | none => rfl
  | some x =>
    obtain ⟨y, hy⟩ := Number.reread?_float (h x rfl)
    have hread : (Number.float x).reread = .float y := by
      rw [Number.reread, hy, Option.getD_some]
    simp only [Option.map_some, Json.reread, hread, Json.normal, Document.ofJson]
    rw [maybe_some _ (by simp), Option.bind_some, hread]
    rfl

theorem maybe_value {details : Option Json} (h : ∀ v ∈ details, v ≠ .null) :
    Decode.maybe Decode.value (details.map fun v => .ofJson v.reread.normal) =
      some (details.map fun v => v.reread.normal) := by
  cases details with
  | none => rfl
  | some v =>
    have hvalue : Decode.value (.ofJson v.reread.normal) = some v.reread.normal := by
      rw [Decode.value, Document.toJson?_ofJson, normal_normal]
    have hnull : Document.ofJson v.reread.normal ≠ .null := by
      have hv := h v rfl
      cases v <;> simp_all [Json.reread, Json.normal, Document.ofJson, sorted]
    rw [Option.map_some, maybe_some _ hnull, hvalue]
    rfl

theorem decode_document {e : Entry} (h : e.Writable) :
    decode (.ofJson e.document) = some e.reread := by
  have hrecord := record_ofJson e.nodup_parts
  rw [map_fst_parts, ← toJson_eq] at hrecord
  have htext : ∀ s : String,
      Decode.required Decode.string (some (.ofJson (Json.string s).reread.normal)) = some s :=
    fun _ => rfl
  have hlevel : Decode.required (Decode.word Level.ofName?)
      (some (.ofJson (Json.string e.level.name).reread.normal)) = some e.level :=
    ofName?_level e.level
  have hduration := maybe_float h.duration
  have hcode := maybe_int32 h.exitCode
  have hdetails := maybe_value fun v hv => (h.details v hv).1
  unfold decode document
  refine bind_eq_some_of hrecord ?_
  refine bind_eq_some_of (htext e.timestamp) ?_
  refine bind_eq_some_of (htext e.traceId) ?_
  refine bind_eq_some_of hlevel ?_
  refine bind_eq_some_of (htext e.event) ?_
  refine bind_eq_some_of (maybe_string e.suite) ?_
  refine bind_eq_some_of (maybe_string e.testId) ?_
  refine bind_eq_some_of (maybe_string e.implementation) ?_
  refine bind_eq_some_of (maybe_string e.kind) ?_
  refine bind_eq_some_of (maybe_mark e.outcome) ?_
  refine bind_eq_some_of hcode ?_
  refine bind_eq_some_of hduration ?_
  refine bind_eq_some_of hdetails ?_
  rfl

/-! ### Faults -/

/-- What is wrong with an entry. The level and the outcome are words of their
vocabularies; the kind is a text that may be any. -/
def faults (e : Entry) : List Problem :=
  (match e.kind with
    | some kind => if (Kind.all.map Kind.name).contains kind then [] else [.unknownWord "kind" kind]
    | none => []) ++
  (if Text.isBlankText e.event then [.blankEvent] else []) ++
  (if Text.contains e.traceId "::" then [] else [.badTraceId e.traceId]) ++
  if e.event == "test_result" then
    (if e.testId.isNone then [.incompleteResult "test_id"] else []) ++
      (if e.outcome.isNone then [.incompleteResult "outcome"] else [])
  else []

/-- An entry that lacks nothing but, perhaps, a trace identifier of its run. -/
structure Complete (e : Entry) : Prop where
  kind : ∀ kind ∈ e.kind, kind ∈ Kind.all.map Kind.name
  event : Text.isBlankText e.event = false
  result : e.event = "test_result" → e.testId.isSome = true ∧ e.outcome.isSome = true

theorem faults_eq_nil_iff (e : Entry) :
    e.faults = [] ↔ e.Complete ∧ Text.contains e.traceId "::" = true := by
  have hkind : (match e.kind with
      | some kind =>
        if (Kind.all.map Kind.name).contains kind then [] else [Problem.unknownWord "kind" kind]
      | none => []) = [] ↔ ∀ kind ∈ e.kind, kind ∈ Kind.all.map Kind.name := by
    cases e.kind with
    | none => simp
    | some kind =>
      dsimp only
      rw [ite_eq_left_iff]
      simp
  have hresult : (if e.event == "test_result" then
      (if e.testId.isNone then [Problem.incompleteResult "test_id"] else []) ++
        (if e.outcome.isNone then [Problem.incompleteResult "outcome"] else [])
      else []) = [] ↔
        (e.event = "test_result" → e.testId.isSome = true ∧ e.outcome.isSome = true) := by
    by_cases hevent : e.event = "test_result"
    · rw [if_pos (beq_iff_eq.mpr hevent)]
      cases e.testId <;> cases e.outcome <;> simp [hevent]
    · rw [if_neg (by rwa [beq_iff_eq])]
      simp [hevent]
  unfold faults
  rw [List.append_eq_nil_iff, List.append_eq_nil_iff, List.append_eq_nil_iff, hkind, hresult]
  constructor
  · rintro ⟨⟨⟨hk, hb⟩, hid⟩, hr⟩
    exact ⟨⟨hk, by simpa using hb, hr⟩, by simpa using hid⟩
  · rintro ⟨⟨hk, hb, hr⟩, hid⟩
    exact ⟨⟨⟨hk, by simp [hb]⟩, by simp [hid]⟩, hr⟩

theorem textField?_document (e : Entry) (key : String) :
    textField? e.document key = (e.parts.lookup key).join.bind Json.toString? := by
  rw [textField?, get?_document]
  cases (e.parts.lookup key).join with
  | none => rfl
  | some v => cases v <;> rfl

theorem missingFields_document (e : Entry) : missingFields e.document = [] := by
  unfold missingFields requiredFields
  simp only [get?_document]
  rfl

/-- Only the kind of an entry can be a word that is not known. -/
theorem unknownWords_document (e : Entry) : unknownWords e.document =
    match e.kind with
    | some kind =>
      if (Kind.all.map Kind.name).contains kind then [] else [.unknownWord "kind" kind]
    | none => [] := by
  have hlevel : textField? e.document "level" = some e.level.name := textField?_document e _
  have hmark : textField? e.document "outcome" = e.outcome.map Mark.name := by
    have hfield : (e.parts.lookup "outcome").join = e.outcome.map fun mark => .string mark.name :=
      rfl
    rw [textField?_document, hfield]
    cases e.outcome <;> rfl
  have hkind : textField? e.document "kind" = e.kind := by
    have hfield : (e.parts.lookup "kind").join = e.kind.map .string := rfl
    rw [textField?_document, hfield]
    cases e.kind <;> rfl
  have hlevels : (Level.all.map Level.name).contains e.level.name = true := by
    cases e.level <;> decide
  have hmarks : ∀ mark : Mark, (Mark.all.map Mark.name).contains mark.name = true := by
    intro mark
    cases mark <;> decide
  unfold unknownWords vocabularies
  rw [List.filterMap_cons_none (by simp only [hlevel, hlevels, if_true]),
    List.filterMap_cons_none]
  · simp only [List.filterMap_cons, List.filterMap_nil, hkind]
    cases e.kind with
    | none => rfl
    | some kind =>
      dsimp only
      by_cases hknown : (Kind.all.map Kind.name).contains kind = true
      · rw [if_pos hknown, if_pos hknown]
      · rw [if_neg hknown, if_neg hknown]
  · simp only [hmark]
    cases e.outcome with
    | none => rfl
    | some mark => simp only [Option.map_some, hmarks, if_true]

/-- What is said about the line of an entry is what is wrong with the entry. -/
theorem problems_document (e : Entry) : problems e.document = e.faults := by
  have hevent : textField? e.document "event" = some e.event := textField?_document e _
  have hid : textField? e.document "trace_id" = some e.traceId := textField?_document e _
  have htest : (e.document.get? "test_id").isNone = e.testId.isNone := by
    have hfield : (e.parts.lookup "test_id").join = e.testId.map .string := rfl
    rw [get?_document, hfield, Option.isNone_map, Option.isNone_map]
  have hmark : (e.document.get? "outcome").isNone = e.outcome.isNone := by
    have hfield : (e.parts.lookup "outcome").join = e.outcome.map fun mark => .string mark.name :=
      rfl
    rw [get?_document, hfield, Option.isNone_map, Option.isNone_map]
  have hevents : (some e.event == some "test_result") = (e.event == "test_result") := rfl
  have hresults : incompleteResults e.document =
      if e.event == "test_result" then
        (if e.testId.isNone then [.incompleteResult "test_id"] else []) ++
          (if e.outcome.isNone then [.incompleteResult "outcome"] else [])
      else [] := by
    rw [incompleteResults, hevent, hevents]
    split
    · rw [List.filter_cons, List.filter_cons, List.filter_nil, htest, hmark]
      cases e.testId <;> cases e.outcome <;> rfl
    · rfl
  rw [problems, faults, missingFields_document, unknownWords_document, hresults, blankEvents,
    badTraceIds, hevent, hid, Option.any_some, List.nil_append]

/-! ### Lines -/

theorem parse?_line {e : Entry} (h : e.Writable) :
    parse? e.line = some e.document ∧ e.document.isObject = true := by
  refine ⟨parse?_compact h.readable, ?_⟩
  rw [document, toJson_eq, reread_normal_present]
  rfl

/-- The line of an entry without a fault is read back. -/
theorem checkLine_line {e : Entry} (h : e.Writable) (hfaults : e.faults = []) :
    checkLine e.line = .ok e.reread := by
  obtain ⟨hparse, hobject⟩ := parse?_line h
  simp only [checkLine, hparse, hobject, if_true, problems_document, hfaults, decode_document h]

/-- Of an entry with faults all of them are told, and nothing else. -/
theorem checkLine_line_of_faults {e : Entry} (h : e.Writable) (hfaults : e.faults ≠ []) :
    checkLine e.line = .error e.faults := by
  obtain ⟨hparse, hobject⟩ := parse?_line h
  obtain ⟨first, rest, hsome⟩ := List.exists_cons_of_ne_nil hfaults
  simp only [checkLine, hparse, hobject, if_true, problems_document, hsome]

theorem findings_line {e : Entry} (h : e.Writable) (number : Nat) :
    findings number e.line = e.faults.map (⟨number, ·⟩) := by
  unfold findings
  by_cases hfaults : e.faults = []
  · rw [checkLine_line h hfaults, hfaults]
    rfl
  · rw [checkLine_line_of_faults h hfaults]

theorem isBraced_line (e : Entry) : IsBraced e.line.toList := by
  rw [line, compact, String.toList_ofList, toJson_eq]
  exact isBraced_compactChars _

end Entry

/-! ### Logs -/

/-- The text of a log with the given entries. -/
def logText (entries : List Entry) : String := String.join (entries.map fun e => e.line ++ "\n")

theorem logText_cons (e : Entry) (rest : List Entry) :
    logText (e :: rest) = e.line ++ "\n" ++ logText rest := by
  rw [logText, List.map_cons, String.join_cons]
  rfl

theorem lines_logText (entries : List Entry) :
    Text.lines (logText entries) = entries.map Entry.line := by
  have hchars : (logText entries).toList =
      (entries.map fun e => e.line.toList).flatMap (· ++ ['\n']) := by
    rw [logText, String.toList_join, List.flatMap_map, List.flatMap_map]
    simp only [String.toList_append]
    rfl
  have hfeed : ∀ line ∈ entries.map fun e => e.line.toList, '\n' ∉ line := by
    intro line hline
    obtain ⟨e, -, rfl⟩ := List.mem_map.mp hline
    exact e.isBraced_line.feed_not_mem
  rw [Text.lines, hchars, Text.linesOf_ended_lines _ hfeed, List.map_map, List.map_map]
  apply List.map_congr_left
  intro e _
  rw [Function.comp_apply, Function.comp_apply, e.isBraced_line.dropReturn, String.ofList_toList]

theorem numberedLines_lines (entries : List Entry) (number : Nat) :
    numberedLines number (entries.map Entry.line) =
      (entries.zipIdx number).map fun (e, n) => (n, e.line) := by
  induction entries generalizing number with
  | nil => rfl
  | cons e rest ih =>
    have hbraced := e.isBraced_line
    have hblank : Text.isBlankText e.line = false := hbraced.not_blank
    have htrim : Text.trimText e.line = e.line := by
      rw [Text.trimText, hbraced.trim, String.ofList_toList]
    rw [List.map_cons, numberedLines, hblank, if_neg (by simp), htrim, ih]
    rfl

/-- What is found in a log is what is wrong with its entries, each under its number. -/
theorem checkText_logText {entries : List Entry} (h : ∀ e ∈ entries, e.Writable) :
    checkText (logText entries) =
      (entries.length,
        (entries.zipIdx 1).flatMap fun (e, n) => e.faults.map (⟨n, ·⟩)) := by
  have hfound : ∀ place ∈ entries.zipIdx 1,
      findings place.2 place.1.line = place.1.faults.map (⟨place.2, ·⟩) := by
    intro place hplace
    have he : place.1 ∈ entries := List.fst_mem_of_mem_zipIdx hplace
    exact Entry.findings_line (h place.1 he) place.2
  rw [checkText, lines_logText, numberedLines_lines]
  dsimp only
  rw [List.length_map, List.length_zipIdx, List.flatMap_map, List.flatMap_congr hfound]

end LedgerConformance.Log
