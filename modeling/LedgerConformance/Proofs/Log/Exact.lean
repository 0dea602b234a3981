import LedgerConformance.Proofs.Log.Lines
import LedgerConformance.Proofs.Text.Occurrence

/-!
The check of a line that an entry was written on. Without a duration, and with details that
hold no floats, nothing of an entry changes on its way over its line; so the check gives the
entry itself where it meets all conditions, and otherwise one problem for each condition
that it does not meet, in a fixed order.
-/

namespace LedgerConformance

namespace Json

/-! ### Values that stay as they are -/

/-- A value without floats, at most so many containers deep. Its numbers are of 64 bits, and
its objects are maps with their keys in order. -/
inductive FloatFree : Nat → Json → Prop
  | null (depth : Nat) : FloatFree depth .null
  | bool (depth : Nat) (b : Bool) : FloatFree depth (.bool b)
  | int (depth : Nat) {i : Int} (h : Number.Fits i) : FloatFree depth (.int i)
  | string (depth : Nat) (s : String) : FloatFree depth (.string s)
  | array {depth : Nat} {items : List Json} (h : ∀ v ∈ items, FloatFree depth v) :
      FloatFree (depth + 1) (.array items)
  | object {depth : Nat} {fields : List (String × Json)} (keys : Ascending fields)
      (h : ∀ field ∈ fields, FloatFree depth field.2) : FloatFree (depth + 1) (.object fields)

variable {depth : Nat} {v : Json}

theorem FloatFree.readable (h : FloatFree depth v) : Readable depth v := by
  induction h with
  | null depth => exact .null depth
  | bool depth b => exact .bool depth b
  | int depth h => exact .number depth (by rw [Number.reread?_int h]; rfl)
  | string depth s => exact .string depth s
  | array _ ih => exact .array ih
  | object _ _ ih => exact .object ih

theorem FloatFree.reread (h : FloatFree depth v) : v.reread = v := by
  induction h with
  | null | bool | string => rfl
  | int _ h => rw [Json.int, Json.reread, Number.reread, Number.reread?_int h, Option.getD_some]
  | array _ ih => rw [Json.reread, rereadItems_eq, List.map_congr_left ih, List.map_id']
  | @object _ fields _ _ ih =>
    have hfields : ∀ field ∈ fields, (field.1, field.2.reread) = field :=
      fun field hfield => congrArg (Prod.mk field.1) (ih field hfield)
    rw [Json.reread, rereadFields_eq, List.map_congr_left hfields, List.map_id']

theorem FloatFree.normal (h : FloatFree depth v) : v.normal = v := by
  induction h with
  | null | bool | string | int => rfl
  | array _ ih => rw [Json.normal, normalItems_eq, List.map_congr_left ih, List.map_id']
  | @object _ fields keys _ ih =>
    have hfields : ∀ field ∈ fields, (field.1, field.2.normal) = field :=
      fun field hfield => congrArg (Prod.mk field.1) (ih field hfield)
    rw [Json.normal, normalFields_eq, List.map_congr_left hfields, List.map_id', sorted_eq,
      sortedFields_of_pairwise (List.pairwise_map.mpr keys)]

end Json

namespace Log

open Json

/-! ### Conditions -/

/-- What the check asks of an entry, in the order in which it is told of. -/
inductive Condition where
  | kind
  | event
  | traceId
  | testId
  | outcome
deriving DecidableEq, Repr

namespace Condition

def inOrder : List Condition := [kind, event, traceId, testId, outcome]

/-- A kind is a known one, the event is not blank, the trace identifier has its colons, and a
test result has a test and an outcome. -/
def Holds (e : Entry) : Condition → Prop
  | kind => ∀ kind ∈ e.kind, kind ∈ Kind.all.map Kind.name
  | event => ∃ c ∈ e.event.toList, Text.isBlank c = false
  | traceId => "::".toList <:+: e.traceId.toList
  | testId => e.event = "test_result" → e.testId.isSome = true
  | outcome => e.event = "test_result" → e.outcome.isSome = true

instance (e : Entry) : DecidablePred (Holds e)
  | kind => inferInstanceAs (Decidable (∀ kind ∈ e.kind, kind ∈ Kind.all.map Kind.name))
  | event => decidable_of_iff (e.event.toList.any (!Text.isBlank ·) = true) (by simp [Holds])
  | traceId => inferInstanceAs (Decidable ("::".toList <:+: e.traceId.toList))
  | testId => inferInstanceAs (Decidable (e.event = "test_result" → e.testId.isSome = true))
  | outcome => inferInstanceAs (Decidable (e.event = "test_result" → e.outcome.isSome = true))

/-- What is told of an entry that does not meet a condition. -/
def problem (e : Entry) : Condition → Problem
  | kind => .unknownWord "kind" (e.kind.getD "")
  | event => .blankEvent
  | traceId => .badTraceId e.traceId
  | testId => .incompleteResult "test_id"
  | outcome => .incompleteResult "outcome"

theorem mem_inOrder (c : Condition) : c ∈ inOrder := by
  cases c <;> decide

/-- What is told about one condition. -/
def told (e : Entry) (c : Condition) : List Problem := if Holds e c then [] else [c.problem e]

variable (e : Entry)

theorem told_kind : told e kind =
    match e.kind with
    | some word =>
      if (Kind.all.map Kind.name).contains word then [] else [.unknownWord "kind" word]
    | none => [] := by
  cases hword : e.kind with
  | none => simp [told, Holds, hword]
  | some word => simp [told, Holds, problem, hword]

theorem told_event :
    told e event = if Text.isBlankText e.event then [.blankEvent] else [] := by
  have hholds : Holds e event ↔ ¬ Text.isBlankText e.event = true := by
    simp [Holds, Text.isBlankText]
  simp only [told, hholds, problem, ite_not]

theorem told_traceId : told e traceId =
    if Text.contains e.traceId "::" then [] else [.badTraceId e.traceId] :=
  if_congr Text.contains_iff.symm rfl rfl

theorem told_result : told e testId ++ told e outcome =
    if e.event == "test_result" then
      (if e.testId.isNone then [.incompleteResult "test_id"] else []) ++
        (if e.outcome.isNone then [.incompleteResult "outcome"] else [])
    else [] := by
  by_cases hevent : e.event = "test_result"
  · cases htest : e.testId <;> cases hmark : e.outcome <;>
      simp [told, Holds, problem, hevent, htest, hmark]
  · simp [told, Holds, hevent]

end Condition

namespace Entry

/-- The conditions that an entry does not meet, in order. -/
def violated (e : Entry) : List Condition := Condition.inOrder.filter fun c => ¬ c.Holds e

theorem violated_eq_nil_iff (e : Entry) : e.violated = [] ↔ ∀ c : Condition, c.Holds e := by
  simp [violated, List.filter_eq_nil_iff, Condition.mem_inOrder]

theorem map_problem_violated (e : Entry) :
    e.violated.map (Condition.problem e) = Condition.inOrder.flatMap (Condition.told e) := by
  unfold violated
  induction Condition.inOrder with
  | nil => rfl
  | cons c rest ih =>
    rw [List.flatMap_cons, ← ih, List.filter_cons, Condition.told]
    by_cases hc : c.Holds e <;> simp [hc]

/-- What is wrong with an entry is told of the conditions that it does not meet. -/
theorem faults_eq_violated (e : Entry) : e.faults = e.violated.map (Condition.problem e) := by
  rw [map_problem_violated, faults, ← Condition.told_event, ← Condition.told_traceId,
    ← Condition.told_result]
  simp only [Condition.inOrder, List.flatMap_cons, List.flatMap_nil, List.append_nil,
    List.append_assoc]
  -- Only the cases on the kind are left, which no rewriting finds.
  exact congrArg (· ++ _) (Condition.told_kind e).symm

/-- An entry without a duration, whose details are neither null nor deeper than a line may be
and hold no floats; its exit code is one of 32 bits. -/
structure Plain (e : Entry) : Prop where
  exitCode : ∀ code ∈ e.exitCode, -0x80000000 ≤ code ∧ code < 0x80000000
  duration : e.duration = none
  details : ∀ v ∈ e.details, v ≠ .null ∧ FloatFree 126 v

theorem Plain.writable {e : Entry} (h : e.Plain) : e.Writable :=
  ⟨h.exitCode, by simp [h.duration], fun v hv => ⟨(h.details v hv).1, (h.details v hv).2.readable⟩⟩

theorem Plain.reread {e : Entry} (h : e.Plain) : e.reread = e := by
  have hdetails : e.details.map (fun v => v.reread.normal) = e.details := by
    cases hd : e.details with
    | none => rfl
    | some v =>
      obtain ⟨-, hfree⟩ := h.details v hd
      rw [Option.map_some, hfree.reread, hfree.normal]
  calc e.reread = { e with duration := none } := by rw [Entry.reread, hdetails, h.duration]; rfl
    _ = e := by rw [← h.duration]

end Entry

/-! ### The check -/

/-- The line of a plain entry passes exactly if the entry meets all conditions, and then it is
read as the entry; otherwise the problems that are found are one for each condition that is
not met, in order, all under the number of the line. -/
theorem checkLine_plain {e : Entry} (h : e.Plain) (number : Nat) :
    (checkLine e.line = .ok e ↔ ∀ c : Condition, c.Holds e) ∧
      ((∃ c : Condition, ¬ c.Holds e) →
        checkLine e.line = .error (e.violated.map (Condition.problem e))) ∧
      findings number e.line = e.violated.map fun c => ⟨number, c.problem e⟩ := by
  have hfaults : e.faults = [] ↔ ∀ c : Condition, c.Holds e := by
    rw [e.faults_eq_violated, List.map_eq_nil_iff, e.violated_eq_nil_iff]
  refine ⟨?_, ?_, ?_⟩
  · by_cases hnone : e.faults = []
    · rw [Entry.checkLine_line h.writable hnone, h.reread]
      exact iff_of_true rfl (hfaults.mp hnone)
    · rw [Entry.checkLine_line_of_faults h.writable hnone]
      exact iff_of_false (by simp) (mt hfaults.mpr hnone)
  · intro hviolated
    rw [← e.faults_eq_violated]
    exact Entry.checkLine_line_of_faults h.writable (mt hfaults.mp (not_forall.mpr hviolated))
  · rw [Entry.findings_line h.writable, e.faults_eq_violated, List.map_map]
    rfl

/-- A test result of an unknown kind, without colons, a test and an outcome. -/
def faultyEntry : Entry where
  timestamp := "t"
  traceId := "run"
  level := .warn
  event := "test_result"
  kind := some "bql"
  exitCode := some (-2)
  details := some (.object [("codes", .array [.int 1, .null]), ("state", .string "open")])

theorem checkLine_plain_faultyEntry : faultyEntry.Plain ∧
    findings 7 faultyEntry.line =
      [⟨7, .unknownWord "kind" "bql"⟩, ⟨7, .badTraceId "run"⟩, ⟨7, .incompleteResult "test_id"⟩,
        ⟨7, .incompleteResult "outcome"⟩] := by
  have hcodes : FloatFree 125 (.array [.int 1, .null]) :=
    .array (List.forall_mem_cons.mpr ⟨.int 124 ⟨by decide, by decide⟩, by simp [FloatFree.null]⟩)
  have hplain : faultyEntry.Plain := by
    refine ⟨by decide, rfl, ?_⟩
    rintro v ⟨⟩
    refine ⟨by simp, .object (by decide) ?_⟩
    simp only [List.forall_mem_cons]
    exact ⟨hcodes, .string 125 "open", by simp⟩
  have hviolated : faultyEntry.violated = [.kind, .traceId, .testId, .outcome] := by decide
  refine ⟨hplain, ?_⟩
  rw [(checkLine_plain hplain 7).2.2, hviolated]
  rfl

end Log

end LedgerConformance
