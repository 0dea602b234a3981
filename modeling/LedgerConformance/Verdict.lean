import LedgerConformance.Result
import LedgerConformance.Text.Lowercase
import LedgerConformance.Text.Substring

/-!
The verdict on an outcome. The expectations of a case give rules in a fixed
order: the states of the phases, the expected messages, the counts, the
accounts and the columns. The verdict is the breach of the first rule that is
broken; what an outcome does not report breaks the rule that asks for it. An
outcome passes when every rule is kept.
-/

namespace LedgerConformance.Verdict

/-- Longer lists of messages are shown for validation. -/
def shownMessages (c : Case) : Nat := if c.kind == .validation then 5 else 3

def stateMatches : Expectation → Option PhaseState → Bool
  | .success, some .success => true
  | .error, some .error => true
  | _, _ => false

/-- The rule on one phase. Validation also shows how many messages there are. -/
def phaseRule (c : Case) (o : Outcome) (phase : String) (want : Option Expectation)
    (got : Option PhaseState) : Option Mismatch :=
  match want with
  | none => none
  | some .skip => none
  | some want =>
    if stateMatches want got then none
    else
      let gotName := (got.map PhaseState.name).getD "unknown"
      let count := if phase == "validate" then [("error_count", Json.nat o.diagnostics.length)]
        else []
      some {
        message := "Expected " ++ phase ++ "=" ++ want.name ++ ", got " ++ gotName
        expected := Json.sorted [(phase, .string want.name)]
        actual := Json.sorted ([(phase, .string gotName),
          ("errors", Json.strings (o.firstMessages (shownMessages c)))] ++ count) }

/-- What is expected of the phase that the case is about. -/
def primaryExpectation (c : Case) : Option Expectation :=
  match c.kind with
  | .parsing => c.expected.parse
  | .validation => c.expected.validate
  | .query => c.expected.query

/-- All messages in one text of small letters. -/
def haystack (o : Outcome) : String := Text.lower (" ".intercalate o.messages)

/-- The rule on one expected message, found in any letter case. -/
def needleRule (c : Case) (o : Outcome) (needle : String) : Option Mismatch :=
  if Text.contains (haystack o) (Text.lower needle) then none
  else some {
    message := "Expected error containing '" ++ needle ++ "' not found in: " ++
      Outcome.truncate (haystack o) 200
    expected := Json.sorted [("error_contains", Json.strings c.expected.errorContains)]
    actual := Json.sorted [("errors", Json.strings (o.firstMessages 5))] }

/-- Messages are looked for unless the phase of the case is to succeed. -/
def needleRules (c : Case) (o : Outcome) : List (Option Mismatch) :=
  if primaryExpectation c == some .success then []
  else c.expected.errorContains.map (needleRule c o)

/-- The rule on a count. -/
def countRule (field noun : String) (want got : Option Nat) : Option Mismatch :=
  match want with
  | none => none
  | some want =>
    if got == some want then none
    else some {
      message := "Expected " ++ toString want ++ " " ++ noun ++ ", got " ++
        (got.map toString).getD "none"
      expected := Json.sorted [(field, .nat want)]
      actual := Json.sorted [(field, Json.orNull (got.map .nat))] }

/-- The rule that every expected account is reported. -/
def accountsRule (c : Case) (o : Outcome) : Option Mismatch :=
  let missing := c.expected.accounts.filter fun a => !o.accounts.any (·.contains a)
  if missing.isEmpty then none
  else some {
    message := "Missing expected accounts: " ++ ", ".intercalate missing
    expected := Json.sorted [("accounts", Json.strings c.expected.accounts)]
    actual := Json.sorted [("accounts", Json.orNull (o.accounts.map Json.strings))] }

/-- The rule that the columns are the expected ones in their order. -/
def columnsRule (c : Case) (o : Outcome) : Option Mismatch :=
  if c.expected.columns.isEmpty || o.columns == some c.expected.columns then none
  else some {
    message := "Column mismatch"
    expected := Json.sorted [("columns", Json.strings c.expected.columns)]
    actual := Json.sorted [("columns", Json.orNull (o.columns.map Json.strings))] }

/-- What each rule says, in order. -/
def rules (c : Case) (o : Outcome) : List (Option Mismatch) :=
  [phaseRule c o "parse" c.expected.parse o.parse,
    phaseRule c o "validate" c.expected.validate o.validate,
    phaseRule c o "query" c.expected.query o.query] ++
  needleRules c o ++
  [countRule "directives" "directives" c.expected.directives o.directiveCount,
    countRule "error_count" "errors" c.expected.errorCount (some o.diagnostics.length),
    countRule "row_count" "rows" c.expected.rowCount (o.rows.map List.length),
    accountsRule c o, columnsRule c o]

/-- The first breach, or nothing when every rule is kept. -/
def evaluate (c : Case) (o : Outcome) : Option Mismatch := (rules c o).findSome? id

/-! ### Kept rules -/

/-- A phase is in the state that is expected of it, if one is. -/
def PhaseKept (want : Option Expectation) (got : Option PhaseState) : Prop :=
  (want = some .success → got = some .success) ∧ (want = some .error → got = some .error)

theorem phaseRule_eq_none_iff {c : Case} {o : Outcome} {phase : String}
    {want : Option Expectation} {got : Option PhaseState} :
    phaseRule c o phase want got = none ↔ PhaseKept want got := by
  rcases want with _ | want
  · simp [phaseRule, PhaseKept]
  · cases want with
    | skip => simp [phaseRule, PhaseKept]
    | success => rcases got with _ | got | got <;> simp [phaseRule, PhaseKept, stateMatches]
    | error => rcases got with _ | got | got <;> simp [phaseRule, PhaseKept, stateMatches]

theorem needleRule_eq_none_iff {c : Case} {o : Outcome} {needle : String} :
    needleRule c o needle = none ↔ Text.contains (haystack o) (Text.lower needle) = true := by
  simp [needleRule]

theorem needleRules_kept_iff {c : Case} {o : Outcome} :
    (∀ rule ∈ needleRules c o, rule = none) ↔
      (primaryExpectation c ≠ some .success →
        ∀ needle ∈ c.expected.errorContains,
          Text.contains (haystack o) (Text.lower needle) = true) := by
  by_cases hprimary : primaryExpectation c = some .success
  · simp [needleRules, hprimary]
  · simp [needleRules, hprimary, needleRule_eq_none_iff]

theorem countRule_eq_none_iff {field noun : String} {want got : Option Nat} :
    countRule field noun want got = none ↔ ∀ n, want = some n → got = some n := by
  cases want with
  | none => simp [countRule]
  | some n => simp [countRule]

theorem accountsRule_eq_none_iff {c : Case} {o : Outcome} :
    accountsRule c o = none ↔
      ∀ a ∈ c.expected.accounts, ∃ reported, o.accounts = some reported ∧ a ∈ reported := by
  have hmissing : accountsRule c o = none ↔
      (c.expected.accounts.filter fun a => !o.accounts.any (·.contains a)) = [] := by
    simp only [accountsRule, List.isEmpty_iff]
    split
    · simp_all
    · simp_all
  rw [hmissing, List.filter_eq_nil_iff]
  apply forall₂_congr
  intro a _
  cases o.accounts <;> simp

theorem columnsRule_eq_none_iff {c : Case} {o : Outcome} :
    columnsRule c o = none ↔
      c.expected.columns = [] ∨ o.columns = some c.expected.columns := by
  by_cases h : c.expected.columns = []
  · simp [columnsRule, h]
  · simp [columnsRule, h]

/-! ### Broken rules

A broken rule shows what is expected beside what there is. -/

section Broken

variable {c : Case} {o : Outcome} {m : Mismatch}

theorem phaseRule_eq_some {phase : String} {want : Option Expectation} {got : Option PhaseState}
    (h : phaseRule c o phase want got = some m) :
    ∃ state, want = some state ∧ m.expected = Json.sorted [(phase, .string state.name)] ∧
      m.actual = Json.sorted ([(phase, .string ((got.map PhaseState.name).getD "unknown")),
        ("errors", Json.strings (o.firstMessages (shownMessages c)))] ++
        if phase == "validate" then [("error_count", Json.nat o.diagnostics.length)] else []) := by
  unfold phaseRule at h
  split at h
  · cases h
  · cases h
  · rename_i state _
    split at h
    · cases h
    · cases h
      exact ⟨state, rfl, rfl, rfl⟩

theorem needleRule_eq_some {needle : String} (h : needleRule c o needle = some m) :
    m.expected = Json.sorted [("error_contains", Json.strings c.expected.errorContains)] ∧
      m.actual = Json.sorted [("errors", Json.strings (o.firstMessages 5))] := by
  unfold needleRule at h
  split at h
  · cases h
  · cases h
    exact ⟨rfl, rfl⟩

theorem countRule_eq_some {field noun : String} {want got : Option Nat}
    (h : countRule field noun want got = some m) :
    ∃ n, want = some n ∧ m.expected = Json.sorted [(field, .nat n)] ∧
      m.actual = Json.sorted [(field, Json.orNull (got.map .nat))] := by
  unfold countRule at h
  split at h
  · cases h
  · rename_i n
    split at h
    · cases h
    · cases h
      exact ⟨n, rfl, rfl, rfl⟩

theorem accountsRule_eq_some (h : accountsRule c o = some m) :
    c.expected.accounts ≠ [] ∧
      m.expected = Json.sorted [("accounts", Json.strings c.expected.accounts)] ∧
      m.actual = Json.sorted [("accounts", Json.orNull (o.accounts.map Json.strings))] := by
  constructor
  · intro hnone
    rw [accountsRule_eq_none_iff.mpr (by simp [hnone])] at h
    cases h
  · unfold accountsRule at h
    dsimp only at h
    split at h
    · cases h
    · cases h
      exact ⟨rfl, rfl⟩

theorem columnsRule_eq_some (h : columnsRule c o = some m) :
    c.expected.columns ≠ [] ∧
      m.expected = Json.sorted [("columns", Json.strings c.expected.columns)] ∧
      m.actual = Json.sorted [("columns", Json.orNull (o.columns.map Json.strings))] := by
  constructor
  · intro hnone
    rw [columnsRule_eq_none_iff.mpr (.inl hnone)] at h
    cases h
  · unfold columnsRule at h
    split at h
    · cases h
    · cases h
      exact ⟨rfl, rfl⟩

end Broken

/-- An outcome passes when every rule is kept. -/
theorem evaluate_eq_none_iff (c : Case) (o : Outcome) :
    evaluate c o = none ↔
      (PhaseKept c.expected.parse o.parse ∧ PhaseKept c.expected.validate o.validate ∧
        PhaseKept c.expected.query o.query) ∧
      (primaryExpectation c ≠ some .success →
        ∀ needle ∈ c.expected.errorContains,
          Text.contains (haystack o) (Text.lower needle) = true) ∧
      (∀ n, c.expected.directives = some n → o.directiveCount = some n) ∧
      (∀ n, c.expected.errorCount = some n → o.diagnostics.length = n) ∧
      (∀ n, c.expected.rowCount = some n → o.rows.map List.length = some n) ∧
      (∀ a ∈ c.expected.accounts, ∃ reported, o.accounts = some reported ∧ a ∈ reported) ∧
      (c.expected.columns = [] ∨ o.columns = some c.expected.columns) := by
  simp only [evaluate, rules, List.findSome?_eq_none_iff, List.forall_mem_append,
    List.forall_mem_cons, List.not_mem_nil, false_implies, implies_true, id_eq,
    phaseRule_eq_none_iff, needleRules_kept_iff, countRule_eq_none_iff, accountsRule_eq_none_iff,
    columnsRule_eq_none_iff, Option.some.injEq, and_true, and_assoc]

end LedgerConformance.Verdict
