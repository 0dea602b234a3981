import LedgerConformance.Proofs.Case.Codec
import LedgerConformance.Proofs.Text.Occurrence
import LedgerConformance.Verdict

/-!
The verdict as an ordered list of rules. A case asks for states, messages, counts,
accounts and columns, each by a rule that an outcome keeps or breaks. The verdict is
the breach of the first rule that is broken, which shows the expectation that is not
met as the case writes it; the rules behind it do not count.
-/

namespace LedgerConformance.Verdict

/-- What a case can ask of an outcome. -/
inductive Rule where
  | parse
  | validate
  | query
  | message (needle : String)
  | directives
  | errorCount
  | rowCount
  | accounts
  | columns
deriving DecidableEq, Repr

/-- The messages that a case asks for; none if the phase that it is about is to
succeed. -/
def needles (c : Case) : List String :=
  if primaryExpectation c = some .success then [] else c.expected.errorContains

namespace Rule

/-- The rules of a case in their order. -/
def inOrder (c : Case) : List Rule :=
  [parse, validate, query] ++ (needles c).map message ++
    [directives, errorCount, rowCount, accounts, columns]

/-- What an outcome shows that keeps a rule. What it does not report keeps no rule
that asks for it. -/
def Kept (c : Case) (o : Outcome) : Rule → Prop
  | parse => PhaseKept c.expected.parse o.parse
  | validate => PhaseKept c.expected.validate o.validate
  | query => PhaseKept c.expected.query o.query
  | message needle =>
    (Text.lower needle).toList <:+: (Text.lower (" ".intercalate o.messages)).toList
  | directives => ∀ n, c.expected.directives = some n → o.directiveCount = some n
  | errorCount => ∀ n, c.expected.errorCount = some n → o.diagnostics.length = n
  | rowCount => ∀ n, c.expected.rowCount = some n → o.rows.map List.length = some n
  | accounts => ∀ a ∈ c.expected.accounts, ∃ reported, o.accounts = some reported ∧ a ∈ reported
  | columns => c.expected.columns ≠ [] → o.columns = some c.expected.columns

/-- What is said of a rule, which is nothing if it is kept. -/
def breach? (c : Case) (o : Outcome) : Rule → Option Mismatch
  | parse => phaseRule c o "parse" c.expected.parse o.parse
  | validate => phaseRule c o "validate" c.expected.validate o.validate
  | query => phaseRule c o "query" c.expected.query o.query
  | message needle => needleRule c o needle
  | directives => countRule "directives" "directives" c.expected.directives o.directiveCount
  | errorCount => countRule "error_count" "errors" c.expected.errorCount (some o.diagnostics.length)
  | rowCount => countRule "row_count" "rows" c.expected.rowCount (o.rows.map List.length)
  | accounts => accountsRule c o
  | columns => columnsRule c o

/-- The field of a case that a rule is about. -/
def field : Rule → String
  | parse => "parse"
  | validate => "validate"
  | query => "query"
  | message _ => "error_contains"
  | directives => "directives"
  | errorCount => "error_count"
  | rowCount => "row_count"
  | accounts => "accounts"
  | columns => "columns"

variable {c : Case} {o : Outcome} {m : Mismatch}

theorem breach?_eq_none_iff (r : Rule) : r.breach? c o = none ↔ r.Kept c o := by
  cases r with
  | parse => exact phaseRule_eq_none_iff
  | validate => exact phaseRule_eq_none_iff
  | query => exact phaseRule_eq_none_iff
  | message needle => exact needleRule_eq_none_iff.trans Text.contains_iff
  | directives => exact countRule_eq_none_iff
  | errorCount => simp [breach?, Kept, countRule_eq_none_iff]
  | rowCount => exact countRule_eq_none_iff
  | accounts => exact accountsRule_eq_none_iff
  | columns => exact columnsRule_eq_none_iff.trans Decidable.or_iff_not_imp_left

theorem rules_eq (c : Case) (o : Outcome) : rules c o = (inOrder c).map (breach? c o) := by
  have hneedles : needleRules c o = (needles c).map fun needle => breach? c o (message needle) := by
    unfold needleRules needles
    by_cases hprimary : primaryExpectation c = some .success
    · simp [hprimary]
    · simp [hprimary, breach?]
  rw [rules, hneedles]
  simp [inOrder, breach?]

/-- A mismatch shows the expectation of a rule as the case writes it. -/
def Shows (c : Case) (m : Mismatch) (r : Rule) : Prop :=
  ∃ wanted, m.expected = .object [(r.field, wanted)] ∧
    c.expected.toJson.get? r.field = some wanted

theorem get?_toJson (e : Expected) (key : String) :
    e.toJson.get? key = (e.parts.lookup key).join := by
  rw [Expected.toJson_eq, Json.get?, Json.lookup_present e.nodup_parts]

theorem expected_of_phaseRule {phase : String} {want : Option Expectation}
    {got : Option PhaseState} (h : phaseRule c o phase want got = some m) :
    ∃ wanted, m.expected = .object [(phase, wanted)] ∧
      want.map (fun state => Json.string state.name) = some wanted := by
  obtain ⟨state, rfl, hexpected, -⟩ := phaseRule_eq_some h
  exact ⟨_, hexpected, rfl⟩

theorem expected_of_countRule {key noun : String} {want got : Option Nat}
    (h : countRule key noun want got = some m) :
    ∃ wanted, m.expected = .object [(key, wanted)] ∧ want.map Json.nat = some wanted := by
  obtain ⟨n, rfl, hexpected, -⟩ := countRule_eq_some h
  exact ⟨_, hexpected, rfl⟩

theorem mem_of_mem_needles {needle : String} (h : needle ∈ needles c) :
    needle ∈ c.expected.errorContains := by
  unfold needles at h
  split at h
  · cases h
  · exact h

theorem expected_of_needleRule {needle : String} (hneedle : needle ∈ c.expected.errorContains)
    (h : needleRule c o needle = some m) :
    ∃ wanted, m.expected = .object [("error_contains", wanted)] ∧
      Json.unlessEmpty c.expected.errorContains (Json.strings c.expected.errorContains) =
        some wanted :=
  ⟨_, (needleRule_eq_some h).1, Json.unlessEmpty_of_ne_nil (List.ne_nil_of_mem hneedle) _⟩

theorem expected_of_accountsRule (h : accountsRule c o = some m) :
    ∃ wanted, m.expected = .object [("accounts", wanted)] ∧
      Json.unlessEmpty c.expected.accounts (Json.strings c.expected.accounts) = some wanted := by
  obtain ⟨hasked, hexpected, -⟩ := accountsRule_eq_some h
  exact ⟨_, hexpected, Json.unlessEmpty_of_ne_nil hasked _⟩

theorem expected_of_columnsRule (h : columnsRule c o = some m) :
    ∃ wanted, m.expected = .object [("columns", wanted)] ∧
      Json.unlessEmpty c.expected.columns (Json.strings c.expected.columns) = some wanted := by
  obtain ⟨hasked, hexpected, -⟩ := columnsRule_eq_some h
  exact ⟨_, hexpected, Json.unlessEmpty_of_ne_nil hasked _⟩

/-- Only what a case asks for can be broken. -/
theorem shows_of_breach? {r : Rule} (hr : r ∈ inOrder c) (h : r.breach? c o = some m) :
    r.Shows c m := by
  unfold Shows
  rw [get?_toJson]
  cases r with
  | parse => exact expected_of_phaseRule h
  | validate => exact expected_of_phaseRule h
  | query => exact expected_of_phaseRule h
  | message needle =>
    have hneedle : needle ∈ needles c := by
      simpa [inOrder] using hr
    exact expected_of_needleRule (mem_of_mem_needles hneedle) h
  | directives => exact expected_of_countRule h
  | errorCount => exact expected_of_countRule h
  | rowCount => exact expected_of_countRule h
  | accounts => exact expected_of_accountsRule h
  | columns => exact expected_of_columnsRule h

end Rule

/-- What an outcome shows that passes. -/
structure Passes (c : Case) (o : Outcome) : Prop where
  parse : PhaseKept c.expected.parse o.parse
  validate : PhaseKept c.expected.validate o.validate
  query : PhaseKept c.expected.query o.query
  /-- Unless the phase of the case is to succeed, every expected message stands in the
  messages, in any letter case. -/
  messages : primaryExpectation c ≠ some .success → ∀ needle ∈ c.expected.errorContains,
    (Text.lower needle).toList <:+: (Text.lower (" ".intercalate o.messages)).toList
  directives : ∀ n, c.expected.directives = some n → o.directiveCount = some n
  errorCount : ∀ n, c.expected.errorCount = some n → o.diagnostics.length = n
  rowCount : ∀ n, c.expected.rowCount = some n → o.rows.map List.length = some n
  accounts : ∀ a ∈ c.expected.accounts, ∃ reported, o.accounts = some reported ∧ a ∈ reported
  columns : c.expected.columns ≠ [] → o.columns = some c.expected.columns

theorem forall_kept_iff_passes (c : Case) (o : Outcome) :
    (∀ r ∈ Rule.inOrder c, r.Kept c o) ↔ Passes c o := by
  have hmessages : (∀ needle ∈ needles c, (Rule.message needle).Kept c o) ↔
      (primaryExpectation c ≠ some .success → ∀ needle ∈ c.expected.errorContains,
        (Rule.message needle).Kept c o) := by
    unfold needles
    by_cases hprimary : primaryExpectation c = some .success <;> simp [hprimary]
  simp only [Rule.inOrder, List.forall_mem_append, List.forall_mem_cons, List.forall_mem_map,
    hmessages]
  constructor
  · rintro ⟨⟨⟨hparse, hvalidate, hquery, -⟩, hneedles⟩, hdirectives, herrors, hrows, haccounts,
      hcolumns, -⟩
    exact ⟨hparse, hvalidate, hquery, hneedles, hdirectives, herrors, hrows, haccounts, hcolumns⟩
  · intro h
    exact ⟨⟨⟨h.parse, h.validate, h.query, by simp⟩, h.messages⟩, h.directives, h.errorCount,
      h.rowCount, h.accounts, h.columns, by simp⟩

/-- An outcome passes when it keeps all rules; otherwise the verdict is the breach of the
first rule in order that it does not keep, and shows what the case asks there. Error types
and balances are asked of no outcome. -/
theorem evaluate_eq_first_breach (c : Case) (o : Outcome) :
    (evaluate c o = none ↔ Passes c o) ∧
      (∀ m, evaluate c o = some m ↔
        ∃ before r after, Rule.inOrder c = before ++ r :: after ∧ (∀ q ∈ before, q.Kept c o) ∧
          ¬ r.Kept c o ∧ r.breach? c o = some m ∧ r.Shows c m) ∧
      ∀ errorTypes balance,
        evaluate { c with expected := { c.expected with errorTypes, balance } } o =
          evaluate c o := by
  have hverdict : evaluate c o = (Rule.inOrder c).findSome? (Rule.breach? c o) := by
    rw [evaluate, Rule.rules_eq, List.findSome?_map]
    rfl
  refine ⟨?_, ?_, fun _ _ => rfl⟩
  · rw [hverdict, List.findSome?_eq_none_iff, ← forall_kept_iff_passes]
    exact forall₂_congr fun r _ => r.breach?_eq_none_iff
  · intro m
    rw [hverdict, List.findSome?_eq_some_iff]
    constructor
    · rintro ⟨before, r, after, horder, hbreach, hbefore⟩
      have hr : r ∈ Rule.inOrder c := horder ▸ List.mem_append_right before List.mem_cons_self
      refine ⟨before, r, after, horder, ?_, ?_, hbreach, Rule.shows_of_breach? hr hbreach⟩
      · exact fun q hq => q.breach?_eq_none_iff.mp (hbefore q hq)
      · intro hkept
        rw [r.breach?_eq_none_iff.mpr hkept] at hbreach
        cases hbreach
    · -- That the rule is broken is no more than that it has a breach.
      rintro ⟨before, r, after, horder, hkept, -, hbreach, -⟩
      exact ⟨before, r, after, horder, hbreach,
        fun q hq => q.breach?_eq_none_iff.mpr (hkept q hq)⟩

end LedgerConformance.Verdict
