import LedgerConformance.CommandLine.CompareTools
import LedgerConformance.CommandLine.RunCases
import LedgerConformance.Proofs.Decimal.Durations
import LedgerConformance.Proofs.Differential.Accounting
import LedgerConformance.Proofs.Log.Numbering

/-!
What is logged about runs and comparisons. The data of a mismatch are short texts and
counts, a few containers deep, so their entries can be read back whatever the ids, the
messages and the outcomes are; and every entry carries what its event asks for.
-/

namespace LedgerConformance

open Json

namespace Json

/-! ### Small values -/

theorem Readable.mono {depth more : Nat} {v : Json} (h : Readable depth v) (hle : depth ≤ more) :
    Readable more v := by
  induction h generalizing more with
  | null => exact .null more
  | bool _ b => exact .bool more b
  | number _ hread => exact .number more hread
  | string _ s => exact .string more s
  | array _ ih =>
    obtain ⟨more, rfl⟩ : ∃ n, more = n + 1 := ⟨more - 1, by omega⟩
    exact .array fun v hv => ih v hv (by omega)
  | object _ ih =>
    obtain ⟨more, rfl⟩ : ∃ n, more = n + 1 := ⟨more - 1, by omega⟩
    exact .object fun field hfield => ih field hfield (by omega)

/-- A count that 64 bits hold. -/
def IsCount (n : Nat) : Prop := n < 0x10000000000000000

theorem readable_nat {n : Nat} (h : IsCount n) (depth : Nat) : Readable depth (.nat n) := by
  have hfits : Number.Fits n := by
    unfold IsCount at h
    exact ⟨by omega, by omega⟩
  exact .number depth (by rw [Number.reread?_int hfits]; rfl)

theorem readable_strings (items : List String) : Readable 1 (strings items) := by
  apply Readable.array
  intro v hv
  obtain ⟨s, -, rfl⟩ := List.mem_map.mp hv
  exact .string 0 s

theorem readable_orNull {depth : Nat} {v : Option Json} (h : ∀ w ∈ v, Readable depth w) :
    Readable depth (orNull v) := by
  cases v with
  | none => exact .null depth
  | some w => exact h w rfl

theorem readable_sorted {depth : Nat} {fields : List (String × Json)}
    (h : ∀ field ∈ fields, Readable depth field.2) : Readable (depth + 1) (sorted fields) := by
  rw [sorted_eq]
  exact .object fun field hfield => h field (mem_of_mem_sortedFields hfield)

end Json

/-! ### Mismatches -/

/-- The data of a mismatch are no deeper than a list in an object. -/
structure Mismatch.Small (m : Mismatch) : Prop where
  expected : Readable 2 m.expected
  actual : Readable 2 m.actual

/-- The counts that a case expects fit 64 bits. -/
structure Case.Bounded (c : Case) : Prop where
  directives : ∀ n ∈ c.expected.directives, IsCount n
  errorCount : ∀ n ∈ c.expected.errorCount, IsCount n
  rowCount : ∀ n ∈ c.expected.rowCount, IsCount n

/-- The counts of an outcome fit 64 bits, and so do the seconds that it took; its exit
code fits 32 bits. -/
structure Outcome.Bounded (o : Outcome) : Prop where
  exitCode : ∀ code ∈ o.exitCode, -0x80000000 ≤ code ∧ code < 0x80000000
  diagnostics : IsCount o.diagnostics.length
  directiveCount : ∀ n ∈ o.directiveCount, IsCount n
  rows : ∀ rows ∈ o.rows, IsCount rows.length
  duration : o.duration < 0x10000000000000000 * 1000000000

namespace Verdict

variable {c : Case} {o : Outcome} {m : Mismatch}

theorem small_of_sorted {expected actual : List (String × Json)}
    (hexpected : m.expected = sorted expected) (hactual : m.actual = sorted actual)
    (hwanted : ∀ field ∈ expected, Readable 1 field.2)
    (hfound : ∀ field ∈ actual, Readable 1 field.2) : m.Small where
  expected := hexpected ▸ readable_sorted hwanted
  actual := hactual ▸ readable_sorted hfound

theorem small_phaseRule (ho : o.Bounded) {phase : String} {want : Option Expectation}
    {got : Option PhaseState} (h : phaseRule c o phase want got = some m) : m.Small := by
  obtain ⟨state, -, hexpected, hactual⟩ := phaseRule_eq_some h
  have hcount : ∀ field ∈ if phase == "validate" then
      [("error_count", Json.nat o.diagnostics.length)] else [], Readable 1 field.2 := by
    split
    · exact List.forall_mem_singleton.mpr (readable_nat ho.diagnostics 1)
    · simp
  refine small_of_sorted hexpected hactual ?_ ?_
  · exact List.forall_mem_singleton.mpr (.string 1 _)
  · rw [List.cons_append, List.cons_append, List.forall_mem_cons, List.forall_mem_cons]
    exact ⟨.string 1 _, readable_strings _, hcount⟩

theorem small_needleRules (h : some m ∈ needleRules c o) : m.Small := by
  unfold needleRules at h
  split at h
  · cases h
  · obtain ⟨needle, -, hrule⟩ := List.mem_map.mp h
    obtain ⟨hexpected, hactual⟩ := needleRule_eq_some hrule
    exact small_of_sorted hexpected hactual
      (List.forall_mem_singleton.mpr (readable_strings _))
      (List.forall_mem_singleton.mpr (readable_strings _))

theorem small_countRule {field noun : String} {want got : Option Nat}
    (hwant : ∀ n ∈ want, IsCount n) (hgot : ∀ n ∈ got, IsCount n)
    (h : countRule field noun want got = some m) : m.Small := by
  obtain ⟨n, hn, hexpected, hactual⟩ := countRule_eq_some h
  refine small_of_sorted hexpected hactual ?_ ?_
  · exact List.forall_mem_singleton.mpr (readable_nat (hwant n hn) 1)
  · refine List.forall_mem_singleton.mpr (readable_orNull ?_)
    intro v hv
    obtain ⟨found, hfound, rfl⟩ := Option.mem_map.mp hv
    exact readable_nat (hgot found hfound) 1

theorem readable_orNull_strings (items : Option (List String)) :
    Readable 1 (orNull (items.map strings)) := by
  apply readable_orNull
  intro v hv
  obtain ⟨texts, -, rfl⟩ := Option.mem_map.mp hv
  exact readable_strings texts

theorem small_accountsRule (h : accountsRule c o = some m) : m.Small := by
  obtain ⟨-, hexpected, hactual⟩ := accountsRule_eq_some h
  exact small_of_sorted hexpected hactual
    (List.forall_mem_singleton.mpr (readable_strings _))
    (List.forall_mem_singleton.mpr (readable_orNull_strings _))

theorem small_columnsRule (h : columnsRule c o = some m) : m.Small := by
  obtain ⟨-, hexpected, hactual⟩ := columnsRule_eq_some h
  exact small_of_sorted hexpected hactual
    (List.forall_mem_singleton.mpr (readable_strings _))
    (List.forall_mem_singleton.mpr (readable_orNull_strings _))

/-- Whatever rule is broken, the data of the mismatch are small. -/
theorem small_evaluate (hc : c.Bounded) (ho : o.Bounded) (h : evaluate c o = some m) :
    m.Small := by
  obtain ⟨rule, hrule, rfl⟩ := List.exists_of_findSome?_eq_some h
  have herrors : ∀ n ∈ some o.diagnostics.length, IsCount n := by
    intro n hn
    cases hn
    exact ho.diagnostics
  have hrows : ∀ n ∈ o.rows.map List.length, IsCount n := by
    intro n hn
    obtain ⟨rows, hmem, rfl⟩ := Option.mem_map.mp hn
    exact ho.rows rows hmem
  simp only [rules, List.mem_append, List.mem_cons, List.not_mem_nil, or_false] at hrule
  rcases hrule with ((hphase | hphase | hphase) | hneedle) | hcount | hcount | hcount | hlist | hlist
  · exact small_phaseRule ho hphase.symm
  · exact small_phaseRule ho hphase.symm
  · exact small_phaseRule ho hphase.symm
  · exact small_needleRules hneedle
  · exact small_countRule hc.directives ho.directiveCount hcount.symm
  · exact small_countRule hc.errorCount herrors hcount.symm
  · exact small_countRule hc.rowCount hrows hcount.symm
  · exact small_accountsRule hlist.symm
  · exact small_columnsRule hlist.symm

end Verdict

/-! ### Results -/

/-- A result that some implementation comes to on a case in some files; its numbers are
of the sizes that a machine has for them. -/
structure Result.Executed (r : Result) (observe : Case → Attempt Fault Outcome) (c : Case)
    (fs : FileSystem) : Prop where
  result : ((Run.execute observe c).run fs).1 = r
  case : c.Bounded
  outcome : ∀ o, ((observe c).run.run fs).1 = .ok o → o.Bounded

/-- A result whose numbers can be read back from a log. -/
structure Result.Loggable (r : Result) : Prop where
  exitCode : ∀ code ∈ r.exitCode, -0x80000000 ≤ code ∧ code < 0x80000000
  duration : r.duration < 0x10000000000000000 * 1000000000
  mismatch : ∀ m ∈ r.mismatch, m.Small

theorem Run.loggable_judge {c : Case} (hc : c.Bounded) {o : Outcome} (ho : o.Bounded) :
    (judge c (.ok o)).Loggable := by
  unfold judge
  dsimp only
  split
  · exact ⟨ho.exitCode, ho.duration, by simp [Result.of]⟩
  · rename_i m hm
    refine ⟨ho.exitCode, ho.duration, ?_⟩
    intro m' hm'
    cases hm'
    exact Verdict.small_evaluate hc ho hm

theorem Run.loggable_judge_error (c : Case) (fault : Fault) : (judge c (.error fault)).Loggable := by
  refine ⟨by simp [judge, Result.of], by simp [judge, Result.of], ?_⟩
  intro m hm
  cases hm
  exact ⟨.object (by simp), .object (by simp)⟩

theorem Result.loggable_skipped (c : Case) : (skipped c).Loggable :=
  ⟨by simp [skipped, of], by simp [skipped, of], by simp [skipped, of]⟩

theorem Result.Executed.loggable {r : Result} {observe : Case → Attempt Fault Outcome} {c : Case}
    {fs : FileSystem} (h : r.Executed observe c fs) : r.Loggable := by
  obtain ⟨rfl, hcase, houtcome⟩ := h
  unfold Run.execute
  by_cases hskip : c.skip = true
  · rw [if_pos hskip]
    exact loggable_skipped c
  · rw [if_neg hskip]
    have hjudged : (Run.judge c ((observe c).run.run fs).1).Loggable := by
      cases hobserved : ((observe c).run.run fs).1 with
      | ok o => exact Run.loggable_judge hcase (houtcome o hobserved)
      | error fault => exact Run.loggable_judge_error c fault
    exact hjudged

namespace Log.Entry

theorem mem_kinds (kind : Kind) : kind.name ∈ Kind.all.map Kind.name := by
  cases kind <;> decide

theorem readable_resultDetails {r : Result} (h : r.Loggable) :
    ∀ v ∈ resultDetails r, v ≠ .null ∧ Readable 126 v := by
  intro v hv
  unfold resultDetails at hv
  split at hv
  · rename_i m hm
    cases hv
    have hsmall := h.mismatch m hm
    refine ⟨by simp [sorted], readable_sorted ?_⟩
    simp only [List.forall_mem_cons]
    exact ⟨.string 125 _, hsmall.expected.mono (by omega), hsmall.actual.mono (by omega), by simp⟩
  · cases hv
    exact ⟨by simp [sorted], readable_sorted (List.forall_mem_singleton.mpr (.string 125 _))⟩
  · cases hv

/-- The entry of a result. -/
theorem pending_ofResult {r : Result} (h : r.Loggable) (implementation : String) :
    (ofResult r implementation).Pending := by
  have hduration : ∀ x ∈ (ofResult r implementation).duration, x.Moderate := by
    intro x hx
    cases hx
    exact Result.moderate_milliseconds h.duration
  have hkind : ∀ kind ∈ (ofResult r implementation).kind, kind ∈ Kind.all.map Kind.name := by
    intro kind hkind
    cases hkind
    exact mem_kinds r.kind
  have hevent : Text.isBlankText "test_result" = false := by decide
  exact ⟨⟨h.exitCode, hduration, readable_resultDetails h⟩,
    ⟨hkind, hevent, fun _ => ⟨rfl, rfl⟩⟩, rfl⟩

end Log.Entry

namespace CommandLine

open Log (Entry)

/-- An entry of one of the commands: its event is none that asks for more fields. -/
theorem pending_of_details {e : Entry} (hcode : e.exitCode = none) (hduration : e.duration = none)
    (hdetails : ∀ v ∈ e.details, v ≠ .null ∧ Readable 126 v)
    (hkind : ∀ kind ∈ e.kind, kind ∈ Kind.all.map Kind.name)
    (hblank : Text.isBlankText e.event = false) (hevent : e.event ≠ "test_result")
    (hid : e.traceId.isEmpty = true) : e.Pending := by
  refine ⟨⟨?_, ?_, hdetails⟩, ⟨hkind, hblank, fun heq => absurd heq hevent⟩, hid⟩
  · rw [hcode]
    simp
  · rw [hduration]
    simp

theorem readable_sorted_details {fields : List (String × Json)}
    (h : ∀ field ∈ fields, Readable 125 field.2) :
    ∀ v ∈ some (Json.sorted fields), v ≠ .null ∧ Readable 126 v := by
  intro v hv
  cases hv
  exact ⟨by simp [sorted], readable_sorted h⟩

theorem RunCases.pending_startEntry (c : RunCases) (implementation : String) {selected : Nat}
    (hselected : IsCount selected) (hjobs : IsCount c.jobs) :
    (c.startEntry implementation selected).Pending := by
  have hblank : Text.isBlankText "run_start" = false := by decide
  refine pending_of_details rfl rfl (readable_sorted_details ?_) (by simp [startEntry]) hblank
    (by simp [startEntry]) rfl
  simp only [List.forall_mem_cons]
  exact ⟨.string 125 _, readable_nat hselected 125, readable_nat hjobs 125, by simp⟩

theorem RunCases.pending_endEntry {report : RunReport} (h : IsCount report.results.length) :
    (endEntry report).Pending := by
  have hcount : ∀ p : Result → Bool, IsCount (report.results.countP p) :=
    fun p => Nat.lt_of_le_of_lt List.countP_le_length h
  have hblank : Text.isBlankText "run_end" = false := by decide
  refine pending_of_details rfl rfl (readable_sorted_details ?_) (by simp [endEntry]) hblank
    (by simp [endEntry]) rfl
  simp only [Summary.fields, RunReport.summary, Summary.ofResults, List.forall_mem_cons]
  exact ⟨readable_nat h 125, readable_nat (hcount _) 125, readable_nat (hcount _) 125,
    readable_nat (hcount _) 125, by simp⟩

theorem CompareTools.pending_inputEntry (checked : Differential.Checked) :
    (inputEntry checked).Pending := by
  have hdifferences : ∀ differences : List Differential.Difference,
      Readable 2 (.array (differences.map Differential.Difference.toJson)) := by
    intro differences
    apply Readable.array
    intro v hv
    obtain ⟨difference, -, rfl⟩ := List.mem_map.mp hv
    apply Readable.object
    simp only [List.forall_mem_cons]
    exact ⟨.string 0 _, .string 0 _, by simp⟩
  have hfields : ∃ fields, (inputEntry checked).details = some (.object fields) ∧
      ∀ field ∈ fields, Readable 2 field.2 := by
    unfold inputEntry
    cases checked.result with
    | error problem => exact ⟨_, rfl, List.forall_mem_singleton.mpr (.string 2 _)⟩
    | ok check =>
      dsimp only
      by_cases hagrees : check.agrees = true
      · rw [if_pos hagrees]
        exact ⟨[], rfl, by simp⟩
      · rw [if_neg hagrees]
        exact ⟨_, rfl, List.forall_mem_singleton.mpr (hdifferences _)⟩
  have hdetails : ∀ v ∈ (inputEntry checked).details, v ≠ .null ∧ Readable 126 v := by
    obtain ⟨fields, heq, hreadable⟩ := hfields
    rw [heq]
    intro v hv
    cases hv
    exact ⟨by simp, (Readable.object hreadable).mono (by omega)⟩
  have hblank : Text.isBlankText "differential_input" = false := by decide
  refine pending_of_details rfl rfl hdetails ?_ hblank (by simp [inputEntry]) rfl
  intro kind hkind
  cases hkind
  exact Log.Entry.mem_kinds checked.input.kind

theorem CompareTools.pending_endEntry (runner : Differential.Runner) (timestamp : String)
    {checked : List Differential.Checked} (h : IsCount checked.length) :
    (endEntry (Differential.Report.ofChecked runner timestamp checked)).Pending := by
  have hstep := Differential.Findings.inStep_after runner checked.length checked
  have hcount : ∀ b, IsCount ((Differential.Findings.after runner checked.length
      checked).summary.of b) := by
    intro b
    rw [hstep.counts]
    exact Nat.lt_of_le_of_lt (List.length_filter_le _ _) h
  have hblank : Text.isBlankText "differential_end" = false := by decide
  refine pending_of_details rfl rfl (readable_sorted_details ?_) (by simp [endEntry]) hblank
    (by simp [endEntry]) rfl
  simp only [Differential.Counts.fields, List.forall_mem_cons]
  exact ⟨readable_nat (hstep.totalInputs ▸ h) 125, readable_nat (hcount .matching) 125,
    readable_nat (hcount .diverging) 125, readable_nat (hcount .faulty) 125, by simp⟩

end CommandLine

end LedgerConformance
