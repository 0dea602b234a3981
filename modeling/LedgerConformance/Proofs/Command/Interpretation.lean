import LedgerConformance.Proofs.Command.Outcomes

/-!
What is read off a program that has ended. If the output is a JSON object, the error stream
is kept but not asked; otherwise the output is kept but not asked. Either way the phases are
told: parsing, and one more phase that the kind of the case decides, whose state is the
success of the whole. A program succeeds when it exits with zero, unless an object in its
output reports an error. These facts are shown of an outcome whose phases are told, and
hold of every outcome that is read.
-/

namespace LedgerConformance.Command

/-- The output is a JSON object, but for blanks around it. -/
def Structured (stdout : String) : Prop :=
  ∃ fields, Json.parse? (Text.trimText stdout) = some (.object fields)

/-- The output is a JSON object with an error that is not null. -/
def ReportsError (stdout : String) : Prop :=
  ∃ fields error, Json.parse? (Text.trimText stdout) = some (.object fields) ∧
    fields.lookup "error" = some error ∧ error ≠ .null

theorem structured?_eq_some_iff {stdout : String} {doc : Json} : structured? stdout = some doc ↔
    Json.parse? (Text.trimText stdout) = some doc ∧ ∃ fields, doc = .object fields := by
  have hobject : doc.isObject = true ↔ ∃ fields, doc = .object fields := by
    cases doc <;> simp [Json.isObject]
  rw [structured?, Option.filter_eq_some_iff, hobject]

theorem structured?_eq_none_iff {stdout : String} :
    structured? stdout = none ↔ ¬ Structured stdout := by
  rw [Option.eq_none_iff_forall_ne_some, Structured, not_exists]
  constructor
  · intro h fields hparse
    exact h _ (structured?_eq_some_iff.mpr ⟨hparse, fields, rfl⟩)
  · intro h doc hdoc
    obtain ⟨hparse, fields, rfl⟩ := structured?_eq_some_iff.mp hdoc
    exact h fields hparse

theorem singleError?_eq_some_iff {fields : List (String × Json)} {error : Json} :
    singleError? (.object fields) = some error ↔
      fields.lookup "error" = some error ∧ error ≠ .null := by
  have hnull : (! error.isNull) = true ↔ error ≠ .null := by
    cases error <;> simp [Json.isNull]
  rw [singleError?, Option.filter_eq_some_iff, hnull]
  rfl

theorem reportsError_iff {stdout : String} :
    ReportsError stdout ↔ ((structured? stdout).bind singleError?).isSome = true := by
  rw [Option.isSome_iff_exists]
  constructor
  · rintro ⟨fields, error, hparse, herror⟩
    have hdoc := structured?_eq_some_iff.mpr ⟨hparse, fields, rfl⟩
    exact ⟨error, Option.bind_eq_some_iff.mpr ⟨_, hdoc, singleError?_eq_some_iff.mpr herror⟩⟩
  · rintro ⟨error, h⟩
    obtain ⟨doc, hdoc, herror⟩ := Option.bind_eq_some_iff.mp h
    obtain ⟨hparse, fields, rfl⟩ := structured?_eq_some_iff.mp hdoc
    exact ⟨fields, error, hparse, singleError?_eq_some_iff.mp herror⟩

-- Whether the output is an object is never found by reading it here.
attribute [local irreducible] structured?

/-- What is read before the phases are told. -/
def seen (name : String) (kind : Kind) (run : Ended) : Outcome :=
  match structured? run.stdout with
  | some doc => readDocument name (run.exitCode == some 0) doc
  | none => readStatus name kind (run.exitCode == some 0) run.stderr

theorem interpret_eq (name : String) (kind : Kind) (run : Ended) :
    interpret name kind run =
      { withPhases kind (seen name kind run) with
        exitCode := run.exitCode
        stdout := run.stdout
        stderr := run.stderr
        duration := run.duration } := rfl

section Seen

variable (name : String) (kind : Kind) (run : Ended)

theorem seen_of_structured? {doc : Json} (h : structured? run.stdout = some doc) :
    seen name kind run = readDocument name (run.exitCode == some 0) doc := by
  rw [seen, h]

theorem seen_of_not_structured (h : ¬ Structured run.stdout) :
    seen name kind run = readStatus name kind (run.exitCode == some 0) run.stderr := by
  rw [seen, structured?_eq_none_iff.mpr h]

/-- No phase is told before the phases are. -/
theorem seen_phases :
    (seen name kind run).query = none ∧ (seen name kind run).validate = none := by
  unfold seen
  split <;> exact ⟨rfl, rfl⟩

theorem seen_success_iff : (seen name kind run).success = true ↔
    run.exitCode = some 0 ∧ ¬ ReportsError run.stdout := by
  rw [reportsError_iff]
  cases hdoc : structured? run.stdout with
  | some doc =>
    rw [seen_of_structured? name kind run hdoc, readDocument, Bool.and_eq_true, beq_iff_eq,
      Option.bind_some, Bool.not_eq_true, Option.isSome_eq_false_iff]
  | none =>
    have hstructured := structured?_eq_none_iff.mp hdoc
    rw [seen_of_not_structured name kind run hstructured, readStatus, beq_iff_eq]
    exact (and_iff_left Bool.false_ne_true).symm

end Seen

/-- The state of the phase that a kind of case is about. -/
def stateFor (kind : Kind) (o : Outcome) : Option PhaseState :=
  if kind = .query then o.query else o.validate

/-- The phases of the outcome fit one another and the success of the whole. -/
structure Coherent (kind : Kind) (o : Outcome) : Prop where
  parse : o.parse.isSome = true
  query : o.query.isSome = true ↔ kind = .query
  validate : o.validate.isSome = true ↔ kind ≠ .query
  state : stateFor kind o = some .success ↔ o.success = true
  rows : kind = .query → o.success = true → o.rows.isSome = true
  parseError : kind ≠ .query → o.success = false →
    (∀ d ∈ o.diagnostics, d.phase = none ∧ d.type = none) → o.parse = some .error

theorem ofBool_eq_success_iff {ok : Bool} : PhaseState.ofBool ok = .success ↔ ok = true := by
  cases ok <;> simp [PhaseState.ofBool]

/-- A failure whose messages do not tell where they come from is one of parsing. -/
theorem parseFailed_of_untold {kind : Kind} {o : Outcome} (hkind : kind ≠ .query)
    (hsuccess : o.success = false) (h : ∀ d ∈ o.diagnostics, d.phase = none ∧ d.type = none) :
    parseFailed kind o = true := by
  have huntold : (o.diagnostics.any fun d => d.phase.isSome || d.type.isSome) = false := by
    rw [List.any_eq_false]
    intro d hd
    obtain ⟨hphase, htype⟩ := h d hd
    simp [hphase, htype]
  simp [parseFailed, huntold, hsuccess, hkind]

theorem coherent_withPhases {kind : Kind} {o : Outcome} (hquery : o.query = none)
    (hvalidate : o.validate = none) : Coherent kind (withPhases kind o) := by
  by_cases hkind : kind = .query
  · have heq : withPhases kind o =
        { o with
          parse := some (.ofBool (!parseFailed kind o))
          query := some (.ofBool o.success)
          rows := if o.success then some (o.rows.getD []) else o.rows } := by
      simp [withPhases, hkind]
    rw [heq]
    exact {
      parse := rfl
      query := by simp [hkind]
      validate := by simp [hkind, hvalidate]
      state := by simp [stateFor, hkind, ofBool_eq_success_iff]
      rows := fun _ hsuccess => by simp [show o.success = true from hsuccess]
      parseError := fun h => absurd hkind h
    }
  · have heq : withPhases kind o =
        { o with
          parse := some (.ofBool (!parseFailed kind o))
          validate := some (.ofBool o.success) } := by
      simp [withPhases, hkind]
    rw [heq]
    exact {
      parse := rfl
      query := by simp [hkind, hquery]
      validate := by simp [hkind]
      state := by simp [stateFor, hkind, ofBool_eq_success_iff]
      rows := fun h => absurd h hkind
      parseError := fun _ hsuccess huntold => by
        have hfailed : parseFailed kind o = true := parseFailed_of_untold hkind hsuccess huntold
        simp [hfailed, PhaseState.ofBool]
    }

theorem withPhases_success (kind : Kind) (o : Outcome) :
    (withPhases kind o).success = o.success := by
  unfold withPhases
  split <;> rfl

section Interpret

variable (name : String) (kind : Kind) (run : Ended)

theorem coherent_interpret : Coherent kind (interpret name kind run) := by
  obtain ⟨hquery, hvalidate⟩ := seen_phases name kind run
  have h : Coherent kind (withPhases kind (seen name kind run)) :=
    coherent_withPhases hquery hvalidate
  exact ⟨h.parse, h.query, h.validate, h.state, h.rows, h.parseError⟩

/-- Beside an object in the output, the error stream is only kept. -/
theorem interpret_stderr (h : Structured run.stdout) (stderr : String) :
    interpret name kind { run with stderr } = { interpret name kind run with stderr } := by
  obtain ⟨fields, hparse⟩ := h
  have hdoc := structured?_eq_some_iff.mpr ⟨hparse, fields, rfl⟩
  have hseen : seen name kind { run with stderr } = seen name kind run := by
    rw [seen_of_structured? name kind run hdoc, seen_of_structured? name kind { run with stderr } hdoc]
  rw [interpret_eq, interpret_eq, hseen]

/-- An output that is no object is only kept. -/
theorem interpret_stdout (h : ¬ Structured run.stdout) {stdout : String} (h' : ¬ Structured stdout) :
    interpret name kind { run with stdout } = { interpret name kind run with stdout } := by
  have hseen : seen name kind { run with stdout } = seen name kind run := by
    rw [seen_of_not_structured name kind run h,
      seen_of_not_structured name kind { run with stdout } h']
  rw [interpret_eq, interpret_eq, hseen]

/-- What is read off a program depends on one of its streams only, apart from keeping both;
its phases fit one another, and it is a success iff the program exited with zero and
reported no error. -/
theorem interpret_coherent :
    (Structured run.stdout → ∀ stderr,
        interpret name kind { run with stderr } = { interpret name kind run with stderr }) ∧
      (¬ Structured run.stdout → ∀ stdout, ¬ Structured stdout →
        interpret name kind { run with stdout } = { interpret name kind run with stdout }) ∧
      Coherent kind (interpret name kind run) ∧
      ((interpret name kind run).success = true ↔
        run.exitCode = some 0 ∧ ¬ ReportsError run.stdout) ∧
      (interpret name kind run).exitCode = run.exitCode ∧
      (interpret name kind run).stdout = run.stdout ∧
      (interpret name kind run).stderr = run.stderr := by
  refine ⟨interpret_stderr name kind run, ?_, coherent_interpret name kind run, ?_, rfl, rfl, rfl⟩
  · intro h stdout h'
    exact interpret_stdout name kind run h h'
  · rw [interpret_eq, withPhases_success, seen_success_iff]

end Interpret

/-- A query that reports an error although its program exits with zero. -/
def lateError : Ended :=
  { exitCode := some 0, stdout := "\x7b\"error\":true\x7d\n", stderr := "slow\n" }

/-- A check that writes to both streams, neither of them an object, and exits with one. -/
def refusedCheck : Ended := { exitCode := some 1, stdout := "[1]", stderr := "\nno such file\n" }

theorem interpret_coherent_lateError :
    interpret "tool" .query { lateError with stderr := "" } =
        { interpret "tool" .query lateError with stderr := "" } ∧
      (interpret "tool" .query lateError).query ≠ some .success ∧
      interpret "tool" .parsing { refusedCheck with stdout := "" } =
        { interpret "tool" .parsing refusedCheck with stdout := "" } ∧
      (interpret "tool" .parsing refusedCheck).parse = some .error := by
  have herror : ReportsError lateError.stdout := reportsError_iff.mpr (by decide +kernel)
  have hstructured : Structured lateError.stdout := by
    obtain ⟨fields, _, hparse, -⟩ := herror
    exact ⟨fields, hparse⟩
  have hlist : structured? refusedCheck.stdout = none := by decide +kernel
  have hempty : structured? "" = none := by decide +kernel
  obtain ⟨hquery, -, hlate, hlateSuccess, -⟩ := interpret_coherent "tool" .query lateError
  obtain ⟨-, hcheck, hrefused, hrefusedSuccess, -⟩ := interpret_coherent "tool" .parsing refusedCheck
  refine ⟨hquery hstructured "", ?_, ?_, ?_⟩
  · intro hstate
    obtain ⟨-, hquiet⟩ := hlateSuccess.mp (hlate.state.mp hstate)
    exact hquiet herror
  · exact hcheck (structured?_eq_none_iff.mp hlist) "" (structured?_eq_none_iff.mp hempty)
  · refine hrefused.parseError (by decide) ?_ ?_
    · rw [← Bool.not_eq_true, hrefusedSuccess]
      rintro ⟨hexit, -⟩
      cases hexit
    · decide +kernel

end LedgerConformance.Command
