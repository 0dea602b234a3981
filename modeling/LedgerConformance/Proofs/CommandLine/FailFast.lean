import LedgerConformance.CommandLine.RunCases
import LedgerConformance.Proofs.Execution.Parallel
import LedgerConformance.Proofs.Steps

/-!
Runs that end with the first failure. Such a run comes to the results of a first part
of the cases, all up to the first that fails, or of all cases where none does. It leaves
out only what is behind a failure, so its verdict is that of a run of all cases, and the
command that runs the cases ends with the same exit code.
-/

namespace LedgerConformance

namespace Run

/-- Each of the cases comes to a result of its own, whatever it finds when it is executed. -/
def Determined {σ : Type} (execute : Case → StateM σ Result) (outcome : Case → Result)
    (cases : List Case) : Prop :=
  ∀ c ∈ cases, ∀ s, ((execute c).run s).1 = outcome c

/-- The last of the cases fails. -/
def EndsInFailure (outcome : Case → Result) (cases : List Case) : Prop :=
  ∃ last, cases.getLast? = some last ∧ (outcome last).passed = false

/-- The shortest first part of the cases that ends in a failing one, or all cases where
none fails. -/
inductive UpToFailure (outcome : Case → Result) (cases : List Case) : List Case → Prop
  | failed {first : List Case} (hfirst : first <+: cases) (hends : EndsInFailure outcome first)
      (hshortest : ∀ other, other <+: cases → EndsInFailure outcome other →
        first.length ≤ other.length) :
    UpToFailure outcome cases first
  | passed (hall : ∀ c ∈ cases, (outcome c).passed = true) : UpToFailure outcome cases cases

/-! ### The results -/

variable {α β : Type} {p : α → Bool}

theorem takeThrough_map (f : β → α) (xs : List β) :
    takeThrough p (xs.map f) = (takeThrough (fun x => p (f x)) xs).map f := by
  induction xs with
  | nil => rfl
  | cons x rest ih =>
    rw [List.map_cons, takeThrough, takeThrough, ih]
    split
    · rw [List.map_singleton]
    · rw [List.map_cons]

/-- What is taken is a list without such an item, or what stands before the first one
together with it. -/
theorem takeThrough_cases (p : α → Bool) (xs : List α) :
    (takeThrough p xs = xs ∧ ∀ x ∈ xs, p x = false) ∨
      ∃ before x after, xs = before ++ x :: after ∧ takeThrough p xs = before ++ [x] ∧
        p x = true ∧ ∀ y ∈ before, p y = false := by
  cases hfind : xs.find? p with
  | none =>
    have hnone : ∀ x ∈ xs, p x = false := by simpa using List.find?_eq_none.mp hfind
    exact Or.inl ⟨takeThrough_eq_self hnone, hnone⟩
  | some x =>
    obtain ⟨hx, before, after, rfl, hbefore⟩ := List.find?_eq_some_iff_append.mp hfind
    have hclean : ∀ y ∈ before, p y = false := by simpa using hbefore
    refine Or.inr ⟨before, x, after, rfl, ?_, hx, hclean⟩
    clear hfind hbefore
    induction before with
    | nil => rw [List.nil_append, takeThrough, if_pos hx, List.nil_append]
    | cons y rest ih =>
      obtain ⟨hy, hrest⟩ := List.forall_mem_cons.mp hclean
      rw [List.cons_append, takeThrough, if_neg (by simp [hy]), ih hrest, List.cons_append]

theorem length_takeThrough_le (p : α → Bool) (xs : List α) :
    (takeThrough p xs).length ≤ xs.length := by
  rcases takeThrough_cases p xs with ⟨hself, -⟩ | ⟨before, x, after, hxs, htaken, -⟩
  · rw [hself]
  · rw [htaken, hxs, List.length_append, List.length_append, List.length_cons]
    simp

/-- An item of the sort is taken if there is one at all. -/
theorem forall_mem_takeThrough_iff (p : α → Bool) (xs : List α) :
    (∀ x ∈ takeThrough p xs, p x = false) ↔ ∀ x ∈ xs, p x = false := by
  rcases takeThrough_cases p xs with ⟨hself, -⟩ | ⟨before, x, after, hxs, htaken, hx, -⟩
  · rw [hself]
  · constructor
    · intro h
      have hfalse := h x (by simp [htaken])
      simp [hx] at hfalse
    · intro h
      have hfalse := h x (by simp [hxs])
      simp [hx] at hfalse

theorem upToFailure_takeThrough (outcome : Case → Result) (cases : List Case) :
    UpToFailure outcome cases (takeThrough (fun c => !(outcome c).passed) cases) := by
  rcases takeThrough_cases (fun c => !(outcome c).passed) cases with
    ⟨hself, hnone⟩ | ⟨before, c, after, hcases, htaken, hc, hbefore⟩
  · rw [hself]
    exact .passed (by simpa using hnone)
  · rw [htaken]
    have hfailed : (outcome c).passed = false := by simpa using hc
    have hfirst : before ++ [c] <+: cases := ⟨after, by rw [hcases]; simp⟩
    refine .failed hfirst ⟨c, by simp, hfailed⟩ ?_
    rintro other hother ⟨last, hlast, hfails⟩
    by_contra hshort
    rw [List.length_append, List.length_singleton] at hshort
    -- A shorter part stands within what comes before the failure, where all cases pass.
    have hbefore' : before <+: cases := (List.prefix_append before [c]).trans hfirst
    have hwithin : other <+: before :=
      List.prefix_of_prefix_length_le hother hbefore' (by omega)
    have hpassed := hbefore last (hwithin.subset (List.mem_of_getLast? hlast))
    simp [hfails] at hpassed

section

variable {σ : Type} {execute : Case → StateM σ Result} {outcome : Case → Result}
  {cases : List Case}

theorem results_of_determined (h : Determined execute outcome cases) (failFast : Bool) (s : σ) :
    ((results execute failFast cases).run s).1 =
      takeThrough (fun r => failFast && !r.passed) (cases.map outcome) := by
  have hview : ∀ r, (id r : Result).passed = r.passed := fun _ => rfl
  have hresults := map_results (fun _ => True) hview failFast (fun c hc s _ => h c hc s)
    (fun _ _ _ _ => trivial) s trivial
  rwa [List.map_id] at hresults

theorem results_slow (h : Determined execute outcome cases) (s : σ) :
    ((results execute false cases).run s).1 = cases.map outcome := by
  rw [results_of_determined h]
  exact takeThrough_eq_self fun _ _ => rfl

theorem results_fast (h : Determined execute outcome cases) (s : σ) :
    ((results execute true cases).run s).1 =
      (takeThrough (fun c => !(outcome c).passed) cases).map outcome := by
  rw [results_of_determined h]
  exact takeThrough_map outcome cases

/-- A run passes when all its cases do, also when it ends with the first failure. -/
theorem forall_passed_results_iff (h : Determined execute outcome cases) (failFast : Bool)
    (s : σ) :
    (∀ r ∈ ((results execute failFast cases).run s).1, r.passed = true) ↔
      ∀ c ∈ cases, (outcome c).passed = true := by
  cases failFast with
  | false => rw [results_slow h, List.forall_mem_map]
  | true =>
    rw [results_fast h, List.forall_mem_map]
    have hfirst := forall_mem_takeThrough_iff (fun c => !(outcome c).passed) cases
    simpa using hfirst

/-- Where no case fails nothing ends a run, and it goes on alike with and without an end at
the first failure. -/
theorem results_congr_of_passed {failFast : Bool} {s : σ}
    (h : ∀ r ∈ ((results execute failFast cases).run s).1, r.passed = true) (other : Bool) :
    (results execute other cases).run s = (results execute failFast cases).run s := by
  induction cases generalizing s with
  | nil => rfl
  | cons c rest ih =>
    rw [run_results_cons] at h
    dsimp only at h
    have hc : ((execute c).run s).1.passed = true := by
      split at h <;> exact h _ List.mem_cons_self
    have hgoOn : ∀ ends : Bool, (ends && !((execute c).run s).1.passed) ≠ true := by
      simp [hc]
    rw [if_neg (hgoOn failFast)] at h
    have hrest := ih fun r hr => h r (List.mem_cons_of_mem _ hr)
    rw [run_results_cons, run_results_cons]
    dsimp only
    rw [if_neg (hgoOn other), if_neg (hgoOn failFast), hrest]

end

end Run

/-! ### The counts -/

namespace Summary

/-- Every result is counted once. -/
theorem passed_add_failed_add_skipped (results : List Result) :
    (ofResults results).passed + (ofResults results).failed + (ofResults results).skipped =
      results.length := by
  simp only [ofResults]
  induction results with
  | nil => rfl
  | cons r rest ih =>
    simp only [List.countP_cons, List.length_cons]
    cases r.status <;> simp <;> omega

theorem allPassed_ofResults_iff (results : List Result) :
    (ofResults results).allPassed = true ↔ ∀ r ∈ results, r.passed = true := by
  simp [allPassed, ofResults, List.countP_eq_zero, Result.passed]

end Summary

theorem RunReport.allPassed_of_iff (implementation : String) (cases : List Case)
    (results : List Result) :
    (of implementation cases results).allPassed = true ↔ ∀ r ∈ results, r.passed = true :=
  Summary.allPassed_ofResults_iff results

/-- What a report says of its cases: the counts cover its results, what it leaves out covers
the other cases, and it leaves out cases only behind a failure, of which there is one. -/
structure RunReport.AccountsFor (report : RunReport) (cases : List Case) : Prop where
  total : report.summary.total = report.results.length
  statuses : report.summary.passed + report.summary.failed + report.summary.skipped =
    report.results.length
  cases : report.summary.total + report.notRun = cases.length
  notRun : 0 < report.notRun → ∃ before last, report.results = before ++ [last] ∧
    last.passed = false ∧ ∀ r ∈ before, r.passed = true

theorem Run.accountsFor_results {σ : Type} {execute : Case → StateM σ Result}
    {outcome : Case → Result} {cases : List Case} (h : Determined execute outcome cases)
    (name : String) (failFast : Bool) (s : σ) :
    (RunReport.of name cases ((results execute failFast cases).run s).1).AccountsFor cases := by
  rw [results_of_determined h]
  let ends : Result → Bool := fun r => failFast && !r.passed
  have hlength : (takeThrough ends (cases.map outcome)).length ≤ cases.length := by
    simpa using length_takeThrough_le ends (cases.map outcome)
  refine ⟨rfl, Summary.passed_add_failed_add_skipped _, Nat.add_sub_of_le hlength, ?_⟩
  intro hnotRun
  have hshort : (takeThrough ends (cases.map outcome)).length < cases.length :=
    Nat.lt_of_sub_pos hnotRun
  rcases takeThrough_cases ends (cases.map outcome) with
    ⟨hself, -⟩ | ⟨before, last, after, -, htaken, hlast, hbefore⟩
  · rw [hself, List.length_map] at hshort
    exact absurd hshort (Nat.lt_irrefl _)
  · obtain ⟨hfast, hfailed⟩ : failFast = true ∧ last.passed = false := by
      simpa [ends] using hlast
    refine ⟨before, last, htaken, hfailed, ?_⟩
    intro r hr
    simpa [ends, hfast] using hbefore r hr

theorem Run.run_congr_of_allPassed {i : Implementation} {launch : Command.Launch}
    {failFast : Bool} {cases : List Case} {files : FileSystem}
    (h : ((Run.run i launch failFast cases).run files).1.allPassed = true) (other : Bool) :
    (Run.run i launch other cases).run files = (Run.run i launch failFast cases).run files := by
  have hpassed := (RunReport.allPassed_of_iff _ _ _).mp h
  have hresults := Run.results_congr_of_passed hpassed other
  unfold Run.run
  rw [StateT.run_bind, StateT.run_bind, hresults]

/-! ### The exit code -/

namespace CommandLine

namespace Action

variable {α β : Type}

/-- The step comes to a value. -/
def Succeeds (a : Action α) (s : Session) : Prop := ∃ x s', a.run.run s = (.ok x, s')

theorem succeeds_bind_iff {a : Action α} {f : α → Action β} {s : Session} :
    (a >>= f).Succeeds s ↔ ∃ x s', a.run.run s = (.ok x, s') ∧ (f x).Succeeds s' := by
  constructor
  · rintro ⟨y, after, h⟩
    obtain ⟨x, s', ha, hf⟩ := run_bind_eq_ok_iff.mp h
    exact ⟨x, s', ha, y, after, hf⟩
  · rintro ⟨x, s', ha, y, after, hf⟩
    exact ⟨y, after, run_bind_eq_ok_iff.mpr ⟨x, s', ha, hf⟩⟩

theorem not_succeeds_giveUp (s : Session) : ¬ (giveUp : Action α).Succeeds s := by
  rintro ⟨x, s', h⟩
  cases h

theorem run_files (s : Session) : files.run.run s = (.ok s.files, s) := rfl

theorem run_withFiles (step : StateM FileSystem α) (s : Session) :
    (withFiles step).run.run s =
      (.ok (step.run s.files).1, { s with files := (step.run s.files).2 }) := rfl

/-- A command that comes to its end leaves zero, and any other one. -/
theorem exitCode_perform (a : Action Unit) (fs : FileSystem) :
    a.Succeeds { files := fs } ∧ (a.perform fs).exitCode = 0 ∨
      ¬ a.Succeeds { files := fs } ∧ (a.perform fs).exitCode = 1 := by
  unfold perform
  cases hrun : a.run.run { files := fs } with
  | mk result s =>
    cases result with
    | ok x => exact Or.inl ⟨⟨x, s, hrun⟩, rfl⟩
    | error failure =>
      refine Or.inr ⟨?_, rfl⟩
      rintro ⟨x, s', h⟩
      rw [hrun] at h
      cases h

end Action

namespace RunCases

open CommandLine.Action

variable {c : RunCases} {env : Environment} {s : Session} {failFast : Bool}
  {selected : List Case}

/-- The last steps of a run. -/
def deliverVerdict (c : RunCases) (report : RunReport) : Action Unit := do
  Action.deliver c.output (c.format.render c.verbose report.results)
  unless report.allPassed do Action.giveUp

/-- What is left to a run when it has said what it leaves out: its log, if it has one, and
its report. -/
def close (c : RunCases) (report : RunReport) : Option LogFile → Action Unit
  | some log => do
    log.finish (closingEntries report)
    c.deliverVerdict report
  | none => c.deliverVerdict report

/-- What a run does behind its cases. -/
def conclude (c : RunCases) (report : RunReport) (log : Option LogFile) : Action Unit :=
  if report.notRun > 0 then do
    Action.remark ("Fail-fast: " ++ toString report.notRun ++ " tests not run")
    c.close report log
  else c.close report log

/-- The command with or without an end at the first failure. -/
def ending (c : RunCases) (failFast : Bool) : RunCases := { c with failFast }

theorem runSelected_eq (c : RunCases) (env : Environment) (failFast : Bool)
    (selected : List Case) :
    (c.ending failFast).runSelected env selected = (do
      let implementation := c.implementation env
      let log ← c.log.mapM (c.startLog env implementation.name selected.length)
      Action.remark
        ("Running " ++ toString selected.length ++ " tests against " ++ implementation.name)
      let report ← Action.withFiles (Run.run implementation env.launch failFast selected)
      c.conclude report log) := by
  unfold runSelected
  refine bind_congr fun log => ?_
  refine bind_congr fun _ => ?_
  refine bind_congr fun report => ?_
  cases log <;> rfl

theorem allPassed_of_deliverVerdict {report : RunReport}
    (h : (c.deliverVerdict report).Succeeds s) : report.allPassed = true := by
  obtain ⟨_, s', -, h⟩ := succeeds_bind_iff.mp h
  split at h
  · assumption
  · exact absurd h (not_succeeds_giveUp s')

theorem allPassed_of_close {report : RunReport} {log : Option LogFile}
    (h : (c.close report log).Succeeds s) : report.allPassed = true := by
  cases log with
  | some log =>
    obtain ⟨_, _, -, h⟩ := succeeds_bind_iff.mp h
    exact allPassed_of_deliverVerdict h
  | none => exact allPassed_of_deliverVerdict h

theorem allPassed_of_conclude {report : RunReport} {log : Option LogFile}
    (h : (c.conclude report log).Succeeds s) : report.allPassed = true := by
  unfold conclude at h
  split at h
  · obtain ⟨_, _, -, h⟩ := succeeds_bind_iff.mp h
    exact allPassed_of_close h
  · exact allPassed_of_close h

theorem close_none_succeeds {report : RunReport} (houtput : c.output = none)
    (h : report.allPassed = true) (s : Session) : (c.close report none).Succeeds s := by
  unfold close deliverVerdict
  rw [houtput, if_pos h]
  exact ⟨(), _, rfl⟩

theorem conclude_none_succeeds {report : RunReport} (houtput : c.output = none)
    (h : report.allPassed = true) (s : Session) : (c.conclude report none).Succeeds s := by
  unfold conclude
  split
  · exact succeeds_bind_iff.mpr ⟨(), _, rfl, close_none_succeeds houtput h _⟩
  · exact close_none_succeeds houtput h s

theorem allPassed_of_runSelected (h : ((c.ending failFast).runSelected env selected).Succeeds s) :
    ∃ files, ((Run.run (c.implementation env) env.launch failFast selected).run
      files).1.allPassed = true := by
  rw [runSelected_eq] at h
  obtain ⟨log, started, -, h⟩ := succeeds_bind_iff.mp h
  obtain ⟨_, s', -, h⟩ := succeeds_bind_iff.mp h
  obtain ⟨report, after, hrun, h⟩ := succeeds_bind_iff.mp h
  cases hrun
  exact ⟨s'.files, allPassed_of_conclude h⟩

/-- Without other files to write, a run ends well when its cases pass. -/
theorem runSelected_succeeds (hlog : c.log = none) (houtput : c.output = none)
    (hpassed : ∀ files, ((Run.run (c.implementation env) env.launch failFast selected).run
      files).1.allPassed = true) (s : Session) :
    ((c.ending failFast).runSelected env selected).Succeeds s := by
  rw [runSelected_eq, hlog]
  refine succeeds_bind_iff.mpr ⟨none, s, rfl, ?_⟩
  refine succeeds_bind_iff.mpr ⟨(), _, rfl, ?_⟩
  refine succeeds_bind_iff.mpr ⟨_, _, run_withFiles _ _, ?_⟩
  exact conclude_none_succeeds houtput (hpassed _) _

/-- A run that ends well does so with and without an end at the first failure. -/
theorem runSelected_succeeds_congr (h : ((c.ending failFast).runSelected env selected).Succeeds s)
    (other : Bool) : ((c.ending other).runSelected env selected).Succeeds s := by
  rw [runSelected_eq] at h ⊢
  obtain ⟨log, started, hlog, h⟩ := succeeds_bind_iff.mp h
  obtain ⟨_, s', hremark, h⟩ := succeeds_bind_iff.mp h
  obtain ⟨report, after, hrun, h⟩ := succeeds_bind_iff.mp h
  rw [run_withFiles, Prod.mk.injEq, Except.ok.injEq] at hrun
  obtain ⟨rfl, rfl⟩ := hrun
  have hsame := Run.run_congr_of_allPassed (allPassed_of_conclude h) other
  refine succeeds_bind_iff.mpr ⟨log, started, hlog, ?_⟩
  refine succeeds_bind_iff.mpr ⟨(), s', hremark, ?_⟩
  refine succeeds_bind_iff.mpr ⟨_, _, run_withFiles _ s', ?_⟩
  rwa [hsame]

theorem perform_eq (c : RunCases) (env : Environment) (failFast : Bool) :
    (c.ending failFast).perform env = (do
      let catalogue ← Action.ofExcept .load (Catalogue.load (← Action.files) c.manifest)
      for path in catalogue.missing do
        Action.remark ("Warning: " ++ path ++ " not found, suite skipped")
      let selected := c.filter.select catalogue.cases
      if selected.isEmpty then
        Action.remark "No tests match the given filters"
        Action.giveUp
      else if c.list then Action.print (listing selected)
      else (c.ending failFast).runSelected env selected) := rfl

/-- The command runs these cases. -/
structure Runs (c : RunCases) (fs : FileSystem) (selected : List Case) : Prop where
  loaded : ∃ catalogue, Catalogue.load fs c.manifest = .ok catalogue ∧
    c.filter.select catalogue.cases = selected
  some_selected : selected ≠ []
  not_listed : c.list = false

theorem succeeds_warnings (missing : List String) (s : Session) :
    Succeeds (forIn missing PUnit.unit fun path _ => do
      Action.remark ("Warning: " ++ path ++ " not found, suite skipped")
      pure (ForInStep.yield PUnit.unit)) s := by
  induction missing generalizing s with
  | nil => exact ⟨_, s, rfl⟩
  | cons path rest ih =>
    rw [List.forIn_cons]
    exact succeeds_bind_iff.mpr ⟨_, _, rfl, ih _⟩

/-- What the command comes to is what the run of its cases comes to, behind its warnings. -/
theorem exists_run_perform {fs : FileSystem} (h : c.Runs fs selected) (env : Environment)
    (failFast : Bool) :
    ∃ started, ((c.ending failFast).perform env).run.run { files := fs } =
      ((c.ending failFast).runSelected env selected).run.run started := by
  obtain ⟨catalogue, hload, hselect⟩ := h.loaded
  obtain ⟨_, warned, hwarned⟩ := succeeds_warnings catalogue.missing { files := fs }
  refine ⟨warned, ?_⟩
  have hcatalogue : (Action.ofExcept Failure.load (Catalogue.load fs c.manifest)).run.run
      { files := fs } = (.ok catalogue, { files := fs }) := by
    rw [hload]
    rfl
  rw [perform_eq, run_bind_of_run_eq_ok (run_files _), run_bind_of_run_eq_ok hcatalogue,
    run_bind_of_run_eq_ok hwarned]
  dsimp only
  rw [hselect, h.not_listed, if_neg (by simpa using h.some_selected), if_neg Bool.false_ne_true]

theorem perform_succeeds_congr (h : ((c.ending failFast).perform env).Succeeds s)
    (other : Bool) : ((c.ending other).perform env).Succeeds s := by
  rw [perform_eq] at h ⊢
  obtain ⟨files, s₁, hfiles, h⟩ := succeeds_bind_iff.mp h
  obtain ⟨catalogue, s₂, hcatalogue, h⟩ := succeeds_bind_iff.mp h
  obtain ⟨_, s₃, hwarned, h⟩ := succeeds_bind_iff.mp h
  refine succeeds_bind_iff.mpr ⟨files, s₁, hfiles, ?_⟩
  refine succeeds_bind_iff.mpr ⟨catalogue, s₂, hcatalogue, ?_⟩
  refine succeeds_bind_iff.mpr ⟨_, s₃, hwarned, ?_⟩
  dsimp only at h ⊢
  by_cases hnone : (c.filter.select catalogue.cases).isEmpty = true
  · rwa [if_pos hnone] at h ⊢
  · rw [if_neg hnone] at h ⊢
    by_cases hlist : c.list = true
    · rwa [if_pos hlist] at h ⊢
    · rw [if_neg hlist] at h ⊢
      exact runSelected_succeeds_congr h other

/-- The exit code of the command, with or without an end at the first failure. -/
def exitCode (c : RunCases) (env : Environment) (fs : FileSystem) (failFast : Bool) : Nat :=
  (((c.ending failFast).perform env).perform fs).exitCode

theorem exitCode_eq_zero_iff {fs : FileSystem} :
    c.exitCode env fs failFast = 0 ↔ ((c.ending failFast).perform env).Succeeds { files := fs } := by
  rcases exitCode_perform ((c.ending failFast).perform env) fs with ⟨h, hcode⟩ | ⟨h, hcode⟩ <;>
    simp [exitCode, h, hcode]

/-- The command ends with the same code with and without an end at the first failure,
whatever it runs. -/
theorem exitCode_congr (c : RunCases) (env : Environment) (fs : FileSystem) :
    c.exitCode env fs true = c.exitCode env fs false := by
  rcases exitCode_perform ((c.ending true).perform env) fs with ⟨h, hcode⟩ | ⟨h, hcode⟩
  · have hslow := exitCode_eq_zero_iff.mpr (perform_succeeds_congr h false)
    exact hcode.trans hslow.symm
  · rcases exitCode_perform ((c.ending false).perform env) fs with ⟨hslow, -⟩ | ⟨-, hslow⟩
    · exact absurd (perform_succeeds_congr hslow true) h
    · exact hcode.trans hslow.symm

section

variable {fs : FileSystem} {outcome : Case → Result}

/-- A command that leaves zero has passed all its cases. -/
theorem passed_of_exitCode_eq_zero (hruns : c.Runs fs selected)
    (hdetermined : Run.Determined (Run.execute ((c.implementation env).observe env.launch)) outcome
      selected)
    (h : c.exitCode env fs failFast = 0) : ∀ case ∈ selected, (outcome case).passed = true := by
  obtain ⟨started, hrun⟩ := exists_run_perform hruns env failFast
  have hsucceeds := exitCode_eq_zero_iff.mp h
  rw [Succeeds, hrun] at hsucceeds
  obtain ⟨files, hpassed⟩ := allPassed_of_runSelected hsucceeds
  have hresults := (RunReport.allPassed_of_iff _ _ _).mp hpassed
  exact (Run.forall_passed_results_iff hdetermined failFast files).mp hresults

theorem exitCode_eq_zero_of_passed (hruns : c.Runs fs selected)
    (hdetermined : Run.Determined (Run.execute ((c.implementation env).observe env.launch)) outcome
      selected)
    (hlog : c.log = none) (houtput : c.output = none)
    (h : ∀ case ∈ selected, (outcome case).passed = true) : c.exitCode env fs failFast = 0 := by
  obtain ⟨started, hrun⟩ := exists_run_perform hruns env failFast
  rw [exitCode_eq_zero_iff, Succeeds, hrun]
  refine runSelected_succeeds hlog houtput ?_ started
  intro files
  apply (RunReport.allPassed_of_iff _ _ _).mpr
  exact (Run.forall_passed_results_iff hdetermined failFast files).mpr h

end

end RunCases

end CommandLine

open CommandLine in
/-- Where each case has a result of its own, a run of all cases comes to these results, and
one that ends with its first failure to those up to the first case that fails, or to all.
Both pass or both fail, each accounts for all cases, and the command that runs the cases
leaves the same code: with nothing else to write, zero exactly when all cases pass. -/
theorem verdict_of_failFast {σ : Type} (name : String) (execute : Case → StateM σ Result)
    (outcome : Case → Result) (cases : List Case)
    (hdetermined : Run.Determined execute outcome cases) (s s' : σ) :
    let slow := RunReport.of name cases ((Run.results execute false cases).run s).1
    let fast := RunReport.of name cases ((Run.results execute true cases).run s').1
    slow.results = cases.map outcome ∧
    (∃ first, Run.UpToFailure outcome cases first ∧ fast.results = first.map outcome) ∧
    fast.allPassed = slow.allPassed ∧
    slow.AccountsFor cases ∧ fast.AccountsFor cases ∧
    ∀ (c : RunCases) (env : Environment) (fs : FileSystem),
      c.exitCode env fs true = c.exitCode env fs false ∧
      (c.Runs fs cases →
        Run.Determined (Run.execute ((c.implementation env).observe env.launch)) outcome cases →
        ∀ failFast,
          (c.exitCode env fs failFast = 0 → slow.allPassed = true) ∧
          (c.log = none → c.output = none → slow.allPassed = true →
            c.exitCode env fs failFast = 0)) := by
  intro slow fast
  have hslow : slow.allPassed = true ↔ ∀ c ∈ cases, (outcome c).passed = true :=
    (RunReport.allPassed_of_iff _ _ _).trans (Run.forall_passed_results_iff hdetermined false s)
  have hfast : fast.allPassed = true ↔ ∀ c ∈ cases, (outcome c).passed = true :=
    (RunReport.allPassed_of_iff _ _ _).trans (Run.forall_passed_results_iff hdetermined true s')
  refine ⟨Run.results_slow hdetermined s, ⟨_, Run.upToFailure_takeThrough outcome cases,
    Run.results_fast hdetermined s'⟩, Bool.eq_iff_iff.mpr (hfast.trans hslow.symm),
    Run.accountsFor_results hdetermined name false s,
    Run.accountsFor_results hdetermined name true s', ?_⟩
  intro c env fs
  refine ⟨c.exitCode_congr env fs, ?_⟩
  intro hruns hcommand failFast
  constructor
  · intro hzero
    exact hslow.mpr (RunCases.passed_of_exitCode_eq_zero hruns hcommand hzero)
  · intro hlog houtput hpassed
    exact RunCases.exitCode_eq_zero_of_passed hruns hcommand hlog houtput (hslow.mp hpassed)

/-- What the reference implementation makes of a text does not depend on the files. -/
theorem Reference.observe_of_inline {c : Case} {text : String} (h : c.input.inline = some text)
    (fs fs' : FileSystem) : observe fs c = observe fs' c := by
  have hinput : ∀ files, InputSource.ofCase files c = .ok (.inline text) := by
    intro files
    simp [InputSource.ofCase, h]
  unfold observe
  rw [hinput, hinput]
  rfl

/-- The result of a case under the reference implementation, where there are no files. -/
def referenceResult (c : Case) : Result :=
  ((Run.execute (Implementation.reference.observe nothingLaunched) c).run {}).1

theorem Run.determined_of_inline {cases : List Case}
    (h : ∀ c ∈ cases, c.input.inline.isSome = true) :
    Determined (execute (Implementation.reference.observe nothingLaunched)) referenceResult
      cases := by
  intro c hc files
  obtain ⟨text, htext⟩ := Option.isSome_iff_exists.mp (h c hc)
  have hobserve := Reference.observe_of_inline htext files {}
  unfold referenceResult execute
  split
  · rfl
  · change judge c (Reference.observe files c) = judge c (Reference.observe {} c)
    rw [hobserve]

/-- A case that is left out, one that fails, and one behind it. -/
def mixedTests : String := "\x7b\"tests\":[" ++
  "\x7b\"id\":\"a\",\"description\":\"\",\"input\":\x7b\"inline\":\"\"\x7d,\"skip\":true\x7d," ++
  "\x7b\"id\":\"b\",\"description\":\"\",\"input\":\x7b\"inline\":\"\"\x7d," ++
    "\"expected\":\x7b\"parse\":\"error\"\x7d\x7d," ++
  "\x7b\"id\":\"c\",\"description\":\"\",\"input\":\x7b\"inline\":\"\"\x7d\x7d]\x7d"

def mixedSuite : FileSystem where
  root := .directory [("work", .directory [
    ("m", .file "\x7b\"test_directories\":[\"a\"]\x7d".toUTF8),
    ("a", .directory [("tests.json", .file mixedTests.toUTF8)])])]

def mixedCommand : CommandLine.RunCases := { manifest := "m" }

def quietEnvironment : CommandLine.Environment :=
  { timestamp := "", processLabel := "", launch := nothingLaunched }

theorem load_mixedSuite : ∃ catalogue, Catalogue.load mixedSuite "m" = .ok catalogue ∧
    catalogue.cases.map (fun c => (c.input.inline.isSome, (referenceResult c).status)) =
      [(true, .skip), (true, .fail), (true, .pass)] := by
  have hfound : (Catalogue.load mixedSuite "m").toOption.map (fun catalogue =>
      catalogue.cases.map fun c => (c.input.inline.isSome, (referenceResult c).status)) =
        some [(true, .skip), (true, .fail), (true, .pass)] := by decide +kernel
  obtain ⟨catalogue, hload, hcases⟩ := Option.map_eq_some_iff.mp hfound
  exact ⟨catalogue, eq_ok_of_toOption_eq_some hload, hcases⟩

theorem verdict_of_failFast_mixedSuite :
    ∃ catalogue, Catalogue.load mixedSuite "m" = .ok catalogue ∧
      catalogue.cases.map (fun c => (referenceResult c).status) = [.skip, .fail, .pass] ∧
      Run.Determined (Run.execute (Implementation.reference.observe nothingLaunched))
        referenceResult catalogue.cases ∧
      let fast := ((Run.run .reference nothingLaunched true catalogue.cases).run mixedSuite).1
      (∃ first, Run.UpToFailure referenceResult catalogue.cases first ∧
        fast.results = first.map referenceResult) ∧
      fast.AccountsFor catalogue.cases ∧ fast.allPassed = false ∧
      ∀ failFast, mixedCommand.exitCode quietEnvironment mixedSuite failFast ≠ 0 := by
  obtain ⟨catalogue, hload, hfound⟩ := load_mixedSuite
  have hstatuses : catalogue.cases.map (fun c => (referenceResult c).status) =
      [.skip, .fail, .pass] := by
    simpa [List.map_map, Function.comp_def] using congrArg (List.map Prod.snd) hfound
  have hinlines : catalogue.cases.map (·.input.inline.isSome) = [true, true, true] := by
    simpa [List.map_map, Function.comp_def] using congrArg (List.map Prod.fst) hfound
  have hinline : ∀ c ∈ catalogue.cases, c.input.inline.isSome = true := by
    intro c hc
    simpa [hinlines] using List.mem_map_of_mem (f := (·.input.inline.isSome)) hc
  have hdetermined := Run.determined_of_inline hinline
  obtain ⟨-, hfast, hsame, -, haccounts, hcommand⟩ := verdict_of_failFast Reference.name
    (Run.execute (Implementation.reference.observe nothingLaunched)) referenceResult
    catalogue.cases hdetermined mixedSuite mixedSuite
  have hfail : Status.fail ∈ catalogue.cases.map (fun c => (referenceResult c).status) := by
    simp [hstatuses]
  obtain ⟨failing, hfailing, hstatus⟩ := List.mem_map.mp hfail
  have hfailed : ¬ (RunReport.of Reference.name catalogue.cases ((Run.results
      (Run.execute (Implementation.reference.observe nothingLaunched)) false
      catalogue.cases).run mixedSuite).1).allPassed = true := by
    rw [RunReport.allPassed_of_iff, Run.forall_passed_results_iff hdetermined]
    intro hall
    have hpassed : (referenceResult failing).passed = true := hall failing hfailing
    rw [Result.passed, hstatus] at hpassed
    exact absurd hpassed (by decide)
  refine ⟨catalogue, hload, hstatuses, hdetermined, hfast, haccounts, ?_, ?_⟩
  · exact hsame.trans (by simpa using hfailed)
  · intro failFast hzero
    have hruns : mixedCommand.Runs mixedSuite catalogue.cases := by
      refine ⟨⟨catalogue, hload, List.filter_eq_self.mpr fun _ _ => rfl⟩, ?_, rfl⟩
      exact List.ne_nil_of_mem hfailing
    exact hfailed (((hcommand mixedCommand quietEnvironment mixedSuite).2 hruns hdetermined
      failFast).1 hzero)

end LedgerConformance
