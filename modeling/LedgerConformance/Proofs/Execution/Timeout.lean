import LedgerConformance.Execution.Run
import LedgerConformance.Process.Launch
import LedgerConformance.Proofs.Command.Outcomes

/-!
Programs that overran their bound. Such a program has failed in every phase with
one message, and that outcome is judged like any other: it passes exactly when
failures with this message are all that the case asks for. So a case that expects
an error takes a program that never answers for one that refuses its input.
-/

namespace LedgerConformance

/-- All that a case asks for is what a program that overran its bound shows: no
phase is to succeed, the messages that are looked for are in the one message, no
other number of errors is expected, and nothing is to be reported. -/
structure Case.AcceptsTimeout (c : Case) (message : String) : Prop where
  phases : ∀ want ∈ [c.expected.parse, c.expected.validate, c.expected.query],
    want ≠ some .success
  needles : ∀ needle ∈ c.expected.errorContains,
    Text.contains (Text.lower message) (Text.lower needle) = true
  errorCount : ∀ n ∈ c.expected.errorCount, n = 1
  directives : c.expected.directives = none
  rowCount : c.expected.rowCount = none
  accounts : c.expected.accounts = []
  columns : c.expected.columns = []

namespace Verdict

theorem phaseKept_error_iff {want : Option Expectation} :
    PhaseKept want (some .error) ↔ want ≠ some .success := by
  simp [PhaseKept]

theorem primaryExpectation_mem (c : Case) :
    primaryExpectation c ∈ [c.expected.parse, c.expected.validate, c.expected.query] := by
  unfold primaryExpectation
  cases c.kind <;> simp

theorem haystack_timeoutOutcome (t : Command.Tool) (run : Command.Ended) :
    haystack (t.timeoutOutcome run) = Text.lower (Command.Tool.timeoutMessage t.timeout) := by
  simp [haystack, Outcome.messages, Command.Tool.timeoutOutcome, Outcome.syntheticFailure]

-- The whole seconds and the rest are rounded apart, and so is their sum.
example : haystack (Command.Tool.timeoutOutcome
    { name := "slow", commands := {}, timeout := 1118 } {}) =
      "timeout after 1.1179999999999999 seconds" := by decide +kernel

/-- The verdict on a program that overran its bound. -/
theorem evaluate_timeoutOutcome (c : Case) (t : Command.Tool) (run : Command.Ended) :
    evaluate c (t.timeoutOutcome run) = none ↔
      c.AcceptsTimeout (Command.Tool.timeoutMessage t.timeout) := by
  rw [evaluate_eq_none_iff, haystack_timeoutOutcome]
  constructor
  · rintro ⟨⟨hparse, hvalidate, hquery⟩, hneedles, hdirectives, herrors, hrows, haccounts,
      hcolumns⟩
    have hphases : ∀ want ∈ [c.expected.parse, c.expected.validate, c.expected.query],
        want ≠ some .success := by
      simp only [List.forall_mem_cons]
      exact ⟨phaseKept_error_iff.mp hparse, phaseKept_error_iff.mp hvalidate,
        phaseKept_error_iff.mp hquery, by simp⟩
    refine ⟨hphases, hneedles (hphases _ (primaryExpectation_mem c)), ?_, ?_, ?_, ?_, ?_⟩
    · intro n hn
      exact (herrors n hn).symm
    · rw [Option.eq_none_iff_forall_ne_some]
      intro n hn
      cases hdirectives n hn
    · rw [Option.eq_none_iff_forall_ne_some]
      intro n hn
      cases hrows n hn
    · rw [List.eq_nil_iff_forall_not_mem]
      intro a ha
      obtain ⟨reported, hreported, -⟩ := haccounts a ha
      cases hreported
    · rcases hcolumns with hnil | hsome
      · exact hnil
      · cases hsome
  · intro h
    have hphases := h.phases
    simp only [List.forall_mem_cons] at hphases
    obtain ⟨hparse, hvalidate, hquery, -⟩ := hphases
    refine ⟨⟨phaseKept_error_iff.mpr hparse, phaseKept_error_iff.mpr hvalidate,
      phaseKept_error_iff.mpr hquery⟩, fun _ => h.needles, ?_, ?_, ?_, ?_, Or.inl h.columns⟩
    · simp [h.directives]
    · intro n hn
      exact (h.errorCount n hn).symm
    · simp [h.rowCount]
    · simp [h.accounts]

end Verdict

namespace Run

theorem execute_of_observe {observe : Case → Attempt Fault Outcome} {c : Case}
    {files : FileSystem} {o : Outcome} (hskip : c.skip = false)
    (hobserve : ((observe c).run.run files).1 = .ok o) :
    ((execute observe c).run files).1 = judge c (.ok o) := by
  have hresult : ((execute observe c).run files).1 =
      judge c ((observe c).run.run files).1 := by
    simp only [execute, hskip]
    rfl
  rw [hresult, hobserve]

theorem status_judge (c : Case) (o : Outcome) :
    (judge c (.ok o)).status = if (Verdict.evaluate c o).isNone then .pass else .fail := by
  simp only [judge]
  cases Verdict.evaluate c o <;> rfl

/-- A case whose program overran its bound fails unless it asks for nothing but
what such a program shows. -/
theorem status_of_timeout (t : Command.Tool) (launch : Command.Launch) (c : Case)
    (files : FileSystem) (o : Outcome) (hskip : c.skip = false)
    (hobserve : ((t.observe launch c).run.run files).1 = .ok o) (htime : o.timedOut = true) :
    (((execute (t.observe launch) c).run files).1.status = .pass ↔
      c.AcceptsTimeout (Command.Tool.timeoutMessage t.timeout)) ∧
    (((execute (t.observe launch) c).run files).1.status = .fail ↔
      ¬ c.AcceptsTimeout (Command.Tool.timeoutMessage t.timeout)) := by
  have hverdict : Verdict.evaluate c o = none ↔
      c.AcceptsTimeout (Command.Tool.timeoutMessage t.timeout) := by
    cases Command.Tool.hasOutcome_of_observe ⟨files, hobserve⟩ with
    | notFound program => cases htime
    | overran run _ => exact Verdict.evaluate_timeoutOutcome c t run
    | ended run _ => simp [Command.interpret_timedOut] at htime
  rw [execute_of_observe hskip hobserve, status_judge, ← hverdict]
  by_cases hpass : Verdict.evaluate c o = none
  · simp [hpass]
  · simp [hpass]

/-- A program that sleeps through its bound on every input. -/
def sleepingTool : Command.Tool :=
  { name := "sleeping", commands := { check := some (.argv ["sleep", "5"]) }, timeout := 80 }

/-- A ledger that is not to be parsed. -/
def refusedLedger : Case :=
  { id := "refused", input := { inline := some "x" }, expected := { parse := some .error } }

theorem observe_sleepingTool :
    ((sleepingTool.observe Launch.launch refusedLedger).run.run {}).1.toOption.map
      Outcome.timedOut = some true := by
  decide +kernel

theorem status_of_timeout_sleepingTool :
    ((execute (sleepingTool.observe Launch.launch) refusedLedger).run {}).1.status = .pass := by
  obtain ⟨o, hsome, htime⟩ := Option.map_eq_some_iff.mp observe_sleepingTool
  have hobserve : ((sleepingTool.observe Launch.launch refusedLedger).run.run {}).1 = .ok o := by
    cases hresult : ((sleepingTool.observe Launch.launch refusedLedger).run.run {}).1 with
    | error fault => simp [hresult, Except.toOption] at hsome
    | ok found => simpa [hresult, Except.toOption] using hsome
  have haccepts : refusedLedger.AcceptsTimeout
      (Command.Tool.timeoutMessage sleepingTool.timeout) := by
    constructor <;> simp [refusedLedger]
  exact (status_of_timeout sleepingTool Launch.launch refusedLedger {} o rfl hobserve
    htime).1.mpr haccepts

/-- A program that never answers passes where an error is expected. -/
theorem sleepingTool_passes_refusedLedger :
    refusedLedger.skip = false ∧ refusedLedger.expected.parse = some .error ∧
      ((sleepingTool.observe Launch.launch refusedLedger).run.run {}).1.toOption.map
        Outcome.timedOut = some true ∧
      ((execute (sleepingTool.observe Launch.launch) refusedLedger).run {}).1.status = .pass := by
  exact ⟨rfl, rfl, observe_sleepingTool, by decide +kernel⟩

end Run

end LedgerConformance
