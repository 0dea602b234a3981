import LedgerConformance.Process.Launch
import LedgerConformance.Proofs.Command.Outcomes
import LedgerConformance.Proofs.Differential.Accounting
import LedgerConformance.Proofs.Differential.Resolution
import LedgerConformance.Proofs.Json.Fields
import LedgerConformance.Proofs.Steps
import Mathlib.Data.List.Forall2

/-!
What the record of a divergence holds. A record keeps the outcomes under the names
of their implementations, so one would be lost if two had one name. The tools of a
run have different names and every outcome bears the name of its tool, whatever the
program did; so each record holds one entry for each tool, with what that tool came
to on the input.
-/

namespace LedgerConformance

namespace Command

theorem withPhases_implementation (kind : Kind) (o : Outcome) :
    (withPhases kind o).implementation = o.implementation := by
  unfold withPhases
  split <;> rfl

theorem interpret_implementation (name : String) (kind : Kind) (run : Ended) :
    (interpret name kind run).implementation = name := by
  simp only [interpret, withPhases_implementation]
  split <;> rfl

/-- Every outcome of a tool bears its name. -/
theorem Tool.HasOutcome.implementation {t : Tool} {kind : Kind} {o : Outcome}
    (h : t.HasOutcome kind o) : o.implementation = t.name := by
  cases h with
  | notFound program => rfl
  | overran run _ => rfl
  | ended run _ => exact interpret_implementation t.name kind run

end Command

namespace Differential

namespace Runner

/-- A runner is built from tools or from a configuration; the known differences are
put in afterwards. -/
inductive Built : Runner → Prop
  | of {tools : List Command.Tool} {name : String} {comparison : Comparison} {r : Runner}
      (known : List KnownDifference) (h : Runner.of tools name comparison = .ok r) :
      Built { r with known }
  | ofConfig {config : Config} {names : List String} {name : String} {timeout : Command.Bound}
      {r : Runner} (h : Runner.ofConfig config names name timeout = .ok r) : Built r

theorem names_of_of {tools : List Command.Tool} {name : String} {comparison : Comparison}
    {r : Runner} (h : Runner.of tools name comparison = .ok r) :
    r.names.Nodup ∧ 2 ≤ r.tools.length := by
  obtain ⟨_, hnames, h⟩ := exists_of_bind_eq_ok h
  cases h
  obtain ⟨hnodup, hlength⟩ := checkNames_eq_ok_iff.mp hnames
  exact ⟨hnodup, by simpa using hlength⟩

/-- However a runner is built, it has at least two tools, and their names differ. -/
theorem Built.names {r : Runner} (h : r.Built) : r.names.Nodup ∧ 2 ≤ r.tools.length := by
  cases h with
  | of known h =>
    have hnames := names_of_of h
    exact hnames
  | ofConfig h =>
    obtain ⟨comparison, _, h⟩ := exists_of_bind_eq_ok h
    obtain ⟨tools, _, h⟩ := exists_of_bind_eq_ok h
    obtain ⟨runner, hrunner, h⟩ := exists_of_bind_eq_ok h
    cases h
    have hnames := names_of_of hrunner
    exact hnames

end Runner

/-- The tools are run on an input one after another, each on the files that those
before it leave, and come to the outcomes. -/
inductive GiveInTurn (launch : Command.Launch) (input : LedgerInput) :
    FileSystem → List Command.Tool → List Outcome → Prop
  | nil (files : FileSystem) : GiveInTurn launch input files [] []
  | cons {before after : FileSystem} {t : Command.Tool} {o : Outcome}
      {tools : List Command.Tool} {outcomes : List Outcome}
      (hfirst : (Runner.outcomeOf launch input t).run.run before = (.ok o, after))
      (hrest : GiveInTurn launch input after tools outcomes) :
      GiveInTurn launch input before (t :: tools) (o :: outcomes)

variable {launch : Command.Launch} {input : LedgerInput}

theorem giveInTurn_of_mapM {tools : List Command.Tool} {outcomes : List Outcome}
    {before after : FileSystem}
    (h : (tools.mapM (Runner.outcomeOf launch input)).run.run before = (.ok outcomes, after)) :
    GiveInTurn launch input before tools outcomes := by
  induction tools generalizing outcomes before with
  | nil =>
    cases h
    exact .nil _
  | cons t rest ih =>
    rw [List.mapM_cons] at h
    obtain ⟨o, middle, hfirst, h⟩ := run_bind_eq_ok_iff.mp h
    obtain ⟨others, later, hrest, h⟩ := run_bind_eq_ok_iff.mp h
    cases h
    exact .cons hfirst (ih hrest)

theorem Runner.implementation_of_outcomeOf {t : Command.Tool} {o : Outcome}
    {before after : FileSystem}
    (h : (Runner.outcomeOf launch input t).run.run before = (.ok o, after)) :
    o.implementation = t.name := by
  have hrun := Attempt.run_mapError_eq_ok h
  have hgives : (t.run launch input.kind input.source.path input.query).MayGive o :=
    ⟨before, by rw [hrun]⟩
  exact (Command.Tool.hasOutcome_of_run hgives).implementation

theorem GiveInTurn.implementations {files : FileSystem} {tools : List Command.Tool}
    {outcomes : List Outcome} (h : GiveInTurn launch input files tools outcomes) :
    outcomes.map Outcome.implementation = tools.map (·.name) := by
  induction h with
  | nil files => rfl
  | cons hfirst _ ih =>
    rw [List.map_cons, List.map_cons, Runner.implementation_of_outcomeOf hfirst, ih]

/-- A check that comes to something has run every tool and compared the outcomes. -/
theorem Runner.giveInTurn_of_check {r : Runner} {check : Check}
    (h : (r.check launch input).MayGive check) :
    (∃ files, GiveInTurn launch input files r.tools check.outcomes) ∧
      check.differences = compare r.comparison check.outcomes := by
  unfold Runner.check at h
  split at h
  · exact absurd h (Attempt.not_mayGive_throw _ check)
  · obtain ⟨_, _, h⟩ := h.of_bind
    obtain ⟨_, _, h⟩ := h.of_bind
    obtain ⟨outcomes, hrun, h⟩ := h.of_bind
    obtain ⟨files, hoks⟩ := hrun.of_provide
    obtain ⟨_, h⟩ := h
    cases h
    exact ⟨⟨files, giveInTurn_of_mapM (Prod.ext hoks rfl)⟩, rfl⟩

/-- The record of a divergence holds the summary of every outcome under the name of
the tool that came to it, each name once and no other one, and at least one
difference. -/
structure HoldsEvidence (tools : List Command.Tool) (outcomes : List Outcome) (record : Json) :
    Prop where
  implementations : ∃ fields, record.get? "implementations" = some (.object fields) ∧
    (fields.map Prod.fst).Perm (tools.map (·.name)) ∧ (fields.map Prod.fst).Nodup ∧
    fields.length = tools.length ∧ 2 ≤ fields.length ∧
    List.Forall₂ (fun t o => fields.lookup t.name = some o.summary) tools outcomes
  differences : ∃ differences, record.get? "differences" = some (.array differences) ∧
    differences ≠ []

theorem forall₂_lookup {tools : List Command.Tool} {outcomes : List Outcome}
    {fields : List (String × Json)}
    (hnames : outcomes.map Outcome.implementation = tools.map (·.name))
    (hfields : ∀ o ∈ outcomes, fields.lookup o.implementation = some o.summary) :
    List.Forall₂ (fun t o => fields.lookup t.name = some o.summary) tools outcomes := by
  induction tools generalizing outcomes with
  | nil =>
    rw [List.map_nil, List.map_eq_nil_iff] at hnames
    subst hnames
    exact .nil
  | cons t rest ih =>
    obtain ⟨o, others, rfl, hfirst, hothers⟩ := List.map_eq_cons_iff.mp hnames
    obtain ⟨hfield, hrest⟩ := List.forall_mem_cons.mp hfields
    rw [hfirst] at hfield
    exact .cons hfield (ih hothers hrest)

theorem holdsEvidence_divergence {r : Runner} (hbuilt : r.Built) {files : FileSystem}
    {check : Check} (hoks : GiveInTurn launch input files r.tools check.outcomes)
    (hdiffer : check.differences ≠ []) (id : String) :
    HoldsEvidence r.tools check.outcomes (r.divergence id input check).toJson := by
  obtain ⟨hnodup, hcount⟩ := hbuilt.names
  have hnames := hoks.implementations
  let entries := check.outcomes.map fun o => (o.implementation, o.summary)
  have hkeys : entries.map Prod.fst = r.names := by
    rw [Runner.names, ← hnames, List.map_map]
    rfl
  have hdistinct : (entries.map Prod.fst).Nodup := hkeys ▸ hnodup
  have hperm := Json.sortedFields_perm hdistinct
  have hlength : (Json.sortedFields entries).length = r.tools.length := by
    have hentries := congrArg List.length hkeys
    simp only [List.length_map, Runner.names] at hentries
    rw [hperm.length_eq, hentries]
  refine ⟨⟨Json.sortedFields entries, rfl, ?_, Json.nodup_sortedFields entries, hlength,
    by omega, ?_⟩, ⟨_, rfl, ?_⟩⟩
  · have hmapped := hperm.map Prod.fst
    rw [hkeys] at hmapped
    exact hmapped
  · apply forall₂_lookup hnames
    intro o ho
    rw [Json.lookup_sortedFields_of_nodup hdistinct, Json.lookup_eq_some_iff_mem hdistinct]
    exact List.mem_map.mpr ⟨o, ho, rfl⟩
  · intro hnil
    exact hdiffer (List.map_eq_nil_iff.mp hnil)

/-- Every result of inputs that are checked in turn is that of one of them, on some files. -/
theorem result_of_mapM {check : LedgerInput → StateM FileSystem (Except InputProblem Check)}
    {observe : Nat → Checked → StateM FileSystem Unit} {inputs : List (LedgerInput × Nat)}
    {files : FileSystem} {c : Checked}
    (h : c ∈ ((inputs.mapM (Checked.observed check observe)).run files).1) :
    c.input ∈ inputs.map Prod.fst ∧ ∃ before, c.result = ((check c.input).run before).1 := by
  induction inputs generalizing files with
  | nil => cases h
  | cons first rest ih =>
    rw [List.mapM_cons] at h
    rcases List.mem_cons.mp h with rfl | hlater
    · exact ⟨List.mem_cons_self, files, rfl⟩
    · obtain ⟨hinput, hresult⟩ := ih hlater
      exact ⟨List.mem_cons_of_mem _ hinput, hresult⟩

/-- Whatever the programs do on the inputs of a run and whatever its observer does to
the files, every divergence that is reported holds what each tool of the run came to on
its input, under the name of that tool. -/
theorem divergences_holdEvidence {r : Runner} (hbuilt : r.Built) (launch : Command.Launch)
    (timestamp : String) (observe : Nat → Checked → StateM FileSystem Unit)
    (inputs : List LedgerInput) (files : FileSystem) :
    let report := ((Report.observing r timestamp (fun input => (r.check launch input).run) observe
      inputs).run files).1
    ∃ records, report.toJson.get? "divergences" = some (.array records) ∧
      records.length = report.divergences.length ∧
      ∀ record ∈ records, ∃ input ∈ inputs, record.get? "input" = some (.string input.label) ∧
        ∃ before outcomes, GiveInTurn launch input before r.tools outcomes ∧
          HoldsEvidence r.tools outcomes record := by
  intro report
  refine ⟨_, rfl, List.length_map _, ?_⟩
  intro record hrecord
  obtain ⟨d, hd, rfl⟩ := List.mem_map.mp hrecord
  have hreport : report = Report.ofChecked r timestamp
      ((inputs.zipIdx.mapM (Checked.observed (fun input => (r.check launch input).run)
        observe)).run files).1 :=
    congrArg (fun run => (run.run files).1) (Report.observing_eq r timestamp _ observe inputs)
  rw [hreport] at hd
  obtain ⟨c, hc, check, hok, hdiffer, hrecorded⟩ :=
    (Findings.inStep_after r _ _).exists_of_mem_divergences hd
  obtain ⟨hinput, before, hresult⟩ := result_of_mapM hc
  rw [List.zipIdx_map_fst] at hinput
  have hgives : (r.check launch c.input).MayGive check := ⟨before, hresult.symm.trans hok⟩
  obtain ⟨⟨start, hoks⟩, -⟩ := Runner.giveInTurn_of_check hgives
  rw [hrecorded]
  exact ⟨c.input, hinput, rfl, start, check.outcomes, hoks,
    holdsEvidence_divergence hbuilt hoks hdiffer d.id⟩

/-- Three programs: one ends well, one badly, and one does not exist. -/
def disagreeingTools : List Command.Tool :=
  [{ name := "zulu", commands := { check := some (.argv ["true"]) } },
    { name := "mike", commands := { check := some (.argv ["false"]) } },
    { name := "alfa", commands := { check := some (.argv ["nowhere"]) } }]

def disagreeingRunner : Runner :=
  { tools := disagreeingTools, comparisonName := "parse", comparison := {} }

def emptyLedger : LedgerInput := { label := "empty", source := .inline "" }

theorem divergences_holdEvidence_disagreeingRunner :
    ∃ records, ((Report.of disagreeingRunner Launch.launch "" [emptyLedger]).run
        {}).1.toJson.get? "divergences" = some (.array records) ∧
      records.length = 1 ∧ ∀ record ∈ records, record.get? "input" = some (.string "empty") ∧
        ∃ outcomes, HoldsEvidence disagreeingTools outcomes record := by
  have hbuilt : disagreeingRunner.Built :=
    .of [] (show Runner.of disagreeingTools "parse" {} = .ok disagreeingRunner from rfl)
  obtain ⟨records, hrecords, hlength, hevidence⟩ := divergences_holdEvidence hbuilt Launch.launch ""
    (fun _ _ => return ()) [emptyLedger] {}
  have hone : ((Report.of disagreeingRunner Launch.launch "" [emptyLedger]).run
      {}).1.divergences.length = 1 := by decide +kernel
  refine ⟨records, hrecords, hlength.trans hone, ?_⟩
  intro record hrecord
  obtain ⟨input, hinput, hlabel, _, outcomes, _, hholds⟩ := hevidence record hrecord
  rw [List.mem_singleton.mp hinput] at hlabel
  exact ⟨hlabel, outcomes, hholds⟩

end Differential

end LedgerConformance
