import LedgerConformance.Differential.Report
import LedgerConformance.Proofs.Calendar.DateText
import Mathlib.Data.List.Forall2
import Mathlib.Data.List.Induction
import Mathlib.Data.List.Nodup

/-!
Every input of a differential run is accounted for once. A result lets one count go up
and leaves a record if there is something to tell, so that the counts, the records and
the numbers of the divergences stay in step along the loop. Where an input lands is
decided by its own result, and a fault on one input stays with that input.
-/

namespace LedgerConformance.Differential

/-- Where an input lands. -/
inductive Bucket where
  | matching
  | diverging
  | faulty
deriving DecidableEq, Repr

/-- The result of an input decides where it lands. -/
def Checked.bucket (c : Checked) : Bucket :=
  match c.result with
  | .ok check => if check.differences.isEmpty then .matching else .diverging
  | .error _ => .faulty

/-- The results that land in a bucket, in their order. -/
def landing (checked : List Checked) (b : Bucket) : List Checked :=
  checked.filter fun c => c.bucket = b

theorem landing_concat (checked : List Checked) (c : Checked) (b : Bucket) :
    landing (checked ++ [c]) b = landing checked b ++ if c.bucket = b then [c] else [] := by
  simp [landing, List.filter_cons]

/-- The count of a bucket. -/
def Counts.of (s : Counts) : Bucket → Nat
  | .matching => s.matching
  | .diverging => s.diverging
  | .faulty => s.errors

/-- A record is the one that a runner makes of a result with differences, whatever it is
called. -/
def Divergence.IsOf (r : Runner) (c : Checked) (d : Divergence) : Prop :=
  ∃ check, c.result = .ok check ∧ check.differences ≠ [] ∧ d = r.divergence d.id c.input check

def InputError.IsOf (c : Checked) (e : InputError) : Prop :=
  ∃ problem, c.result = .error problem ∧
    e = { input := c.input.label, message := problem.message }

namespace Findings

/-- What happens when an input lands in a bucket. Its count goes up by one, what belongs
into the bucket is recorded behind what is there, and all else stays as it is. -/
inductive Lands (f : Findings) : Bucket → Findings → Prop
  | matching : f.Lands .matching { f with summary.matching := f.summary.matching + 1 }
  | diverging (d : Divergence) :
    f.Lands .diverging
      { f with summary.diverging := f.summary.diverging + 1, divergences := f.divergences ++ [d] }
  | faulty (e : InputError) :
    f.Lands .faulty { f with summary.errors := f.summary.errors + 1, errors := f.errors ++ [e] }

variable {r : Runner} {f g : Findings} {b b' : Bucket}

theorem Lands.of_summary (h : f.Lands b g) (b' : Bucket) :
    g.summary.of b' = f.summary.of b' + if b' = b then 1 else 0 := by
  cases h <;> cases b' <;> rfl

theorem Lands.totalInputs (h : f.Lands b g) : g.summary.totalInputs = f.summary.totalInputs := by
  cases h <;> rfl

/-- An input lands in one bucket only. -/
theorem Lands.bucket_eq (h : f.Lands b g) (h' : f.Lands b' g) : b = b' := by
  have hcount := h.of_summary b
  rw [h'.of_summary b, if_pos rfl] at hcount
  by_contra hne
  rw [if_neg hne] at hcount
  omega

/-- All that a result can add. -/
theorem add_cases (r : Runner) (f : Findings) (c : Checked) :
    (c.bucket = .matching ∧
      f.add r c = { f with summary.matching := f.summary.matching + 1 }) ∨
    (∃ d, c.bucket = .diverging ∧ d.IsOf r c ∧
      d.id = Divergence.idOf (f.divergences.length + 1) ∧
      f.add r c = { f with
        summary.diverging := f.summary.diverging + 1, divergences := f.divergences ++ [d] }) ∨
    ∃ e, c.bucket = .faulty ∧ e.IsOf c ∧
      f.add r c = { f with
        summary.errors := f.summary.errors + 1, errors := f.errors ++ [e] } := by
  unfold add Checked.bucket
  cases hresult : c.result with
  | error problem => exact Or.inr (Or.inr ⟨_, rfl, ⟨problem, hresult, rfl⟩, rfl⟩)
  | ok check =>
    dsimp only
    by_cases hagrees : check.agrees = true
    · refine Or.inl ⟨?_, if_pos hagrees⟩
      rw [if_pos (by simpa [Check.agrees] using hagrees)]
    · have hdiffer : check.differences ≠ [] := by simpa [Check.agrees] using hagrees
      refine Or.inr (Or.inl ⟨_, ?_, ⟨check, hresult, hdiffer, rfl⟩, rfl, if_neg hagrees⟩)
      rw [if_neg (by simpa [Check.agrees] using hagrees)]

/-- The result of an input alone decides where it lands, whatever was found before. -/
theorem lands_add_iff {c : Checked} : f.Lands b (f.add r c) ↔ c.bucket = b := by
  have hlands : f.Lands c.bucket (f.add r c) := by
    obtain ⟨hbucket, hadd⟩ | ⟨d, hbucket, -, -, hadd⟩ | ⟨e, hbucket, -, hadd⟩ := add_cases r f c
    · rw [hbucket, hadd]
      exact .matching
    · rw [hbucket, hadd]
      exact .diverging d
    · rw [hbucket, hadd]
      exact .faulty e
  constructor
  · intro h
    exact hlands.bucket_eq h
  · rintro rfl
    exact hlands

/-! ### Results in turn -/

/-- The counts, the records and the numbers of the divergences are those of the results
so far. -/
structure InStep (r : Runner) (total : Nat) (checked : List Checked) (f : Findings) : Prop where
  totalInputs : f.summary.totalInputs = total
  counts : ∀ b, f.summary.of b = (landing checked b).length
  divergences : List.Forall₂ (Divergence.IsOf r) (landing checked .diverging) f.divergences
  ids : f.divergences.map (·.id) =
    (List.range f.divergences.length).map fun i => Divergence.idOf (i + 1)
  errors : List.Forall₂ InputError.IsOf (landing checked .faulty) f.errors

theorem InStep.start (r : Runner) (total : Nat) : InStep r total [] (.start total) where
  totalInputs := rfl
  counts := by
    intro b
    cases b <;> rfl
  divergences := .nil
  ids := rfl
  errors := .nil

/-- One more result keeps them in step. -/
theorem InStep.add {total : Nat} {checked : List Checked} (h : InStep r total checked f)
    (c : Checked) : InStep r total (checked ++ [c]) (f.add r c) := by
  have hlands : f.Lands c.bucket (f.add r c) := lands_add_iff.mpr rfl
  have htotal : (f.add r c).summary.totalInputs = total := hlands.totalInputs.trans h.totalInputs
  have hcounts : ∀ b, (f.add r c).summary.of b = (landing (checked ++ [c]) b).length := by
    intro b
    rw [hlands.of_summary, h.counts, landing_concat, List.length_append]
    by_cases hb : b = c.bucket
    · rw [if_pos hb, if_pos hb.symm, List.length_singleton]
    · rw [if_neg hb, if_neg (Ne.symm hb), List.length_nil]
  obtain ⟨hbucket, hadd⟩ | ⟨d, hbucket, hd, hid, hadd⟩ | ⟨e, hbucket, he, hadd⟩ := add_cases r f c
  · refine ⟨htotal, hcounts, ?_, ?_, ?_⟩
    · simpa [landing_concat, hbucket, hadd] using h.divergences
    · simpa [hadd] using h.ids
    · simpa [landing_concat, hbucket, hadd] using h.errors
  · refine ⟨htotal, hcounts, ?_, ?_, ?_⟩
    · rw [landing_concat, if_pos hbucket, hadd]
      exact List.rel_append h.divergences (.cons hd .nil)
    · rw [hadd, List.map_append, h.ids, List.length_append, List.length_singleton,
        List.range_succ, List.map_append, List.map_singleton, List.map_singleton, hid]
    · simpa [landing_concat, hbucket, hadd] using h.errors
  · refine ⟨htotal, hcounts, ?_, ?_, ?_⟩
    · simpa [landing_concat, hbucket, hadd] using h.divergences
    · simpa [hadd] using h.ids
    · rw [landing_concat, if_pos hbucket, hadd]
      exact List.rel_append h.errors (.cons he .nil)

/-- Every record of a divergence is that of one of the results. -/
theorem InStep.exists_of_mem_divergences {total : Nat} {checked : List Checked} {d : Divergence}
    (h : InStep r total checked f) (hd : d ∈ f.divergences) : ∃ c ∈ checked, d.IsOf r c := by
  obtain ⟨i, hi, rfl⟩ := List.mem_iff_getElem.mp hd
  have hlength := h.divergences.length_eq
  have hrecord := (List.forall₂_iff_get.mp h.divergences).2 i (by omega) hi
  exact ⟨_, List.mem_of_mem_filter (List.getElem_mem _), hrecord⟩

/-- What is found behind the first results of a run on so many inputs. -/
def after (r : Runner) (total : Nat) (checked : List Checked) : Findings :=
  checked.foldl (add r) (start total)

theorem after_concat (total : Nat) (checked : List Checked) (c : Checked) :
    after r total (checked ++ [c]) = (after r total checked).add r c := by
  rw [after, List.foldl_concat, after]

/-- They stay in step however many results there are. -/
theorem inStep_after (r : Runner) (total : Nat) (checked : List Checked) :
    InStep r total checked (after r total checked) := by
  induction checked using List.reverseRecOn with
  | nil => exact InStep.start r total
  | append_singleton front c ih =>
    rw [after_concat]
    exact ih.add c

end Findings

/-- The input at a place of a run lands in a bucket: so the findings before it and behind
it tell. -/
def LandsAt (r : Runner) (checked : List Checked) (place : Nat) (b : Bucket) : Prop :=
  (Findings.after r checked.length (checked.take place)).Lands b
    (Findings.after r checked.length (checked.take (place + 1)))

section Loop

variable {m : Type → Type} [Monad m] [LawfulMonad m] {α β γ δ : Type}

theorem foldlM_eq_mapM (get : α → m β) (add : γ → β → γ) (xs : List α) (start : γ) :
    (xs.foldlM (fun done x => return add done (← get x)) start) = (do
      let found ← xs.mapM get
      return found.foldl add start) := by
  induction xs generalizing start with
  | nil => simp
  | cons x rest ih =>
    simp only [List.foldlM_cons, List.mapM_cons, bind_assoc, pure_bind, List.foldl_cons, ih]

/-- Each item gives one result. -/
theorem mapM_bind_length (get : α → m β) (xs : List α) (next : Nat → List β → m δ) :
    (xs.mapM get >>= fun found => next xs.length found) =
      xs.mapM get >>= fun found => next found.length found := by
  induction xs generalizing next with
  | nil => simp
  | cons x rest ih =>
    simp only [List.mapM_cons, bind_assoc, pure_bind, List.length_cons]
    congr 1
    funext first
    exact ih fun n found => next (n + 1) (first :: found)

end Loop

namespace Report

/-- The report on results that are known. -/
def ofChecked (runner : Runner) (timestamp : String) (checked : List Checked) : Report :=
  ofFindings runner timestamp checked.length (Findings.after runner checked.length checked)

section Observing

variable {m : Type → Type} [Monad m] [LawfulMonad m] (runner : Runner) (timestamp : String)
  (check : LedgerInput → m (Except InputProblem Check)) (observe : Nat → Checked → m Unit)
  (inputs : List LedgerInput)

/-- Inputs are checked one after another, each is observed right after its check, and the
report is the one on their results. -/
theorem observing_eq :
    observing runner timestamp check observe inputs = (do
      let checked ← inputs.zipIdx.mapM (Checked.observed check observe)
      return ofChecked runner timestamp checked) := by
  have hloop := foldlM_eq_mapM (Checked.observed check observe) (Findings.add runner)
    inputs.zipIdx (.start inputs.length)
  have hlength := mapM_bind_length (Checked.observed check observe) inputs.zipIdx
    fun n checked => return ofFindings runner timestamp n (Findings.after runner n checked)
  rw [List.length_zipIdx] at hlength
  rw [observing, hloop, bind_assoc]
  simp only [pure_bind]
  exact hlength

end Observing

/-- What a report tells is what the results of its inputs say, of each input once. -/
structure AccountsFor (report : Report) (r : Runner) (checked : List Checked) : Prop where
  inputCount : report.inputCount = checked.length
  totalInputs : report.summary.totalInputs = checked.length
  total : report.summary.matching + report.summary.diverging + report.summary.errors =
    report.summary.totalInputs
  counts : ∀ b, report.summary.of b = (landing checked b).length
  lands : ∀ place b, LandsAt r checked place b ↔ checked[place]?.map Checked.bucket = some b
  diverging : report.divergences.length = report.summary.diverging
  divergences : List.Forall₂ (Divergence.IsOf r) (landing checked .diverging) report.divergences
  ids : report.divergences.map (·.id) =
    (List.range report.summary.diverging).map fun i => Divergence.idOf (i + 1)
  distinct : (report.divergences.map (·.id)).Nodup
  faulty : report.errors.length = report.summary.errors
  errors : List.Forall₂ InputError.IsOf (landing checked .faulty) report.errors
  clean : report.isClean = true ↔ ∀ c ∈ checked, c.bucket = .matching

end Report

end LedgerConformance.Differential
