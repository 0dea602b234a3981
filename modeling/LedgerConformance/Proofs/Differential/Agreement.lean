import LedgerConformance.Differential.Comparison

/-!
Comparison without a ground truth. In each dimension two outcomes agree when
the same thing is seen in both, so agreement with the first outcome is agreement
of every two. What is found are the disagreements with the first outcome, one for
each later outcome and each dimension that counts; whether there is one at all
does not depend on which outcome comes first.
-/

namespace LedgerConformance.Differential

/-- The same is seen of two outcomes in a dimension. -/
def Agree (c : Comparison) (a b : Outcome) : Dimension → Prop
  | .exitCode => a.exitedCleanly = b.exitedCleanly
  | .hasErrors => a.hasErrors = b.hasErrors
  | .errorCount => a.diagnostics.length = b.diagnostics.length
  | .output => c.normalize a.stdout = c.normalize b.stdout

instance (c : Comparison) (a b : Outcome) : (d : Dimension) → Decidable (Agree c a b d)
  | .exitCode => inferInstanceAs (Decidable (_ = _))
  | .hasErrors => inferInstanceAs (Decidable (_ = _))
  | .errorCount => inferInstanceAs (Decidable (_ = _))
  | .output => inferInstanceAs (Decidable (_ = _))

/-- The record of a disagreement of an outcome with the first one. -/
def Difference.between (first o : Outcome) : Dimension → Difference
  | .exitCode => ⟨.exitCode, contrast "Exit status" first.implementation o.implementation
      (toString first.exitedCleanly) (toString o.exitedCleanly)⟩
  | .hasErrors => ⟨.hasErrors, contrast "Error presence" first.implementation o.implementation
      (toString first.hasErrors) (toString o.hasErrors)⟩
  | .errorCount => ⟨.errorCount, contrast "Error count" first.implementation o.implementation
      (toString first.diagnostics.length) (toString o.diagnostics.length)⟩
  | .output =>
    ⟨.output, "Output differs: " ++ first.implementation ++ " vs " ++ o.implementation⟩

@[simp] theorem Difference.between_dimension (first o : Outcome) (d : Dimension) :
    (Difference.between first o d).dimension = d := by
  cases d <;> rfl

variable {c : Comparison}

theorem Agree.refl (a : Outcome) (d : Dimension) : Agree c a a d := by
  cases d <;> exact rfl

theorem Agree.symm {a b : Outcome} {d : Dimension} (h : Agree c a b d) : Agree c b a d := by
  cases d <;> exact Eq.symm h

theorem Agree.trans {a b e : Outcome} {d : Dimension} (hab : Agree c a b d)
    (hbe : Agree c b e d) : Agree c a e d := by
  cases d <;> exact Eq.trans hab hbe

theorem Dimension.mem_all (d : Dimension) : d ∈ Dimension.all := by
  cases d <;> simp [Dimension.all]

theorem differenceIn_eq (c : Comparison) (first o : Outcome) (d : Dimension) :
    differenceIn c first o d =
      if Agree c first o d then none else some (Difference.between first o d) := by
  by_cases h : Agree c first o d
  · rw [if_pos h]
    cases d <;> exact if_pos (beq_iff_eq.mpr h)
  · rw [if_neg h]
    cases d <;> exact if_neg fun heq => h (beq_iff_eq.mp heq)

/-- The comparison lists the disagreements with the first outcome, by outcome and
then by dimension. -/
theorem compare_cons (c : Comparison) (first : Outcome) (rest : List Outcome) :
    compare c (first :: rest) =
      rest.flatMap fun o =>
        (Dimension.all.filter fun d =>
          c.compare.enabled d && !decide (Agree c first o d)).map (Difference.between first o) := by
  have hone : ∀ (o : Outcome) (ds : List Dimension),
      (ds.filter c.compare.enabled).filterMap (differenceIn c first o) =
        (ds.filter fun d => c.compare.enabled d && !decide (Agree c first o d)).map
          (Difference.between first o) := by
    intro o ds
    induction ds with
    | nil => rfl
    | cons d ds ih =>
      by_cases hd : c.compare.enabled d = true
      · by_cases hagree : Agree c first o d
        · have hnone : differenceIn c first o d = none := by rw [differenceIn_eq, if_pos hagree]
          simp [hd, hagree, hnone, ih]
        · have hsome : differenceIn c first o d = some (.between first o d) := by
            rw [differenceIn_eq, if_neg hagree]
          simp [hd, hagree, hsome, ih]
      · simp [hd, ih]
  simp only [compare, hone]

theorem compare_cons_eq_nil_iff (c : Comparison) (first : Outcome) (rest : List Outcome) :
    compare c (first :: rest) = [] ↔
      ∀ o ∈ rest, ∀ d, c.compare.enabled d = true → Agree c first o d := by
  rw [compare_cons, List.flatMap_eq_nil_iff]
  apply forall₂_congr
  intro o _
  simp only [List.map_eq_nil_iff, List.filter_eq_nil_iff, Bool.and_eq_true, Bool.not_eq_true',
    decide_eq_false_iff_not, not_and, Decidable.not_not]
  exact ⟨fun h d => h d d.mem_all, fun h d _ => h d⟩

/-- Agreement with the first outcome is agreement of every two. -/
theorem compare_eq_nil_iff (c : Comparison) (outcomes : List Outcome) :
    compare c outcomes = [] ↔
      ∀ a ∈ outcomes, ∀ b ∈ outcomes, ∀ d, c.compare.enabled d = true → Agree c a b d := by
  cases outcomes with
  | nil => simp [compare]
  | cons first rest =>
    rw [compare_cons_eq_nil_iff]
    constructor
    · intro h a ha b hb d hd
      have hfirst : ∀ o ∈ first :: rest, Agree c first o d := by
        intro o ho
        rcases List.mem_cons.mp ho with rfl | ho
        · exact Agree.refl o d
        · exact h o ho d hd
      exact (hfirst a ha).symm.trans (hfirst b hb)
    · intro h o ho
      exact h first List.mem_cons_self o (List.mem_cons_of_mem first ho)

/-- Outcomes among agreeing ones agree, in any order. -/
theorem compare_eq_nil_of_subset {fewer outcomes : List Outcome} (hsub : fewer ⊆ outcomes)
    (h : compare c outcomes = []) : compare c fewer = [] := by
  rw [compare_eq_nil_iff] at h ⊢
  intro a ha b hb
  exact h a (hsub ha) b (hsub hb)

theorem enabled_of_mem_compare {outcomes : List Outcome} {difference : Difference}
    (h : difference ∈ compare c outcomes) : c.compare.enabled difference.dimension = true := by
  cases outcomes with
  | nil => simp [compare] at h
  | cons first rest =>
    rw [compare_cons] at h
    obtain ⟨o, _, hdifference⟩ := List.mem_flatMap.mp h
    obtain ⟨d, hd, rfl⟩ := List.mem_map.mp hdifference
    have hcounts := (List.mem_filter.mp hd).2
    rw [Bool.and_eq_true] at hcounts
    rw [Difference.between_dimension]
    exact hcounts.1

/-- No outcome is taken as right. Nothing is found exactly when every two
outcomes agree in all that counts, whatever their order, and also when some of
them are left out; what is found are the disagreements with the first outcome, one
for each later outcome and dimension that counts. -/
theorem compare_no_ground_truth (c : Comparison) (outcomes : List Outcome) :
    (compare c outcomes = [] ↔
      ∀ a ∈ outcomes, ∀ b ∈ outcomes, ∀ d, c.compare.enabled d = true → Agree c a b d) ∧
    (∀ others : List Outcome, others.Perm outcomes →
      (compare c others = [] ↔ compare c outcomes = [])) ∧
    (∀ fewer : List Outcome, fewer.Sublist outcomes →
      compare c outcomes = [] → compare c fewer = []) ∧
    (∀ first rest, outcomes = first :: rest →
      compare c outcomes =
        rest.flatMap fun o =>
          ([.exitCode, .hasErrors, .errorCount, .output].filter fun d =>
            c.compare.enabled d && !decide (Agree c first o d)).map
              (Difference.between first o)) ∧
    ∀ difference ∈ compare c outcomes, c.compare.enabled difference.dimension = true := by
  refine ⟨compare_eq_nil_iff c outcomes, ?_, ?_, ?_, ?_⟩
  · intro others hperm
    constructor
    · exact compare_eq_nil_of_subset hperm.symm.subset
    · exact compare_eq_nil_of_subset hperm.subset
  · intro fewer hfewer hagree
    exact compare_eq_nil_of_subset hfewer.subset hagree
  · rintro first rest rfl
    exact compare_cons c first rest
  · intro difference hdifference
    exact enabled_of_mem_compare hdifference

/-- Two outcomes that end well with different outputs, and one that does not. -/
def differingOutcomes : List Outcome :=
  [{ implementation := "first", exitCode := some 0, stdout := "a" },
    { implementation := "second", exitCode := some 0, stdout := "b" },
    { implementation := "third", exitCode := some 1 }]

theorem compare_no_ground_truth_differingOutcomes :
    compare {} (differingOutcomes.take 2).reverse = [] ∧
      compare {} (differingOutcomes.take 1) = [] ∧
      compare {} differingOutcomes =
        [⟨.exitCode, "Exit status differs: first=true, third=false"⟩] := by
  have hpair : compare {} (differingOutcomes.take 2) = [] := rfl
  obtain ⟨-, hperm, hfewer, -, -⟩ := compare_no_ground_truth {} (differingOutcomes.take 2)
  obtain ⟨-, -, -, hfound, -⟩ := compare_no_ground_truth {} differingOutcomes
  refine ⟨?_, ?_, ?_⟩
  · exact (hperm _ (List.reverse_perm _)).mpr hpair
  · exact hfewer _ (List.take_sublist_take_left (by decide)) hpair
  · exact (hfound _ _ rfl).trans rfl

end LedgerConformance.Differential
