import LedgerConformance.Proofs.Differential.Agreement
import LedgerConformance.Proofs.Text.Trimming
import Mathlib.Data.Char
import Mathlib.Data.List.Lex
import Mathlib.Data.List.Perm.Basic

/-!
What the preparation of outputs hides from their comparison. Sorted lines hide the order
of the lines as far as trimming leaves the same lines, which it does when no line at an
end of an output is empty or has a blank at its outer end. Hidden locations hide what
stands before the last colons of the lines, and nothing else.
-/

namespace LedgerConformance.Differential

open Text

namespace Comparison

/-- The lines of an output that are compared, in the order of the output. -/
def linesInOrder (c : Comparison) (output : String) : List (List Char) :=
  let lines := linesOf (trim output.toList)
  if c.stripPaths then lines.map stripLocation else lines

variable {c : Comparison} {s t : String}

theorem normalLines_eq (c : Comparison) (s : String) :
    c.normalLines s.toList =
      if c.sortLines then (c.linesInOrder s).mergeSort lineLe else c.linesInOrder s := rfl

theorem normalLines_perm (c : Comparison) (s : String) :
    (c.normalLines s.toList).Perm (c.linesInOrder s) := by
  rw [normalLines_eq]
  split
  · exact List.mergeSort_perm _ _
  · exact List.Perm.refl _

theorem normalize_congr (h : c.linesInOrder s = c.linesInOrder t) :
    c.normalize s = c.normalize t := by
  rw [normalize, normalize, normalLines_eq, normalLines_eq, h]

theorem lineLe_iff {a b : List Char} : lineLe a b = true ↔ a ≤ b := by
  rw [lineLe, Bool.not_eq_true', decide_eq_false_iff_not, not_lt]

theorem lineLe_trans (a b d : List Char) (hab : lineLe a b = true) (hbd : lineLe b d = true) :
    lineLe a d = true :=
  lineLe_iff.mpr ((lineLe_iff.mp hab).trans (lineLe_iff.mp hbd))

theorem lineLe_total (a b : List Char) : (lineLe a b || lineLe b a) = true := by
  rw [Bool.or_eq_true, lineLe_iff, lineLe_iff]
  exact le_total a b

theorem pairwise_mergeSort_lineLe (lines : List (List Char)) :
    (lines.mergeSort lineLe).Pairwise (· ≤ ·) :=
  (List.pairwise_mergeSort lineLe_trans lineLe_total lines).imp lineLe_iff.mp

/-- Sorting forgets the order of lines and nothing else. -/
theorem mergeSort_lineLe_eq_iff {as bs : List (List Char)} :
    as.mergeSort lineLe = bs.mergeSort lineLe ↔ as.Perm bs := by
  have has := List.mergeSort_perm as lineLe
  have hbs := List.mergeSort_perm bs lineLe
  constructor
  · intro heq
    exact has.symm.trans (heq ▸ hbs)
  · intro hperm
    exact List.Perm.eq_of_pairwise (fun _ _ _ _ => le_antisymm)
      (pairwise_mergeSort_lineLe as) (pairwise_mergeSort_lineLe bs)
      (has.trans (hperm.trans hbs.symm))

theorem feed_not_mem_linesInOrder {line : List Char} (h : line ∈ c.linesInOrder s) :
    '\n' ∉ line := by
  unfold linesInOrder at h
  simp only at h
  split at h
  · obtain ⟨whole, hwhole, rfl⟩ := List.mem_map.mp h
    exact fun hfeed => feed_not_mem_of_mem_linesOf hwhole (mem_of_mem_afterLast hfeed)
  · exact feed_not_mem_of_mem_linesOf h

theorem linesInOrder_eq_nil_iff : c.linesInOrder s = [] ↔ trim s.toList = [] := by
  unfold linesInOrder
  simp only
  split
  · rw [List.map_eq_nil_iff, linesOf_eq_nil_iff]
  · rw [linesOf_eq_nil_iff]

theorem toList_normalize (c : Comparison) (s : String) :
    (c.normalize s).toList = ['\n'].intercalate (c.normalLines s.toList) := by
  rw [normalize, String.toList_intercalate, List.map_map]
  simp

/-- The lines can be told from the text that they are joined to, once it is known whether
there are any. -/
theorem normalize_eq_iff (hblank : trim s.toList = [] ↔ trim t.toList = []) :
    c.normalize s = c.normalize t ↔ c.normalLines s.toList = c.normalLines t.toList := by
  have hlines : ∀ u : String, ∀ line ∈ c.normalLines u.toList, '\n' ∉ line := by
    intro u line hline
    exact feed_not_mem_linesInOrder ((c.normalLines_perm u).mem_iff.mp hline)
  have hnil : ∀ u : String, c.normalLines u.toList = [] ↔ trim u.toList = [] := by
    intro u
    rw [← linesInOrder_eq_nil_iff (c := c)]
    exact ⟨fun h => (h ▸ c.normalLines_perm u).symm.eq_nil,
      fun h => (h ▸ c.normalLines_perm u).eq_nil⟩
  rw [← String.toList_inj, toList_normalize, toList_normalize]
  constructor
  · intro heq
    by_cases hs : trim s.toList = []
    · rw [(hnil s).mpr hs, (hnil t).mpr (hblank.mp hs)]
    · rw [← List.splitOn_intercalate '\n' (hlines s) (mt (hnil s).mp hs), heq,
        List.splitOn_intercalate '\n' (hlines t) (mt (hnil t).mp (mt hblank.mpr hs))]
  · intro heq
    rw [heq]

end Comparison

theorem exists_outputDifference_iff (c : Comparison) (a b : Outcome) :
    (∃ difference ∈ compare c [a, b], difference.dimension = .output) ↔
      c.compare.output = true ∧ c.normalize a.stdout ≠ c.normalize b.stdout := by
  rw [compare_cons]
  simp only [List.flatMap_singleton, List.mem_map, List.mem_filter, Bool.and_eq_true,
    Bool.not_eq_true', decide_eq_false_iff_not]
  constructor
  · rintro ⟨_, ⟨d, ⟨-, hcounts, hdiffers⟩, rfl⟩, hdimension⟩
    rw [Difference.between_dimension] at hdimension
    subst hdimension
    exact ⟨hcounts, hdiffers⟩
  · rintro ⟨hcounts, hdiffers⟩
    exact ⟨_, ⟨.output, ⟨Dimension.mem_all _, hcounts, hdiffers⟩, rfl⟩,
      Difference.between_dimension a b .output⟩

section SortedLines

variable {c : Comparison} {s t : String}

/-- Whether an output is blank does not depend on the order of its lines. -/
theorem trim_eq_nil_iff_of_perm (h : (linesOf s.toList).Perm (linesOf t.toList)) :
    trim s.toList = [] ↔ trim t.toList = [] := by
  rw [← linesOf_eq_nil_iff, ← linesOf_eq_nil_iff (s := trim t.toList), linesOf_trim, linesOf_trim,
    trimLines_eq_nil_iff, trimLines_eq_nil_iff]
  simp only [h.mem_iff]

theorem normalize_sorted_eq_iff (hsort : c.sortLines = true)
    (hblank : trim s.toList = [] ↔ trim t.toList = []) :
    c.normalize s = c.normalize t ↔ (c.linesInOrder s).Perm (c.linesInOrder t) := by
  rw [Comparison.normalize_eq_iff hblank, Comparison.normalLines_eq, Comparison.normalLines_eq,
    if_pos hsort, if_pos hsort, Comparison.mergeSort_lineLe_eq_iff]

theorem linesInOrder_perm_of_hasFirmEnds (hlines : (linesOf s.toList).Perm (linesOf t.toList))
    (hs : HasFirmEnds (linesOf s.toList)) (ht : HasFirmEnds (linesOf t.toList)) :
    (c.linesInOrder s).Perm (c.linesInOrder t) := by
  have htrimmed : (linesOf (trim s.toList)).Perm (linesOf (trim t.toList)) := by
    rw [linesOf_trim, linesOf_trim, trimLines_of_hasFirmEnds hs, trimLines_of_hasFirmEnds ht]
    exact hlines
  unfold Comparison.linesInOrder
  simp only
  split
  · exact htrimmed.map _
  · exact htrimmed

/-- Where lines are sorted, outputs that have the same lines in different orders are
prepared alike, and no difference of output is found, exactly when trimming leaves the same
lines in different orders. It does when neither output has a blank or empty line at an end,
nor a blank at the outer end of its first or last line. -/
theorem compare_sorted_of_perm (hsort : c.sortLines = true)
    (hlines : (linesOf s.toList).Perm (linesOf t.toList)) :
    (c.normalize s = c.normalize t ↔ (c.linesInOrder s).Perm (c.linesInOrder t)) ∧
    (∀ a b : Outcome, a.stdout = s → b.stdout = t →
      ((∃ difference ∈ compare c [a, b], difference.dimension = .output) ↔
        c.compare.output = true ∧ c.normalize s ≠ c.normalize t)) ∧
    (HasFirmEnds (linesOf s.toList) → HasFirmEnds (linesOf t.toList) →
      c.normalize s = c.normalize t) := by
  have hiff := normalize_sorted_eq_iff hsort (trim_eq_nil_iff_of_perm hlines)
  refine ⟨hiff, ?_, ?_⟩
  · rintro a b rfl rfl
    exact exists_outputDifference_iff c a b
  · intro hs ht
    exact hiff.mpr (linesInOrder_perm_of_hasFirmEnds hlines hs ht)

/-- Outputs count, and the order of their lines does not. -/
def sortedComparison : Comparison := { compare := { output := true }, sortLines := true }

/-- An outcome with nothing but an output. -/
def outcomeWith (implementation stdout : String) : Outcome :=
  { implementation := implementation, stdout := stdout }

theorem compare_sorted_of_perm_twoLines :
    sortedComparison.normalize "zeta\nalpha" = sortedComparison.normalize "alpha\nzeta" ∧
      ¬ ∃ difference ∈
          compare sortedComparison [outcomeWith "a" "zeta\nalpha", outcomeWith "b" "alpha\nzeta"],
        difference.dimension = .output := by
  have hlines : (linesOf "zeta\nalpha".toList).Perm (linesOf "alpha\nzeta".toList) := by decide
  obtain ⟨-, hfound, hfirm⟩ := compare_sorted_of_perm (c := sortedComparison) rfl hlines
  have hsame := hfirm (by decide) (by decide)
  refine ⟨hsame, ?_⟩
  rw [hfound _ _ rfl rfl]
  exact fun h => h.2 hsame

/-- A line that starts with a blank loses it only where it is the first. -/
theorem compare_sorted_indentedLine :
    (linesOf " a\nb\n".toList).Perm (linesOf "b\n a\n".toList) ∧
      sortedComparison.normalize " a\nb\n" ≠ sortedComparison.normalize "b\n a\n" ∧
      ∃ difference ∈
          compare sortedComparison [outcomeWith "a" " a\nb\n", outcomeWith "b" "b\n a\n"],
        difference.dimension = .output := by
  have hlines : (linesOf " a\nb\n".toList).Perm (linesOf "b\n a\n".toList) := by decide
  have hdiffers : sortedComparison.normalize " a\nb\n" ≠ sortedComparison.normalize "b\n a\n" := by
    rw [Ne, normalize_sorted_eq_iff rfl (trim_eq_nil_iff_of_perm hlines)]
    decide
  exact ⟨hlines, hdiffers, (exists_outputDifference_iff _ _ _).mpr ⟨rfl, hdiffers⟩⟩

end SortedLines

section Locations

/-- The text of a line stands behind its location, or is the whole line. -/
def IsTextOf (text line : List Char) : Prop :=
  ':' ∉ text ∧ (line = text ∨ ∃ location, line = location ++ ':' :: text)

/-- The same text stands in two lines. -/
def SameText (a b : List Char) : Prop := ∃ text, IsTextOf text a ∧ IsTextOf text b

/-- The same line, but perhaps for what stands before its last colon. -/
def SameButLocation (a b : List Char) : Prop :=
  a = b ∨ ∃ first second text, ':' ∉ text ∧ a = first ++ ':' :: text ∧ b = second ++ ':' :: text

variable {c : Comparison} {s t : String}

theorem stripLocation_eq_iff {line text : List Char} :
    Comparison.stripLocation line = text ↔ IsTextOf text line := afterLast_eq_iff

theorem sameText_iff {a b : List Char} :
    SameText a b ↔ Comparison.stripLocation a = Comparison.stripLocation b := by
  constructor
  · rintro ⟨text, ha, hb⟩
    rw [stripLocation_eq_iff.mpr ha, stripLocation_eq_iff.mpr hb]
  · intro heq
    exact ⟨_, stripLocation_eq_iff.mp heq, stripLocation_eq_iff.mp rfl⟩

theorem SameButLocation.sameText {a b : List Char} (h : SameButLocation a b) : SameText a b := by
  rcases h with rfl | ⟨first, second, text, htext, rfl, rfl⟩
  · exact sameText_iff.mpr rfl
  · exact ⟨text, ⟨htext, Or.inr ⟨first, rfl⟩⟩, ⟨htext, Or.inr ⟨second, rfl⟩⟩⟩

theorem trimStart_append_colon (location text : List Char) :
    trimStart (location ++ ':' :: text) = trimStart location ++ ':' :: text := by
  induction location with
  | nil => rfl
  | cons d rest ih =>
    rw [List.cons_append, trimStart_cons, trimStart_cons]
    split
    · exact ih
    · rfl

theorem trimEnd_append_colon (location text : List Char) :
    trimEnd (location ++ ':' :: text) = location ++ ':' :: trimEnd text := by
  induction text using List.reverseRecOn with
  | nil => exact trimEnd_concat location ':'
  | append_singleton start d ih =>
    rw [← List.cons_append, ← List.append_assoc, trimEnd_concat, trimEnd_concat]
    split
    · exact ih
    · simp

/-- Trimming the start of lines takes something of their locations only. -/
theorem SameButLocation.trimStart {a b : List Char} (h : SameButLocation a b) :
    SameButLocation (Text.trimStart a) (Text.trimStart b) ∧
      (Text.trimStart a = [] ↔ Text.trimStart b = []) := by
  rcases h with rfl | ⟨first, second, text, htext, rfl, rfl⟩
  · exact ⟨Or.inl rfl, Iff.rfl⟩
  · rw [trimStart_append_colon, trimStart_append_colon]
    exact ⟨Or.inr ⟨_, _, text, htext, rfl, rfl⟩, by simp⟩

theorem SameButLocation.trimEnd {a b : List Char} (h : SameButLocation a b) :
    SameButLocation (Text.trimEnd a) (Text.trimEnd b) ∧
      (Text.trimEnd a = [] ↔ Text.trimEnd b = []) := by
  rcases h with rfl | ⟨first, second, text, htext, rfl, rfl⟩
  · exact ⟨Or.inl rfl, Iff.rfl⟩
  · have hkept : ':' ∉ Text.trimEnd text := fun hcolon => htext (mem_of_mem_dropEndWhile hcolon)
    rw [trimEnd_append_colon, trimEnd_append_colon]
    exact ⟨Or.inr ⟨_, _, _, hkept, rfl, rfl⟩, by simp⟩

theorem map_stripLocation_eq_iff {as bs : List (List Char)} :
    as.map Comparison.stripLocation = bs.map Comparison.stripLocation ↔
      List.Forall₂ SameText as bs := by
  rw [← List.forall₂_eq_eq_eq, List.forall₂_map_left_iff, List.forall₂_map_right_iff]
  constructor
  · exact fun h => h.imp fun _ _ => sameText_iff.mpr
  · exact fun h => h.imp fun _ _ => sameText_iff.mp

/-- Lines with the same texts in another order can be put in the order of these texts. -/
theorem exists_perm_of_map_stripLocation_perm {as bs : List (List Char)}
    (h : (as.map Comparison.stripLocation).Perm (bs.map Comparison.stripLocation)) :
    ∃ lines, lines.Perm bs ∧ List.Forall₂ SameText as lines := by
  have hself : List.Forall₂ (fun text line => text = Comparison.stripLocation line)
      (bs.map Comparison.stripLocation) bs := by
    rw [List.forall₂_map_left_iff, List.forall₂_same]
    exact fun _ _ => rfl
  obtain ⟨lines, hlines, horder⟩ := List.perm_comp_forall₂ h hself
  rw [List.forall₂_map_left_iff] at hlines
  exact ⟨lines, horder, hlines.imp fun _ _ => sameText_iff.mpr⟩

theorem linesInOrder_eq_of_sameButLocation (hstrip : c.stripPaths = true)
    (h : List.Forall₂ SameButLocation (linesOf s.toList) (linesOf t.toList)) :
    c.linesInOrder s = c.linesInOrder t := by
  have htrimmed := forall₂_trimLines (fun _ _ => SameButLocation.trimStart)
    (fun _ _ => SameButLocation.trimEnd) h
  rw [Comparison.linesInOrder, Comparison.linesInOrder, if_pos hstrip, if_pos hstrip,
    linesOf_trim, linesOf_trim, map_stripLocation_eq_iff]
  exact htrimmed.imp fun _ _ => SameButLocation.sameText

/-- Outputs that are not blank are prepared alike only when, up to the order of lines if
they are sorted, the same texts stand in the lines that trimming leaves. -/
theorem exists_sameText_of_normalize_eq (hstrip : c.stripPaths = true)
    (hs : trim s.toList ≠ []) (ht : trim t.toList ≠ []) (h : c.normalize s = c.normalize t) :
    ∃ lines, lines.Perm (linesOf (trim t.toList)) ∧
      (c.sortLines = false → lines = linesOf (trim t.toList)) ∧
      List.Forall₂ SameText (linesOf (trim s.toList)) lines := by
  have hsame := (Comparison.normalize_eq_iff (iff_of_false hs ht)).mp h
  by_cases hsort : c.sortLines = true
  · have hperm := (c.normalLines_perm s).symm.trans (hsame ▸ c.normalLines_perm t)
    rw [Comparison.linesInOrder, Comparison.linesInOrder, if_pos hstrip, if_pos hstrip] at hperm
    obtain ⟨lines, horder, htexts⟩ := exists_perm_of_map_stripLocation_perm hperm
    exact ⟨lines, horder, by simp [hsort], htexts⟩
  · rw [Comparison.normalLines_eq, Comparison.normalLines_eq, if_neg hsort, if_neg hsort,
      Comparison.linesInOrder, Comparison.linesInOrder, if_pos hstrip, if_pos hstrip] at hsame
    exact ⟨_, List.Perm.refl _, fun _ => rfl, map_stripLocation_eq_iff.mp hsame⟩

/-- Where locations are hidden, outputs of as many lines, of which any two in the same
place are the same but for what stands before their last colons, are prepared alike. Nothing
but locations is hidden: outputs that are not blank and are prepared alike have, up to
the order of lines if they are sorted, the same texts in the lines that trimming leaves. -/
theorem normalize_hides_locations (hstrip : c.stripPaths = true) :
    (∀ s t : String,
      List.Forall₂ SameButLocation (linesOf s.toList) (linesOf t.toList) →
        c.normalize s = c.normalize t) ∧
    (∀ s t : String, trim s.toList ≠ [] → trim t.toList ≠ [] → c.normalize s = c.normalize t →
      ∃ lines, lines.Perm (linesOf (trim t.toList)) ∧
        (c.sortLines = false → lines = linesOf (trim t.toList)) ∧
        List.Forall₂ SameText (linesOf (trim s.toList)) lines) := by
  constructor
  · intro s t h
    exact Comparison.normalize_congr (linesInOrder_eq_of_sameButLocation hstrip h)
  · intro s t hs ht h
    exact exists_sameText_of_normalize_eq hstrip hs ht h

/-- Neither locations nor the order of lines count. -/
def relaxedComparison : Comparison := { stripPaths := true, sortLines := true }

/-- Locations with and without blanks before them, at both ends of the outputs. -/
theorem normalize_hides_locations_twoTools :
    relaxedComparison.normalize "  /tmp/x:3: bad \nzeta\n" =
        relaxedComparison.normalize "y:7: bad \r\nzeta" ∧
      ∃ lines, lines.Perm (linesOf (trim "b:zeta\nb:alpha".toList)) ∧
        List.Forall₂ SameText (linesOf (trim "a:alpha\na:zeta".toList)) lines := by
  obtain ⟨hhidden, hshown⟩ := normalize_hides_locations (c := relaxedComparison) rfl
  have hlines : linesOf "  /tmp/x:3: bad \nzeta\n".toList =
      ["  /tmp/x:3: bad ".toList, "zeta".toList] := by decide
  have hlines' : linesOf "y:7: bad \r\nzeta".toList =
      ["y:7: bad ".toList, "zeta".toList] := by decide
  refine ⟨hhidden _ _ ?_, ?_⟩
  · rw [hlines, hlines']
    have hbad : SameButLocation "  /tmp/x:3: bad ".toList "y:7: bad ".toList :=
      Or.inr ⟨"  /tmp/x:3".toList, "y:7".toList, " bad ".toList, by decide, by decide, by decide⟩
    exact .cons hbad (.cons (Or.inl rfl) .nil)
  · have hsame : relaxedComparison.normalize "a:alpha\na:zeta" =
        relaxedComparison.normalize "b:zeta\nb:alpha" := by
      rw [normalize_sorted_eq_iff rfl (by decide)]
      decide
    obtain ⟨lines, horder, -, htexts⟩ := hshown _ _ (by decide) (by decide) hsame
    exact ⟨lines, horder, htexts⟩

end Locations

end LedgerConformance.Differential
