import LedgerConformance.Text.Substring
import Mathlib.Data.List.TakeWhile

/-!
Occurrences of one text in another, and texts whose occurrences are replaced. A
text occurs where it is a run of neighbouring characters; where it is one
character, each one is replaced by itself. What follows the last separator of a
text holds no separator.
-/

namespace LedgerConformance.Text

theorem occursIn_iff {needle s : List Char} : occursIn needle s = true ↔ needle <:+: s := by
  induction s with
  | nil => simp [occursIn]
  | cons c rest ih =>
    rw [occursIn, Bool.or_eq_true, ih, List.isPrefixOf_iff_prefix, List.infix_cons_iff]

theorem contains_iff {haystack needle : String} :
    contains haystack needle = true ↔ needle.toList <:+: haystack.toList := occursIn_iff

/-- Replacing one character replaces each of its occurrences on its own. -/
theorem replaceAll_singleton (c : Char) (replacement s : List Char) :
    replaceAll [c] replacement s =
      s.flatMap fun d => if d = c then replacement else [d] := by
  rw [replaceAll]
  induction s with
  | nil => rfl
  | cons d rest ih =>
    rw [List.flatMap_cons, replaceFrom]
    by_cases hd : d = c
    · subst hd
      simp [ih]
    · simp [hd, Ne.symm hd, ih]

/-- A character of a text has a last place in it. -/
theorem exists_last_occurrence {c : Char} {s : List Char} (h : c ∈ s) :
    ∃ before after, s = before ++ c :: after ∧ c ∉ after := by
  obtain ⟨after, before, hsplit, hafter⟩ := List.eq_append_cons_of_mem (List.mem_reverse.mpr h)
  refine ⟨before.reverse, after.reverse, ?_, by simpa using hafter⟩
  rw [← List.reverse_reverse s, hsplit]
  simp

theorem sep_not_mem_afterLast (sep : Char) (s : List Char) : sep ∉ afterLast sep s := by
  intro hmem
  have hkept := List.mem_takeWhile_imp (List.mem_reverse.mp hmem)
  simp at hkept

theorem mem_of_mem_afterLast {sep c : Char} {s : List Char} (h : c ∈ afterLast sep s) :
    c ∈ s :=
  List.mem_reverse.mp (List.takeWhile_subset _ (List.mem_reverse.mp h))

theorem afterLast_of_not_mem {sep : Char} {s : List Char} (h : sep ∉ s) :
    afterLast sep s = s := by
  have hkept : ∀ c ∈ s.reverse, (c != sep) = true := by
    intro c hc
    simp only [bne_iff_ne]
    rintro rfl
    exact h (List.mem_reverse.mp hc)
  rw [afterLast, List.takeWhile_eq_self_iff.mpr hkept, List.reverse_reverse]

theorem afterLast_append_cons {sep : Char} {text : List Char} (h : sep ∉ text)
    (start : List Char) : afterLast sep (start ++ sep :: text) = text := by
  have hkept := afterLast_of_not_mem h
  rw [afterLast] at hkept ⊢
  rw [List.reverse_append, List.reverse_cons, List.append_assoc, List.takeWhile_append_of_pos]
  · simp
  · intro c hc
    simp only [bne_iff_ne]
    rintro rfl
    exact h (List.mem_reverse.mp hc)

/-- What follows the last separator holds none, and is all there is or stands behind
one. -/
theorem afterLast_eq_iff {sep : Char} {s text : List Char} :
    afterLast sep s = text ↔ sep ∉ text ∧ (s = text ∨ ∃ start, s = start ++ sep :: text) := by
  constructor
  · rintro rfl
    refine ⟨sep_not_mem_afterLast sep s, ?_⟩
    by_cases hs : sep ∈ s
    · obtain ⟨before, after, rfl, hafter⟩ := exists_last_occurrence hs
      refine Or.inr ⟨before, ?_⟩
      rw [afterLast_append_cons hafter]
    · exact Or.inl (afterLast_of_not_mem hs).symm
  · rintro ⟨htext, rfl | ⟨start, rfl⟩⟩
    · exact afterLast_of_not_mem htext
    · exact afterLast_append_cons htext start

end LedgerConformance.Text
