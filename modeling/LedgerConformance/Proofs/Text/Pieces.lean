import LedgerConformance.Text.Lines
import Mathlib.Data.List.Basic

/-!
Cutting a text and putting it together again. Cutting along a character is the
list operation `splitOn`, so its laws are those of the library. A text whose
lines each end with a line feed has these lines, except that a carriage return
right before a line feed is lost. No piece holds a separator, and no line a line
feed.
-/

namespace LedgerConformance.Text

theorem splitWhere_eq_splitOnP (p : Char → Bool) (s : List Char) :
    splitWhere p s = s.splitOnP p := by
  induction s with
  | nil => rfl
  | cons c rest ih =>
    rw [List.splitOnP_cons_eq_if_modifyHead, ← ih]
    obtain ⟨piece, pieces, hrest⟩ := List.exists_cons_of_ne_nil (splitWhere_ne_nil p rest)
    unfold splitWhere at hrest ⊢
    by_cases hp : p c = true
    · simp [hp]
    · simp [hp, hrest]

theorem splitOnChar_eq_splitOn (sep : Char) (s : List Char) :
    splitOnChar sep s = s.splitOn sep := by
  rw [splitOnChar, splitWhere_eq_splitOnP, List.splitOn_eq_splitOnP]

/-- Every character is a separator or stands in one of the pieces. -/
theorem mem_piece_or_eq_of_mem {sep c : Char} {s : List Char} (h : c ∈ s) :
    c = sep ∨ ∃ piece ∈ splitOnChar sep s, c ∈ piece := by
  rw [splitOnChar_eq_splitOn]
  induction s with
  | nil => simp at h
  | cons d rest ih =>
    rw [List.splitOn_cons_eq_if_modifyHead]
    obtain ⟨piece, pieces, hrest⟩ := List.exists_cons_of_ne_nil (List.splitOn_ne_nil sep rest)
    rw [hrest] at ih ⊢
    by_cases hd : d = sep
    · rcases List.mem_cons.mp h with rfl | htail
      · exact Or.inl hd
      · rcases ih htail with heq | ⟨found, hfound, hc⟩
        · exact Or.inl heq
        · exact Or.inr ⟨found, by simp [hd, hfound], hc⟩
    · rcases List.mem_cons.mp h with rfl | htail
      · exact Or.inr ⟨c :: piece, by simp [hd], List.mem_cons_self⟩
      · rcases ih htail with heq | ⟨found, hfound, hc⟩
        · exact Or.inl heq
        · rcases List.mem_cons.mp hfound with rfl | hlater
          · exact Or.inr ⟨d :: found, by simp [hd], List.mem_cons_of_mem _ hc⟩
          · exact Or.inr ⟨found, by simp [hd, hlater], hc⟩

/-- The lines that a text makes when a line feed follows it. -/
def endedLines (s : List Char) : List (List Char) := (splitOnChar '\n' s).map dropReturn

theorem endedLines_ne_nil (s : List Char) : endedLines s ≠ [] := by
  rw [endedLines, Ne, List.map_eq_nil_iff]
  exact splitWhere_ne_nil _ s

/-- Texts that each end with a line feed are cut inside and at their ends, with an empty
piece behind the last line feed. -/
theorem splitOn_ended (texts : List (List Char)) :
    (texts.flatMap (· ++ ['\n'])).splitOn '\n' = texts.flatMap (·.splitOn '\n') ++ [[]] := by
  induction texts with
  | nil => rfl
  | cons text rest ih =>
    rw [List.flatMap_cons, List.append_assoc, List.singleton_append,
      List.splitOn_append_cons_self, ih, List.flatMap_cons, List.append_assoc]

theorem linesOf_ended (texts : List (List Char)) :
    linesOf (texts.flatMap (· ++ ['\n'])) = texts.flatMap endedLines := by
  unfold linesOf endedLines
  simp only [splitOnChar_eq_splitOn, splitOn_ended, List.getLast?_concat, List.dropLast_concat,
    List.map_flatMap]

theorem endedLines_of_not_mem {line : List Char} (h : '\n' ∉ line) :
    endedLines line = [dropReturn line] := by
  rw [endedLines, splitOnChar_eq_splitOn, List.splitOn_eq_singleton h, List.map_singleton]

theorem linesOf_ended_lines (lines : List (List Char)) (h : ∀ line ∈ lines, '\n' ∉ line) :
    linesOf (lines.flatMap (· ++ ['\n'])) = lines.map dropReturn := by
  rw [linesOf_ended, List.map_eq_flatMap]
  exact List.flatMap_congr fun line hline => endedLines_of_not_mem (h line hline)

theorem dropReturn_of_getLast? {line : List Char} (h : line.getLast? ≠ some '\r') :
    dropReturn line = line := by
  unfold dropReturn
  split
  · contradiction
  · rfl

theorem isPrefix_dropReturn (line : List Char) : dropReturn line <+: line := by
  unfold dropReturn
  split
  · exact List.dropLast_prefix line
  · exact List.prefix_refl line

theorem dropReturn_append {start s : List Char} (hstart : start.getLast? ≠ some '\r') :
    dropReturn (start ++ s) = start ++ dropReturn s := by
  cases hs : s.getLast? with
  | none =>
    rw [List.getLast?_eq_none_iff.mp hs, List.append_nil, dropReturn_of_getLast? hstart]
    exact (List.append_nil start).symm
  | some c =>
    have hne : s ≠ [] := by
      rintro rfl
      cases hs
    have hlast : (start ++ s).getLast? = some c := by rw [List.getLast?_append, hs, Option.some_or]
    by_cases hc : c = '\r'
    · subst hc
      rw [dropReturn, dropReturn, hlast, hs]
      exact List.dropLast_append_of_ne_nil hne
    · rw [dropReturn_of_getLast? (by simpa [hlast] using hc),
        dropReturn_of_getLast? (by simpa [hs] using hc)]

/-- What stands before a text stands before its first line. -/
theorem endedLines_append {start s : List Char} (hfeed : '\n' ∉ start)
    (hstart : start.getLast? ≠ some '\r') :
    endedLines (start ++ s) = (endedLines s).modifyHead (start ++ ·) := by
  have hsplit : (start ++ s).splitOn '\n' = (s.splitOn '\n').modifyHead (start ++ ·) := by
    clear hstart
    induction start with
    | nil =>
      rw [List.nil_append]
      cases s.splitOn '\n' <;> rfl
    | cons c rest ih =>
      obtain ⟨hc, hrest⟩ := not_or.mp fun h => hfeed (List.mem_cons.mpr h)
      rw [List.cons_append, List.splitOn_cons_eq_if_modifyHead, if_neg (by simpa using Ne.symm hc),
        ih hrest, List.modifyHead_modifyHead]
      rfl
  obtain ⟨first, others, hs⟩ := List.exists_cons_of_ne_nil (List.splitOn_ne_nil '\n' s)
  rw [endedLines, endedLines, splitOnChar_eq_splitOn, splitOnChar_eq_splitOn, hsplit, hs,
    List.modifyHead_cons, List.map_cons, List.map_cons, List.modifyHead_cons,
    dropReturn_append hstart]

theorem dropEndWhile_of_getLast? {α : Type} {p : α → Bool} {s : List α}
    (h : ∀ c, s.getLast? = some c → p c = false) : dropEndWhile p s = s := by
  unfold dropEndWhile
  rw [List.getLast?_eq_head?_reverse] at h
  cases hs : s.reverse with
  | nil => simpa using hs.symm
  | cons c rest =>
    have hc : p c = false := h c (by rw [hs]; rfl)
    rw [List.dropWhile_cons_of_neg (by simp [hc]), ← hs, List.reverse_reverse]

theorem dropEndWhile_of_getLast?_eq {α : Type} {p : α → Bool} {s : List α} {last : α}
    (hlast : s.getLast? = some last) (h : p last = false) : dropEndWhile p s = s := by
  apply dropEndWhile_of_getLast?
  intro c hc
  rw [Option.some.inj (hc.symm.trans hlast)]
  exact h

theorem dropEndWhile_append_of_ne_nil {α : Type} {p : α → Bool} (s : List α) {t : List α}
    (hne : t ≠ []) (h : ∀ c ∈ t, p c = false) : dropEndWhile p (s ++ t) = s ++ t := by
  apply dropEndWhile_of_getLast?
  intro c hc
  rw [List.getLast?_append_of_ne_nil _ hne] at hc
  exact h c (List.mem_of_getLast? hc)

theorem dropEndWhile_append_of_forall {α : Type} {p : α → Bool} (s : List α) {t : List α}
    (h : ∀ c ∈ t, p c = true) : dropEndWhile p (s ++ t) = dropEndWhile p s := by
  unfold dropEndWhile
  rw [List.reverse_append, List.dropWhile_append_of_pos fun c hc => h c (List.mem_reverse.mp hc)]

/-- No piece holds a separator. -/
theorem not_mem_of_mem_splitOnChar {sep : Char} {s piece : List Char}
    (h : piece ∈ splitOnChar sep s) : sep ∉ piece := by
  rw [splitOnChar_eq_splitOn] at h
  induction s generalizing piece with
  | nil => simp_all
  | cons d rest ih =>
    obtain ⟨first, others, hrest⟩ := List.exists_cons_of_ne_nil (List.splitOn_ne_nil sep rest)
    rw [List.splitOn_cons_eq_if_modifyHead, hrest] at h
    rw [hrest] at ih
    by_cases hd : d = sep
    · simp only [hd, beq_self_eq_true, if_true, List.mem_cons] at h
      rcases h with rfl | h
      · exact List.not_mem_nil
      · exact ih (List.mem_cons.mpr h)
    · simp only [beq_iff_eq, hd, if_false, List.modifyHead_cons, List.mem_cons] at h
      rcases h with rfl | h
      · have hfirst : sep ∉ first := ih List.mem_cons_self
        simp [hfirst, Ne.symm hd]
      · exact ih (List.mem_cons_of_mem first h)

theorem mem_of_mem_dropReturn {line : List Char} {c : Char} (h : c ∈ dropReturn line) :
    c ∈ line := (isPrefix_dropReturn line).subset h

theorem mem_of_mem_dropEndWhile {p : Char → Bool} {s : List Char} {c : Char}
    (h : c ∈ dropEndWhile p s) : c ∈ s := by
  rw [dropEndWhile, List.mem_reverse] at h
  exact List.mem_reverse.mp ((List.dropWhile_sublist p).subset h)

theorem feed_not_mem_of_mem_linesOf {s line : List Char} (h : line ∈ linesOf s) : '\n' ∉ line := by
  have hended : ∀ ended ∈ (splitOnChar '\n' s).dropLast.map dropReturn, '\n' ∉ ended := by
    intro ended hmem
    obtain ⟨piece, hpiece, rfl⟩ := List.mem_map.mp hmem
    have hfeed := not_mem_of_mem_splitOnChar (List.dropLast_subset _ hpiece)
    exact fun hc => hfeed (mem_of_mem_dropReturn hc)
  unfold linesOf at h
  simp only at h
  split at h
  · exact hended line h
  · exact hended line h
  · rename_i last _ hlast
    rcases List.mem_append.mp h with h | h
    · exact hended line h
    · rw [List.mem_singleton.mp h]
      exact not_mem_of_mem_splitOnChar (List.mem_of_getLast? hlast)

end LedgerConformance.Text
