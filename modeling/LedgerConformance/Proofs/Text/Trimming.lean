import LedgerConformance.Proofs.Text.Occurrence
import LedgerConformance.Proofs.Text.Pieces
import Mathlib.Data.List.DropRight
import Mathlib.Data.List.Forall2

/-!
Trimming seen on lines. A text is trimmed as a whole, before it is cut into lines; what
this leaves are its lines without the blank ones at both ends, the first one without the
blanks that it starts with and the last one without those that it ends with.
-/

namespace LedgerConformance.Text

/-- Drops lines as long as `cut` leaves nothing of them, and cuts the first of the
others. -/
def cutFirst (cut : List Char → List Char) : List (List Char) → List (List Char)
  | [] => []
  | line :: rest => if cut line = [] then cutFirst cut rest else cut line :: rest

/-- The same from the end on. -/
def cutLast (cut : List Char → List Char) (lines : List (List Char)) : List (List Char) :=
  (cutFirst cut lines.reverse).reverse

/-- The lines that trimming leaves. -/
def trimLines (lines : List (List Char)) : List (List Char) :=
  cutLast trimEnd (cutFirst trimStart lines)

section Characters

theorem trimStart_cons (c : Char) (s : List Char) :
    trimStart (c :: s) = if isBlank c = true then trimStart s else c :: s := by
  unfold trimStart
  by_cases hc : isBlank c = true <;> simp [hc]

theorem trimEnd_concat (s : List Char) (c : Char) :
    trimEnd (s ++ [c]) = if isBlank c = true then trimEnd s else s ++ [c] :=
  List.rdropWhile_concat isBlank s c

theorem trimStart_eq_nil_iff {s : List Char} :
    trimStart s = [] ↔ ∀ c ∈ s, isBlank c = true := List.dropWhile_eq_nil_iff

theorem trimEnd_eq_nil_iff {s : List Char} : trimEnd s = [] ↔ ∀ c ∈ s, isBlank c = true := by
  rw [trimEnd, dropEndWhile, List.reverse_eq_nil_iff, List.dropWhile_eq_nil_iff]
  simp only [List.mem_reverse]

end Characters

section Lines

/-- The lines up to a line feed and those behind it. -/
theorem linesOf_append_feed (s t : List Char) :
    linesOf (s ++ '\n' :: t) = endedLines s ++ linesOf t := by
  have hne : t.splitOn '\n' ≠ [] := List.splitOn_ne_nil '\n' t
  unfold linesOf endedLines
  simp only [splitOnChar_eq_splitOn, List.splitOn_append_cons_self,
    List.dropLast_append_of_ne_nil hne, List.getLast?_append_of_ne_nil _ hne, List.map_append]
  split <;> simp

theorem endedLines_append_feed (s t : List Char) :
    endedLines (s ++ '\n' :: t) = endedLines s ++ endedLines t := by
  simp only [endedLines, splitOnChar_eq_splitOn, List.splitOn_append_cons_self, List.map_append]

/-- A text is lines that are ended and a last one, perhaps empty, that can go on. -/
theorem exists_last_line (s : List Char) : ∃ (ended : List (List Char)) (last : List Char),
    '\n' ∉ last ∧ endedLines s = ended ++ [dropReturn last] ∧
      ∀ t, linesOf (s ++ t) = ended ++ linesOf (last ++ t) := by
  by_cases hs : '\n' ∈ s
  · obtain ⟨before, last, rfl, hlast⟩ := exists_last_occurrence hs
    refine ⟨endedLines before, last, hlast, ?_, ?_⟩
    · rw [endedLines_append_feed, endedLines_of_not_mem hlast]
    · intro t
      rw [List.append_assoc, List.cons_append, linesOf_append_feed]
  · exact ⟨[], s, hs, endedLines_of_not_mem hs, fun t => rfl⟩

theorem linesOf_of_not_mem {s : List Char} (hfeed : '\n' ∉ s) (hne : s ≠ []) :
    linesOf s = [s] := by
  unfold linesOf
  simp only [splitOnChar_eq_splitOn, List.splitOn_eq_singleton hfeed]
  cases s with
  | nil => contradiction
  | cons c rest => rfl

theorem linesOf_eq_nil_iff {s : List Char} : linesOf s = [] ↔ s = [] := by
  constructor
  · intro hnil
    by_contra hne
    by_cases hs : '\n' ∈ s
    · obtain ⟨first, rest, rfl, -⟩ := List.eq_append_cons_of_mem hs
      rw [linesOf_append_feed] at hnil
      exact endedLines_ne_nil first (List.append_eq_nil_iff.mp hnil).1
    · rw [linesOf_of_not_mem hs hne] at hnil
      exact List.cons_ne_nil s [] hnil
  · rintro rfl
    rfl

theorem trimStart_dropReturn_cons {c : Char} (hc : isBlank c = true) (line : List Char) :
    trimStart (dropReturn (c :: line)) = trimStart (dropReturn line) := by
  cases line with
  | nil =>
    have hnil : trimStart (dropReturn [c]) = [] := by
      rw [trimStart_eq_nil_iff]
      intro d hd
      rw [List.mem_singleton.mp (mem_of_mem_dropReturn hd)]
      exact hc
    exact hnil
  | cons d rest =>
    have hcons : dropReturn (c :: d :: rest) = c :: dropReturn (d :: rest) := by
      simp only [dropReturn, List.getLast?_cons_cons, List.dropLast_cons_cons]
      split <;> rfl
    rw [hcons, trimStart_cons, if_pos hc]

theorem trimEnd_dropReturn (line : List Char) : trimEnd (dropReturn line) = trimEnd line := by
  rcases List.eq_nil_or_concat line with rfl | ⟨start, c, rfl⟩
  · rfl
  · by_cases hc : c = '\r'
    · subst hc
      have hdrop : dropReturn (start ++ ['\r']) = start := by simp [dropReturn]
      have hblank : isBlank '\r' = true := rfl
      rw [List.concat_eq_append, hdrop, trimEnd_concat, if_pos hblank]
    · rw [dropReturn_of_getLast? (by simpa using hc)]

end Lines

section Cuts

variable {cut : List Char → List Char}

theorem cutFirst_cons_congr {a b : List Char} (h : cut a = cut b) (rest : List (List Char)) :
    cutFirst cut (a :: rest) = cutFirst cut (b :: rest) := by
  rw [cutFirst, cutFirst, h]

theorem cutFirst_cons_of_eq_nil {line : List Char} (h : cut line = [])
    (rest : List (List Char)) : cutFirst cut (line :: rest) = cutFirst cut rest := by
  rw [cutFirst, if_pos h]

theorem cutFirst_cons_of_ne_nil {line : List Char} (h : cut line ≠ [])
    (rest : List (List Char)) : cutFirst cut (line :: rest) = cut line :: rest := by
  rw [cutFirst, if_neg h]

theorem cutLast_concat_congr {a b : List Char} (h : cut a = cut b)
    (start : List (List Char)) : cutLast cut (start ++ [a]) = cutLast cut (start ++ [b]) := by
  rw [cutLast, cutLast, List.reverse_concat, List.reverse_concat, cutFirst_cons_congr h]

theorem cutLast_concat_of_eq_nil {line : List Char} (h : cut line = [])
    (start : List (List Char)) : cutLast cut (start ++ [line]) = cutLast cut start := by
  rw [cutLast, cutLast, List.reverse_concat, cutFirst_cons_of_eq_nil h]

theorem cutLast_concat_of_ne_nil {line : List Char} (h : cut line ≠ [])
    (start : List (List Char)) : cutLast cut (start ++ [line]) = start ++ [cut line] := by
  rw [cutLast, List.reverse_concat, cutFirst_cons_of_ne_nil h, List.reverse_cons,
    List.reverse_reverse]

theorem cutFirst_eq_nil_iff {lines : List (List Char)} :
    cutFirst cut lines = [] ↔ ∀ line ∈ lines, cut line = [] := by
  induction lines with
  | nil => simp [cutFirst]
  | cons line rest ih =>
    by_cases hline : cut line = []
    · rw [cutFirst_cons_of_eq_nil hline, ih, List.forall_mem_cons]
      exact ⟨fun hrest => ⟨hline, hrest⟩, And.right⟩
    · simp [cutFirst_cons_of_ne_nil hline, hline]

theorem cutLast_eq_nil_iff {lines : List (List Char)} :
    cutLast cut lines = [] ↔ ∀ line ∈ lines, cut line = [] := by
  rw [cutLast, List.reverse_eq_nil_iff, cutFirst_eq_nil_iff]
  simp only [List.mem_reverse]

/-- Where lines are left, the first of them has been cut and is not empty. -/
theorem exists_of_mem_cutFirst {lines : List (List Char)} {line : List Char}
    (h : line ∈ cutFirst cut lines) : ∃ first, cut first ∈ cutFirst cut lines ∧ cut first ≠ [] := by
  induction lines with
  | nil => simp [cutFirst] at h
  | cons first rest ih =>
    by_cases hfirst : cut first = []
    · rw [cutFirst_cons_of_eq_nil hfirst] at h ⊢
      exact ih h
    · rw [cutFirst_cons_of_ne_nil hfirst]
      exact ⟨first, List.mem_cons_self, hfirst⟩

/-- A text without a line feed counts as one line, be it empty or not. -/
theorem cutFirst_linesOf_of_not_mem (hcut : cut [] = []) {s : List Char} (hfeed : '\n' ∉ s) :
    cutFirst cut (linesOf s) = cutFirst cut [s] := by
  cases s with
  | nil => exact (cutFirst_cons_of_eq_nil hcut []).symm
  | cons c rest => rw [linesOf_of_not_mem hfeed (List.cons_ne_nil c rest)]

theorem cutLast_append_linesOf (hcut : cut [] = []) {last : List Char} (hfeed : '\n' ∉ last)
    (start : List (List Char)) :
    cutLast cut (start ++ linesOf last) = cutLast cut (start ++ [last]) := by
  cases last with
  | nil =>
    rw [cutLast_concat_of_eq_nil hcut]
    exact congrArg (cutLast cut) (List.append_nil start)
  | cons c rest => rw [linesOf_of_not_mem hfeed (List.cons_ne_nil c rest)]

end Cuts

section Trimming

/-- A blank before a text is not seen once its lines are trimmed. -/
theorem cutFirst_linesOf_cons {c : Char} (hc : isBlank c = true) (s : List Char) :
    cutFirst trimStart (linesOf (c :: s)) = cutFirst trimStart (linesOf s) := by
  by_cases hfeed : c = '\n'
  · have hempty : linesOf ('\n' :: s) = [] :: linesOf s := linesOf_append_feed [] s
    rw [hfeed, hempty, cutFirst_cons_of_eq_nil rfl]
  · by_cases hs : '\n' ∈ s
    · obtain ⟨first, rest, rfl, hfirst⟩ := List.eq_append_cons_of_mem hs
      have hfirst' : '\n' ∉ c :: first := by simpa [Ne.symm hfeed] using hfirst
      rw [← List.cons_append, linesOf_append_feed, linesOf_append_feed,
        endedLines_of_not_mem hfirst, endedLines_of_not_mem hfirst']
      exact cutFirst_cons_congr (trimStart_dropReturn_cons hc first) (linesOf rest)
    · have hs' : '\n' ∉ c :: s := by simpa [Ne.symm hfeed] using hs
      rw [cutFirst_linesOf_of_not_mem rfl hs, cutFirst_linesOf_of_not_mem rfl hs']
      exact cutFirst_cons_congr (by rw [trimStart_cons, if_pos hc]) []

/-- A text that does not start with a blank keeps its first line. -/
theorem cutFirst_linesOf_cons_of_ink {c : Char} (hc : ¬ isBlank c = true) (s : List Char) :
    cutFirst trimStart (linesOf (c :: s)) = linesOf (c :: s) := by
  have hstays : ∀ line : List Char, trimStart (c :: line) = c :: line := by
    intro line
    rw [trimStart_cons, if_neg hc]
  have hfeed : c ≠ '\n' := by
    rintro rfl
    exact hc rfl
  by_cases hs : '\n' ∈ s
  · obtain ⟨first, rest, rfl, hfirst⟩ := List.eq_append_cons_of_mem hs
    have hfirst' : '\n' ∉ c :: first := by simpa [Ne.symm hfeed] using hfirst
    have hreturn : [c].getLast? ≠ some '\r' := by
      rintro heq
      cases heq
      exact hc rfl
    have hline : dropReturn (c :: first) = c :: dropReturn first := dropReturn_append hreturn
    rw [← List.cons_append, linesOf_append_feed, endedLines_of_not_mem hfirst', hline,
      List.singleton_append, cutFirst_cons_of_ne_nil (by rw [hstays]; simp), hstays]
  · have hs' : '\n' ∉ c :: s := by simpa [Ne.symm hfeed] using hs
    rw [linesOf_of_not_mem hs' (List.cons_ne_nil c s),
      cutFirst_cons_of_ne_nil (by rw [hstays]; simp), hstays]

theorem linesOf_trimStart (s : List Char) :
    linesOf (trimStart s) = cutFirst trimStart (linesOf s) := by
  induction s with
  | nil => rfl
  | cons c rest ih =>
    rw [trimStart_cons]
    split
    · rename_i hc
      rw [ih, cutFirst_linesOf_cons hc]
    · rename_i hc
      rw [cutFirst_linesOf_cons_of_ink hc]

/-- A blank behind a text is not seen once its lines are trimmed. -/
theorem cutLast_linesOf_concat {c : Char} (hc : isBlank c = true) (s : List Char) :
    cutLast trimEnd (linesOf (s ++ [c])) = cutLast trimEnd (linesOf s) := by
  obtain ⟨ended, last, hlast, hended, hlines⟩ := exists_last_line s
  have hs : linesOf s = ended ++ linesOf last := by simpa using hlines []
  rw [hs, cutLast_append_linesOf rfl hlast]
  by_cases hfeed : c = '\n'
  · have hlonger : linesOf (s ++ ['\n']) = endedLines s := by
      rw [linesOf_append_feed]
      exact List.append_nil _
    rw [hfeed, hlonger, hended]
    exact cutLast_concat_congr (trimEnd_dropReturn last) ended
  · have hlonger : '\n' ∉ last ++ [c] := by simpa [Ne.symm hfeed] using hlast
    rw [hlines, cutLast_append_linesOf rfl hlonger]
    exact cutLast_concat_congr (by rw [trimEnd_concat, if_pos hc]) ended

/-- A text that does not end with a blank keeps its last line. -/
theorem cutLast_linesOf_concat_of_ink {c : Char} (hc : ¬ isBlank c = true) (s : List Char) :
    cutLast trimEnd (linesOf (s ++ [c])) = linesOf (s ++ [c]) := by
  obtain ⟨ended, last, hlast, -, hlines⟩ := exists_last_line s
  have hfeed : c ≠ '\n' := by
    rintro rfl
    exact hc rfl
  have hlonger : '\n' ∉ last ++ [c] := by simpa [Ne.symm hfeed] using hlast
  have hstays : trimEnd (last ++ [c]) = last ++ [c] := by rw [trimEnd_concat, if_neg hc]
  rw [hlines, linesOf_of_not_mem hlonger (by simp), cutLast_concat_of_ne_nil (by simp [hstays]),
    hstays]

theorem linesOf_trimEnd (s : List Char) :
    linesOf (trimEnd s) = cutLast trimEnd (linesOf s) := by
  induction s using List.reverseRecOn with
  | nil => rfl
  | append_singleton start c ih =>
    rw [trimEnd_concat]
    split
    · rename_i hc
      rw [ih, cutLast_linesOf_concat hc]
    · rename_i hc
      rw [cutLast_linesOf_concat_of_ink hc]

/-- The lines of a trimmed text are what trimming leaves of the lines of the text. -/
theorem linesOf_trim (s : List Char) : linesOf (trim s) = trimLines (linesOf s) := by
  rw [trim, linesOf_trimEnd, linesOf_trimStart, trimLines]

/-- Trimming leaves no line only when there is nothing but blanks. -/
theorem trimLines_eq_nil_iff {lines : List (List Char)} :
    trimLines lines = [] ↔ ∀ line ∈ lines, ∀ c ∈ line, isBlank c = true := by
  have hstart : cutFirst trimStart lines = [] ↔
      ∀ line ∈ lines, ∀ c ∈ line, isBlank c = true := by
    simp only [cutFirst_eq_nil_iff, trimStart_eq_nil_iff]
  rw [← hstart, trimLines, cutLast_eq_nil_iff]
  constructor
  · intro hblank
    rw [List.eq_nil_iff_forall_not_mem]
    intro line hline
    obtain ⟨first, hfirst, hne⟩ := exists_of_mem_cutFirst hline
    have hfirstBlank := trimEnd_eq_nil_iff.mp (hblank _ hfirst)
    -- a line that is trimmed at its start and not empty starts with no blank
    rw [← trimStart_eq_nil_iff, trimStart, trimStart, List.dropWhile_idempotent] at hfirstBlank
    exact hne hfirstBlank
  · intro hnil
    simp [hnil]

/-- The first line starts, and the last one ends, with a character that is no blank. -/
def HasFirmEnds (lines : List (List Char)) : Prop :=
  (∀ line ∈ lines.head?, line ≠ [] ∧ trimStart line = line) ∧
    ∀ line ∈ lines.getLast?, line ≠ [] ∧ trimEnd line = line

instance (lines : List (List Char)) : Decidable (HasFirmEnds lines) := by
  unfold HasFirmEnds
  infer_instance

theorem trimLines_of_hasFirmEnds {lines : List (List Char)} (h : HasFirmEnds lines) :
    trimLines lines = lines := by
  obtain ⟨hfirst, hlast⟩ := h
  have hstart : cutFirst trimStart lines = lines := by
    cases lines with
    | nil => rfl
    | cons first rest =>
      obtain ⟨hne, hsame⟩ := hfirst first rfl
      rw [cutFirst_cons_of_ne_nil (by rwa [hsame]), hsame]
  rw [trimLines, hstart]
  rcases List.eq_nil_or_concat lines with rfl | ⟨start, last, rfl⟩
  · rfl
  · obtain ⟨hne, hsame⟩ := hlast last (by simp)
    rw [List.concat_eq_append, cutLast_concat_of_ne_nil (by rwa [hsame]), hsame]

end Trimming

section Pairs

variable {cut : List Char → List Char} {R : List Char → List Char → Prop}

/-- A relation of lines that both cuts keep, and that tells nothing from something. -/
theorem forall₂_cutFirst (hcut : ∀ a b, R a b → R (cut a) (cut b) ∧ (cut a = [] ↔ cut b = []))
    {as bs : List (List Char)} (h : List.Forall₂ R as bs) :
    List.Forall₂ R (cutFirst cut as) (cutFirst cut bs) := by
  induction h with
  | nil => exact .nil
  | @cons a b as bs hab hrest ih =>
    obtain ⟨hrel, hnil⟩ := hcut a b hab
    by_cases ha : cut a = []
    · rw [cutFirst_cons_of_eq_nil ha, cutFirst_cons_of_eq_nil (hnil.mp ha)]
      exact ih
    · rw [cutFirst_cons_of_ne_nil ha, cutFirst_cons_of_ne_nil fun hb => ha (hnil.mpr hb)]
      exact .cons hrel hrest

theorem forall₂_trimLines
    (hstart : ∀ a b, R a b → R (trimStart a) (trimStart b) ∧ (trimStart a = [] ↔ trimStart b = []))
    (hend : ∀ a b, R a b → R (trimEnd a) (trimEnd b) ∧ (trimEnd a = [] ↔ trimEnd b = []))
    {as bs : List (List Char)} (h : List.Forall₂ R as bs) :
    List.Forall₂ R (trimLines as) (trimLines bs) := by
  have hfirst := forall₂_cutFirst hstart h
  rw [trimLines, trimLines, cutLast, cutLast, List.forall₂_reverse_iff]
  exact forall₂_cutFirst hend (List.forall₂_reverse_iff.mpr hfirst)

end Pairs

end LedgerConformance.Text
