import LedgerConformance.Proofs.Text.Occurrence
import Mathlib.Data.List.Count

/-!
Replacing the occurrences of a pattern, and filling the open places of a text. The
pattern starts with a character that it holds only once, so its occurrences do not
overlap. A text with open places is filled by writing the pattern there and replacing
it, exactly when the pattern occurs at the open places only.
-/

namespace LedgerConformance.Text

/-- How often a pattern occurs in a text, at overlapping places too. -/
def occurrences (pattern : List Char) : List Char → Nat
  | [] => 0
  | c :: rest => (if pattern.isPrefixOf (c :: rest) then 1 else 0) + occurrences pattern rest

/-- A text with open places, all filled with the same text. -/
def fillPlaces (filling : List Char) (places : List (Option Char)) : List Char :=
  places.flatMap fun place => place.elim filling fun c => [c]

section Replacing

variable {pattern replacement : List Char}

theorem replaceFrom_eq (pattern replacement : List Char) (skip : Nat) (s : List Char) :
    replaceFrom pattern replacement skip s = replaceAll pattern replacement (s.drop skip) := by
  induction s generalizing skip with
  | nil => cases skip <;> rfl
  | cons c rest ih =>
    cases skip with
    | zero => rfl
    | succ skip => rw [replaceFrom, ih, List.drop_succ_cons]

theorem replaceAll_append_self (hne : pattern ≠ []) (rest : List Char) :
    replaceAll pattern replacement (pattern ++ rest) =
      replacement ++ replaceAll pattern replacement rest := by
  obtain ⟨start, tail, rfl⟩ := List.exists_cons_of_ne_nil hne
  have hstarts : (start :: tail).isPrefixOf (start :: (tail ++ rest)) = true :=
    List.isPrefixOf_iff_prefix.mpr (List.prefix_append (start :: tail) rest)
  rw [replaceAll, List.cons_append, replaceFrom, if_pos hstarts, replaceFrom_eq]
  simp

theorem replaceAll_cons_of_not_found {c : Char} {rest : List Char}
    (h : ¬ pattern <+: c :: rest) :
    replaceAll pattern replacement (c :: rest) = c :: replaceAll pattern replacement rest := by
  rw [replaceAll, replaceFrom, if_neg (mt List.isPrefixOf_iff_prefix.mp h)]
  rfl

theorem occurrences_cons_of_not_found {c : Char} {rest : List Char}
    (h : ¬ pattern <+: c :: rest) :
    occurrences pattern (c :: rest) = occurrences pattern rest := by
  rw [occurrences, if_neg (mt List.isPrefixOf_iff_prefix.mp h), Nat.zero_add]

theorem occurrences_pos_iff (hne : pattern ≠ []) {s : List Char} :
    0 < occurrences pattern s ↔ pattern <:+: s := by
  induction s with
  | nil => simp [occurrences, hne]
  | cons c rest ih =>
    rw [occurrences, List.infix_cons_iff, ← ih, ← List.isPrefixOf_iff_prefix]
    by_cases hstarts : pattern.isPrefixOf (c :: rest) = true
    · simp [hstarts, Nat.add_comm 1]
    · simp [hstarts]

/-- A text ends, or starts with one of the patterns, or starts with a character at which
none of them begins. -/
theorem patterns_induction {motive : List Char → Prop} (patterns : List (List Char))
    (hne : ∀ pattern ∈ patterns, pattern ≠ []) (nil : motive [])
    (found : ∀ pattern ∈ patterns, ∀ rest, motive rest → motive (pattern ++ rest))
    (cons : ∀ c rest, (∀ pattern ∈ patterns, ¬ pattern <+: c :: rest) → motive rest →
      motive (c :: rest)) (s : List Char) : motive s := by
  obtain ⟨n, hn⟩ : ∃ n, s.length = n := ⟨_, rfl⟩
  induction n using Nat.strong_induction_on generalizing s with
  | _ n ih =>
    cases s with
    | nil => exact nil
    | cons c rest =>
      rw [List.length_cons] at hn
      by_cases hstarts : ∃ pattern ∈ patterns, pattern <+: c :: rest
      · obtain ⟨pattern, hpattern, others, hothers⟩ := hstarts
        have hlength := congrArg List.length hothers
        have hpositive := List.length_pos_iff.mpr (hne pattern hpattern)
        rw [List.length_append, List.length_cons] at hlength
        rw [← hothers]
        exact found pattern hpattern others (ih _ (by omega) others rfl)
      · exact cons c rest (by simpa using hstarts) (ih _ (by omega) rest rfl)

/-- A text ends, or starts with the pattern, or starts with a character at which the
pattern does not begin. -/
theorem pattern_induction {motive : List Char → Prop} (pattern : List Char) (hne : pattern ≠ [])
    (nil : motive []) (found : ∀ rest, motive rest → motive (pattern ++ rest))
    (cons : ∀ c rest, ¬ pattern <+: c :: rest → motive rest → motive (c :: rest))
    (s : List Char) : motive s := by
  induction s using patterns_induction [pattern] (by simpa using hne) with
  | nil => exact nil
  | found other hother rest ih =>
    rw [List.mem_singleton.mp hother]
    exact found rest ih
  | cons c rest hstarts ih => exact cons c rest (hstarts pattern List.mem_cons_self) ih

theorem replaceAll_self (pattern : List Char) (hne : pattern ≠ []) (s : List Char) :
    replaceAll pattern pattern s = s := by
  induction s using pattern_induction pattern hne with
  | nil => rfl
  | found rest ih => rw [replaceAll_append_self hne, ih]
  | cons c rest hstarts ih => rw [replaceAll_cons_of_not_found hstarts, ih]

end Replacing

section Single

variable {start : Char} {tail : List Char}

theorem not_prefix_of_ne {c : Char} (hc : start ≠ c) (rest : List Char) :
    ¬ start :: tail <+: c :: rest := fun h => hc (List.cons_prefix_cons.mp h).1

/-- No occurrence begins where the first character does not stand. -/
theorem occurrences_append_of_not_mem {before : List Char} (hbefore : start ∉ before)
    (rest : List Char) :
    occurrences (start :: tail) (before ++ rest) = occurrences (start :: tail) rest := by
  induction before with
  | nil => rfl
  | cons c before ih =>
    obtain ⟨hc, hbefore⟩ := not_or.mp (mt List.mem_cons.mpr hbefore)
    rw [List.cons_append, occurrences_cons_of_not_found (not_prefix_of_ne hc _), ih hbefore]

theorem replaceAll_append_of_not_mem {before : List Char} (hbefore : start ∉ before)
    (replacement rest : List Char) :
    replaceAll (start :: tail) replacement (before ++ rest) =
      before ++ replaceAll (start :: tail) replacement rest := by
  induction before with
  | nil => rfl
  | cons c before ih =>
    obtain ⟨hc, hbefore⟩ := not_or.mp (mt List.mem_cons.mpr hbefore)
    rw [List.cons_append, replaceAll_cons_of_not_found (not_prefix_of_ne hc _), ih hbefore,
      List.cons_append]

theorem occurrences_append_self (htail : start ∉ tail) (rest : List Char) :
    occurrences (start :: tail) (start :: tail ++ rest) =
      occurrences (start :: tail) rest + 1 := by
  have hstarts : (start :: tail).isPrefixOf (start :: (tail ++ rest)) = true :=
    List.isPrefixOf_iff_prefix.mpr (List.prefix_append (start :: tail) rest)
  rw [List.cons_append, occurrences, if_pos hstarts, occurrences_append_of_not_mem htail,
    Nat.add_comm]

/-- The replacement stands for the pattern once for each occurrence. -/
theorem length_replaceAll (htail : start ∉ tail) (replacement s : List Char) :
    (replaceAll (start :: tail) replacement s).length +
        (start :: tail).length * occurrences (start :: tail) s =
      s.length + replacement.length * occurrences (start :: tail) s := by
  induction s using pattern_induction (start :: tail) (List.cons_ne_nil _ _) with
  | nil => rfl
  | found rest ih =>
    rw [replaceAll_append_self (List.cons_ne_nil _ _), occurrences_append_self htail,
      List.length_append, List.length_append, Nat.mul_succ, Nat.mul_succ]
    omega
  | cons c rest hstarts ih =>
    rw [replaceAll_cons_of_not_found hstarts, occurrences_cons_of_not_found hstarts]
    simp only [List.length_cons] at ih ⊢
    omega

end Single

section Places

variable {start : Char} {tail : List Char}

theorem fillPlaces_none (filling : List Char) (rest : List (Option Char)) :
    fillPlaces filling (none :: rest) = filling ++ fillPlaces filling rest := rfl

theorem fillPlaces_some (filling : List Char) (c : Char) (rest : List (Option Char)) :
    fillPlaces filling (some c :: rest) = c :: fillPlaces filling rest := rfl

theorem fillPlaces_append (filling : List Char) (first second : List (Option Char)) :
    fillPlaces filling (first ++ second) = fillPlaces filling first ++ fillPlaces filling second :=
  List.flatMap_append

theorem fillPlaces_map_some (filling text : List Char) :
    fillPlaces filling (text.map some) = text := by
  induction text with
  | nil => rfl
  | cons c rest ih => rw [List.map_cons, fillPlaces_some, ih]

/-- There are at least as many occurrences as there are open places. -/
theorem count_none_le_occurrences (htail : start ∉ tail) (places : List (Option Char)) :
    places.count none ≤ occurrences (start :: tail) (fillPlaces (start :: tail) places) := by
  induction places with
  | nil => exact Nat.le_refl 0
  | cons place rest ih =>
    cases place with
    | none =>
      rw [fillPlaces_none, occurrences_append_self htail, List.count_cons_self]
      omega
    | some c =>
      rw [fillPlaces_some, occurrences, List.count_cons_of_ne (by simp)]
      omega

/-- Without the first character of the pattern in the text, all occurrences are at open
places. -/
theorem occurrences_fillPlaces_of_not_mem (htail : start ∉ tail) {places : List (Option Char)}
    (h : some start ∉ places) :
    occurrences (start :: tail) (fillPlaces (start :: tail) places) = places.count none := by
  induction places with
  | nil => rfl
  | cons place rest ih =>
    obtain ⟨hplace, hrest⟩ := not_or.mp (mt List.mem_cons.mpr h)
    cases place with
    | none =>
      rw [fillPlaces_none, occurrences_append_self htail, List.count_cons_self, ih hrest]
    | some c =>
      have hc : start ≠ c := fun heq => hplace (congrArg some heq)
      rw [fillPlaces_some, occurrences_cons_of_not_found (not_prefix_of_ne hc _), ih hrest,
        List.count_cons_of_ne (by simp)]

/-- Up to its next open place, a text is the same however the places are filled. -/
theorem prefix_fillPlaces {before : List Char} (hbefore : start ∉ before)
    {places : List (Option Char)} (h : before <+: fillPlaces (start :: tail) places)
    (filling : List Char) : before <+: fillPlaces filling places := by
  induction places generalizing before with
  | nil => exact h
  | cons place rest ih =>
    cases before with
    | nil => exact List.nil_prefix
    | cons d before =>
      obtain ⟨hd, hbefore⟩ := not_or.mp (mt List.mem_cons.mpr hbefore)
      cases place with
      | none =>
        rw [fillPlaces_none, List.cons_append, List.cons_prefix_cons] at h
        exact absurd h.1.symm hd
      | some c =>
        rw [fillPlaces_some, List.cons_prefix_cons] at h ⊢
        exact ⟨h.1, ih hbefore h.2⟩

/-- Where the pattern occurs at the open places only, replacing it fills them. -/
theorem replaceAll_fillPlaces (htail : start ∉ tail) {places : List (Option Char)}
    (h : occurrences (start :: tail) (fillPlaces (start :: tail) places) = places.count none)
    (filling : List Char) :
    replaceAll (start :: tail) filling (fillPlaces (start :: tail) places) =
      fillPlaces filling places := by
  induction places with
  | nil => rfl
  | cons place rest ih =>
    have hrest := count_none_le_occurrences htail rest
    cases place with
    | none =>
      rw [fillPlaces_none, occurrences_append_self htail, List.count_cons_self,
        Nat.add_right_cancel_iff] at h
      rw [fillPlaces_none, fillPlaces_none, replaceAll_append_self (List.cons_ne_nil _ _), ih h]
    | some c =>
      rw [fillPlaces_some, List.count_cons_of_ne (by simp)] at h
      have hstarts : ¬ start :: tail <+: c :: fillPlaces (start :: tail) rest := by
        intro hstarts
        rw [occurrences, if_pos (List.isPrefixOf_iff_prefix.mpr hstarts)] at h
        omega
      rw [occurrences_cons_of_not_found hstarts] at h
      rw [fillPlaces_some, fillPlaces_some, replaceAll_cons_of_not_found hstarts, ih h]

/-- A filling as long as the pattern that is put in further places is the pattern. -/
theorem eq_of_replaceAll_fillPlaces (htail : start ∉ tail) {filling : List Char}
    (hlength : filling.length = (start :: tail).length) {places : List (Option Char)}
    (h : replaceAll (start :: tail) filling (fillPlaces (start :: tail) places) =
      fillPlaces filling places) :
    filling = start :: tail ∨
      occurrences (start :: tail) (fillPlaces (start :: tail) places) = places.count none := by
  induction places with
  | nil => exact Or.inr rfl
  | cons place rest ih =>
    cases place with
    | none =>
      rw [fillPlaces_none, fillPlaces_none, replaceAll_append_self (List.cons_ne_nil _ _),
        List.append_cancel_left_eq] at h
      rw [fillPlaces_none, occurrences_append_self htail, List.count_cons_self,
        Nat.add_right_cancel_iff]
      exact ih h
    | some c =>
      rw [fillPlaces_some, fillPlaces_some] at h
      rw [fillPlaces_some, List.count_cons_of_ne (by simp)]
      by_cases hstarts : start :: tail <+: c :: fillPlaces (start :: tail) rest
      · left
        obtain ⟨hstart, hstarts'⟩ := List.cons_prefix_cons.mp hstarts
        -- the filled text starts with the pattern, and also with the filling
        have hfilled : start :: tail <+: c :: fillPlaces filling rest :=
          List.cons_prefix_cons.mpr ⟨hstart, prefix_fillPlaces htail hstarts' filling⟩
        obtain ⟨others, hothers⟩ := hstarts
        rw [← hothers, replaceAll_append_self (List.cons_ne_nil _ _)] at h
        have hfilling : filling <+: c :: fillPlaces filling rest := ⟨_, h⟩
        exact (List.prefix_of_prefix_length_le hfilling hfilled hlength.le).eq_of_length hlength
      · rw [replaceAll_cons_of_not_found hstarts, List.cons.injEq] at h
        rw [occurrences_cons_of_not_found hstarts]
        exact ih h.2

theorem length_fillPlaces (filling : List Char) (places : List (Option Char)) :
    (fillPlaces filling places).length + places.count none =
      places.length + filling.length * places.count none := by
  induction places with
  | nil => rfl
  | cons place rest ih =>
    cases place with
    | none =>
      rw [fillPlaces_none, List.length_append, List.count_cons_self, List.length_cons,
        Nat.mul_succ]
      omega
    | some c =>
      rw [fillPlaces_some, List.count_cons_of_ne (by simp), List.length_cons, List.length_cons]
      omega

/-- Writing the pattern in the open places and replacing it fills them exactly when the
filling is the pattern itself or the pattern occurs at the open places only. -/
theorem replaceAll_fillPlaces_iff (htail : start ∉ tail) (filling : List Char)
    (places : List (Option Char)) :
    replaceAll (start :: tail) filling (fillPlaces (start :: tail) places) =
        fillPlaces filling places ↔
      filling = start :: tail ∨
        occurrences (start :: tail) (fillPlaces (start :: tail) places) = places.count none := by
  constructor
  · intro h
    by_cases hlength : filling.length = (start :: tail).length
    · exact eq_of_replaceAll_fillPlaces htail hlength h
    · -- the length of the text tells how many times the pattern was replaced
      have hreplaced := length_replaceAll htail filling (fillPlaces (start :: tail) places)
      have hfilled := length_fillPlaces filling places
      have hwritten := length_fillPlaces (start :: tail) places
      obtain ⟨further, hfurther⟩ :=
        Nat.exists_eq_add_of_le (count_none_le_occurrences htail places)
      rw [h, hfurther, Nat.mul_add, Nat.mul_add] at hreplaced
      have hsame : (start :: tail).length * further = filling.length * further := by omega
      rcases Nat.eq_zero_or_pos further with rfl | hpositive
      · exact Or.inr hfurther
      · exact absurd (Nat.eq_of_mul_eq_mul_right hpositive hsame).symm hlength
  · rintro (rfl | hcount)
    · exact replaceAll_self _ (List.cons_ne_nil _ _) _
    · exact replaceAll_fillPlaces htail hcount filling

end Places

end LedgerConformance.Text
