import LedgerConformance.Text.Lowercase
import Mathlib.Data.List.Basic

/-!
Small letters of a part of a text. All characters but the capital sigma have one small form
wherever they stand, and a capital sigma has the final one where it ends a word. So a part
of a text has there the small letters that it has alone exactly when each of its sigmas
ends a word in both places or in none.
-/

namespace LedgerConformance.Text

/-! ### The ends of words -/

theorem meetsCased_cons (c : Char) (rest : List Char) :
    meetsCased (c :: rest) = if isCaseIgnorable c then meetsCased rest else isCased c := by
  unfold meetsCased
  by_cases hc : isCaseIgnorable c <;> simp [hc]

/-- Nothing, or a text that starts with a space. -/
def IsApart (s : List Char) : Prop := ∀ c ∈ s.head?, c = ' '

theorem meetsCased_of_isApart {s : List Char} (h : IsApart s) : meetsCased s = false := by
  cases s with
  | nil => rfl
  | cons c rest =>
    have hignored : isCaseIgnorable ' ' = false := by decide +kernel
    have hcased : isCased ' ' = false := by decide +kernel
    simp [h c rfl, meetsCased_cons, hignored, hcased]

theorem IsApart.append_space {s : List Char} (h : IsApart s) (rest : List Char) :
    IsApart (s ++ ([' '] ++ rest)) := by
  cases s with
  | nil => simp [IsApart]
  | cons c s => simpa [IsApart] using h

/-- No letter is met in a text behind one in which none is met. -/
theorem meetsCased_append {after : List Char} (h : meetsCased after = false) (s : List Char) :
    meetsCased (s ++ after) = meetsCased s := by
  induction s with
  | nil => exact h
  | cons c rest ih => rw [List.cons_append, meetsCased_cons, meetsCased_cons, ih]

/-- A word ends between these two texts, the first one written from its end. -/
def endsWord (before after : List Char) : Bool := meetsCased before && !meetsCased after

/-! ### Small letters in their places -/

/-- The small form of a character between two texts, the first one written from its end. -/
def smallFormAt (before : List Char) (c : Char) (after : List Char) : List Char :=
  if c == 'Σ' then (if endsWord before after then ['ς'] else ['σ']) else smallForm c

theorem lowerFrom_cons (before : List Char) (c : Char) (rest : List Char) :
    lowerFrom before (c :: rest) = smallFormAt before c rest ++ lowerFrom (c :: before) rest := rfl

/-- The small letters of a text between two others, the first one written from its end. -/
def lowerWithin (before : List Char) : (s after : List Char) → List Char
  | [], _ => []
  | c :: rest, after =>
    smallFormAt before c (rest ++ after) ++ lowerWithin (c :: before) rest after

theorem lowerFrom_append (before s after : List Char) :
    lowerFrom before (s ++ after) =
      lowerWithin before s after ++ lowerFrom (s.reverse ++ before) after := by
  induction s generalizing before with
  | nil => rfl
  | cons c rest ih =>
    rw [List.cons_append, lowerFrom_cons, ih, lowerWithin, List.append_assoc,
      List.reverse_cons, List.append_assoc]
    rfl

theorem smallFormAt_congr {before before' after after' : List Char} (c : Char)
    (h : endsWord before after = endsWord before' after') :
    smallFormAt before c after = smallFormAt before' c after' := by
  rw [smallFormAt, smallFormAt, h]

/-- What stands beyond the spaces around a text does not count. -/
theorem lowerWithin_of_isApart {before after start finish : List Char} (hstart : IsApart start)
    (hfinish : IsApart finish) (s : List Char) :
    lowerWithin (before ++ start) s (after ++ finish) = lowerWithin before s after := by
  induction s generalizing before with
  | nil => rfl
  | cons c rest ih =>
    have hends : endsWord (before ++ start) (rest ++ (after ++ finish)) =
        endsWord before (rest ++ after) := by
      rw [endsWord, endsWord, meetsCased_append (meetsCased_of_isApart hstart),
        ← List.append_assoc, meetsCased_append (meetsCased_of_isApart hfinish)]
    rw [lowerWithin, lowerWithin, smallFormAt_congr c hends, ← List.cons_append, ih]

/-! ### Texts whose sigmas keep their forms -/

/-- Every capital sigma of a text ends a word between the two others if and only if it does
so when the text stands alone. -/
def KeepsSigmas (before s after : List Char) : Prop :=
  ∀ x y, s = x ++ 'Σ' :: y →
    endsWord (x.reverse ++ before) (y ++ after) = endsWord x.reverse y

theorem smallFormAt_eq_iff {before before' after after' : List Char} {c : Char} :
    smallFormAt before c after = smallFormAt before' c after' ↔
      (c = 'Σ' → endsWord before after = endsWord before' after') := by
  unfold smallFormAt
  by_cases hc : c = 'Σ'
  · subst hc
    cases endsWord before after <;> cases endsWord before' after' <;> simp
  · simp [hc]

theorem length_smallFormAt (before before' after after' : List Char) (c : Char) :
    (smallFormAt before c after).length = (smallFormAt before' c after').length := by
  unfold smallFormAt
  split
  · split <;> split <;> rfl
  · rfl

/-- The first characters of a text, the sigmas behind them, and what stands around all of
them; `done` has what was read of the text already, from its end. -/
theorem lowerWithin_eq_lowerFrom_iff (done before s after : List Char) :
    lowerWithin (done ++ before) s after = lowerFrom done s ↔
      ∀ x y, s = x ++ 'Σ' :: y →
        endsWord (x.reverse ++ (done ++ before)) (y ++ after) = endsWord (x.reverse ++ done) y := by
  induction s generalizing done with
  | nil => simp [lowerWithin, lowerFrom]
  | cons c rest ih =>
    have hsplit : lowerWithin (done ++ before) (c :: rest) after = lowerFrom done (c :: rest) ↔
        smallFormAt (done ++ before) c (rest ++ after) = smallFormAt done c rest ∧
          lowerWithin (c :: done ++ before) rest after = lowerFrom (c :: done) rest := by
      rw [lowerWithin, lowerFrom_cons]
      constructor
      · intro h
        exact List.append_inj h (length_smallFormAt _ _ _ _ c)
      · rintro ⟨hfirst, hrest⟩
        rw [hfirst, ← hrest]
        rfl
    rw [hsplit, smallFormAt_eq_iff, ih]
    constructor
    · rintro ⟨hfirst, hrest⟩ x y heq
      cases x with
      | nil =>
        obtain ⟨rfl, rfl⟩ := List.cons.inj heq
        exact hfirst rfl
      | cons d x =>
        obtain ⟨rfl, rfl⟩ := List.cons.inj heq
        simpa using hrest x y rfl
    · intro h
      refine ⟨?_, ?_⟩
      · rintro rfl
        exact h [] rest rfl
      · rintro x y rfl
        simpa using h (c :: x) y rfl

/-- A text has its small letters between two others exactly when its sigmas keep their
forms. -/
theorem lowerWithin_eq_iff (before s after : List Char) :
    lowerWithin before s after = lowerFrom [] s ↔ KeepsSigmas before s after := by
  have hiff := lowerWithin_eq_lowerFrom_iff [] before s after
  simpa only [KeepsSigmas, List.nil_append, List.append_nil] using hiff

instance (before s after : List Char) : Decidable (KeepsSigmas before s after) :=
  decidable_of_iff _ (lowerWithin_eq_iff before s after)

/-- Without a sigma there is no form to keep, and no letter on either side changes one. -/
theorem KeepsSigmas.of_plain {before s after : List Char}
    (h : 'Σ' ∉ s ∨ meetsCased before = false ∧ meetsCased after = false) :
    KeepsSigmas before s after := by
  rintro x y rfl
  rcases h with hsigma | ⟨hbefore, hafter⟩
  · simp at hsigma
  · rw [endsWord, endsWord, meetsCased_append hbefore, meetsCased_append hafter]

end LedgerConformance.Text
