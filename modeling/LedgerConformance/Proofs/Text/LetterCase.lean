import LedgerConformance.Text.Blank

/-!
Letters and digits by their numbers. The two maps of the letters move them by the same
distance in opposite directions, so texts that are the same in capitals are the same
in small letters; and what has no case is only the same as itself.
-/

namespace LedgerConformance.Text

theorem isUpper_iff {c : Char} : c.isUpper = true ↔ 65 ≤ c.toNat ∧ c.toNat ≤ 90 :=
  decide_eq_true_iff

theorem isLower_iff {c : Char} : c.isLower = true ↔ 97 ≤ c.toNat ∧ c.toNat ≤ 122 :=
  (Bool.and_eq_true_iff).trans (and_congr decide_eq_true_iff decide_eq_true_iff)

theorem isDigit_iff {c : Char} : c.isDigit = true ↔ 48 ≤ c.toNat ∧ c.toNat ≤ 57 :=
  (Bool.and_eq_true_iff).trans (and_congr decide_eq_true_iff decide_eq_true_iff)

theorem isAlphanum_eq (c : Char) : c.isAlphanum = (c.isUpper || c.isLower || c.isDigit) := rfl

theorem isAlphanum_iff {c : Char} : c.isAlphanum = true ↔
    (48 ≤ c.toNat ∧ c.toNat ≤ 57) ∨ (65 ≤ c.toNat ∧ c.toNat ≤ 90) ∨
      (97 ≤ c.toNat ∧ c.toNat ≤ 122) := by
  rw [isAlphanum_eq, Bool.or_eq_true, Bool.or_eq_true, isUpper_iff, isLower_iff, isDigit_iff]
  omega

theorem isAlphanum_of_isDigit {c : Char} (h : c.isDigit = true) : c.isAlphanum = true := by
  rw [isAlphanum_eq, h, Bool.or_true]

theorem isAlphanum_of_isUpper {c : Char} (h : c.isUpper = true) : c.isAlphanum = true := by
  rw [isAlphanum_eq, h, Bool.true_or, Bool.true_or]

theorem isAlphanum_of_isLower {c : Char} (h : c.isLower = true) : c.isAlphanum = true := by
  rw [isAlphanum_eq, h, Bool.or_true, Bool.true_or]

theorem isBlank_of_isAlphanum {c : Char} (h : c.isAlphanum = true) : isBlank c = false := by
  have hrange := isAlphanum_iff.mp h
  simp only [isBlank, Bool.or_eq_false_iff, Bool.and_eq_false_iff, decide_eq_false_iff_not,
    beq_eq_false_iff_ne]
  omega

theorem toNat_toLower (c : Char) :
    c.toLower.toNat = if 65 ≤ c.toNat ∧ c.toNat ≤ 90 then c.toNat + 32 else c.toNat := by
  unfold Char.toLower
  split
  · rename_i h
    have hlow : 65 ≤ c.toNat := UInt32.le_iff_toNat_le.mp h.1
    have hhigh : c.toNat ≤ 90 := UInt32.le_iff_toNat_le.mp h.2
    have hstep : (c.val + ('a'.val - 'A'.val)).toNat = (c.toNat + 32) % 2 ^ 32 :=
      UInt32.toNat_add _ _
    rw [if_pos ⟨hlow, hhigh⟩]
    refine hstep.trans ?_
    omega
  · rename_i h
    rw [if_neg]
    intro hletter
    exact h ⟨UInt32.le_iff_toNat_le.mpr hletter.1, UInt32.le_iff_toNat_le.mpr hletter.2⟩

theorem toNat_toUpper (c : Char) :
    c.toUpper.toNat = if 97 ≤ c.toNat ∧ c.toNat ≤ 122 then c.toNat - 32 else c.toNat := by
  unfold Char.toUpper
  split
  · rename_i h
    have hlow : 97 ≤ c.toNat := UInt32.le_iff_toNat_le.mp h.1
    have hhigh : c.toNat ≤ 122 := UInt32.le_iff_toNat_le.mp h.2
    -- words of 32 bits go down by going all the way around
    have hstep : (c.val + ('A'.val - 'a'.val)).toNat =
        (c.toNat + ('A'.val - 'a'.val).toNat) % 2 ^ 32 := UInt32.toNat_add _ _
    have hback : ('A'.val - 'a'.val).toNat = 2 ^ 32 - 32 := by decide
    rw [if_pos ⟨hlow, hhigh⟩]
    refine hstep.trans ?_
    rw [hback]
    omega
  · rename_i h
    rw [if_neg]
    intro hletter
    exact h ⟨UInt32.le_iff_toNat_le.mpr hletter.1, UInt32.le_iff_toNat_le.mpr hletter.2⟩

theorem toUpper_eq_toUpper_iff {a b : Char} : a.toUpper = b.toUpper ↔ a.toLower = b.toLower := by
  rw [← Char.toNat_inj, ← Char.toNat_inj, toNat_toUpper, toNat_toUpper, toNat_toLower,
    toNat_toLower]
  split <;> split <;> split <;> split <;> omega

theorem isAlphanum_of_toUpper_eq {a b : Char} (h : a.toUpper = b.toUpper)
    (ha : a.isAlphanum = true) : b.isAlphanum = true := by
  rw [← Char.toNat_inj, toNat_toUpper, toNat_toUpper] at h
  rw [isAlphanum_iff] at ha ⊢
  split at h <;> split at h <;> omega

theorem eq_of_toUpper_eq_of_isDigit {a b : Char} (h : a.toUpper = b.toUpper)
    (ha : a.isDigit = true) : a = b := by
  rw [← Char.toNat_inj, toNat_toUpper, toNat_toUpper] at h
  rw [isDigit_iff] at ha
  rw [← Char.toNat_inj]
  split at h <;> split at h <;> omega

theorem map_toUpper_eq_iff {as bs : List Char} :
    as.map Char.toUpper = bs.map Char.toUpper ↔ as.map Char.toLower = bs.map Char.toLower := by
  induction as generalizing bs with
  | nil => cases bs <;> simp
  | cons a as ih => cases bs <;> simp [toUpper_eq_toUpper_iff, ih]

/-- Digits have no case. -/
theorem eq_of_map_toUpper_eq_of_isDigit {as bs : List Char}
    (h : as.map Char.toUpper = bs.map Char.toUpper) (has : ∀ c ∈ as, c.isDigit = true) :
    as = bs := by
  induction as generalizing bs with
  | nil => exact (List.map_eq_nil_iff.mp h.symm).symm
  | cons a as ih =>
    cases bs with
    | nil => simp at h
    | cons b bs =>
      obtain ⟨hab, hrest⟩ := List.cons.inj h
      obtain ⟨ha, has⟩ := List.forall_mem_cons.mp has
      rw [eq_of_toUpper_eq_of_isDigit hab ha, ih hrest has]

theorem toList_toUpper (s : String) : s.toUpper.toList = s.toList.map Char.toUpper :=
  String.toList_map

theorem toList_toLower (s : String) : s.toLower.toList = s.toList.map Char.toLower :=
  String.toList_map

/-- Texts that are the same in capitals are the same in small letters. -/
theorem sameCapitals_iff {a b : String} : a.toUpper = b.toUpper ↔ a.toLower = b.toLower := by
  rw [← String.toList_inj, ← String.toList_inj, toList_toUpper, toList_toUpper, toList_toLower,
    toList_toLower, map_toUpper_eq_iff]

end LedgerConformance.Text
