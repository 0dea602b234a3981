import LedgerConformance.Decimal.Binary64
import Mathlib.Algebra.Order.Field.Power
import Mathlib.Data.Rat.Cast.Order
import Mathlib.Tactic.FieldSimp
import Mathlib.Tactic.Linarith
import Mathlib.Tactic.Positivity
import Mathlib.Tactic.Ring

/-!
Magnitudes of floating-point numbers. Rounding a quotient gives at most twice the
quotient, and it only fails far above it. These bounds are wide, but they hold over a
whole chain of operations, of which each rounds once.
-/

namespace LedgerConformance.Binary64

/-- The magnitude as a rational number. -/
def magnitude (x : Binary64) : ℚ := x.mantissa * 2 ^ x.exponent

theorem magnitude_nonneg (x : Binary64) : 0 ≤ x.magnitude := by
  unfold magnitude
  positivity

theorem powerRatio_pos {base : Nat} (h : 0 < base) (e : Int) :
    0 < (powerRatio base e).1 ∧ 0 < (powerRatio base e).2 := by
  unfold powerRatio
  split
  · exact ⟨Nat.pow_pos h, Nat.one_pos⟩
  · exact ⟨Nat.one_pos, Nat.pow_pos h⟩

/-- The power as a quotient. -/
theorem powerRatio_eq {base : Nat} (h : 0 < base) (e : Int) :
    ((powerRatio base e).1 : ℚ) = (base : ℚ) ^ e * (powerRatio base e).2 := by
  have hbase : (base : ℚ) ≠ 0 := by positivity
  unfold powerRatio
  by_cases he : 0 ≤ e
  · obtain ⟨n, rfl⟩ := Int.eq_ofNat_of_zero_le he
    rw [if_pos he, Int.toNat_natCast, Nat.pow_eq, Nat.cast_pow, zpow_natCast, Nat.cast_one, mul_one]
  · obtain ⟨n, hn⟩ := Int.eq_ofNat_of_zero_le (by omega : 0 ≤ -e)
    have hneg : e = -(n : Int) := by omega
    rw [if_neg he, hn, Int.toNat_natCast, Nat.pow_eq, Nat.cast_pow, hneg, zpow_neg, zpow_natCast,
      Nat.cast_one, inv_mul_cancel₀ (pow_ne_zero _ hbase)]

theorem powerRatio_two (e : Int) :
    ((powerRatio 2 e).1 : ℚ) = (2 : ℚ) ^ e * (powerRatio 2 e).2 := by
  have hpower := powerRatio_eq (by omega : 0 < 2) e
  rwa [Nat.cast_ofNat] at hpower

theorem powerRatio_ten (e : Int) :
    ((powerRatio 10 e).1 : ℚ) = (10 : ℚ) ^ e * (powerRatio 10 e).2 := by
  have hpower := powerRatio_eq (by omega : 0 < 10) e
  rwa [Nat.cast_ofNat] at hpower

theorem ratio_pos (x : Binary64) : 0 < x.ratio.2 := (powerRatio_pos (by omega) x.exponent).2

theorem ratio_eq (x : Binary64) : (x.ratio.1 : ℚ) = x.magnitude * x.ratio.2 := by
  simp only [ratio, magnitude]
  rw [Nat.cast_mul, powerRatio_two]
  ring

theorem magnitude_eq (x : Binary64) : x.magnitude = (x.ratio.1 : ℚ) / x.ratio.2 := by
  have hpos : (0 : ℚ) < x.ratio.2 := by exact_mod_cast x.ratio_pos
  rw [ratio_eq, mul_div_assoc, div_self hpos.ne', mul_one]

/-! ### Rounding -/

theorem roundDiv_mul_le (num den : Nat) : roundDiv num den * den ≤ 2 * num := by
  have hsplit := Nat.div_add_mod num den
  have hcomm : den * (num / den) = num / den * den := Nat.mul_comm _ _
  unfold roundDiv
  dsimp only
  split
  · rename_i hround
    have hhalf : den ≤ 2 * (num % den) := by
      simp only [Bool.or_eq_true, decide_eq_true_eq, Bool.and_eq_true, beq_iff_eq] at hround
      omega
    rw [Nat.add_mul, Nat.one_mul]
    omega
  · omega

/-- A quotient in units of `2 ^ e`, rounded. -/
theorem roundDiv_units_le (num : Nat) {den : Nat} (hden : 0 < den) (e : Int) :
    (roundDiv (num * (powerRatio 2 e).2) (den * (powerRatio 2 e).1) : ℚ) * 2 ^ e ≤
      2 * (num / den : ℚ) := by
  obtain ⟨-, hdown⟩ := powerRatio_pos (by omega : 0 < 2) e
  have hround := roundDiv_mul_le (num * (powerRatio 2 e).2) (den * (powerRatio 2 e).1)
  generalize roundDiv (num * (powerRatio 2 e).2) (den * (powerRatio 2 e).1) = m at hround ⊢
  have hcast : (m : ℚ) * (den * (powerRatio 2 e).1) ≤ 2 * (num * (powerRatio 2 e).2) := by
    exact_mod_cast hround
  have hdenPos : (0 : ℚ) < den := by exact_mod_cast hden
  have hdownPos : (0 : ℚ) < (powerRatio 2 e).2 := by exact_mod_cast hdown
  rw [powerRatio_two] at hcast
  rw [← mul_div_assoc, le_div_iff₀ hdenPos]
  refine le_of_mul_le_mul_right ?_ hdownPos
  calc (m : ℚ) * 2 ^ e * den * (powerRatio 2 e).2
      = m * (den * (2 ^ e * (powerRatio 2 e).2)) := by ring
    _ ≤ 2 * (num * (powerRatio 2 e).2) := hcast
    _ = 2 * num * (powerRatio 2 e).2 := by ring

/-- A quotient other than zero is rounded at its exponent; only a mantissa that became
too large takes the next one. -/
theorem ofRatio?_of_ne_zero (negative : Bool) {num den : Nat} (hnum : num ≠ 0) (hden : 0 < den) :
    ∃ (m : Nat) (e : Int), exponentOf num den ≤ e ∧ e ≤ exponentOf num den + 1 ∧
      (m : ℚ) * 2 ^ e ≤ 2 * (num / den : ℚ) ∧
      ofRatio? negative num den = if greatestExponent < e then none else some ⟨negative, m, e⟩ := by
  have hvalue := roundDiv_units_le num hden (exponentOf num den)
  generalize hfound : ofRatio? negative num den = found
  unfold ofRatio? at hfound
  -- The kernel is not to compute with the bounds of the mantissa.
  generalize hlarge : (0x20000000000000 : Nat) = large at hfound
  generalize hsmall : (0x10000000000000 : Nat) = small at hfound
  split at hfound
  · rename_i hzero
    exact absurd (beq_iff_eq.mp hzero) hnum
  · extract_lets e at hfound
    split at hfound
    rename_i up down hratio
    extract_lets m at hfound
    split at hfound
    rename_i m' e' hpair
    rw [hratio] at hvalue
    change (m : ℚ) * 2 ^ e ≤ 2 * (num / den : ℚ) at hvalue
    change ∃ (m : Nat) (e'' : Int), e ≤ e'' ∧ e'' ≤ e + 1 ∧ _
    clear_value m e
    refine ⟨m', e', ?_⟩
    rw [← hfound]
    split at hpair
    · rename_i hfull
      cases hpair
      have hdouble : m = 2 * small := by
        have hm := beq_iff_eq.mp hfull
        omega
      have hhalf : (small : ℚ) * 2 ^ (e + 1) = m * 2 ^ e := by
        rw [hdouble, zpow_add_one₀ (by norm_num)]
        push_cast
        ring
      exact ⟨by omega, Int.le_refl _, hhalf.trans_le hvalue, rfl⟩
    · cases hpair
      exact ⟨Int.le_refl _, by omega, hvalue, rfl⟩

@[simp] theorem ofRatio?_zero (negative : Bool) (den : Nat) :
    ofRatio? negative 0 den = some (zero negative) := rfl

theorem leastExponent_le (num den : Nat) : leastExponent ≤ exponentOf num den := by
  unfold exponentOf
  dsimp only
  exact Int.le_max_right _ _

/-- What rounding gives: no exponent that is too small, and a magnitude that is at most
twice the quotient. -/
theorem ofRatio?_eq_some {negative : Bool} {num den : Nat} {x : Binary64} (hden : 0 < den)
    (h : ofRatio? negative num den = some x) :
    leastExponent ≤ x.exponent ∧ x.magnitude ≤ 2 * (num / den : ℚ) := by
  by_cases hnum : num = 0
  · rw [hnum, ofRatio?_zero] at h
    cases h
    refine ⟨Int.le_refl _, ?_⟩
    simp only [zero, magnitude, Nat.cast_zero, zero_mul]
    positivity
  · obtain ⟨m, e, hlow, -, hvalue, hround⟩ := ofRatio?_of_ne_zero negative hnum hden
    have hleast := leastExponent_le num den
    rw [hround, Option.ite_none_left_eq_some] at h
    obtain ⟨-, hx⟩ := h
    cases hx
    exact ⟨hleast.trans hlow, hvalue⟩

theorem log2_le {n bound : Nat} (h : n < 2 ^ (bound + 1)) : Nat.log2 n ≤ bound := by
  by_cases hn : n = 0
  · subst hn
    exact Nat.zero_le _
  · have hlt := (Nat.log2_lt hn).mpr h
    omega

theorem exponentOf_le {num den : Nat} {bound : Nat} (hden : 0 < den)
    (hquotient : (num / den : ℚ) < 2 ^ bound) :
    exponentOf num den ≤ max (bound - 52 : Int) leastExponent := by
  have h : num < 2 ^ bound * den := by
    have hpos : (0 : ℚ) < den := by exact_mod_cast hden
    rw [div_lt_iff₀ hpos] at hquotient
    exact_mod_cast hquotient
  have hlog : Nat.log2 num ≤ bound + Nat.log2 den := by
    apply log2_le
    calc num < 2 ^ bound * den := h
      _ ≤ 2 ^ bound * 2 ^ (Nat.log2 den + 1) := Nat.mul_le_mul_left _ Nat.lt_log2_self.le
      _ = 2 ^ (bound + Nat.log2 den + 1) := by rw [← Nat.pow_add, Nat.add_assoc]
  unfold exponentOf
  dsimp only
  split <;> omega

/-- A quotient below `2 ^ 1000` can be rounded. -/
theorem isSome_ofRatio? (negative : Bool) {num den bound : Nat} (hden : 0 < den)
    (hbound : bound ≤ 1000) (h : (num / den : ℚ) < 2 ^ bound) : (ofRatio? negative num den).isSome = true := by
  by_cases hnum : num = 0
  · rw [hnum, ofRatio?_zero]
    rfl
  · obtain ⟨m, e, -, hhigh, -, hround⟩ := ofRatio?_of_ne_zero negative hnum hden
    have hle := exponentOf_le hden h
    have hroom : ¬ greatestExponent < e := by
      unfold leastExponent at hle
      unfold greatestExponent
      omega
    rw [hround, if_neg hroom]
    rfl

/-! ### Operations -/

theorem mul?_eq_some {x y z : Binary64} (h : x.mul? y = some z) :
    leastExponent ≤ z.exponent ∧ z.magnitude ≤ 2 * (x.magnitude * y.magnitude) := by
  have hbounds := ofRatio?_eq_some (Nat.mul_pos x.ratio_pos y.ratio_pos) h
  rw [x.magnitude_eq, y.magnitude_eq, div_mul_div_comm]
  push_cast at hbounds
  exact hbounds

theorem isSome_mul? {x y : Binary64} {bound : Nat} (hbound : bound ≤ 1000)
    (h : x.magnitude * y.magnitude < 2 ^ bound) : (x.mul? y).isSome = true := by
  apply isSome_ofRatio? _ (Nat.mul_pos x.ratio_pos y.ratio_pos) hbound
  rw [x.magnitude_eq, y.magnitude_eq, div_mul_div_comm] at h
  push_cast
  exact h

theorem div?_eq_some {x y z : Binary64} (hy : 0 < y.ratio.1) (h : x.div? y = some z) :
    leastExponent ≤ z.exponent ∧ z.magnitude ≤ 2 * (x.magnitude / y.magnitude) := by
  have hbounds := ofRatio?_eq_some (Nat.mul_pos x.ratio_pos hy) h
  rw [x.magnitude_eq, y.magnitude_eq, div_div_div_eq]
  push_cast at hbounds
  exact hbounds

theorem isSome_div? {x y : Binary64} (hy : 0 < y.ratio.1) {bound : Nat} (hbound : bound ≤ 1000)
    (h : x.magnitude / y.magnitude < 2 ^ bound) : (x.div? y).isSome = true := by
  apply isSome_ofRatio? _ (Nat.mul_pos x.ratio_pos hy) hbound
  rw [x.magnitude_eq, y.magnitude_eq, div_div_div_eq] at h
  push_cast
  exact h

theorem addMagnitudes?_eq_some {x y z : Binary64} (h : x.addMagnitudes? y = some z) :
    z.magnitude ≤ 2 * (x.magnitude + y.magnitude) := by
  have hx : (x.ratio.2 : ℚ) ≠ 0 := by exact_mod_cast x.ratio_pos.ne'
  have hy : (y.ratio.2 : ℚ) ≠ 0 := by exact_mod_cast y.ratio_pos.ne'
  obtain ⟨-, hbound⟩ := ofRatio?_eq_some (Nat.mul_pos x.ratio_pos y.ratio_pos) h
  rw [x.magnitude_eq, y.magnitude_eq, div_add_div _ _ hx hy]
  push_cast at hbound
  rwa [mul_comm (x.ratio.2 : ℚ) (y.ratio.1 : ℚ)]

theorem ofNat?_eq_some {n : Nat} {x : Binary64} (h : ofNat? n = some x) :
    x.magnitude ≤ 2 * n := by
  obtain ⟨-, hbound⟩ := ofRatio?_eq_some Nat.one_pos h
  rwa [Nat.cast_one, div_one] at hbound

theorem roundHalfUp_le (x : Binary64) : (x.roundHalfUp : ℚ) ≤ x.magnitude + 1 := by
  have hpos : (0 : ℚ) < x.ratio.2 := by exact_mod_cast x.ratio_pos
  have hfloor : x.roundHalfUp * (2 * x.ratio.2) ≤ 2 * x.ratio.1 + x.ratio.2 :=
    Nat.div_mul_le_self _ _
  have hcast : (x.roundHalfUp : ℚ) * (2 * x.ratio.2) ≤ 2 * x.ratio.1 + x.ratio.2 := by
    exact_mod_cast hfloor
  rw [ratio_eq] at hcast
  refine le_of_mul_le_mul_right ?_ hpos
  linarith

/-- A number that a few operations on moderate numbers lead to. -/
structure Moderate (x : Binary64) : Prop where
  exponent : leastExponent ≤ x.exponent
  magnitude : x.magnitude ≤ 2 ^ 128

theorem magnitude_zero (negative : Bool) : (zero negative).magnitude = 0 := by
  rw [Binary64.magnitude, zero, Nat.cast_zero, zero_mul]

theorem moderate_zero (negative : Bool) : (zero negative).Moderate := by
  refine ⟨Int.le_refl _, ?_⟩
  rw [magnitude_zero]
  positivity

/-- The exponent of the first binary digit. -/
def leadingBit (x : Binary64) : Int := (Nat.log2 x.mantissa : Int) + x.exponent

theorem two_zpow_leadingBit_le {x : Binary64} (h : x.mantissa ≠ 0) :
    (2 : ℚ) ^ x.leadingBit ≤ x.magnitude := by
  have hlog : ((2 ^ Nat.log2 x.mantissa : Nat) : ℚ) ≤ x.mantissa := by
    exact_mod_cast Nat.log2_self_le h
  rw [leadingBit, zpow_add₀ (by norm_num), zpow_natCast]
  push_cast at hlog
  exact mul_le_mul_of_nonneg_right hlog (by positivity)

theorem Moderate.leadingBit_bounds {x : Binary64} (h : x.Moderate) (hx : x.mantissa ≠ 0) :
    -1074 ≤ x.leadingBit ∧ x.leadingBit ≤ 128 := by
  have hlow : -1074 ≤ x.exponent := h.exponent
  have hpower : (2 : ℚ) ^ x.leadingBit ≤ 2 ^ (128 : Int) :=
    (two_zpow_leadingBit_le hx).trans (by exact_mod_cast h.magnitude)
  refine ⟨by unfold leadingBit; omega, ?_⟩
  exact (zpow_le_zpow_iff_right₀ (by norm_num)).mp hpower

end LedgerConformance.Binary64
