import LedgerConformance.Decimal.Shortest
import LedgerConformance.Proofs.Decimal.Magnitude

/-!
Decimal digits of floating-point numbers. The digits that are chosen are those of a
positive number, and the place of the first one is not far above the magnitude, so the
text of a moderate number has moderate parts.
-/

namespace LedgerConformance.Decimal

open Binary64 (powerRatio powerRatio_pos powerRatio_two powerRatio_ten)

/-- Both sides of a comparison of `c · 10 ^ g` with `n · 2 ^ e`, without quotients. -/
theorem cross_le_iff (c n : Nat) (g e : Int) :
    c * (powerRatio 10 g).1 * (powerRatio 2 e).2 ≤ n * (powerRatio 2 e).1 * (powerRatio 10 g).2 ↔
      (c : ℚ) * 10 ^ g ≤ n * 2 ^ e := by
  have hten : (0 : ℚ) < (powerRatio 10 g).2 := by
    exact_mod_cast (powerRatio_pos (by omega : 0 < 10) g).2
  have htwo : (0 : ℚ) < (powerRatio 2 e).2 := by
    exact_mod_cast (powerRatio_pos (by omega : 0 < 2) e).2
  have hleft : ((c * (powerRatio 10 g).1 * (powerRatio 2 e).2 : Nat) : ℚ) =
      c * 10 ^ g * ((powerRatio 10 g).2 * (powerRatio 2 e).2) := by
    push_cast
    rw [powerRatio_ten]
    ring
  have hright : ((n * (powerRatio 2 e).1 * (powerRatio 10 g).2 : Nat) : ℚ) =
      n * 2 ^ e * ((powerRatio 10 g).2 * (powerRatio 2 e).2) := by
    push_cast
    rw [powerRatio_two]
    ring
  rw [← Nat.cast_le (α := ℚ), hleft, hright]
  exact mul_le_mul_iff_of_pos_right (mul_pos hten htwo)

theorem decimalLe_iff (c n : Nat) (g e : Int) :
    decimalLe c g n e = true ↔ (c : ℚ) * 10 ^ g ≤ n * 2 ^ e := by
  rw [← cross_le_iff]
  unfold decimalLe
  simp only [decide_eq_true_eq]

theorem decimalFloor_mul_le (n : Nat) (e g : Int) :
    (decimalFloor n e g : ℚ) * 10 ^ g ≤ n * 2 ^ e := by
  rw [← cross_le_iff, Nat.mul_assoc]
  unfold decimalFloor
  exact Nat.div_mul_le_self _ _

theorem decimalFloor_pos {n : Nat} {e g : Int} (h : (10 : ℚ) ^ g ≤ n * 2 ^ e) :
    0 < decimalFloor n e g := by
  have hone : ((1 : Nat) : ℚ) * 10 ^ g ≤ n * 2 ^ e := by rwa [Nat.cast_one, one_mul]
  rw [← cross_le_iff, Nat.one_mul] at hone
  have hten := (powerRatio_pos (by omega : 0 < 10) g).1
  have htwo := (powerRatio_pos (by omega : 0 < 2) e).2
  unfold decimalFloor
  exact Nat.div_pos hone (Nat.mul_pos hten htwo)

/-! ### The first digit -/

theorem two_pow_le_ten_pow {l a : Nat} (h : 4 * l ≤ 13 * a) : 2 ^ l ≤ 10 ^ a := by
  have hfourth : (2 ^ l) ^ 4 ≤ (10 ^ a) ^ 4 :=
    calc (2 ^ l) ^ 4 = 2 ^ (4 * l) := by rw [← pow_mul, mul_comm]
      _ ≤ 2 ^ (13 * a) := Nat.pow_le_pow_right (by omega) h
      _ = (2 ^ 13) ^ a := pow_mul _ _ _
      _ ≤ (10 ^ 4) ^ a := Nat.pow_le_pow_left (by norm_num) a
      _ = (10 ^ a) ^ 4 := by rw [← pow_mul, ← pow_mul, mul_comm]
  exact (Nat.pow_le_pow_iff_left (by omega)).mp hfourth

/-- A power of ten that is small enough in comparison with a power of two. -/
theorem ten_zpow_le_two_zpow {k l : Int} (h : 4 * k ≤ l ∧ 0 ≤ k ∨ 13 * k ≤ 4 * l ∧ k ≤ 0) :
    (10 : ℚ) ^ k ≤ 2 ^ l := by
  rcases h with ⟨hle, hk⟩ | ⟨hle, hk⟩
  · calc (10 : ℚ) ^ k ≤ (2 ^ (4 : Int)) ^ k := zpow_le_zpow_left₀ hk (by norm_num) (by norm_num)
      _ = 2 ^ (4 * k) := (zpow_mul _ _ _).symm
      _ ≤ 2 ^ l := zpow_le_zpow_right₀ (by norm_num) hle
  · by_cases hl : 0 ≤ l
    · calc (10 : ℚ) ^ k ≤ 10 ^ (0 : Int) := zpow_le_zpow_right₀ (by norm_num) hk
        _ = 2 ^ (0 : Int) := by rw [zpow_zero, zpow_zero]
        _ ≤ 2 ^ l := zpow_le_zpow_right₀ (by norm_num) hl
    · obtain ⟨a, ha⟩ := Int.eq_ofNat_of_zero_le (by omega : 0 ≤ -k)
      obtain ⟨b, hb⟩ := Int.eq_ofNat_of_zero_le (by omega : 0 ≤ -l)
      have hpower : (2 : ℚ) ^ b ≤ 10 ^ a := by
        exact_mod_cast two_pow_le_ten_pow (by omega : 4 * b ≤ 13 * a)
      have hk' : k = -(a : Int) := by omega
      have hl' : l = -(b : Int) := by omega
      rw [hk', hl', zpow_neg, zpow_neg, zpow_natCast, zpow_natCast]
      exact inv_anti₀ (by positivity) hpower

variable {x : Binary64}

/-- The place that is taken for the first decimal digit. -/
def top (x : Binary64) : Int := leadingExponent x.mantissa x.exponent

theorem top_le (h : x.leadingBit ≤ 128) : top x ≤ 39 := by
  have hle : top x ≤ x.leadingBit * 30103 / 100000 + 1 := by
    unfold top leadingExponent Binary64.leadingBit
    dsimp only
    split
    · exact Int.le_refl _
    · split <;> omega
  omega

/-- Sixteen places further down there are digits of the number. -/
theorem ten_zpow_top_le (hx : x.mantissa ≠ 0) (hlow : -1074 ≤ x.leadingBit)
    (hhigh : x.leadingBit ≤ 128) : (10 : ℚ) ^ (top x - 16) ≤ x.magnitude := by
  have hlower : ∀ g : Int, decimalLe 1 g x.mantissa x.exponent = true →
      (10 : ℚ) ^ (g - 16) ≤ x.magnitude := by
    intro g hg
    rw [decimalLe_iff, Nat.cast_one, one_mul] at hg
    exact (zpow_le_zpow_right₀ (by norm_num) (by omega)).trans hg
  unfold top leadingExponent
  dsimp only
  split
  · rename_i hg
    exact hlower _ hg
  · split
    · rename_i hg
      exact hlower _ hg
    · refine le_trans ?_ (Binary64.two_zpow_leadingBit_le hx)
      apply ten_zpow_le_two_zpow
      unfold Binary64.leadingBit at hlow hhigh ⊢
      omega

/-! ### The digits -/

theorem holds_ne_zero (hx : x.mantissa ≠ 0) {c : Nat} {g : Int}
    (h : (Interval.of x).holds c g = true) : c ≠ 0 := by
  rintro rfl
  have hlow : 0 < (Interval.of x).low := by
    unfold Interval.of
    dsimp only
    split <;> omega
  unfold Interval.holds at h
  split at h
  · have htwo := (powerRatio_pos (by omega : 0 < 2) (Interval.of x).unit).1
    have hten := (powerRatio_pos (by omega : 0 < 10) g).2
    have hpos := Nat.mul_pos (Nat.mul_pos hlow htwo) hten
    simp only [Bool.and_eq_true, binaryLe, decide_eq_true_eq] at h
    omega
  · simp [decimalLe] at h

theorem onGrid?_eq_some {g : Int} {c : Nat} (h : onGrid? x (Interval.of x) g = some c) :
    (Interval.of x).holds c g = true ∧
      (c = decimalFloor x.mantissa x.exponent g ∨ c = decimalFloor x.mantissa x.exponent g + 1) := by
  unfold onGrid? at h
  dsimp only at h
  split at h
  · rename_i hfirst hsecond
    split at h
    · cases h
      exact ⟨hsecond, Or.inr rfl⟩
    · cases h
      exact ⟨hfirst, Or.inl rfl⟩
  · rename_i hfirst _
    cases h
    exact ⟨hfirst, Or.inl rfl⟩
  · rename_i _ hsecond
    cases h
    exact ⟨hsecond, Or.inr rfl⟩
  · cases h

/-- The digits are those of a positive number `c` at a place `g` that is not above the
first digit, and they are no more than one step of that place above the magnitude. -/
theorem shortest_eq (h : x.Moderate) (hx : x.mantissa ≠ 0) :
    ∃ (c : Nat) (g : Int), c ≠ 0 ∧ g ≤ top x ∧ (c : ℚ) * 10 ^ g ≤ x.magnitude + 10 ^ g ∧
      shortest x = ⟨dropTrailingZeros (Nat.toDigits 10 c),
        g + (Nat.toDigits 10 c).length - 1⟩ := by
  obtain ⟨hlow, hhigh⟩ := h.leadingBit_bounds hx
  have hfloor : ∀ g : Int,
      (decimalFloor x.mantissa x.exponent g : ℚ) * 10 ^ g ≤ x.magnitude := fun g =>
    decimalFloor_mul_le _ _ g
  have hpower : ∀ g : Int, (0 : ℚ) < 10 ^ g := fun g => zpow_pos (by norm_num) g
  unfold shortest
  dsimp only
  generalize hfound : ((List.range 17).findSome? fun (n : Nat) =>
    (onGrid? x (Interval.of x) (leadingExponent x.mantissa x.exponent - n)).map fun c =>
      (c, leadingExponent x.mantissa x.exponent - n)) = found
  cases found with
  | none =>
    refine ⟨decimalFloor x.mantissa x.exponent (top x - 16), top x - 16, ?_, by omega, ?_, rfl⟩
    · have hpos := decimalFloor_pos (ten_zpow_top_le hx hlow hhigh)
      omega
    · exact (hfloor _).trans (le_add_of_nonneg_right (hpower _).le)
  | some pair =>
    obtain ⟨n, -, hn⟩ := List.exists_of_findSome?_eq_some hfound
    obtain ⟨c, hc, rfl⟩ := Option.map_eq_some_iff.mp hn
    obtain ⟨hholds, hnear⟩ := onGrid?_eq_some hc
    refine ⟨c, leadingExponent x.mantissa x.exponent - n, holds_ne_zero hx hholds, ?_, ?_, rfl⟩
    · unfold top
      omega
    · have hstep := hfloor (leadingExponent x.mantissa x.exponent - n)
      have hten := hpower (leadingExponent x.mantissa x.exponent - n)
      rcases hnear with rfl | rfl
      · linarith
      · push_cast
        linarith

end LedgerConformance.Decimal
