import LedgerConformance.Proofs.Decimal.Magnitude
import LedgerConformance.Result

/-!
Durations as numbers. Every step from nanoseconds to milliseconds at most doubles what
it should give, so a duration whose seconds fit 64 bits stays moderate.
-/

namespace LedgerConformance.Result

open Binary64

theorem seconds_le {nanoseconds : Nat} (h : nanoseconds < 0x10000000000000000 * 1000000000) :
    (seconds nanoseconds).magnitude ≤ 2 ^ 67 := by
  unfold seconds
  dsimp only
  cases hsum : (do
      let whole ← ofNat? (nanoseconds / 1000000000)
      let rest ← ofRatio? false (nanoseconds % 1000000000) 1000000000
      whole.addMagnitudes? rest) with
  | none =>
    rw [Option.getD_none, magnitude_zero]
    positivity
  | some sum =>
    obtain ⟨whole, hwhole, hsum⟩ := Option.bind_eq_some_iff.mp hsum
    obtain ⟨rest, hrest, hsum⟩ := Option.bind_eq_some_iff.mp hsum
    have hseconds : ((nanoseconds / 1000000000 : Nat) : ℚ) ≤ 2 ^ 64 := by
      have hle : nanoseconds / 1000000000 ≤ 2 ^ 64 := by omega
      exact_mod_cast hle
    have hwhole := ofNat?_eq_some hwhole
    have hfraction : ((nanoseconds % 1000000000 : Nat) : ℚ) / (1000000000 : Nat) ≤ 1 := by
      have hle : nanoseconds % 1000000000 ≤ 1000000000 := by omega
      exact div_le_one_of_le₀ (by exact_mod_cast hle) (by positivity)
    have hrest := (ofRatio?_eq_some (by omega) hrest).2
    have hsum := addMagnitudes?_eq_some hsum
    rw [Option.getD_some]
    have hpower : (2 : ℚ) ^ 67 = 8 * 2 ^ 64 := by norm_num
    have hlarge : (4 : ℚ) ≤ 2 ^ 64 := by norm_num
    linarith

/-- The double that a hundred becomes is a hundred. -/
theorem ofNat?_hundred : ∃ hundred, ofNat? 100 = some hundred ∧ 0 < hundred.ratio.1 ∧
    hundred.magnitude = 100 := by
  refine ⟨⟨false, 7036874417766400, -46⟩, by decide +kernel, by decide +kernel, ?_⟩
  unfold Binary64.magnitude
  norm_num

theorem moderate_milliseconds {r : Result} (h : r.duration < 0x10000000000000000 * 1000000000) :
    r.milliseconds.Moderate := by
  unfold milliseconds
  dsimp only
  cases hrounded : (do
      let ms ← (seconds r.duration).mul? (← ofNat? 1000)
      let hundredths ← ms.mul? (← ofNat? 100)
      (← ofNat? hundredths.roundHalfUp).div? (← ofNat? 100)) with
  | none => exact moderate_zero false
  | some rounded =>
    obtain ⟨hundred, hhundred, hpos, hvalue⟩ := ofNat?_hundred
    obtain ⟨thousand, hthousand, hrounded⟩ := Option.bind_eq_some_iff.mp hrounded
    obtain ⟨ms, hms, hrounded⟩ := Option.bind_eq_some_iff.mp hrounded
    obtain ⟨factor, hfactor, hrounded⟩ := Option.bind_eq_some_iff.mp hrounded
    obtain ⟨hundredths, hhundredths, hrounded⟩ := Option.bind_eq_some_iff.mp hrounded
    obtain ⟨whole, hwhole, hrounded⟩ := Option.bind_eq_some_iff.mp hrounded
    obtain ⟨divisor, hdivisor, hrounded⟩ := Option.bind_eq_some_iff.mp hrounded
    rw [hhundred] at hfactor hdivisor
    cases hfactor
    cases hdivisor
    have hseconds := seconds_le h
    have hthousand := ofNat?_eq_some hthousand
    have hms := (mul?_eq_some hms).2
    have hhundredths := (mul?_eq_some hhundredths).2
    have hround := hundredths.roundHalfUp_le
    have hwhole := ofNat?_eq_some hwhole
    obtain ⟨hexponent, hrounded⟩ := div?_eq_some hpos hrounded
    rw [hvalue] at hhundredths hrounded
    have hscaled : (seconds r.duration).magnitude * thousand.magnitude ≤ 2 ^ 67 * 2000 := by
      push_cast at hthousand
      exact mul_le_mul hseconds (by linarith) thousand.magnitude_nonneg (by positivity)
    refine ⟨hexponent, ?_⟩
    rw [Option.getD_some]
    linarith

end LedgerConformance.Result
