import LedgerConformance.Benchmark.Random
import Mathlib.Data.FinEnum
import Mathlib.Logic.Function.Iterate

/-!
The words of a random source. A word can be told from its combination with what it is after a
shift, since no word but zero is kept by a shift, and from its product with an odd word. Both
the expansion of seeds and the step between states are made of these and of sums, so neither
takes two words to the same one. The step keeps zero, so from a state that is not zero it never
comes to zero, however much is drawn.
-/

namespace LedgerConformance.Benchmark

/-! ### Mixing words -/

/-- A word can be told from its combination with its image, if the images combine as the words
do and no word but zero is its own image. -/
theorem xor_self_injective {f : UInt64 → UInt64} (hxor : ∀ a b, f (a ^^^ b) = f a ^^^ f b)
    (hkept : ∀ z, f z = z → z = 0) : Function.Injective fun x => x ^^^ f x := by
  intro a b h
  have hzero : (a ^^^ f a) ^^^ (b ^^^ f b) = 0 := UInt64.xor_eq_zero_iff.mpr h
  have hpaired : (f a ^^^ f b) ^^^ (a ^^^ b) = 0 := by
    rw [← hzero]
    ac_rfl
  have himage : f (a ^^^ b) = a ^^^ b := by
    rw [hxor]
    exact UInt64.xor_eq_zero_iff.mp hpaired
  exact UInt64.xor_eq_zero_iff.mp (hkept _ himage)

theorem eq_zero_of_shiftRight_eq {z count : UInt64} (hcount : 0 < count.toNat % 64)
    (h : z >>> count = z) : z = 0 := by
  have hvalue : z.toNat / 2 ^ (count.toNat % 64) = z.toNat := by
    rw [← Nat.shiftRight_eq_div_pow, ← UInt64.toNat_shiftRight, h]
  have hpow : 1 < 2 ^ (count.toNat % 64) := Nat.one_lt_two_pow (by omega)
  apply UInt64.toNat_inj.mp
  by_contra hne
  have hless := Nat.div_lt_self (Nat.pos_of_ne_zero hne) hpow
  omega

/-- A bit that a left shift keeps is one that is further down, and there is none below the
lowest. -/
theorem eq_zero_of_shiftLeft_eq {z count : UInt64} (hcount : 0 < count.toNat % 64)
    (h : z <<< count = z) : z = 0 := by
  have hbits : ∀ i, z.toBitVec.getLsbD i = false := by
    intro i
    induction i using Nat.strongRecOn with
    | ind i ih =>
      rw [← h, UInt64.toBitVec_shiftLeft, BitVec.shiftLeft_eq', BitVec.getLsbD_shiftLeft]
      by_cases hbelow : i < count.toNat % 64
      · simp [hbelow]
      · have hdown := ih (i - count.toNat % 64) (by omega)
        simp [hdown]
  apply UInt64.toBitVec_inj.mp
  exact BitVec.eq_of_getLsbD_eq fun i _ => by rw [hbits i]; simp

theorem xor_shiftRight_bijective (count : UInt64) (hcount : 0 < count.toNat % 64) :
    Function.Bijective fun x : UInt64 => x ^^^ (x >>> count) :=
  Finite.injective_iff_bijective.mp <| xor_self_injective (fun _ _ => UInt64.shiftRight_xor)
    fun _ => eq_zero_of_shiftRight_eq hcount

theorem xor_shiftLeft_bijective (count : UInt64) (hcount : 0 < count.toNat % 64) :
    Function.Bijective fun x : UInt64 => x ^^^ (x <<< count) :=
  Finite.injective_iff_bijective.mp <| xor_self_injective (fun _ _ => UInt64.shiftLeft_xor)
    fun _ => eq_zero_of_shiftLeft_eq hcount

/-- Nothing is lost in a product with a word that has an inverse. -/
theorem mul_bijective (factor inverse : UInt64) (h : factor * inverse = 1) :
    Function.Bijective fun x : UInt64 => x * factor := by
  refine Finite.injective_iff_bijective.mp ?_
  intro a b hab
  have hback := congrArg (· * inverse) hab
  simpa only [UInt64.mul_assoc, h, UInt64.mul_one] using hback

theorem add_bijective (step : UInt64) : Function.Bijective fun x : UInt64 => x + step :=
  Finite.injective_iff_bijective.mp fun _ _ hab => (UInt64.add_left_inj step).mp hab

/-! ### Seeds and states -/

theorem expand_bijective : Function.Bijective expand := by
  have hstep := add_bijective goldenStep
  have hfirst := (mul_bijective 0xBF58476D1CE4E5B9 0x96DE1B173F119089 (by decide)).comp
    (xor_shiftRight_bijective 30 (by decide))
  have hsecond := (mul_bijective 0x94D049BB133111EB 0x319642B2D24D8EC3 (by decide)).comp
    (xor_shiftRight_bijective 27 (by decide))
  have hlast := xor_shiftRight_bijective 31 (by decide)
  exact hlast.comp (hsecond.comp (hfirst.comp hstep))

/-- The seed whose expansion is zero. -/
def zeroSeed : UInt64 := 0x61C8864680B583EB

theorem toNat_zeroSeed : zeroSeed.toNat = 2 ^ 64 - 0x9E3779B97F4A7C15 := by decide

theorem expand_eq_zero_iff {seed : UInt64} : expand seed = 0 ↔ seed = zeroSeed := by
  have hzero : expand zeroSeed = 0 := by decide
  rw [← hzero, expand_bijective.1.eq_iff]

namespace Source

theorem ofSeed_state (seed : UInt64) :
    (ofSeed seed).state = if expand seed = 0 then goldenStep else expand seed := by
  simp only [ofSeed, beq_iff_eq]

theorem ofSeed_state_ne_zero (seed : UInt64) : (ofSeed seed).state ≠ 0 := by
  rw [ofSeed_state]
  split
  · decide
  · assumption

/-- Two seeds that begin with one state are the same, or one of them stands for the seed that
expands to zero. -/
theorem eq_of_ofSeed_eq {a b : UInt64} (h : ofSeed a = ofSeed b) :
    a = b ∨ a = zeroSeed ∨ b = zeroSeed := by
  have hstate := congrArg Source.state h
  rw [ofSeed_state, ofSeed_state] at hstate
  by_cases ha : expand a = 0
  · exact Or.inr (Or.inl (expand_eq_zero_iff.mp ha))
  · by_cases hb : expand b = 0
    · exact Or.inr (Or.inr (expand_eq_zero_iff.mp hb))
    · rw [if_neg ha, if_neg hb] at hstate
      exact Or.inl (expand_bijective.1 hstate)

/-! ### Drawing -/

theorem shift_bijective : Function.Bijective shift := by
  have hright := xor_shiftRight_bijective 12 (by decide)
  have hleft := xor_shiftLeft_bijective 25 (by decide)
  have hlast := xor_shiftRight_bijective 27 (by decide)
  exact hlast.comp (hleft.comp hright)

theorem shift_eq_zero_iff {x : UInt64} : shift x = 0 ↔ x = 0 := by
  have hzero : shift 0 = 0 := by decide
  rw [← hzero, shift_bijective.1.eq_iff, hzero]

/-- The source that is left after a word is drawn. -/
def rest (s : Source) : Source := s.next.2

theorem rest_state (s : Source) : s.rest.state = shift s.state := rfl

theorem rest_state_ne_zero {s : Source} (h : s.state ≠ 0) : s.rest.state ≠ 0 := by
  rw [rest_state]
  exact fun hzero => h (shift_eq_zero_iff.mp hzero)

/-- The word is the new state times an odd word, so it is zero only with the state. -/
theorem next_word_ne_zero {s : Source} (h : s.state ≠ 0) : s.next.1 ≠ 0 := by
  intro hzero
  have hodd := mul_bijective 0x2545F4914F6CDD1D 0x59071D96D81ECD35 (by decide)
  have hproduct : s.rest.state * 0x2545F4914F6CDD1D = 0 * 0x2545F4914F6CDD1D :=
    hzero.trans UInt64.zero_mul.symm
  exact rest_state_ne_zero h (hodd.1 hproduct)

theorem iterate_rest_state_ne_zero {s : Source} (h : s.state ≠ 0) (draws : Nat) :
    (rest^[draws] s).state ≠ 0 := by
  induction draws with
  | zero => exact h
  | succ draws ih =>
    rw [Function.iterate_succ_apply']
    exact rest_state_ne_zero ih

/-- A source from a seed is never in the state zero and never gives the word zero, however much
was drawn from it before. The step between states is a bijection that keeps zero. Seeds are
expanded by a bijection too, so two of them begin with one state only if one is the seed that
expands to zero. -/
theorem stream_alive :
    (∀ seed draws, (rest^[draws] (ofSeed seed)).state ≠ 0 ∧
      (rest^[draws] (ofSeed seed)).next.1 ≠ 0) ∧
    (Function.Bijective (fun x => (rest ⟨x⟩).state) ∧ (rest ⟨0⟩).state = 0) ∧
    Function.Bijective expand ∧
    (∀ seed, expand seed = 0 ↔ seed.toNat = 2 ^ 64 - 0x9E3779B97F4A7C15) ∧
    ∀ a b, a ≠ b → ofSeed a = ofSeed b →
      a.toNat = 2 ^ 64 - 0x9E3779B97F4A7C15 ∨ b.toNat = 2 ^ 64 - 0x9E3779B97F4A7C15 := by
  have hseed : ∀ seed : UInt64,
      seed.toNat = 2 ^ 64 - 0x9E3779B97F4A7C15 ↔ seed = zeroSeed := by
    intro seed
    rw [← toNat_zeroSeed, UInt64.toNat_inj]
  refine ⟨?_, ⟨shift_bijective, by decide⟩, expand_bijective, ?_, ?_⟩
  · intro seed draws
    have halive := iterate_rest_state_ne_zero (ofSeed_state_ne_zero seed) draws
    exact ⟨halive, next_word_ne_zero halive⟩
  · intro seed
    rw [hseed, expand_eq_zero_iff]
  · intro a b hne h
    rw [hseed, hseed]
    exact (eq_of_ofSeed_eq h).resolve_left hne

/-- Two seeds that begin with one state. -/
theorem stream_alive_twinSeeds :
    (0xCD36DA00563C5EF6 : UInt64) ≠ zeroSeed ∧ ofSeed 0xCD36DA00563C5EF6 = ofSeed zeroSeed ∧
      ((0xCD36DA00563C5EF6 : UInt64).toNat = 2 ^ 64 - 0x9E3779B97F4A7C15 ∨
        zeroSeed.toNat = 2 ^ 64 - 0x9E3779B97F4A7C15) ∧
      (ofSeed zeroSeed).next.1 ≠ 0 := by
  obtain ⟨halive, -, -, -, htwins⟩ := stream_alive
  have hne : (0xCD36DA00563C5EF6 : UInt64) ≠ zeroSeed := by decide
  have hsame : ofSeed 0xCD36DA00563C5EF6 = ofSeed zeroSeed := by decide
  exact ⟨hne, hsame, htwins _ _ hne hsame, (halive zeroSeed 0).2⟩

end Source

end LedgerConformance.Benchmark
