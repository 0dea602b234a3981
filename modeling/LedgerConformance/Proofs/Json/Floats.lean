import LedgerConformance.Proofs.Decimal.Digits
import LedgerConformance.Proofs.Json.Numbers

/-!
Floating-point numbers read from their texts. A moderate number is written with few
digits before the point and no large exponent, so its text can always be read back as
some number, though the last digits may come out differently.
-/

namespace LedgerConformance.Json.Number

open Binary64 (Moderate)

/-! ### Scaling -/

/-- Every power of ten that is a number is at least one. -/
theorem powerOfTen?_ge_one {n : Nat} (h : n ≤ 308) :
    ∃ power, powerOfTen? n = some power ∧ power.ratio.2 ≤ power.ratio.1 := by
  have hall : (List.range 309).all (fun n =>
      (powerOfTen? n).any fun power => decide (power.ratio.2 ≤ power.ratio.1)) = true := by
    decide +kernel
  have hn := List.all_eq_true.mp hall n (List.mem_range.mpr (by omega))
  obtain ⟨power, hpower, hle⟩ := (Option.any_eq_true _ _).mp hn
  exact ⟨power, hpower, of_decide_eq_true hle⟩

theorem le_of_powerOfTen?_eq_some {n : Nat} {power : Binary64} (h : powerOfTen? n = some power) :
    n ≤ 308 := by
  by_contra hn
  rw [powerOfTen?, if_neg hn] at h
  cases h

theorem div_powerOfTen {x power : Binary64} (hpower : power.ratio.2 ≤ power.ratio.1) :
    0 < power.ratio.1 ∧ x.magnitude / power.magnitude ≤ x.magnitude := by
  have hpos : 0 < power.ratio.1 := Nat.lt_of_lt_of_le power.ratio_pos hpower
  refine ⟨hpos, div_le_self x.magnitude_nonneg ?_⟩
  have hden : (0 : ℚ) < power.ratio.2 := by exact_mod_cast power.ratio_pos
  rw [power.magnitude_eq, le_div_iff₀ hden, one_mul]
  exact_mod_cast hpower

theorem isSome_div_powerOfTen {x power : Binary64} (hpower : power.ratio.2 ≤ power.ratio.1)
    (hx : x.magnitude ≤ 2 ^ 80) : (x.div? power).isSome = true := by
  obtain ⟨hpos, hle⟩ := div_powerOfTen (x := x) hpower
  refine Binary64.isSome_div? hpos (by omega : 81 ≤ 1000) (lt_of_le_of_lt (hle.trans hx) ?_)
  exact pow_lt_pow_right₀ (by norm_num) (by omega)

theorem isSome_mul_powerOfTen {x power : Binary64} {n : Nat} (hn : n ≤ 60)
    (hpower : powerOfTen? n = some power) (hx : x.magnitude ≤ 2 ^ 80) :
    (x.mul? power).isSome = true := by
  rw [powerOfTen?, if_pos (by omega)] at hpower
  have hle : power.magnitude ≤ 2 ^ 241 := by
    have hten : (10 : ℚ) ^ n ≤ (2 ^ 4) ^ 60 :=
      (pow_le_pow_left₀ (by norm_num) (by norm_num) n).trans
        (pow_le_pow_right₀ (by norm_num) hn)
    have hround := Binary64.ofNat?_eq_some hpower
    rw [Nat.pow_eq, Nat.cast_pow, Nat.cast_ofNat] at hround
    rw [← pow_mul] at hten
    have hdouble : (2 : ℚ) ^ 241 = 2 * 2 ^ (4 * 60) := by rw [← pow_succ']
    linarith
  have hproduct : x.magnitude * power.magnitude ≤ 2 ^ (80 + 241) := by
    rw [pow_add]
    exact mul_le_mul hx hle power.magnitude_nonneg (by positivity)
  refine Binary64.isSome_mul? (by omega : 322 ≤ 1000) (lt_of_le_of_lt hproduct ?_)
  exact pow_lt_pow_right₀ (by norm_num) (by omega)

section

-- The literal power `308` of the equation would be evaluated otherwise.
attribute [local irreducible] powerOfTen?

theorem scale_succ (steps : Nat) (x : Binary64) (exponent : Int) :
    scale (steps + 1) x exponent =
      match powerOfTen? exponent.natAbs with
      | some power => if 0 ≤ exponent then x.mul? power else x.div? power
      | none =>
        if x.isZero then some x
        else if 0 ≤ exponent then none
        else
          match powerOfTen? 308 with
          | some power =>
            match x.div? power with
            | some x => scale steps x (exponent + 308)
            | none => none
          | none => none := rfl

/-- A number that is not too large can be scaled up to some place, and down as far as
is wanted; each division at most doubles what it should give. -/
theorem isSome_scale {room : Nat} (hroom : room ≤ 10) {x : Binary64}
    (hx : x.magnitude ≤ 2 ^ (80 - room)) {exponent : Int} (hexponent : exponent ≤ 60) :
    (scale room x exponent).isSome = true := by
  induction room generalizing x exponent with
  | zero => rfl
  | succ room ih =>
    have hlarge : x.magnitude ≤ 2 ^ 80 :=
      hx.trans (pow_le_pow_right₀ (by norm_num) (by omega))
    rw [scale_succ]
    cases hpower : powerOfTen? exponent.natAbs with
    | some power =>
      dsimp only
      split
      · exact isSome_mul_powerOfTen (by omega) hpower hlarge
      · obtain ⟨found, hfound, hone⟩ := powerOfTen?_ge_one (le_of_powerOfTen?_eq_some hpower)
        rw [hpower] at hfound
        cases hfound
        exact isSome_div_powerOfTen hone hlarge
    | none =>
      have hfar : 308 < exponent.natAbs := by
        by_contra hn
        obtain ⟨found, hfound, -⟩ := powerOfTen?_ge_one (by omega : exponent.natAbs ≤ 308)
        rw [hpower] at hfound
        cases hfound
      have hneg : ¬ 0 ≤ exponent := by omega
      obtain ⟨power, hfound, hone⟩ := powerOfTen?_ge_one (Nat.le_refl 308)
      obtain ⟨quotient, hquotient⟩ :=
        Option.isSome_iff_exists.mp (isSome_div_powerOfTen hone hlarge)
      dsimp only
      split
      · rfl
      · rw [hfound]
        dsimp only
        rw [hquotient]
        apply ih (by omega) _ (by omega)
        obtain ⟨hpos, hle⟩ := div_powerOfTen (x := x) hone
        obtain ⟨-, hround⟩ := Binary64.div?_eq_some hpos hquotient
        have hdouble : (2 : ℚ) ^ (80 - room) = 2 * 2 ^ (80 - (room + 1)) := by
          rw [← pow_succ']
          congr 1
          omega
        linarith

end

theorem exists_fromParts (negative : Bool) {significand : Nat}
    (hsignificand : significand < 0x10000000000000000) {exponent : Int} (h : exponent ≤ 60) :
    ∃ y, fromParts negative significand exponent = some (.float y) := by
  have hcast : (significand : ℚ) ≤ 2 ^ 64 := by
    have hle : significand ≤ 2 ^ 64 := by omega
    exact_mod_cast hle
  have hsome : (Binary64.ofRatio? negative significand 1).isSome = true := by
    refine Binary64.isSome_ofRatio? negative Nat.one_pos (by omega : 65 ≤ 1000) ?_
    rw [Nat.cast_one, div_one]
    exact lt_of_le_of_lt hcast (pow_lt_pow_right₀ (by norm_num) (by omega))
  obtain ⟨x, hx⟩ := Option.isSome_iff_exists.mp hsome
  have hmagnitude : x.magnitude ≤ 2 ^ (80 - 5) := by
    obtain ⟨-, hround⟩ := Binary64.ofRatio?_eq_some Nat.one_pos hx
    rw [Nat.cast_one, div_one] at hround
    have hdouble : (2 : ℚ) * 2 ^ 64 ≤ 2 ^ (80 - 5) := by
      rw [← pow_succ']
      exact pow_le_pow_right₀ (by norm_num) (by omega)
    linarith
  obtain ⟨y, hy⟩ := Option.isSome_iff_exists.mp (isSome_scale (by omega) hmagnitude h)
  exact ⟨y, by rw [fromParts, hx]; dsimp only; rw [hy, Option.map_some]⟩

/-! ### Parts -/

/-- A number with decimals or an exponent, few digits before its point and no large
positive exponent. -/
structure Moderated (l : Lexeme) : Prop where
  float : l.decimals ≠ none ∨ l.exponent ≠ none
  whole : l.whole.length ≤ 17
  exponent : ∀ digits, l.exponent = some (false, digits) → Nat.ofDigitChars 10 digits 0 ≤ 40

theorem Moderated.exists_value {l : Lexeme} (h : Moderated l) : ∃ y, l.value? = some (.float y) := by
  obtain ⟨negative, whole, decimals, exponent⟩ := l
  obtain ⟨hfloat, hwhole, hexponent⟩ := h
  dsimp only at hfloat hwhole hexponent
  obtain ⟨hfits, hleft⟩ := absorb_bounds whole (by omega : 0 < 0x10000000000000000)
  unfold Lexeme.value?
  dsimp only
  generalize absorb 0 whole = first at hfits hleft
  obtain ⟨significand, left⟩ := first
  dsimp only at hfits hleft ⊢
  split
  · simp at hfloat
  · clear hfloat
    generalize hfraction : decimals.getD [] = fraction
    obtain ⟨hfits', hleft'⟩ := absorb_bounds fraction hfits
    generalize absorb significand fraction = second at hfits' hleft'
    obtain ⟨significand', left'⟩ := second
    dsimp only at hfits' hleft' ⊢
    cases exponent with
    | none => exact exists_fromParts negative hfits' (by omega)
    | some power =>
      obtain ⟨down, digits⟩ := power
      have hvalue : digits.foldl (fun n c => 10 * n + digitValue c) 0 =
          Nat.ofDigitChars 10 digits 0 := rfl
      dsimp only
      rw [hvalue]
      cases down with
      | false =>
        have hsmall : Nat.ofDigitChars 10 digits 0 ≤ 40 := hexponent digits rfl
        rw [if_pos (by omega)]
        exact exists_fromParts negative hfits' (by simp only [Bool.false_eq_true, if_false]; omega)
      | true =>
        by_cases hn : Nat.ofDigitChars 10 digits 0 < 0x80000000
        · rw [if_pos hn]
          exact exists_fromParts negative hfits' (by simp only [if_true]; omega)
        · rw [if_neg hn, Bool.or_true, if_pos rfl]
          exact ⟨_, rfl⟩

/-! ### Texts -/

/-- Digits of which the first is not zero and stands for no large power of ten. -/
structure Leading (d : Decimal.Digits) : Prop where
  digits : ∀ c ∈ d.digits, c.isDigit = true
  start : ∃ c rest, d.digits = c :: rest ∧ c ≠ '0'
  exponent : d.exponent ≤ 40

theorem dropTrailingZeros_cons {c : Char} (hc : c ≠ '0') (rest : List Char) :
    ∃ kept, Decimal.dropTrailingZeros (c :: rest) = c :: kept ∧ ∀ d ∈ kept, d ∈ rest := by
  unfold Decimal.dropTrailingZeros
  rw [List.reverse_cons, List.dropWhile_append]
  split
  · have hfirst : [c].dropWhile (· == '0') = [c] := by simp [hc]
    rw [hfirst]
    exact ⟨[], rfl, by simp⟩
  · rw [List.reverse_append, List.reverse_singleton, List.singleton_append]
    refine ⟨_, rfl, ?_⟩
    intro d hd
    have hsub := (List.dropWhile_sublist (· == '0') (l := rest.reverse)).subset
    exact List.mem_reverse.mp (hsub (List.mem_reverse.mp hd))

theorem leading_shortest {x : Binary64} (h : x.Moderate) (hx : x.mantissa ≠ 0) :
    Leading (Decimal.shortest x) := by
  obtain ⟨c, g, hc, htop, hle, hshortest⟩ := Decimal.shortest_eq h hx
  have htop' : Decimal.top x ≤ 39 := Decimal.top_le (h.leadingBit_bounds hx).2
  obtain ⟨first, rest, hdigits, hfirst⟩ := toDigits_start c (by omega)
  obtain ⟨kept, hkept, hsub⟩ := dropTrailingZeros_cons hfirst rest
  have hall : ∀ d ∈ first :: rest, d.isDigit = true := by
    intro d hd
    rw [← hdigits] at hd
    exact Nat.isDigit_of_mem_toDigits (by omega) (by omega) hd
  rw [hshortest, hdigits, hkept]
  refine ⟨?_, ⟨first, kept, rfl, hfirst⟩, ?_⟩
  · intro d hd
    rcases List.mem_cons.mp hd with rfl | hd
    · exact hall d List.mem_cons_self
    · exact hall d (List.mem_cons_of_mem _ (hsub d hd))
  · -- As many digits as there are make up at least their power of ten.
    have hpower : 10 ^ rest.length ≤ c := by
      by_cases hone : rest.length = 0
      · rw [hone, pow_zero]
        omega
      · by_contra hlt
        have hlength := (Nat.length_toDigits_le_iff (by omega) (by omega)).mpr
          (Nat.lt_of_not_le hlt)
        rw [hdigits, List.length_cons] at hlength
        omega
    have hbig : (10 : ℚ) ^ (g + rest.length) < 10 ^ (40 : Int) := by
      have hten : (10 : ℚ) ^ rest.length ≤ c := by exact_mod_cast hpower
      have hgrid : (10 : ℚ) ^ g ≤ 10 ^ (39 : Int) := zpow_le_zpow_right₀ (by norm_num) (by omega)
      calc (10 : ℚ) ^ (g + rest.length) = 10 ^ rest.length * 10 ^ g := by
            rw [zpow_add₀ (by norm_num), zpow_natCast, mul_comm]
        _ ≤ c * 10 ^ g := mul_le_mul_of_nonneg_right hten (by positivity)
        _ ≤ 2 ^ 128 + 10 ^ (39 : Int) := hle.trans (add_le_add h.magnitude hgrid)
        _ < 10 ^ (40 : Int) := by norm_num
    have hlt := (zpow_lt_zpow_iff_right₀ (by norm_num)).mp hbig
    rw [List.length_cons]
    push_cast
    omega

/-- The text of a body is that of a number of moderate parts. -/
def ReadsModerated (body : List Char) : Prop :=
  ∀ negative, ∃ l, Lexeme.ofChars? (signChars negative ++ body) = some l ∧ Moderated l

theorem readsModerated_decimals {whole decimals : List Char} (hwhole : IsWhole whole)
    (hlength : whole.length ≤ 17) (hdecimals : ∀ c ∈ decimals, c.isDigit = true)
    (hsome : decimals ≠ []) : ReadsModerated (whole ++ '.' :: decimals) := by
  intro negative
  have hend : EndsDigits [] := by simp [EndsDigits]
  have hread := ofChars?_decimals negative hwhole hdecimals hsome hend rfl
  rw [List.append_nil] at hread
  exact ⟨_, hread, Or.inl (by simp), hlength, by simp⟩

theorem Leading.isWhole_append {d : Decimal.Digits} (h : Leading d) {count : Nat}
    (hcount : 0 < count) {more : List Char} (hmore : ∀ c ∈ more, c.isDigit = true) :
    IsWhole (d.digits.take count ++ more) := by
  obtain ⟨c, rest, hstart, hc⟩ := h.start
  refine ⟨?_, Or.inr ⟨c, rest.take (count - 1) ++ more, ?_, hc⟩⟩
  · intro d hd
    rcases List.mem_append.mp hd with hd | hd
    · exact h.digits d (List.mem_of_mem_take hd)
    · exact hmore d hd
  · obtain ⟨count, rfl⟩ : ∃ n, count = n + 1 := ⟨count - 1, by omega⟩
    rw [hstart, List.take_succ_cons, Nat.add_sub_cancel, List.cons_append]

theorem isDigit_of_mem_replicate {n : Nat} {c : Char} (h : c ∈ List.replicate n '0') :
    c.isDigit = true := by
  rw [(List.mem_replicate.mp h).2]
  rfl

theorem readsModerated_positional {d : Decimal.Digits} (h : Leading d) (hd : d.exponent ≤ 15) :
    ReadsModerated (Decimal.positional style d) := by
  obtain ⟨c, rest, hstart, hc⟩ := h.start
  unfold Decimal.positional
  dsimp only
  split
  · apply readsModerated_decimals isWhole_zero (by simp)
    · intro c hc
      rcases List.mem_append.mp hc with hc | hc
      · exact isDigit_of_mem_replicate hc
      · exact h.digits c hc
    · simp [hstart]
  · split
    · have hpositive : 0 < d.digits.length := by simp [hstart]
      have hwhole : IsWhole (d.digits ++
          List.replicate (d.exponent + 1 - d.digits.length).toNat '0') := by
        have hpadded := h.isWhole_append hpositive fun c hc =>
          isDigit_of_mem_replicate (n := (d.exponent + 1 - d.digits.length).toNat) hc
        rwa [List.take_length] at hpadded
      apply readsModerated_decimals hwhole
      · simp only [List.length_append, List.length_replicate]
        omega
      · simp [Char.isDigit]
      · simp
    · have hwhole : IsWhole (d.digits.take (d.exponent + 1).toNat ++ []) :=
        h.isWhole_append (by omega) (by simp)
      rw [List.append_nil] at hwhole
      apply readsModerated_decimals hwhole
      · rw [List.length_take]
        omega
      · exact fun c hc => h.digits c (List.mem_of_mem_drop hc)
      · intro hnil
        have hlength := congrArg List.length hnil
        rw [List.length_drop, List.length_nil] at hlength
        omega

theorem exponentPart?_signed (down : Bool) {digits : List Char}
    (hdigits : ∀ c ∈ digits, c.isDigit = true) (hsome : digits ≠ []) :
    exponentPart? ('e' :: (if down then '-' else '+') :: digits) = some (some (down, digits)) := by
  have hall : digits.all Char.isDigit = true := List.all_eq_true.mpr hdigits
  cases down <;> simp [exponentPart?, hsome, hall]

theorem readsModerated_scientific {d : Decimal.Digits} (h : Leading d) :
    ReadsModerated (Decimal.scientific d) := by
  intro negative
  obtain ⟨c, rest, hstart, hc⟩ := h.start
  have hdigits : ∀ d ∈ c :: rest, d.isDigit = true := by
    rw [← hstart]
    exact h.digits
  have hfirst : IsWhole [c] := ⟨by simp [hdigits c], Or.inr ⟨c, [], rfl, hc⟩⟩
  have hpart := exponentPart?_signed (decide (d.exponent < 0))
    (fun c hc => Nat.isDigit_of_mem_toDigits (by omega) (by omega) hc)
    (isWhole_toDigits d.exponent.natAbs).ne_nil
  simp only [decide_eq_true_eq] at hpart
  have hexponent : ∀ digits,
      some (decide (d.exponent < 0), Nat.toDigits 10 d.exponent.natAbs) = some (false, digits) →
        Nat.ofDigitChars 10 digits 0 ≤ 40 := by
    intro digits heq
    obtain ⟨hsign, rfl⟩ := Prod.mk.inj (Option.some.inj heq)
    have hle := h.exponent
    rw [Nat.ofDigitChars_ten_toDigits]
    simp only [decide_eq_false_iff_not] at hsign
    omega
  unfold Decimal.scientific
  rw [hstart]
  generalize hsuffix : ('e' :: (if d.exponent < 0 then '-' else '+') ::
    Nat.toDigits 10 d.exponent.natAbs) = suffix at hpart
  have hend : EndsDigits suffix := by simp [← hsuffix, EndsDigits, Char.isDigit]
  have hpoint : ∀ more, suffix ≠ '.' :: more := by simp [← hsuffix]
  cases rest with
  | nil => exact ⟨_, ofChars?_whole negative hfirst hend hpoint hpart, Or.inr (by simp), by simp, hexponent⟩
  | cons second rest =>
    have hrest : ∀ d ∈ second :: rest, d.isDigit = true :=
      fun d hd => hdigits d (List.mem_cons_of_mem c hd)
    exact ⟨_, ofChars?_decimals negative hfirst hrest (by simp) hend hpart, Or.inl (by simp),
      by simp, hexponent⟩

theorem exists_moderated {x : Binary64} (h : x.Moderate) :
    ∃ l, Lexeme.ofChars? (Decimal.write style x).toList = some l ∧ Moderated l := by
  have hbody : ∃ body, (Decimal.write style x).toList = signChars x.negative ++ body ∧
      ReadsModerated body := by
    unfold Decimal.write
    dsimp only
    rw [String.toList_ofList]
    refine ⟨_, rfl, ?_⟩
    by_cases hzero : x.isZero = true
    · rw [if_pos hzero]
      exact readsModerated_decimals isWhole_zero (by simp) (by simp [Char.isDigit]) (by simp)
    · have hmantissa : x.mantissa ≠ 0 := by simpa [Binary64.isZero] using hzero
      have hleading := leading_shortest h hmantissa
      rw [if_neg hzero]
      split
      · rename_i hplain
        rw [Bool.and_eq_true, decide_eq_true_eq, decide_eq_true_eq] at hplain
        exact readsModerated_positional hleading hplain.2
      · exact readsModerated_scientific hleading
  obtain ⟨body, heq, hreads⟩ := hbody
  rw [heq]
  exact hreads x.negative

/-- A moderate floating-point number is read back as some number. -/
theorem reread?_float {x : Binary64} (h : x.Moderate) :
    ∃ y, (Number.float x).reread? = some (.float y) := by
  obtain ⟨l, hl, hmoderated⟩ := exists_moderated h
  obtain ⟨y, hy⟩ := hmoderated.exists_value
  exact ⟨y, by rw [reread?, write, hl, Option.bind_some, hy]⟩

end LedgerConformance.Json.Number
