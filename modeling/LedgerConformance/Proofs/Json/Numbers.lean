import LedgerConformance.Proofs.Json.Tokens

/-!
Numbers read from their texts. The text of a number is divided into its whole part,
its decimals and its exponent, and a whole number of 64 bits, signed or not, is read
back as itself.
-/

namespace LedgerConformance.Json.Number

/-- Digits of a whole number: none stands behind a leading zero. -/
structure IsWhole (whole : List Char) : Prop where
  digits : ∀ c ∈ whole, c.isDigit = true
  start : whole = ['0'] ∨ ∃ c rest, whole = c :: rest ∧ c ≠ '0'

theorem IsWhole.ne_nil {whole : List Char} (h : IsWhole whole) : whole ≠ [] := by
  rcases h.start with rfl | ⟨c, rest, rfl, -⟩ <;> simp

theorem isWhole_zero : IsWhole ['0'] := ⟨by simp [Char.isDigit], Or.inl rfl⟩

/-- The digits of a positive number start with one that is not zero. -/
theorem toDigits_start (n : Nat) (h : 0 < n) :
    ∃ c rest, Nat.toDigits 10 n = c :: rest ∧ c ≠ '0' := by
  induction n using Nat.strongRecOn with
  | ind n ih =>
    by_cases hsmall : n < 10
    · refine ⟨Nat.digitChar n, [], Nat.toDigits_of_lt_base hsmall, ?_⟩
      intro hzero
      have hvalue := Nat.toNat_digitChar_of_lt_ten hsmall
      rw [hzero] at hvalue
      simp at hvalue
      omega
    · obtain ⟨c, rest, hfront, hc⟩ := ih (n / 10) (by omega) (by omega)
      have hsplit : Nat.toDigits 10 (n / 10) ++ Nat.toDigits 10 (n % 10) = Nat.toDigits 10 n := by
        rw [Nat.toDigits_append_toDigits (by omega) (by omega) (by omega), Nat.div_add_mod]
      refine ⟨c, rest ++ Nat.toDigits 10 (n % 10), ?_, hc⟩
      rw [← hsplit, hfront, List.cons_append]

theorem isWhole_toDigits (n : Nat) : IsWhole (Nat.toDigits 10 n) := by
  refine ⟨fun c hc => Nat.isDigit_of_mem_toDigits (by omega) (by omega) hc, ?_⟩
  by_cases hzero : n = 0
  · subst hzero
    exact Or.inl rfl
  · exact Or.inr (toDigits_start n (by omega))

/-- Nothing that starts with a digit. -/
def EndsDigits (rest : List Char) : Prop := ∀ c ∈ rest.head?, c.isDigit = false

theorem takeWhile_digits {digits rest : List Char} (h : ∀ c ∈ digits, c.isDigit = true)
    (hrest : EndsDigits rest) : (digits ++ rest).takeWhile Char.isDigit = digits := by
  rw [List.takeWhile_append_of_pos h]
  cases rest with
  | nil => simp
  | cons c rest =>
    have hc : c.isDigit = false := hrest c rfl
    simp [hc]

theorem dropWhile_digits {digits rest : List Char} (h : ∀ c ∈ digits, c.isDigit = true)
    (hrest : EndsDigits rest) : (digits ++ rest).dropWhile Char.isDigit = rest := by
  rw [List.dropWhile_append_of_pos h]
  cases rest with
  | nil => rfl
  | cons c rest =>
    have hc : c.isDigit = false := hrest c rfl
    simp [hc]

def signChars (negative : Bool) : List Char := if negative then ['-'] else []

/-- A sign before a whole part is told from it. -/
theorem sign_eq {negative negative' : Bool} {whole rest body : List Char} (hwhole : IsWhole whole)
    (h : (match signChars negative ++ (whole ++ rest) with
      | '-' :: rest => (true, rest)
      | rest => (false, rest)) = (negative', body)) :
    negative' = negative ∧ body = whole ++ rest := by
  cases negative with
  | true =>
    cases h
    exact ⟨rfl, rfl⟩
  | false =>
    obtain ⟨c, more, hstart⟩ := List.exists_cons_of_ne_nil hwhole.ne_nil
    have hdigit : c.isDigit = true := hwhole.digits c (by simp [hstart])
    rw [hstart] at h ⊢
    simp only [signChars, Bool.false_eq_true, if_false, List.nil_append, List.cons_append] at h
    split at h
    · rename_i heq
      rw [(List.cons.inj heq).1] at hdigit
      simp [Char.isDigit] at hdigit
    · cases h
      exact ⟨rfl, rfl⟩

/-- A whole part with nothing but an exponent behind it. -/
theorem ofChars?_whole (negative : Bool) {whole rest : List Char} (hwhole : IsWhole whole)
    (hrest : EndsDigits rest) (hpoint : ∀ more, rest ≠ '.' :: more)
    {e : Option (Bool × List Char)} (he : exponentPart? rest = some e) :
    Lexeme.ofChars? (signChars negative ++ (whole ++ rest)) = some ⟨negative, whole, none, e⟩ := by
  unfold Lexeme.ofChars?
  split
  rename_i negative' body hsign
  obtain ⟨rfl, rfl⟩ := sign_eq hwhole hsign
  simp only [takeWhile_digits hwhole.digits hrest, dropWhile_digits hwhole.digits hrest]
  rw [if_neg]
  · rw [he, Option.map_some]
  · rcases hwhole.start with rfl | ⟨c, more, rfl, hc⟩
    · simp
    · simp [hc]

/-- A whole part with decimals behind it. -/
theorem ofChars?_decimals (negative : Bool) {whole decimals rest : List Char}
    (hwhole : IsWhole whole) (hdecimals : ∀ c ∈ decimals, c.isDigit = true) (hsome : decimals ≠ [])
    (hrest : EndsDigits rest) {e : Option (Bool × List Char)} (he : exponentPart? rest = some e) :
    Lexeme.ofChars? (signChars negative ++ (whole ++ '.' :: (decimals ++ rest))) =
      some ⟨negative, whole, some decimals, e⟩ := by
  have hpoint : EndsDigits ('.' :: (decimals ++ rest)) := by simp [EndsDigits, Char.isDigit]
  unfold Lexeme.ofChars?
  split
  rename_i negative' body hsign
  obtain ⟨rfl, rfl⟩ := sign_eq hwhole hsign
  simp only [takeWhile_digits hwhole.digits hpoint, dropWhile_digits hwhole.digits hpoint,
    takeWhile_digits hdecimals hrest, dropWhile_digits hdecimals hrest]
  rw [if_neg]
  · simp [hsome, he]
  · rcases hwhole.start with rfl | ⟨c, more, rfl, hc⟩
    · simp
    · simp [hc]

/-! ### Significands -/

theorem le_ofDigitChars (chars : List Char) (significand : Nat) :
    significand ≤ Nat.ofDigitChars 10 chars significand := by
  induction chars generalizing significand with
  | nil => exact Nat.le_refl _
  | cons c rest ih =>
    have hrest := ih (10 * significand + (c.toNat - '0'.toNat))
    rw [Nat.ofDigitChars_cons]
    omega

/-- Digits whose number fits 64 bits are all taken in. -/
theorem absorb_eq {chars : List Char} {significand : Nat}
    (h : Nat.ofDigitChars 10 chars significand < 0x10000000000000000) :
    absorb significand chars = (Nat.ofDigitChars 10 chars significand, []) := by
  induction chars generalizing significand with
  | nil => rfl
  | cons c rest ih =>
    rw [Nat.ofDigitChars_cons] at h ⊢
    have hnext : 10 * significand + digitValue c < 0x10000000000000000 :=
      Nat.lt_of_le_of_lt (le_ofDigitChars rest _) h
    rw [absorb]
    simp only [hnext, if_true]
    exact ih h

/-- What is taken in fits 64 bits, and no more is left than there was. -/
theorem absorb_bounds (chars : List Char) {significand : Nat}
    (h : significand < 0x10000000000000000) :
    (absorb significand chars).1 < 0x10000000000000000 ∧
      (absorb significand chars).2.length ≤ chars.length := by
  induction chars generalizing significand with
  | nil => exact ⟨h, Nat.le_refl _⟩
  | cons c rest ih =>
    rw [absorb]
    by_cases hnext : 10 * significand + digitValue c < 0x10000000000000000
    · simp only [hnext, if_true, List.length_cons]
      obtain ⟨hfits, hleft⟩ := ih hnext
      exact ⟨hfits, by omega⟩
    · simp only [hnext, if_false]
      exact ⟨h, Nat.le_refl _⟩

/-! ### Whole numbers -/

/-- Whole numbers that are kept exactly: those of 64 bits, with a sign or without. -/
def Fits (i : Int) : Prop := -0x8000000000000000 ≤ i ∧ i < 0x10000000000000000

theorem toList_toString_int (i : Int) :
    (toString i).toList = signChars (decide (i < 0)) ++ (Nat.toDigits 10 i.natAbs ++ []) := by
  cases i with
  | ofNat n =>
    have hnat : (toString (Int.ofNat n)).toList = Nat.toDigits 10 n := Nat.toList_repr
    have hsign : decide (Int.ofNat n < 0) = false := by simp
    rw [hnat, hsign, List.append_nil]
    rfl
  | negSucc n =>
    have hneg : toString (Int.negSucc n) = "-" ++ (n + 1).repr := rfl
    have hsign : Int.negSucc n < 0 := by omega
    simp [hneg, hsign, signChars, Nat.toList_repr]

/-- A whole number of 64 bits is read back as itself. -/
theorem reread?_int {i : Int} (h : Fits i) : (Number.int i).reread? = some (.int i) := by
  obtain ⟨hlow, hhigh⟩ := h
  have hlexeme : Lexeme.ofChars? (write (.int i)).toList =
      some ⟨decide (i < 0), Nat.toDigits 10 i.natAbs, none, none⟩ := by
    rw [write, toList_toString_int]
    exact ofChars?_whole _ (isWhole_toDigits _) (by simp [EndsDigits]) (by simp) rfl
  have habsorb : absorb 0 (Nat.toDigits 10 i.natAbs) = (i.natAbs, []) := by
    have hfits : Nat.ofDigitChars 10 (Nat.toDigits 10 i.natAbs) 0 < 0x10000000000000000 := by
      rw [Nat.ofDigitChars_ten_toDigits]
      omega
    rw [absorb_eq hfits, Nat.ofDigitChars_ten_toDigits]
  rw [reread?, hlexeme, Option.bind_some, Lexeme.value?, habsorb]
  by_cases hsign : i < 0
  · have hmagnitude : (1 ≤ i.natAbs && i.natAbs ≤ 0x8000000000000000) = true := by
      rw [Bool.and_eq_true, decide_eq_true_eq, decide_eq_true_eq]
      omega
    have hvalue : -(i.natAbs : Int) = i := by omega
    simp only [wholeValue, decide_eq_true hsign, hmagnitude, hvalue, if_true]
    rfl
  · have hvalue : (i.natAbs : Int) = i := by omega
    simp only [wholeValue, decide_eq_false hsign, hvalue]
    rfl

end LedgerConformance.Json.Number
