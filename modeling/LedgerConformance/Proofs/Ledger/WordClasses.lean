import LedgerConformance.Proofs.Calendar.DateText
import LedgerConformance.Proofs.Ledger.TokenText
import LedgerConformance.Proofs.Text.LetterCase

/-!
The words of a ledger are plain. Accounts, currencies, numbers, flags, metadata
keys and dates have characters that may stand anywhere in a word, so each of
them is read as one token; and an account is never taken for a flag or for a
metadata key.
-/

namespace LedgerConformance.Ledger

open Token

theorem isInk_of_isAlphanum {c : Char} (h : c.isAlphanum = true) : isInk c = true := by
  refine isInk_iff.mpr ⟨Text.isBlank_of_isAlphanum h, ?_, ?_⟩
  · rintro rfl
    exact absurd h (by decide)
  · rintro rfl
    exact absurd h (by decide)

theorem isInk_of_isDigit {c : Char} (h : c.isDigit = true) : isInk c = true :=
  isInk_of_isAlphanum (Text.isAlphanum_of_isDigit h)

/-- A letter or digit, or one of some marks that are all ink. -/
theorem isInk_of_alphanum_or_mem {marks : List Char} (hmarks : marks.all isInk = true)
    {c : Char} (h : c.isAlphanum = true ∨ c ∈ marks) : isInk c = true :=
  h.elim isInk_of_isAlphanum (List.all_eq_true.mp hmarks c)

theorem plain_date {d : Date} (hyear : 0 ≤ d.year) (hyear' : d.year ≤ 9999) :
    (word d.toText).Plain := by
  obtain ⟨first, rest, hfirst, _⟩ := Date.toText_starts_with_digit hyear hyear'
  apply IsPlainWord.of_ink
  · simp [hfirst]
  · intro c hc
    rcases Date.isDigit_or_hyphen_of_mem_toText hyear hc with hdigit | rfl
    · exact isInk_of_isDigit hdigit
    · decide

theorem isAccountComponent_chars {piece : List Char} (h : isAccountComponent piece = true)
    {c : Char} (hc : c ∈ piece) : c.isAlphanum = true ∨ c = '-' := by
  cases piece with
  | nil => simp at hc
  | cons first rest =>
    simp only [isAccountComponent, Bool.and_eq_true, Bool.or_eq_true, List.all_eq_true,
      beq_iff_eq] at h
    rcases List.mem_cons.mp hc with rfl | hrest
    · exact Or.inl (h.1.elim Text.isAlphanum_of_isUpper Text.isAlphanum_of_isDigit)
    · exact h.2 c hrest

/-- The root and the components of an account. -/
theorem exists_pieces_of_isAccount {name : String} (h : isAccount name = true) :
    ∃ root ∈ accountRoots, ∃ first components,
      name.toList.splitOn ':' = root.toList :: first :: components ∧
        ∀ piece ∈ first :: components, isAccountComponent piece = true := by
  unfold isAccount at h
  rw [Text.splitOnChar_eq_splitOn] at h
  split at h
  · contradiction
  · rename_i root components hpieces
    simp only [Bool.and_eq_true, List.contains_iff_mem, Bool.not_eq_true',
      List.isEmpty_eq_false_iff, List.all_eq_true] at h
    obtain ⟨⟨hroot, hne⟩, hall⟩ := h
    obtain ⟨first, others, rfl⟩ := List.exists_cons_of_ne_nil hne
    exact ⟨String.ofList root, hroot, first, others, by simpa using hpieces, hall⟩

theorem isAccount_chars {name : String} (h : isAccount name = true) {c : Char}
    (hc : c ∈ name.toList) : c.isAlphanum = true ∨ c ∈ [':', '-'] := by
  obtain ⟨root, hroot, first, components, hpieces, hall⟩ := exists_pieces_of_isAccount h
  have hroots : accountRoots.all (·.toList.all Char.isAlphanum) = true := by decide
  rcases Text.mem_piece_or_eq_of_mem hc with heq | ⟨piece, hpiece, hmem⟩
  · exact Or.inr (heq ▸ List.mem_cons_self)
  · rw [Text.splitOnChar_eq_splitOn, hpieces] at hpiece
    rcases List.mem_cons.mp hpiece with rfl | hcomponent
    · have halnum := List.all_eq_true.mp hroots root hroot
      exact Or.inl (List.all_eq_true.mp halnum c hmem)
    · rcases isAccountComponent_chars (hall piece hcomponent) hmem with halnum | rfl
      · exact Or.inl halnum
      · exact Or.inr (by decide)

/-- An account starts with a capital and has a colon. -/
theorem isAccount_shape {name : String} (h : isAccount name = true) :
    ∃ first rest, name.toList = first :: rest ∧ first.isUpper = true ∧ ':' ∈ rest := by
  obtain ⟨root, hroot, piece, components, hpieces, _⟩ := exists_pieces_of_isAccount h
  have hjoin : [':'].intercalate (name.toList.splitOn ':') = name.toList :=
    List.intercalate_splitOn ':'
  have hname : name.toList = root.toList ++ ':' :: [':'].intercalate (piece :: components) := by
    rw [← hjoin, hpieces, List.intercalate_cons_of_ne_nil (by simp), List.append_assoc,
      List.singleton_append]
  have hroots : accountRoots.all (·.toList.head?.any Char.isUpper) = true := by decide
  obtain ⟨first, hfirst, hupper⟩ :=
    (Option.any_eq_true _ _).mp (List.all_eq_true.mp hroots root hroot)
  obtain ⟨rest, hrest⟩ : ∃ rest, root.toList = first :: rest := List.head?_eq_some_iff.mp hfirst
  refine ⟨first, rest ++ ':' :: [':'].intercalate (piece :: components), ?_, hupper, ?_⟩
  · rw [hname, hrest, List.cons_append]
  · simp

theorem plain_account {name : String} (h : isAccount name = true) : (word name).Plain := by
  obtain ⟨first, rest, hname, _⟩ := isAccount_shape h
  exact IsPlainWord.of_ink (by simp [hname])
    fun c hc => isInk_of_alphanum_or_mem (by decide) (isAccount_chars h hc)

theorem flagOf?_account {name : String} (h : isAccount name = true) : flagOf? name = none := by
  obtain ⟨first, rest, hname, _, hcolon⟩ := isAccount_shape h
  obtain ⟨second, others, rfl⟩ := List.exists_cons_of_ne_nil (List.ne_nil_of_mem hcolon)
  simp [flagOf?, hname]

theorem metadataKeyOf?_account {name : String} (h : isAccount name = true) :
    metadataKeyOf? name = none := by
  obtain ⟨first, rest, hname, hupper, hcolon⟩ := isAccount_shape h
  obtain ⟨second, others, rfl⟩ := List.exists_cons_of_ne_nil (List.ne_nil_of_mem hcolon)
  have hlower : first.isLower = false := by
    rw [Text.isUpper_iff] at hupper
    rw [Bool.eq_false_iff, Ne, Text.isLower_iff]
    omega
  unfold metadataKeyOf?
  rw [hname]
  split
  · simp [isMetadataKey, hlower]
  · rfl

theorem isTagOrLink_account {name : String} (h : isAccount name = true) :
    isTagOrLink name = false := by
  obtain ⟨first, rest, hname, hupper, _⟩ := isAccount_shape h
  simp only [isTagOrLink, hname, Bool.or_eq_false_iff, beq_eq_false_iff_ne]
  constructor
  · rintro rfl
    exact absurd hupper (by decide)
  · rintro rfl
    exact absurd hupper (by decide)

theorem isCurrency_shape {w : String} (h : isCurrency w = true) :
    w.toList ≠ [] ∧ ∀ c ∈ w.toList, c.isAlphanum = true ∨ c ∈ ['\'', '.', '_', '-'] := by
  unfold isCurrency at h
  split at h
  · contradiction
  · rename_i first rest hw
    simp only [Bool.and_eq_true, List.all_eq_true, Bool.or_eq_true, List.contains_iff_mem] at h
    obtain ⟨⟨hfirst, _⟩, hrest⟩ := h
    rw [hw]
    refine ⟨by simp, ?_⟩
    intro c hc
    rcases List.mem_cons.mp hc with rfl | hmem
    · exact Or.inl (Text.isAlphanum_of_isUpper hfirst)
    · rcases hrest c hmem with (hupper | hdigit) | hmark
      · exact Or.inl (Text.isAlphanum_of_isUpper hupper)
      · exact Or.inl (Text.isAlphanum_of_isDigit hdigit)
      · exact Or.inr hmark

theorem plain_currency {w : String} (h : isCurrency w = true) : (word w).Plain :=
  IsPlainWord.of_ink (isCurrency_shape h).1
    fun c hc => isInk_of_alphanum_or_mem (by decide) ((isCurrency_shape h).2 c hc)

theorem comma_not_mem_currency {w : String} (h : isCurrency w = true) : ',' ∉ w.toList := by
  intro hmem
  rcases (isCurrency_shape h).2 ',' hmem with halnum | hmark
  · exact absurd halnum (by decide)
  · exact absurd hmark (by decide)

theorem mem_dropSign {s : List Char} {c : Char} (h : c ∈ s) :
    c ∈ dropSign s ∨ c ∈ ['-', '+'] := by
  unfold dropSign
  split
  · rcases List.mem_cons.mp h with rfl | hrest
    · exact Or.inr (by decide)
    · exact Or.inl hrest
  · rcases List.mem_cons.mp h with rfl | hrest
    · exact Or.inr (by decide)
    · exact Or.inl hrest
  · exact Or.inl h

/-- Behind its sign a number has digits with commas, and perhaps a point with digits. -/
theorem exists_parts_of_isNumber {w : String} (h : isNumber w = true) :
    ∃ first rest fraction, dropSign w.toList = first :: rest ++ fraction ∧
      first.isDigit = true ∧ (∀ c ∈ rest, c.isDigit = true ∨ c = ',') ∧
      ∀ c ∈ fraction, c.isDigit = true ∨ c = '.' := by
  have hparts : (dropSign w.toList).takeWhile (· != '.') ++
      (dropSign w.toList).dropWhile (· != '.') = dropSign w.toList :=
    List.takeWhile_append_dropWhile
  simp only [isNumber, Bool.and_eq_true, List.all_eq_true] at h
  obtain ⟨hwhole, hdecimals⟩ := h
  split at hwhole
  · contradiction
  · rename_i first rest hsplit
    simp only [Bool.and_eq_true, List.all_eq_true, Bool.or_eq_true, beq_iff_eq] at hwhole
    refine ⟨first, rest, _, (hsplit ▸ hparts).symm, hwhole.1, hwhole.2, ?_⟩
    intro c hc
    cases hpoint : (dropSign w.toList).dropWhile (· != '.') with
    | nil => simp [hpoint] at hc
    | cons point decimals =>
      have hhead := List.head?_dropWhile_not (· != '.') (dropSign w.toList)
      rw [hpoint] at hc hdecimals hhead
      rcases List.mem_cons.mp hc with rfl | hmem
      · exact Or.inr (by simpa using hhead)
      · exact Or.inl (hdecimals c hmem)

theorem isNumber_shape {w : String} (h : isNumber w = true) :
    w.toList ≠ [] ∧ ∀ c ∈ w.toList, c.isAlphanum = true ∨ c ∈ ['-', '+', ',', '.'] := by
  obtain ⟨first, rest, fraction, hbody, hfirst, hrest, hfraction⟩ := exists_parts_of_isNumber h
  refine ⟨?_, ?_⟩
  · intro hnil
    rw [hnil] at hbody
    cases hbody
  · intro c hc
    rcases mem_dropSign hc with hmem | hsign
    · rw [hbody, List.cons_append, List.mem_cons, List.mem_append] at hmem
      rcases hmem with rfl | hmem | hmem
      · exact Or.inl (Text.isAlphanum_of_isDigit hfirst)
      · rcases hrest c hmem with hdigit | rfl
        · exact Or.inl (Text.isAlphanum_of_isDigit hdigit)
        · exact Or.inr (by decide)
      · rcases hfraction c hmem with hdigit | rfl
        · exact Or.inl (Text.isAlphanum_of_isDigit hdigit)
        · exact Or.inr (by decide)
    · exact Or.inr (List.mem_append_left [',', '.'] hsign)

theorem plain_number {w : String} (h : isNumber w = true) : (word w).Plain :=
  IsPlainWord.of_ink (isNumber_shape h).1
    fun c hc => isInk_of_alphanum_or_mem (by decide) ((isNumber_shape h).2 c hc)

theorem plain_flag {flag : Char} (h : flag ∈ flagMarks) : (word (String.singleton flag)).Plain := by
  have hink : flagMarks.all isInk = true := by decide
  exact IsPlainWord.of_ink (by simp) (by simpa using List.all_eq_true.mp hink flag h)

theorem flagOf?_singleton {flag : Char} (h : flag ∈ flagMarks) :
    flagOf? (String.singleton flag) = some flag := by
  simp [flagOf?, h]

theorem metadataKeyOf?_flag {flag : Char} (h : flag ∈ flagMarks) :
    metadataKeyOf? (String.singleton flag) = none := by
  have hcolon : flag ≠ ':' := by
    rintro rfl
    exact absurd h (by decide)
  simp [metadataKeyOf?, hcolon]

theorem isMetadataKey_chars {key : List Char} (h : isMetadataKey key = true) {c : Char}
    (hc : c ∈ key) : c.isAlphanum = true ∨ c ∈ ['-', '_'] := by
  cases key with
  | nil => simp at hc
  | cons first rest =>
    simp only [isMetadataKey, Bool.and_eq_true, List.all_eq_true, Bool.or_eq_true,
      beq_iff_eq] at h
    rcases List.mem_cons.mp hc with rfl | hmem
    · exact Or.inl (Text.isAlphanum_of_isLower h.1)
    · rcases h.2 c hmem with (halnum | rfl) | rfl
      · exact Or.inl halnum
      · exact Or.inr (by decide)
      · exact Or.inr (by decide)

theorem plain_metadataKey {key : String} (h : isMetadataKey key.toList = true) :
    (word (key ++ ":")).Plain := by
  refine IsPlainWord.of_ink (by simp) ?_
  intro c hc
  rw [String.toList_append, List.mem_append] at hc
  rcases hc with hkey | hcolon
  · exact isInk_of_alphanum_or_mem (by decide) (isMetadataKey_chars h hkey)
  · rw [List.mem_singleton.mp hcolon]
    decide

theorem metadataKeyOf?_key {key : String} (h : isMetadataKey key.toList = true) :
    metadataKeyOf? (key ++ ":") = some key := by
  have htext : (key ++ ":").toList = key.toList ++ [':'] := by simp
  simp [metadataKeyOf?, htext, h]

end LedgerConformance.Ledger
