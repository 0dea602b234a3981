import LedgerConformance.Json.Printer
import LedgerConformance.Json.Token
import Mathlib.Data.List.TakeWhile

/-!
Compact texts of values, read token by token. Every string is read back as it was
written, whatever characters it has, and a number as the number that its text stands
for, which need not be the same if it is a floating-point number.
-/

namespace LedgerConformance.Json

/-- The number that is read from the text of a number, if one is. -/
def Number.reread? (n : Number) : Option Number :=
  (Number.Lexeme.ofChars? n.write.toList).bind Number.Lexeme.value?

/-- A value whose containers are nested at most `depth` deep and whose numbers are all
read back as numbers. -/
inductive Readable : Nat → Json → Prop
  | null (depth : Nat) : Readable depth .null
  | bool (depth : Nat) (b : Bool) : Readable depth (.bool b)
  | number (depth : Nat) {n : Number} (h : n.reread?.isSome = true) : Readable depth (.number n)
  | string (depth : Nat) (s : String) : Readable depth (.string s)
  | array {depth : Nat} {items : List Json} (h : ∀ v ∈ items, Readable depth v) :
      Readable (depth + 1) (.array items)
  | object {depth : Nat} {fields : List (String × Json)}
      (h : ∀ field ∈ fields, Readable depth field.2) : Readable (depth + 1) (.object fields)

mutual

/-- The tokens of the text of a value. -/
def tokens : Json → List Token
  | null => [.null]
  | bool b => [.bool b]
  | number n => [.number n.reread?]
  | string s => [.string (some s)]
  | array items => .openArray :: itemTokens items ++ [.closeArray]
  | object fields => .openObject :: fieldTokens fields ++ [.closeObject]

def itemTokens : List Json → List Token
  | [] => []
  | [item] => item.tokens
  | item :: rest => item.tokens ++ .comma :: itemTokens rest

def fieldTokens : List (String × Json) → List Token
  | [] => []
  | [(key, value)] => .string (some key) :: .colon :: value.tokens
  | (key, value) :: rest =>
    .string (some key) :: .colon :: value.tokens ++ .comma :: fieldTokens rest

end

namespace Token

/-- Nothing follows, or something that ends a value inside a container. -/
def Stops (rest : List Char) : Prop := ∀ c ∈ rest.head?, c = ',' ∨ c = ']' ∨ c = '}'

theorem stops_nil : Stops [] := by simp [Stops]

theorem stops_cons {c : Char} (h : c = ',' ∨ c = ']' ∨ c = '}') (rest : List Char) :
    Stops (c :: rest) := by
  simpa [Stops] using h

theorem readFrom_gap_cons (c : Char) (rest : List Char) :
    readFrom .gap (c :: rest) =
      (enter c).bind fun next => (readFrom next.2 rest).map (next.1.toList ++ ·) := by
  rw [readFrom]
  cases enter c <;> rfl

/-- A character that is a token by itself. -/
theorem readFrom_gap_mark {c : Char} {t : Token} (h : enter c = some (some t, .gap))
    (rest : List Char) : readFrom .gap (c :: rest) = (readFrom .gap rest).map (t :: ·) := by
  rw [readFrom_gap_cons, h]
  rfl

/-- A character that a longer token begins with. -/
theorem readFrom_gap_start {c : Char} {place : Place} (h : enter c = some (none, place))
    (rest : List Char) : readFrom .gap (c :: rest) = readFrom place rest := by
  rw [readFrom_gap_cons, h]
  exact Option.map_id'

/-! ### Strings -/

/-- No character is half of a pair of surrogates. -/
theorem toNat_not_surrogate (c : Char) : isHigh c.toNat = false ∧ isLow c.toNat = false := by
  have hvalid : c.toNat < 0xD800 ∨ 0xDFFF < c.toNat ∧ c.toNat < 0x110000 := c.valid
  simp only [isHigh, isLow, Bool.and_eq_false_iff, decide_eq_false_iff_not]
  omega

theorem assemble_toNat (known chars : List Char) :
    assemble known (chars.map Char.toNat) = some (chars.reverse ++ known) := by
  induction chars generalizing known with
  | nil => rfl
  | cons c rest ih =>
    obtain ⟨hhigh, hlow⟩ := toNat_not_surrogate c
    cases rest with
    | nil => simp [assemble, hhigh, hlow]
    | cons d rest =>
      have hrest := ih (c :: known)
      rw [List.map_cons] at hrest
      rw [List.map_cons, List.map_cons, assemble, hhigh, hlow]
      simpa using hrest

theorem ofUnits_toNat (chars : List Char) :
    ofUnits (chars.map Char.toNat) = string (some (String.ofList chars.reverse)) := by
  simp [ofUnits, assemble_toNat]

theorem hexValue?_hexDigit {n : Nat} (h : n < 16) : hexValue? (hexDigit n) = some n := by
  have hall : ∀ n < 16, hexValue? (hexDigit n) = some n := by decide
  exact hall n h

theorem readFrom_inHex {c : Char} {digit : Nat} (h : hexValue? c = some digit)
    (units : List Nat) (left value : Nat) (rest : List Char) :
    readFrom (.inHex units left value) (c :: rest) =
      match left with
      | 0 => readFrom (.inString ((16 * value + digit) :: units)) rest
      | left + 1 => readFrom (.inHex units left (16 * value + digit)) rest := by
  cases left <;> simp only [readFrom, h]

theorem readFrom_hex (units : List Nat) {n : Nat} (h : n < 0x100) (rest : List Char) :
    readFrom (.inString units)
      ('\\' :: 'u' :: '0' :: '0' :: hexDigit (n / 16) :: hexDigit (n % 16) :: rest) =
        readFrom (.inString (n :: units)) rest := by
  have hopen (s : List Char) : readFrom (.inString units) ('\\' :: 'u' :: '0' :: '0' :: s) =
      readFrom (.inHex units 1 0) s := rfl
  have hhigh : hexValue? (hexDigit (n / 16)) = some (n / 16) := hexValue?_hexDigit (by omega)
  have hlow : hexValue? (hexDigit (n % 16)) = some (n % 16) := hexValue?_hexDigit (by omega)
  have hvalue : 16 * (16 * 0 + n / 16) + n % 16 = n := by omega
  rw [hopen, readFrom_inHex hhigh]
  dsimp only
  rw [readFrom_inHex hlow, hvalue]

theorem readFrom_inString_char {c : Char} (hquote : c ≠ '"') (hbackslash : c ≠ '\\')
    (hcontrol : ¬ c.toNat < 0x20) (units : List Nat) (rest : List Char) :
    readFrom (.inString units) (c :: rest) = readFrom (.inString (c.toNat :: units)) rest := by
  have hstep : readFrom (.inString units) (c :: rest) =
      if c == '"' then (readFrom .gap rest).map (ofUnits units :: ·)
      else if c == '\\' then readFrom (.afterBackslash units) rest
      else if c.toNat < 0x20 then none
      else readFrom (.inString (c.toNat :: units)) rest := rfl
  rw [hstep, if_neg (by simpa using hquote), if_neg (by simpa using hbackslash), if_neg hcontrol]

/-- An escaped character is read as the character that it stands for. -/
theorem readFrom_escapedChar (units : List Nat) (c : Char) (rest : List Char) :
    readFrom (.inString units) (escapedChar c ++ rest) =
      readFrom (.inString (c.toNat :: units)) rest := by
  unfold escapedChar
  by_cases hquote : c = '"'
  · subst hquote
    rfl
  by_cases hbackslash : c = '\\'
  · subst hbackslash
    rfl
  by_cases hcontrol : c.toNat < 0x20
  · by_cases hfeed : c = '\n'
    · subst hfeed
      rfl
    by_cases hreturn : c = '\r'
    · subst hreturn
      rfl
    by_cases htab : c = '\t'
    · subst htab
      rfl
    by_cases hback : c.toNat = 0x08
    · simp only [beq_iff_eq, hquote, hbackslash, hfeed, hreturn, htab, hback, if_true, if_false]
      rfl
    by_cases hform : c.toNat = 0x0C
    · simp only [beq_iff_eq, hquote, hbackslash, hfeed, hreturn, htab, hform, if_true, if_false]
      rfl
    · simpa [hquote, hbackslash, hcontrol, hfeed, hreturn, htab, hback, hform] using
        readFrom_hex units (by omega : c.toNat < 0x100) rest
  · simpa [hquote, hbackslash, hcontrol] using
      readFrom_inString_char hquote hbackslash hcontrol units rest

theorem readFrom_writeString (s : String) (rest : List Char) :
    readFrom .gap (writeString s ++ rest) =
      (readFrom .gap rest).map (string (some s) :: ·) := by
  have hchars : ∀ (chars units : List Char),
      readFrom (.inString (units.map Char.toNat)) (chars.flatMap escapedChar ++ '"' :: rest) =
        (readFrom .gap rest).map (string (some (String.ofList (units.reverse ++ chars))) :: ·) := by
    intro chars
    induction chars with
    | nil =>
      intro units
      have hend : readFrom (.inString (units.map Char.toNat)) ('"' :: rest) =
          (readFrom .gap rest).map (ofUnits (units.map Char.toNat) :: ·) := rfl
      simpa [ofUnits_toNat] using hend
    | cons c chars ih =>
      intro units
      have hnext := ih (c :: units)
      rw [List.flatMap_cons, List.append_assoc, readFrom_escapedChar, ← List.map_cons, hnext]
      simp
  have hall := hchars s.toList []
  simp only [writeString, List.cons_append, List.append_assoc, List.nil_append]
  rw [readFrom_gap_start rfl]
  simpa using hall

/-! ### Words and numbers -/

theorem Stops.not_word {rest : List Char} (h : Stops rest) : ∀ c ∈ rest.head?, c.isLower = false := by
  intro c hc
  rcases h c hc with rfl | rfl | rfl <;> rfl

theorem Stops.not_number {rest : List Char} (h : Stops rest) :
    ∀ c ∈ rest.head?, continuesNumber c = false := by
  intro c hc
  rcases h c hc with rfl | rfl | rfl <;> rfl

/-- A word ends where no small letter follows. -/
theorem readFrom_word_end {read rest : List Char} {t : Token} (hword : ofWord? read = some t)
    (hrest : ∀ c ∈ rest.head?, c.isLower = false) :
    readFrom (.inWord read) rest = (readFrom .gap rest).map (t :: ·) := by
  cases rest with
  | nil =>
    have hend : readFrom (.inWord read) [] = (ofWord? read).map ([·]) := rfl
    rw [hend, hword]
    rfl
  | cons c rest =>
    have hc : ¬ c.isLower = true := by simp [hrest c rfl]
    rw [readFrom_gap_cons, readFrom, if_neg hc, hword]
    cases enter c with
    | none => rfl
    | some next => simp [Function.comp_def]

theorem readFrom_word_append {chars : List Char} (h : chars.all Char.isLower = true)
    (read rest : List Char) :
    readFrom (.inWord read) (chars ++ rest) = readFrom (.inWord (chars.reverse ++ read)) rest := by
  induction chars generalizing read with
  | nil => rfl
  | cons c chars ih =>
    rw [List.all_cons, Bool.and_eq_true] at h
    have hstep : readFrom (.inWord read) (c :: (chars ++ rest)) =
        readFrom (.inWord (c :: read)) (chars ++ rest) := if_pos h.1
    rw [List.cons_append, hstep, ih h.2]
    simp

theorem readFrom_gap_word {c : Char} (chars : List Char) {t : Token}
    (hfirst : enter c = some (none, .inWord [c])) (hchars : chars.all Char.isLower = true)
    (hword : ofWord? (chars.reverse ++ [c]) = some t) {rest : List Char} (h : Stops rest) :
    readFrom .gap (c :: chars ++ rest) = (readFrom .gap rest).map (t :: ·) := by
  rw [← readFrom_word_end hword h.not_word, ← readFrom_word_append hchars, List.cons_append]
  exact readFrom_gap_start hfirst _

/-- A number ends where no character of a number follows. -/
theorem readFrom_number_end {read rest : List Char} {t : Token}
    (hnumber : ofNumber? read = some t) (hrest : ∀ c ∈ rest.head?, continuesNumber c = false) :
    readFrom (.inNumber read) rest = (readFrom .gap rest).map (t :: ·) := by
  cases rest with
  | nil =>
    have hend : readFrom (.inNumber read) [] = (ofNumber? read).map ([·]) := rfl
    rw [hend, hnumber]
    rfl
  | cons c rest =>
    have hc : ¬ continuesNumber c = true := by simp [hrest c rfl]
    rw [readFrom_gap_cons, readFrom, if_neg hc, hnumber]
    cases enter c with
    | none => rfl
    | some next => simp [Function.comp_def]

theorem readFrom_number_append {chars : List Char} (h : ∀ c ∈ chars, continuesNumber c = true)
    (read rest : List Char) :
    readFrom (.inNumber read) (chars ++ rest) =
      readFrom (.inNumber (chars.reverse ++ read)) rest := by
  induction chars generalizing read with
  | nil => rfl
  | cons c chars ih =>
    obtain ⟨hc, hchars⟩ := List.forall_mem_cons.mp h
    have hstep : readFrom (.inNumber read) (c :: (chars ++ rest)) =
        readFrom (.inNumber (c :: read)) (chars ++ rest) := if_pos hc
    rw [List.cons_append, hstep, ih hchars]
    simp

end Token

namespace Number

theorem continuesNumber_of_isDigit {c : Char} (h : c.isDigit = true) :
    Token.continuesNumber c = true := by
  simp [Token.continuesNumber, h]

theorem exponentPart?_chars {s : List Char} {e : Option (Bool × List Char)}
    (h : exponentPart? s = some e) : ∀ c ∈ s, Token.continuesNumber c = true := by
  cases s with
  | nil => simp
  | cons mark rest =>
    unfold exponentPart? at h
    dsimp only at h
    by_cases hmark : (mark == 'e' || mark == 'E') = true
    · have hfirst : Token.continuesNumber mark = true := by
        rw [Bool.or_eq_true] at hmark
        rcases hmark with he | he <;> simp [Token.continuesNumber, beq_iff_eq.mp he]
      rw [if_pos hmark] at h
      rw [List.forall_mem_cons]
      refine ⟨hfirst, ?_⟩
      have hrest : ∀ digits : List Char, (!digits.isEmpty && digits.all Char.isDigit) = true →
          ∀ c ∈ digits, Token.continuesNumber c = true := by
        intro digits hall
        rw [Bool.and_eq_true, List.all_eq_true] at hall
        exact fun c hc => continuesNumber_of_isDigit (hall.2 c hc)
      split at h
      · have hall := hrest _ (Option.ite_none_right_eq_some.mp h).1
        exact List.forall_mem_cons.mpr ⟨rfl, hall⟩
      · have hall := hrest _ (Option.ite_none_right_eq_some.mp h).1
        exact List.forall_mem_cons.mpr ⟨rfl, hall⟩
      · exact hrest _ (Option.ite_none_right_eq_some.mp h).1
    · rw [if_neg hmark] at h
      cases h

/-- The text of a number starts with a digit or a minus sign and holds nothing that
could end it. -/
theorem Lexeme.ofChars?_chars {s : List Char} {l : Lexeme} (h : Lexeme.ofChars? s = some l) :
    (∃ c rest, s = c :: rest ∧ (c = '-' ∨ c.isDigit = true)) ∧
      ∀ c ∈ s, Token.continuesNumber c = true := by
  -- The same for what stands behind the sign.
  have hbody : ∀ body : List Char, (body.takeWhile Char.isDigit).isEmpty = false →
      (∀ c ∈ body.dropWhile Char.isDigit, Token.continuesNumber c = true) →
      (∃ c rest, body = c :: rest ∧ c.isDigit = true) ∧
        ∀ c ∈ body, Token.continuesNumber c = true := by
    intro body hwhole hrest
    constructor
    · cases body with
      | nil => simp at hwhole
      | cons c rest =>
        refine ⟨c, rest, rfl, ?_⟩
        by_cases hc : c.isDigit = true
        · exact hc
        · simp [hc] at hwhole
    · intro c hc
      rw [← List.takeWhile_append_dropWhile (p := Char.isDigit) (l := body)] at hc
      rcases List.mem_append.mp hc with hc | hc
      · exact continuesNumber_of_isDigit (List.mem_takeWhile_imp hc)
      · exact hrest c hc
  unfold Lexeme.ofChars? at h
  split at h
  rename_i negative body hsign
  dsimp only at h
  by_cases hwhole : (body.takeWhile Char.isDigit).isEmpty = true
  · rw [hwhole, Bool.true_or, if_pos rfl] at h
    cases h
  · rw [Bool.not_eq_true] at hwhole
    rw [hwhole, Bool.false_or] at h
    replace h := (Option.ite_none_left_eq_some.mp h).2
    have hrest : ∀ c ∈ body.dropWhile Char.isDigit, Token.continuesNumber c = true := by
      split at h
      · rename_i rest hpoint
        split at h
        · cases h
        · obtain ⟨e, hexponent, -⟩ := Option.map_eq_some_iff.mp h
          rw [hpoint, List.forall_mem_cons]
          refine ⟨rfl, ?_⟩
          intro c hc
          rw [← List.takeWhile_append_dropWhile (p := Char.isDigit) (l := rest)] at hc
          rcases List.mem_append.mp hc with hc | hc
          · exact continuesNumber_of_isDigit (List.mem_takeWhile_imp hc)
          · exact exponentPart?_chars hexponent c hc
      · obtain ⟨e, hexponent, -⟩ := Option.map_eq_some_iff.mp h
        exact exponentPart?_chars hexponent
    obtain ⟨⟨c, rest, hfirst, hdigit⟩, hall⟩ := hbody body hwhole hrest
    split at hsign
    · cases hsign
      exact ⟨⟨'-', _, rfl, Or.inl rfl⟩, List.forall_mem_cons.mpr ⟨rfl, hall⟩⟩
    · cases hsign
      exact ⟨⟨c, rest, hfirst, Or.inr hdigit⟩, hall⟩

end Number

namespace Token

theorem enter_number {c : Char} (h : c = '-' ∨ c.isDigit = true) :
    enter c = some (none, .inNumber [c]) := by
  rcases h with rfl | hdigit
  · rfl
  · have hne : ∀ d : Char, d.isDigit = false → c ≠ d := by
      rintro d hd rfl
      rw [hdigit] at hd
      contradiction
    simp [enter, isSpace, hne ' ' rfl, hne '\n' rfl, hne '\r' rfl, hne '\t' rfl, hne '"' rfl,
      hne ',' rfl, hne ':' rfl, hne '[' rfl, hne ']' rfl, hne '{' rfl, hne '}' rfl, hdigit]

theorem readFrom_gap_number {n : Number} (hread : n.reread?.isSome = true) {rest : List Char}
    (h : Stops rest) :
    readFrom .gap (n.write.toList ++ rest) =
      (readFrom .gap rest).map (number n.reread? :: ·) := by
  unfold Number.reread? at hread ⊢
  cases hlexeme : Number.Lexeme.ofChars? n.write.toList with
  | none => simp [hlexeme] at hread
  | some l =>
    obtain ⟨⟨c, chars, htext, hfirst⟩, hall⟩ := Number.Lexeme.ofChars?_chars hlexeme
    rw [htext] at hlexeme hall ⊢
    have hnumber : ofNumber? (chars.reverse ++ [c]) = some (number l.value?) := by
      simp [ofNumber?, hlexeme]
    obtain ⟨-, hchars⟩ := List.forall_mem_cons.mp hall
    rw [Option.bind_some, ← readFrom_number_end hnumber h.not_number,
      ← readFrom_number_append hchars]
    exact readFrom_gap_start (enter_number hfirst) _

/-! ### Values -/

/-- The text of the value is read as its tokens wherever it may stand. -/
def ReadsAs (chars : List Char) (found : List Token) : Prop :=
  ∀ rest, Stops rest → readFrom .gap (chars ++ rest) = (readFrom .gap rest).map (found ++ ·)

theorem readFrom_items {items : List Json}
    (h : ∀ v ∈ items, ReadsAs v.compactChars v.tokens) (rest : List Char) :
    readFrom .gap (compactItems items ++ ']' :: rest) =
      (readFrom .gap rest).map (itemTokens items ++ .closeArray :: ·) := by
  have hclose : readFrom .gap (']' :: rest) = (readFrom .gap rest).map (.closeArray :: ·) :=
    readFrom_gap_mark rfl rest
  induction items with
  | nil => simpa [compactItems, itemTokens] using hclose
  | cons item others ih =>
    obtain ⟨hitem, hothers⟩ := List.forall_mem_cons.mp h
    cases others with
    | nil =>
      rw [compactItems, itemTokens, hitem _ (stops_cons (by simp) rest), hclose]
      simp [Function.comp_def]
    | cons second others =>
      have hcomma : readFrom .gap (',' :: (compactItems (second :: others) ++ ']' :: rest)) =
          (readFrom .gap (compactItems (second :: others) ++ ']' :: rest)).map (.comma :: ·) :=
        readFrom_gap_mark rfl _
      rw [compactItems, itemTokens, List.append_assoc, List.cons_append,
        hitem _ (stops_cons (by simp) _), hcomma, ih hothers]
      · simp [Function.comp_def]
      · simp
      · simp

theorem readFrom_fields {fields : List (String × Json)}
    (h : ∀ field ∈ fields, ReadsAs field.2.compactChars field.2.tokens) (rest : List Char) :
    readFrom .gap (compactFields fields ++ '}' :: rest) =
      (readFrom .gap rest).map (fieldTokens fields ++ .closeObject :: ·) := by
  have hclose : readFrom .gap ('}' :: rest) = (readFrom .gap rest).map (.closeObject :: ·) :=
    readFrom_gap_mark rfl rest
  have hcolon : ∀ s : List Char, readFrom .gap (':' :: s) = (readFrom .gap s).map (.colon :: ·) :=
    fun s => readFrom_gap_mark rfl s
  induction fields with
  | nil => simpa [compactFields, fieldTokens] using hclose
  | cons field others ih =>
    obtain ⟨key, value⟩ := field
    obtain ⟨hvalue, hothers⟩ := List.forall_mem_cons.mp h
    cases others with
    | nil =>
      rw [compactFields, fieldTokens, List.append_assoc, readFrom_writeString, List.cons_append,
        hcolon, hvalue _ (stops_cons (by simp) rest), hclose]
      simp [Function.comp_def]
    | cons second others =>
      have hcomma : readFrom .gap (',' :: (compactFields (second :: others) ++ '}' :: rest)) =
          (readFrom .gap (compactFields (second :: others) ++ '}' :: rest)).map (.comma :: ·) :=
        readFrom_gap_mark rfl _
      rw [compactFields, fieldTokens, List.append_assoc, List.append_assoc, readFrom_writeString,
        List.cons_append, hcolon, List.cons_append, hvalue _ (stops_cons (by simp) _), hcomma,
        ih hothers]
      · simp [Function.comp_def]
      · simp
      · simp

theorem readsAs_compactChars {depth : Nat} {v : Json} (h : Readable depth v) :
    ReadsAs v.compactChars v.tokens := by
  induction h with
  | null depth =>
    intro rest hrest
    exact readFrom_gap_word ['u', 'l', 'l'] rfl rfl rfl hrest
  | bool depth b =>
    intro rest hrest
    cases b with
    | true => exact readFrom_gap_word ['r', 'u', 'e'] rfl rfl rfl hrest
    | false => exact readFrom_gap_word ['a', 'l', 's', 'e'] rfl rfl rfl hrest
  | number depth hread =>
    intro rest hrest
    exact readFrom_gap_number hread hrest
  | string depth s =>
    intro rest hrest
    exact readFrom_writeString s rest
  | array h ih =>
    intro rest hrest
    have hopen : ∀ s : List Char,
        readFrom .gap ('[' :: s) = (readFrom .gap s).map (.openArray :: ·) :=
      fun s => readFrom_gap_mark rfl s
    rw [compactChars, List.append_assoc, List.cons_append, hopen, List.singleton_append,
      readFrom_items ih, tokens]
    simp [Function.comp_def]
  | object h ih =>
    intro rest hrest
    have hopen : ∀ s : List Char,
        readFrom .gap ('{' :: s) = (readFrom .gap s).map (.openObject :: ·) :=
      fun s => readFrom_gap_mark rfl s
    rw [compactChars, List.append_assoc, List.cons_append, hopen, List.singleton_append,
      readFrom_fields ih, tokens]
    simp [Function.comp_def]

/-- The text of a value is read as its tokens. -/
theorem ofText?_compactChars {depth : Nat} {v : Json} (h : Readable depth v) :
    ofText? v.compactChars = some v.tokens := by
  have hread := readsAs_compactChars h [] stops_nil
  have hend : readFrom .gap [] = some [] := rfl
  simpa [ofText?, hend] using hread

end Token

end LedgerConformance.Json
