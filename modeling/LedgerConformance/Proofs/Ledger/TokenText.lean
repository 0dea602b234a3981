import LedgerConformance.Ledger.Printer

/-!
Tokens as texts. A plain token is one that can be written: any string, and a
word without blanks and quotes that does not start a comment. The reader takes
the written form of a plain token off the front of a line and goes on behind
the blank that follows, so a line of plain tokens is read back as these tokens.
-/

namespace LedgerConformance.Ledger.Token

/-- A character that may stand anywhere in a word. -/
def isInk (c : Char) : Bool := !Text.isBlank c && c != '"' && c != ';'

/-- A word that is read as one token: it has no blank and no quote, and its first
character starts no comment. -/
def IsPlainWord (w : List Char) : Prop :=
  w ≠ [] ∧ (∀ c ∈ w, Text.isBlank c = false ∧ c ≠ '"') ∧ w.head? ≠ some ';'

/-- A token that its written form gives back. -/
def Plain : Token → Prop
  | word s => IsPlainWord s.toList
  | text _ => True

/-- A plain token whose written form has no line feed. -/
def OnOneLine : Token → Prop
  | word s => IsPlainWord s.toList
  | text s => '\n' ∉ s.toList

theorem OnOneLine.plain {t : Token} (h : t.OnOneLine) : t.Plain := by
  cases t with
  | word s => exact h
  | text s => trivial

theorem isInk_iff {c : Char} :
    isInk c = true ↔ Text.isBlank c = false ∧ c ≠ '"' ∧ c ≠ ';' := by
  simp [isInk, and_assoc]

theorem IsPlainWord.of_ink {w : List Char} (hne : w ≠ []) (hink : ∀ c ∈ w, isInk c = true) :
    IsPlainWord w := by
  refine ⟨hne, ?_, ?_⟩
  · intro c hc
    obtain ⟨hblank, hquote, _⟩ := isInk_iff.mp (hink c hc)
    exact ⟨hblank, hquote⟩
  · intro hhead
    exact (isInk_iff.mp (hink ';' (List.mem_of_mem_head? hhead))).2.2 rfl

/-- Inside of a word the reader collects what is no blank and no quote. -/
theorem readFrom_inWord_append (w read rest : List Char)
    (h : ∀ c ∈ w, Text.isBlank c = false ∧ c ≠ '"') :
    readFrom (.inWord read) (w ++ rest) = readFrom (.inWord (w.reverse ++ read)) rest := by
  induction w generalizing read with
  | nil => rfl
  | cons c w ih =>
    obtain ⟨hblank, hquote⟩ := h c List.mem_cons_self
    have hstep : readFrom (.inWord read) (c :: (w ++ rest)) =
        readFrom (.inWord (c :: read)) (w ++ rest) := by
      simp [readFrom, hblank, hquote]
    rw [List.cons_append, hstep, ih (c :: read) fun d hd => h d (List.mem_cons_of_mem _ hd)]
    simp

/-- Inside of a string the reader collects what was escaped, up to the quote
that closes it. -/
theorem readFrom_inText_escaped (s read rest : List Char) :
    readFrom (.inText read) (escaped s ++ '"' :: rest) =
      (readFrom .gap rest).map (text (String.ofList (read.reverse ++ s)) :: ·) := by
  induction s generalizing read with
  | nil => simp [escaped, readFrom]
  | cons c s ih =>
    by_cases hmark : c = '"' ∨ c = '\\'
    · have hstep : readFrom (.inText read) (escaped (c :: s) ++ '"' :: rest) =
          readFrom (.inText (c :: read)) (escaped s ++ '"' :: rest) := by
        simp [escaped, hmark, readFrom]
      rw [hstep, ih]
      simp
    · obtain ⟨hquote, hslash⟩ := not_or.mp hmark
      have hstep : readFrom (.inText read) (escaped (c :: s) ++ '"' :: rest) =
          readFrom (.inText (c :: read)) (escaped s ++ '"' :: rest) := by
        simp [escaped, hquote, hslash, readFrom]
      rw [hstep, ih]
      simp

theorem readFrom_gap_blank {b : Char} (hb : Text.isBlank b = true) (rest : List Char) :
    readFrom .gap (b :: rest) = readFrom .gap rest := by
  simp [readFrom, hb]

/-- The first character of a plain word opens it. -/
theorem readFrom_gap_word {w : List Char} (h : IsPlainWord w) (rest : List Char) :
    readFrom .gap (w ++ rest) = readFrom (.inWord w.reverse) rest := by
  obtain ⟨hne, hchars, hhead⟩ := h
  cases w with
  | nil => contradiction
  | cons c w =>
    obtain ⟨hblank, hquote⟩ := hchars c List.mem_cons_self
    have hcomment : c ≠ ';' := by simpa using hhead
    have hstep : readFrom .gap (c :: (w ++ rest)) = readFrom (.inWord [c]) (w ++ rest) := by
      simp [readFrom, hblank, hquote, hcomment]
    rw [List.cons_append, hstep,
      readFrom_inWord_append w [c] rest fun d hd => hchars d (List.mem_cons_of_mem _ hd),
      List.reverse_cons]

/-- A plain token is read off the front, together with the blank behind it. -/
theorem readFrom_gap_write_blank {t : Token} (ht : t.Plain) {b : Char}
    (hb : Text.isBlank b = true) (rest : List Char) :
    readFrom .gap (t.write ++ b :: rest) = (readFrom .gap rest).map (t :: ·) := by
  cases t with
  | word s =>
    rw [write, readFrom_gap_word ht]
    simp [readFrom, hb]
  | text s =>
    have hopen : readFrom .gap ((text s).write ++ b :: rest) =
        readFrom (.inText []) (escaped s.toList ++ '"' :: (b :: rest)) := by
      simp [write, readFrom, Text.isBlank]
    rw [hopen, readFrom_inText_escaped, readFrom_gap_blank hb]
    simp

theorem readFrom_gap_write {t : Token} (ht : t.Plain) : readFrom .gap t.write = some [t] := by
  cases t with
  | word s =>
    have h := readFrom_gap_word ht []
    rw [List.append_nil] at h
    rw [write, h]
    simp [readFrom]
  | text s =>
    have hopen : readFrom .gap (text s).write =
        readFrom (.inText []) (escaped s.toList ++ '"' :: []) := by
      simp [write, readFrom, Text.isBlank]
    rw [hopen, readFrom_inText_escaped]
    simp [readFrom]

/-- A line of plain tokens is read back. -/
theorem ofLine?_writeAll (tokens : List Token) (h : ∀ t ∈ tokens, t.Plain) :
    ofLine? (writeAll tokens) = some tokens := by
  unfold ofLine? writeAll
  induction tokens with
  | nil => rfl
  | cons t rest ih =>
    have ht : t.Plain := h t List.mem_cons_self
    have hrest := ih fun u hu => h u (List.mem_cons_of_mem _ hu)
    cases rest with
    | nil => simpa using readFrom_gap_write ht
    | cons u rest =>
      rw [List.map_cons, List.intercalate_cons_of_ne_nil (by simp), List.append_assoc,
        List.singleton_append, readFrom_gap_write_blank ht (by decide), hrest]
      rfl

/-- A line of blanks has no tokens. -/
theorem ofLine?_of_blank {line : List Char} (h : line.all Text.isBlank = true) :
    ofLine? line = some [] := by
  unfold ofLine?
  induction line with
  | nil => rfl
  | cons c rest ih =>
    rw [List.all_cons, Bool.and_eq_true] at h
    rw [readFrom_gap_blank h.1, ih h.2]

theorem getLast?_write {t : Token} (ht : t.Plain) :
    ∃ c, t.write.getLast? = some c ∧ Text.isBlank c = false := by
  cases t with
  | word s =>
    obtain ⟨hne, hchars, _⟩ := ht
    refine ⟨s.toList.getLast hne, List.getLast?_eq_some_getLast hne, ?_⟩
    exact (hchars _ (List.getLast_mem hne)).1
  | text s => exact ⟨'"', by rw [write, List.getLast?_concat], by decide⟩

/-- A line of plain tokens ends with a character that is not blank. -/
theorem getLast?_writeAll {tokens : List Token} (hne : tokens ≠ []) (h : ∀ t ∈ tokens, t.Plain) :
    ∃ c, (writeAll tokens).getLast? = some c ∧ Text.isBlank c = false := by
  unfold writeAll
  induction tokens with
  | nil => contradiction
  | cons t rest ih =>
    cases rest with
    | nil => simpa using getLast?_write (h t List.mem_cons_self)
    | cons u rest =>
      obtain ⟨c, hc, hblank⟩ := ih (by simp) fun v hv => h v (List.mem_cons_of_mem _ hv)
      refine ⟨c, ?_, hblank⟩
      rw [List.map_cons, List.intercalate_cons_of_ne_nil (by simp), List.getLast?_append, hc]
      rfl

theorem mem_escaped {c : Char} {s : List Char} (h : c ∈ escaped s) : c = '\\' ∨ c ∈ s := by
  induction s with
  | nil => simp [escaped] at h
  | cons d s ih =>
    unfold escaped at h
    split at h
    · rcases List.mem_cons.mp h with hslash | h
      · exact Or.inl hslash
      · rcases List.mem_cons.mp h with heq | h
        · exact Or.inr (heq ▸ List.mem_cons_self)
        · exact (ih h).imp id (List.mem_cons_of_mem _)
    · rcases List.mem_cons.mp h with heq | h
      · exact Or.inr (heq ▸ List.mem_cons_self)
      · exact (ih h).imp id (List.mem_cons_of_mem _)

theorem OnOneLine.newline_not_mem_write {t : Token} (ht : t.OnOneLine) : '\n' ∉ t.write := by
  intro hmem
  cases t with
  | word s =>
    obtain ⟨_, hchars, _⟩ := ht
    exact absurd (hchars '\n' hmem).1 (by decide)
  | text s =>
    simp only [write, List.mem_append, List.mem_cons, List.not_mem_nil, or_false] at hmem
    rcases hmem with (hquote | hmem) | hquote
    · exact absurd hquote (by decide)
    · rcases mem_escaped hmem with hslash | hmem
      · exact absurd hslash (by decide)
      · exact ht hmem
    · exact absurd hquote (by decide)

theorem newline_not_mem_writeAll {tokens : List Token} (h : ∀ t ∈ tokens, t.OnOneLine) :
    '\n' ∉ writeAll tokens := by
  unfold writeAll
  induction tokens with
  | nil => simp
  | cons t rest ih =>
    have ht := (h t List.mem_cons_self).newline_not_mem_write
    have hrest := ih fun u hu => h u (List.mem_cons_of_mem _ hu)
    cases rest with
    | nil => simpa using ht
    | cons u rest =>
      rw [List.map_cons, List.intercalate_cons_of_ne_nil (by simp)]
      simp only [List.mem_append, List.mem_singleton, not_or]
      exact ⟨⟨ht, by decide⟩, hrest⟩

end LedgerConformance.Ledger.Token
