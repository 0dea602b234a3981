import LedgerConformance.Proofs.Ledger.Comments

/-!
Lines of tokens. Tokens are read back from every line that has their written forms in order,
whatever blanks divide them and whether a comment follows. A line is refused for one reason
only: it opens a string that no quote closes, where a quote behind a backslash closes nothing.
-/

namespace LedgerConformance.Ledger.Token

/-! ### Lines that write tokens -/

/-- Blanks, of which there is one at least. -/
structure IsGap (gap : List Char) : Prop where
  ne_nil : gap ≠ []
  isBlank : ∀ c ∈ gap, Text.isBlank c = true

instance (gap : List Char) : Decidable (IsGap gap) :=
  decidable_of_iff (gap ≠ [] ∧ gap.all Text.isBlank = true) <| by
    rw [List.all_eq_true]
    exact ⟨fun ⟨hne, hblank⟩ => ⟨hne, hblank⟩, fun h => ⟨h.ne_nil, h.isBlank⟩⟩

/-- The written forms of some tokens in order, with gaps between them. -/
inductive AreWritten : List Token → List Char → Prop
  | none : AreWritten [] []
  | last (t : Token) : AreWritten [t] t.write
  | more {t next : Token} {rest : List Token} {gap line : List Char} : IsGap gap →
    AreWritten (next :: rest) line → AreWritten (t :: next :: rest) (t.write ++ gap ++ line)

/-- What may follow the tokens of a line: nothing, or a comment behind a gap. -/
inductive IsLineEnd : List Char → Prop
  | nothing : IsLineEnd []
  | comment {gap : List Char} (text : List Char) : IsGap gap → IsLineEnd (gap ++ ';' :: text)

theorem readFrom_gap_append {blanks : List Char} (h : ∀ c ∈ blanks, Text.isBlank c = true)
    (rest : List Char) : readFrom .gap (blanks ++ rest) = readFrom .gap rest := by
  induction blanks with
  | nil => rfl
  | cons b blanks ih =>
    obtain ⟨hb, hblanks⟩ := List.forall_mem_cons.mp h
    rw [List.cons_append, readFrom_gap_blank hb, ih hblanks]

/-- A plain token is read off the front, together with the gap behind it. -/
theorem readFrom_gap_write_append {t : Token} (ht : t.Plain) {gap : List Char} (hgap : IsGap gap)
    (rest : List Char) :
    readFrom .gap (t.write ++ gap ++ rest) = (readFrom .gap rest).map (t :: ·) := by
  obtain ⟨hne, hblank⟩ := hgap
  obtain ⟨b, blanks, rfl⟩ := List.exists_cons_of_ne_nil hne
  obtain ⟨hb, hblanks⟩ := List.forall_mem_cons.mp hblank
  rw [List.append_assoc, List.cons_append, readFrom_gap_write_blank ht hb,
    readFrom_gap_append hblanks]

theorem AreWritten.ofLine?_eq {tokens : List Token} {line : List Char}
    (h : AreWritten tokens line) (hplain : ∀ t ∈ tokens, t.Plain) :
    ofLine? line = some tokens := by
  induction h with
  | none => rfl
  | last t => exact readFrom_gap_write (hplain t List.mem_cons_self)
  | more hgap _ ih =>
    obtain ⟨ht, hrest⟩ := List.forall_mem_cons.mp hplain
    rw [ofLine?, readFrom_gap_write_append ht hgap, ← ofLine?, ih hrest, Option.map_some]

theorem ofLine?_append_lineEnd {raw lineEnd : List Char} (h : IsLineEnd lineEnd)
    (hraw : ofLine? raw ≠ none) : ofLine? (raw ++ lineEnd) = ofLine? raw := by
  cases h with
  | nothing => rw [List.append_nil]
  | @comment gap text hgap =>
    obtain ⟨hne, hblank⟩ := hgap
    obtain ⟨b, blanks, rfl⟩ := List.exists_cons_of_ne_nil hne
    exact ofLine?_append_comment (List.all_eq_true.mpr hblank) text hraw

/-! ### Strings that a line opens -/

/-- What may stand in a string: a backslash takes the character behind it, so a quote only
stands behind one. -/
inductive IsStringBody : List Char → Prop
  | nil : IsStringBody []
  | plain {c : Char} {body : List Char} : c ≠ '"' → c ≠ '\\' → IsStringBody body →
    IsStringBody (c :: body)
  | escaped (c : Char) {body : List Char} : IsStringBody body → IsStringBody ('\\' :: c :: body)

/-- Behind an opening quote, a string is closed by a quote that no backslash takes. -/
def Closes (rest : List Char) : Prop :=
  ∃ body after, IsStringBody body ∧ rest = body ++ '"' :: after

/-- What a line may hold in front of a string that it opens: blanks, words and whole strings. -/
inductive IsPart : List Char → Prop
  | blank {b : Char} : Text.isBlank b = true → IsPart [b]
  | word {w : List Char} : IsPlainWord w → IsPart w
  | string {body : List Char} : IsStringBody body → IsPart ('"' :: body ++ ['"'])

/-- The line opens a string, behind whose quote it goes on as given. -/
def OpensString (line rest : List Char) : Prop :=
  ∃ parts : List (List Char), (∀ part ∈ parts, IsPart part) ∧ line = parts.flatten ++ '"' :: rest

theorem OpensString.behind {part line rest : List Char} (hpart : IsPart part)
    (h : OpensString line rest) : OpensString (part ++ line) rest := by
  obtain ⟨parts, hparts, rfl⟩ := h
  refine ⟨part :: parts, List.forall_mem_cons.mpr ⟨hpart, hparts⟩, ?_⟩
  rw [List.flatten_cons, List.append_assoc]

/-- Behind the quote that closes a string, the reader goes on as between tokens. -/
theorem readFrom_inText_body {body : List Char} (h : IsStringBody body) (read after : List Char) :
    readFrom (.inText read) (body ++ '"' :: after) = none ↔ readFrom .gap after = none := by
  induction h generalizing read with
  | nil => simp [readFrom]
  | @plain c body hquote hslash _ ih =>
    have hstep : readFrom (.inText read) (c :: body ++ '"' :: after) =
        readFrom (.inText (c :: read)) (body ++ '"' :: after) := by
      simp [readFrom, hquote, hslash]
    rw [hstep, ih]
  | @escaped c body _ ih =>
    have hstep : readFrom (.inText read) ('\\' :: c :: body ++ '"' :: after) =
        readFrom (.inText (c :: read)) (body ++ '"' :: after) := by
      simp [readFrom]
    rw [hstep, ih]

theorem readFrom_inText_of_not_closes {rest : List Char} (h : ¬ Closes rest) (read : List Char) :
    readFrom (.inText read) rest = none := by
  -- by the length, as a backslash and the character behind it are two
  induction hlength : rest.length using Nat.strongRecOn generalizing rest read with
  | ind n ih =>
    subst hlength
    cases rest with
    | nil => rfl
    | cons c rest =>
      by_cases hquote : c = '"'
      · subst hquote
        exact absurd ⟨[], rest, .nil, rfl⟩ h
      · by_cases hslash : c = '\\'
        · subst hslash
          cases rest with
          | nil => rfl
          | cons d rest =>
            have hrest : ¬ Closes rest := by
              rintro ⟨body, after, hbody, rfl⟩
              exact h ⟨_, after, .escaped d hbody, rfl⟩
            have hstep : readFrom (.inText read) ('\\' :: d :: rest) =
                readFrom (.inText (d :: read)) rest := by
              simp [readFrom]
            rw [hstep]
            exact ih rest.length (by simp only [List.length_cons]; omega) hrest _ rfl
        · have hrest : ¬ Closes rest := by
            rintro ⟨body, after, hbody, rfl⟩
            exact h ⟨_, after, .plain hquote hslash hbody, rfl⟩
          have hstep : readFrom (.inText read) (c :: rest) =
              readFrom (.inText (c :: read)) rest := by
            simp [readFrom, hquote, hslash]
          rw [hstep]
          exact ih rest.length (by simp only [List.length_cons]; omega) hrest _ rfl

/-- Places in which no string is open: between tokens, and in a word. -/
inductive IsOutside : Place → Prop
  | gap : IsOutside .gap
  | inWord (read : List Char) : IsOutside (.inWord read)

/-- A quote outside of strings opens one. -/
theorem IsOutside.readFrom_quote {place : Place} (h : IsOutside place) (rest : List Char) :
    readFrom place ('"' :: rest) = none ↔ readFrom (.inText []) rest = none := by
  have hquote : Text.isBlank '"' = false := by decide
  cases h <;> simp [readFrom, hquote]

/-- Over a part of a line, the reader gets from outside of strings to outside of strings. -/
theorem IsPart.readFrom_append {part : List Char} (hpart : IsPart part) {place : Place}
    (hplace : IsOutside place) :
    ∃ next, IsOutside next ∧
      ∀ rest, readFrom place (part ++ rest) = none ↔ readFrom next rest = none := by
  cases hpart with
  | blank hb =>
    refine ⟨.gap, .gap, fun rest => ?_⟩
    cases hplace <;> simp [readFrom, hb]
  | word hword =>
    cases hplace with
    | gap => exact ⟨_, .inWord part.reverse, fun rest => by rw [readFrom_gap_word hword]⟩
    | inWord read =>
      exact ⟨_, .inWord (part.reverse ++ read),
        fun rest => by rw [readFrom_inWord_append part read rest hword.2.1]⟩
  | @string body hbody =>
    refine ⟨.gap, .gap, fun rest => ?_⟩
    have hsplit : '"' :: body ++ ['"'] ++ rest = '"' :: (body ++ '"' :: rest) := by simp
    rw [hsplit, hplace.readFrom_quote, readFrom_inText_body hbody]

theorem readFrom_of_opensString {line rest : List Char} (h : OpensString line rest) {place : Place}
    (hplace : IsOutside place) :
    readFrom place line = none ↔ readFrom (.inText []) rest = none := by
  obtain ⟨parts, hparts, rfl⟩ := h
  induction parts generalizing place with
  | nil => exact hplace.readFrom_quote rest
  | cons part parts ih =>
    obtain ⟨hpart, hparts⟩ := List.forall_mem_cons.mp hparts
    obtain ⟨next, hnext, hstep⟩ := hpart.readFrom_append hplace
    rw [List.flatten_cons, List.append_assoc, hstep, ih hnext hparts]

/-- Where a word ends, the line is refused as if a token could start there. -/
theorem readFrom_inWord_of_ended {rest : List Char}
    (h : ∀ c ∈ rest.head?, ¬ (Text.isBlank c = false ∧ c ≠ '"')) (read : List Char) :
    readFrom (.inWord read) rest = none ↔ readFrom .gap rest = none := by
  cases rest with
  | nil => simp [readFrom]
  | cons c rest =>
    have hends : Text.isBlank c = true ∨ c = '"' := by
      rw [← Bool.not_eq_false, ← not_ne_iff (a := c), ← not_and_or]
      exact h c rfl
    rcases hends with hblank | rfl
    · simp [readFrom, hblank]
    · rw [(IsOutside.inWord read).readFrom_quote, IsOutside.gap.readFrom_quote]

/-- A line without a token at its start begins with a word up to the end of that word. -/
theorem exists_word_append {c : Char} (hblank : Text.isBlank c = false) (hquote : c ≠ '"')
    (hcomment : c ≠ ';') (tail : List Char) :
    ∃ w rest, c :: tail = w ++ rest ∧ IsPlainWord w ∧
      ∀ d ∈ rest.head?, ¬ (Text.isBlank d = false ∧ d ≠ '"') := by
  obtain ⟨inside, hinside⟩ : ∃ p : Char → Bool, p = fun d => !Text.isBlank d && d != '"' :=
    ⟨_, rfl⟩
  have hmem : ∀ {d}, inside d = true ↔ Text.isBlank d = false ∧ d ≠ '"' := by
    intro d
    simp [hinside]
  refine ⟨c :: tail.takeWhile inside, tail.dropWhile inside, ?_, ⟨List.cons_ne_nil _ _, ?_, ?_⟩, ?_⟩
  · rw [List.cons_append, List.takeWhile_append_dropWhile]
  · intro d hd
    rcases List.mem_cons.mp hd with rfl | hd
    · exact ⟨hblank, hquote⟩
    · exact hmem.mp (List.mem_takeWhile_imp hd)
  · simpa using hcomment
  · intro d hd hink
    have hstop := List.head?_dropWhile_not inside tail
    rw [hd] at hstop
    exact absurd (hmem.mpr hink) (by simpa using hstop)

theorem exists_opensString {line : List Char} (h : readFrom .gap line = none) :
    ∃ rest, OpensString line rest ∧ ¬ Closes rest := by
  -- by the length, as a word or a string is passed at once
  induction hlength : line.length using Nat.strongRecOn generalizing line with
  | ind n ih =>
    subst hlength
    have behind : ∀ {part after : List Char}, IsPart part → part ≠ [] → line = part ++ after →
        readFrom .gap after = none → ∃ rest, OpensString line rest ∧ ¬ Closes rest := by
      rintro part after hpart hne rfl hafter
      have hlt : after.length < (part ++ after).length := by
        have hpos := List.length_pos_iff.mpr hne
        rw [List.length_append]
        omega
      obtain ⟨rest, hopens, hclosed⟩ := ih _ hlt hafter rfl
      exact ⟨rest, hopens.behind hpart, hclosed⟩
    cases line with
    | nil => cases h
    | cons c tail =>
      by_cases hblank : Text.isBlank c = true
      · rw [readFrom_gap_blank hblank] at h
        exact behind (.blank hblank) (List.cons_ne_nil _ _) rfl h
      · by_cases hcomment : c = ';'
        · subst hcomment
          simp [readFrom, hblank] at h
        · by_cases hquote : c = '"'
          · subst hquote
            rw [IsOutside.gap.readFrom_quote] at h
            by_cases hclosed : Closes tail
            · obtain ⟨body, after, hbody, rfl⟩ := hclosed
              rw [readFrom_inText_body hbody] at h
              exact behind (.string hbody) (by simp) (by simp) h
            · exact ⟨tail, ⟨[], List.forall_mem_nil _, rfl⟩, hclosed⟩
          · obtain ⟨w, after, hsplit, hword, hends⟩ :=
              exists_word_append (Bool.not_eq_true _ ▸ hblank) hquote hcomment tail
            rw [hsplit, readFrom_gap_word hword, readFrom_inWord_of_ended hends] at h
            exact behind (.word hword) hword.1 hsplit h

/-- A line is refused exactly for a string that it opens and does not close. -/
theorem ofLine?_eq_none_iff {line : List Char} :
    ofLine? line = none ↔ ∃ rest, OpensString line rest ∧ ¬ Closes rest := by
  constructor
  · exact exists_opensString
  · rintro ⟨rest, hopens, hclosed⟩
    exact (readFrom_of_opensString hopens .gap).mpr (readFrom_inText_of_not_closes hclosed [])

/-- Plain tokens are read back from their written forms in a line, whatever gaps are between
them and also with a comment behind them. A line is refused exactly if a string that it opens is
not closed in it. -/
theorem ofLine?_inverts_write :
    (∀ tokens line lineEnd, (∀ t ∈ tokens, t.Plain) → AreWritten tokens line →
      IsLineEnd lineEnd → ofLine? (line ++ lineEnd) = some tokens) ∧
    ∀ line, ofLine? line = none ↔ ∃ rest, OpensString line rest ∧ ¬ Closes rest := by
  refine ⟨?_, fun line => ofLine?_eq_none_iff⟩
  intro tokens line lineEnd hplain hwritten hend
  have hline := hwritten.ofLine?_eq hplain
  have hread : ofLine? line ≠ none := by
    rw [hline]
    exact Option.some_ne_none tokens
  rw [ofLine?_append_lineEnd hend hread, hline]

/-- A word with a semicolon and a backslash, and a string that ends with a backslash and has
quotes and a semicolon, with a tab and a no-break space between them and a comment behind; and a
line where the quote that should close a string stands behind a backslash. -/
theorem ofLine?_inverts_write_backslashes :
    (word "a;\\").Plain ∧ IsGap ['\t', '\u00a0'] ∧
      ofLine? "a;\\\t\u00a0\"a \\\"b\\\" ; \\\\\"  ; \"till".toList =
        some [word "a;\\", text "a \"b\" ; \\"] ∧
      ∃ rest, OpensString "a;\" \\\"".toList rest ∧ ¬ Closes rest := by
  obtain ⟨hwrite, hnone⟩ := ofLine?_inverts_write
  have hword : (word "a;\\").Plain := by
    have hchars : ∀ c ∈ ['a', ';', '\\'], Text.isBlank c = false ∧ c ≠ '"' := by
      simp [Text.isBlank]
    exact ⟨by decide, hchars, by decide⟩
  have hgap : IsGap ['\t', '\u00a0'] := by decide
  have hend : IsLineEnd "  ; \"till".toList :=
    .comment " \"till".toList (show IsGap [' ', ' '] by decide)
  have hplain : ∀ t ∈ [word "a;\\", text "a \"b\" ; \\"], t.Plain := by
    rw [List.forall_mem_cons, List.forall_mem_singleton]
    exact ⟨hword, trivial⟩
  have hwritten : AreWritten [word "a;\\", text "a \"b\" ; \\"] _ := .more hgap (.last _)
  exact ⟨hword, hgap, hwrite _ _ _ hplain hwritten hend, (hnone _).mp (by decide)⟩

end LedgerConformance.Ledger.Token
