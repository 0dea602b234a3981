import LedgerConformance.Proofs.Text.LetterCase
import LedgerConformance.Proofs.Text.Pieces
import LedgerConformance.Query.Printer

/-!
Layouts of tokens. A literal may stand in either quote that it does not contain, and between
two tokens there may be any blanks, of which there has to be one only between two words.
Tokens are read back from every text of them, whatever blanks are around it and however many
semicolons are behind it.
-/

namespace LedgerConformance.Query.Token

/-- Blanks, or nothing at all. -/
def IsGap (s : List Char) : Prop := ∀ c ∈ s, Text.isBlank c = true

theorem isGap_nil : IsGap [] := List.forall_mem_nil _

theorem isGap_singleton {c : Char} (h : Text.isBlank c = true) : IsGap [c] :=
  List.forall_mem_singleton.mpr h

def isWord : Token → Bool
  | word _ => true
  | _ => false

/-- The texts of a token. -/
inductive IsText : Token → List Char → Prop
  | word (w : String) : IsText (word w) w.toList
  | literal {content : String} {mark : Char} : mark = '\'' ∨ mark = '"' →
    mark ∉ content.toList → IsText (literal content) (mark :: (content.toList ++ [mark]))
  | comma : IsText comma [',']
  | star : IsText star ['*']
  | equals : IsText equals ['=']

/-- The texts of some tokens: their own ones in order, with gaps between them. Words do not
run together. -/
inductive AreText : List Token → List Char → Prop
  | last {t : Token} {s : List Char} : IsText t s → AreText [t] s
  | more {t next : Token} {rest : List Token} {s gap text : List Char} :
    IsText t s → IsGap gap → (t.isWord = true ∧ next.isWord = true → gap ≠ []) →
    AreText (next :: rest) text → AreText (t :: next :: rest) (s ++ gap ++ text)

/-- A word of letters and digits. -/
structure IsName (w : String) : Prop where
  ne_nil : w.toList ≠ []
  isAlphanum : ∀ c ∈ w.toList, c.isAlphanum = true

instance instDecidableIsName (w : String) : Decidable (IsName w) :=
  decidable_of_iff (w.toList ≠ [] ∧ w.toList.all Char.isAlphanum = true)
    ⟨fun h => ⟨h.1, List.all_eq_true.mp h.2⟩, fun h => ⟨h.1, List.all_eq_true.mpr h.2⟩⟩

/-- A token that has texts: a word of letters and digits, or a literal that lacks one of the
quotes. -/
def IsWritable : Token → Prop
  | word w => IsName w
  | literal content => '\'' ∉ content.toList ∨ '"' ∉ content.toList
  | _ => True

theorem isText_write {t : Token} (h : t.IsWritable) : IsText t t.write := by
  cases t with
  | word w => exact .word w
  | literal content =>
    refine .literal ?_ ?_ <;> unfold markFor
    · split
      · exact Or.inr rfl
      · exact Or.inl rfl
    · split
      · rename_i hquote
        exact h.resolve_left fun hsingle => hsingle (List.contains_iff_mem.mp hquote)
      · rename_i hquote
        exact fun hmem => hquote (List.contains_iff_mem.mpr hmem)
  | comma => exact .comma
  | star => exact .star
  | equals => exact .equals

theorem areText_writeAll {tokens : List Token} (hne : tokens ≠ [])
    (h : ∀ t ∈ tokens, t.IsWritable) : AreText tokens (writeAll tokens) := by
  induction tokens with
  | nil => contradiction
  | cons t tokens ih =>
    obtain ⟨ht, htokens⟩ := List.forall_mem_cons.mp h
    cases tokens with
    | nil =>
      rw [writeAll, List.map_singleton, List.intercalate_singleton]
      exact .last (isText_write ht)
    | cons next rest =>
      have htext := AreText.more (isText_write ht) (isGap_singleton rfl)
        (fun _ => List.cons_ne_nil ' ' []) (ih (List.cons_ne_nil next rest) htokens)
      simpa [writeAll, List.intercalate] using htext

/-! ### Reading a token -/

section Equations

-- what a character leads to is not looked into here, as that would unfold the table of blanks
attribute [local irreducible] enter continuesWord

theorem readFrom_gap_cons (c : Char) (rest : List Char) :
    readFrom .gap (c :: rest) =
      match enter c with
      | .error fault => .error fault
      | .ok (token, place) => (readFrom place rest).map (token.toList ++ ·) := rfl

theorem readFrom_inWord_cons (read : List Char) (c : Char) (rest : List Char) :
    readFrom (.inWord read) (c :: rest) =
      if continuesWord c then readFrom (.inWord (c :: read)) rest
      else
        match enter c with
        | .error fault => .error fault
        | .ok (token, place) =>
          (readFrom place rest).map (word (String.ofList read.reverse) :: token.toList ++ ·) := rfl

theorem readFrom_inLiteral_cons (mark : Char) (read : List Char) (c : Char) (rest : List Char) :
    readFrom (.inLiteral mark read) (c :: rest) =
      if c == mark then (readFrom .gap rest).map (literal (String.ofList read.reverse) :: ·)
      else readFrom (.inLiteral mark (c :: read)) rest := rfl

end Equations

theorem map_nil_append (x : Except Fault (List Token)) : x.map ([] ++ ·) = x := by
  cases x <;> rfl

theorem readFrom_gap_append {gap : List Char} (h : IsGap gap) (rest : List Char) :
    readFrom .gap (gap ++ rest) = readFrom .gap rest := by
  induction gap with
  | nil => rfl
  | cons c gap ih =>
    have hc : enter c = .ok (none, .gap) := by
      rw [enter, if_pos (h c List.mem_cons_self)]
    rw [List.cons_append, readFrom_gap_cons, hc]
    exact (map_nil_append _).trans (ih fun d hd => h d (List.mem_cons_of_mem c hd))

theorem continuesWord_of_isBlank {c : Char} (h : Text.isBlank c = true) :
    continuesWord c = false := by
  have hother : ∀ d : Char, Text.isBlank d = false → c ≠ d := by
    rintro d hd rfl
    rw [h] at hd
    contradiction
  have halnum : c.isAlphanum = false := by
    rw [← Bool.not_eq_true]
    intro halnum
    rw [Text.isBlank_of_isAlphanum halnum] at h
    contradiction
  simp [continuesWord, startsWord, halnum, hother '_' (by decide), hother '.' (by decide)]

/-- No word goes on with the text. -/
def EndsWord (rest : List Char) : Prop := ∀ c ∈ rest.head?, continuesWord c = false

theorem IsGap.endsWord {gap : List Char} (h : IsGap gap) : EndsWord gap := by
  intro c hc
  exact continuesWord_of_isBlank (h c (List.mem_of_mem_head? hc))

theorem IsGap.endsWord_append {gap : List Char} (h : IsGap gap) (hne : gap ≠ [])
    (rest : List Char) : EndsWord (gap ++ rest) := by
  obtain ⟨c, gap, rfl⟩ := List.exists_cons_of_ne_nil hne
  rintro _ ⟨rfl⟩
  exact continuesWord_of_isBlank (h c List.mem_cons_self)

/-- Where a word cannot go on, what follows is read as it is read after a gap. -/
theorem readFrom_inWord_of_endsWord (read : List Char) {rest : List Char} (h : EndsWord rest) :
    readFrom (.inWord read) rest =
      (readFrom .gap rest).map (word (String.ofList read.reverse) :: ·) := by
  cases rest with
  | nil => rfl
  | cons c rest =>
    have hc : ¬ continuesWord c = true := by
      rw [h c rfl]
      decide
    rw [readFrom_inWord_cons, if_neg hc, readFrom_gap_cons]
    cases enter c with
    | error fault => rfl
    | ok entered =>
      obtain ⟨token, place⟩ := entered
      cases hrest : readFrom place rest <;> simp [hrest, Except.map]

theorem readFrom_inWord_append (read : List Char) {s rest : List Char}
    (hs : ∀ c ∈ s, continuesWord c = true) (hrest : EndsWord rest) :
    readFrom (.inWord read) (s ++ rest) =
      (readFrom .gap rest).map (word (String.ofList (read.reverse ++ s)) :: ·) := by
  induction s generalizing read with
  | nil => rw [List.nil_append, List.append_nil, readFrom_inWord_of_endsWord read hrest]
  | cons c s ih =>
    rw [List.cons_append, readFrom_inWord_cons, if_pos (hs c List.mem_cons_self),
      ih (c :: read) fun d hd => hs d (List.mem_cons_of_mem c hd), List.reverse_cons,
      List.append_assoc, List.singleton_append]

theorem enter_of_isAlphanum {c : Char} (h : c.isAlphanum = true) :
    enter c = .ok (none, .inWord [c]) := by
  have hother : ∀ d : Char, d.isAlphanum = false → c ≠ d := by
    rintro d hd rfl
    rw [h] at hd
    contradiction
  simp [enter, startsWord, Text.isBlank_of_isAlphanum h, h, hother ',' (by decide),
    hother '*' (by decide), hother '=' (by decide), hother '\'' (by decide),
    hother '"' (by decide)]

theorem readFrom_gap_name {w : String} (h : IsName w) {rest : List Char} (hrest : EndsWord rest) :
    readFrom .gap (w.toList ++ rest) = (readFrom .gap rest).map (word w :: ·) := by
  obtain ⟨c, s, hw⟩ := List.exists_cons_of_ne_nil h.ne_nil
  have hchars := h.isAlphanum
  rw [hw] at hchars
  have hs : ∀ d ∈ s, continuesWord d = true := by
    intro d hd
    simp [continuesWord, startsWord, hchars d (List.mem_cons_of_mem c hd)]
  have hback : String.ofList ([c].reverse ++ s) = w := by
    rw [List.reverse_singleton, List.singleton_append, ← hw, String.ofList_toList]
  rw [hw, List.cons_append, readFrom_gap_cons, enter_of_isAlphanum (hchars c List.mem_cons_self)]
  exact (map_nil_append _).trans (by rw [readFrom_inWord_append [c] hs hrest, hback])

theorem readFrom_inLiteral_append {mark : Char} (read : List Char) {s : List Char}
    (h : mark ∉ s) (rest : List Char) :
    readFrom (.inLiteral mark read) (s ++ mark :: rest) =
      (readFrom .gap rest).map (literal (String.ofList (read.reverse ++ s)) :: ·) := by
  induction s generalizing read with
  | nil =>
    rw [List.nil_append, List.append_nil, readFrom_inLiteral_cons,
      if_pos (beq_self_eq_true mark)]
  | cons c s ih =>
    obtain ⟨hc, hs⟩ := not_or.mp fun hmem => h (List.mem_cons.mpr hmem)
    rw [List.cons_append, readFrom_inLiteral_cons, if_neg (by simpa using Ne.symm hc),
      ih (c :: read) hs,
      List.reverse_cons, List.append_assoc, List.singleton_append]

theorem readFrom_gap_literal {mark : Char} (hmark : mark = '\'' ∨ mark = '"') {content : String}
    (h : mark ∉ content.toList) (rest : List Char) :
    readFrom .gap (mark :: (content.toList ++ [mark]) ++ rest) =
      (readFrom .gap rest).map (literal content :: ·) := by
  have henter : enter mark = .ok (none, .inLiteral mark []) := by
    rcases hmark with rfl | rfl <;> rfl
  have hread := readFrom_inLiteral_append [] h rest
  rw [List.reverse_nil, List.nil_append, String.ofList_toList] at hread
  rw [List.cons_append, List.append_assoc, List.singleton_append, readFrom_gap_cons, henter]
  exact (map_nil_append _).trans hread

/-- A text of a token is read as this token. -/
theorem IsText.readFrom_append {t : Token} {s rest : List Char} (h : IsText t s)
    (ht : t.IsWritable) (hrest : t.isWord = true → EndsWord rest) :
    readFrom .gap (s ++ rest) = (readFrom .gap rest).map (t :: ·) := by
  cases h with
  | word w => exact readFrom_gap_name ht (hrest rfl)
  | literal hmark hcontent => exact readFrom_gap_literal hmark hcontent rest
  | comma => rfl
  | star => rfl
  | equals => rfl

/-! ### Reading all tokens -/

theorem IsText.endsWord {t : Token} {s : List Char} (h : IsText t s) (ht : t.isWord = false)
    (rest : List Char) : EndsWord (s ++ rest) := by
  cases h with
  | word => contradiction
  | literal hmark =>
    rcases hmark with rfl | rfl <;> rintro _ ⟨rfl⟩ <;> rfl
  | comma => rintro _ ⟨rfl⟩; rfl
  | star => rintro _ ⟨rfl⟩; rfl
  | equals => rintro _ ⟨rfl⟩; rfl

theorem AreText.exists_first {t : Token} {tokens : List Token} {text : List Char}
    (h : AreText (t :: tokens) text) : ∃ s rest, IsText t s ∧ text = s ++ rest := by
  cases h with
  | last hs => exact ⟨_, [], hs, (List.append_nil _).symm⟩
  | more hs => exact ⟨_, _, hs, List.append_assoc _ _ _⟩

/-- Tokens are read back from their texts. -/
theorem AreText.readFrom_append {tokens : List Token} {text gap : List Char}
    (h : AreText tokens text) (htokens : ∀ t ∈ tokens, t.IsWritable) (hgap : IsGap gap) :
    readFrom .gap (text ++ gap) = .ok tokens := by
  have hend : readFrom .gap gap = .ok [] := by
    have hend := readFrom_gap_append hgap []
    rwa [List.append_nil] at hend
  induction h with
  | @last t s hs =>
    rw [hs.readFrom_append (htokens t List.mem_cons_self) fun _ => hgap.endsWord, hend]
    rfl
  | @more t next rest s between text hs hbetween hapart htext ih =>
    have hends : t.isWord = true → EndsWord (between ++ (text ++ gap)) := by
      intro ht
      cases hnext : next.isWord with
      | true => exact hbetween.endsWord_append (hapart ⟨ht, hnext⟩) _
      | false =>
        by_cases hnil : between = []
        · obtain ⟨first, later, hfirst, rfl⟩ := htext.exists_first
          rw [hnil, List.nil_append, List.append_assoc]
          exact hfirst.endsWord hnext _
        · exact hbetween.endsWord_append hnil _
    obtain ⟨ht, htokens⟩ := List.forall_mem_cons.mp htokens
    rw [List.append_assoc, List.append_assoc, hs.readFrom_append ht hends,
      readFrom_gap_append hbetween, ih htokens]
    rfl

/-! ### The ends of a text -/

/-- A character at which no trimming goes on. -/
def IsFirm (c : Char) : Prop := Text.isBlank c = false ∧ c ≠ ';'

theorem isFirm_of_isAlphanum {c : Char} (h : c.isAlphanum = true) : IsFirm c := by
  refine ⟨Text.isBlank_of_isAlphanum h, ?_⟩
  rintro rfl
  exact absurd h (by decide)

theorem isFirm_of_quote {mark : Char} (h : mark = '\'' ∨ mark = '"') : IsFirm mark := by
  rcases h with rfl | rfl <;> exact ⟨rfl, by decide⟩

/-- A text has firm characters at both ends. -/
structure HasFirmEnds (s : List Char) : Prop where
  first : ∃ c ∈ s.head?, IsFirm c
  last : ∃ c ∈ s.getLast?, IsFirm c

theorem IsText.hasFirmEnds {t : Token} {s : List Char} (h : IsText t s) (ht : t.IsWritable) :
    HasFirmEnds s := by
  cases h with
  | word w =>
    obtain ⟨hne, halnum⟩ := ht
    refine ⟨⟨_, List.head_mem_head? hne, ?_⟩, ⟨_, List.getLast_mem_getLast? hne, ?_⟩⟩
    · exact isFirm_of_isAlphanum (halnum _ (List.head_mem hne))
    · exact isFirm_of_isAlphanum (halnum _ (List.getLast_mem hne))
  | literal hmark =>
    have hfirm := isFirm_of_quote hmark
    exact ⟨⟨_, rfl, hfirm⟩, ⟨_, by simp [List.getLast?_cons], hfirm⟩⟩
  | comma => exact ⟨⟨_, rfl, rfl, by decide⟩, ⟨_, rfl, rfl, by decide⟩⟩
  | star => exact ⟨⟨_, rfl, rfl, by decide⟩, ⟨_, rfl, rfl, by decide⟩⟩
  | equals => exact ⟨⟨_, rfl, rfl, by decide⟩, ⟨_, rfl, rfl, by decide⟩⟩

theorem AreText.hasFirmEnds {tokens : List Token} {text : List Char} (h : AreText tokens text)
    (htokens : ∀ t ∈ tokens, t.IsWritable) : HasFirmEnds text := by
  induction h with
  | @last t s hs => exact hs.hasFirmEnds (htokens t List.mem_cons_self)
  | more hs _ _ _ ih =>
    obtain ⟨ht, htokens⟩ := List.forall_mem_cons.mp htokens
    obtain ⟨c, hc, hfirst⟩ := (hs.hasFirmEnds ht).first
    obtain ⟨d, hd, hlast⟩ := (ih htokens).last
    refine ⟨⟨c, ?_, hfirst⟩, ⟨d, ?_, hlast⟩⟩
    · rw [List.append_assoc, List.head?_append, hc, Option.some_or]
      rfl
    · rw [List.getLast?_append, hd, Option.some_or]
      rfl

/-- Blanks around a text go, and so do the semicolons behind it; what is left between is
blanks. -/
theorem body_eq {before text gap semicolons after : List Char} (htext : HasFirmEnds text)
    (hbefore : IsGap before) (hgap : IsGap gap) (hsemicolons : ∀ c ∈ semicolons, c = ';')
    (hafter : IsGap after) :
    ∃ left, IsGap left ∧ body (before ++ text ++ gap ++ semicolons ++ after) = text ++ left := by
  obtain ⟨⟨first, hfirst, hfirm⟩, ⟨last, hlast, hlastFirm⟩⟩ := htext
  have hstart : Text.trimStart (before ++ (text ++ gap ++ semicolons ++ after)) =
      text ++ gap ++ semicolons ++ after := by
    obtain ⟨rest, rfl⟩ := List.head?_eq_some_iff.mp hfirst
    rw [Text.trimStart, List.dropWhile_append_of_pos hbefore]
    exact List.dropWhile_cons_of_neg (by rw [hfirm.1]; decide)
  have hbody : body (before ++ text ++ gap ++ semicolons ++ after) =
      Text.dropEndWhile (· == ';') (Text.trimEnd (text ++ gap ++ semicolons)) := by
    rw [body, Text.trim, List.append_assoc, List.append_assoc, List.append_assoc,
      ← List.append_assoc text, ← List.append_assoc (text ++ gap), hstart, Text.trimEnd,
      Text.dropEndWhile_append_of_forall _ hafter]
    rfl
  have hlastSemicolon : (last == ';') = false := beq_eq_false_iff_ne.mpr hlastFirm.2
  rw [hbody]
  by_cases hnil : semicolons = []
  · have hkept : Text.trimEnd (text ++ gap) = text := by
      rw [Text.trimEnd, Text.dropEndWhile_append_of_forall _ hgap]
      exact Text.dropEndWhile_of_getLast?_eq hlast hlastFirm.1
    refine ⟨[], isGap_nil, ?_⟩
    rw [hnil, List.append_nil, hkept, List.append_nil]
    exact Text.dropEndWhile_of_getLast?_eq hlast hlastSemicolon
  · have hkept : Text.trimEnd (text ++ gap ++ semicolons) = text ++ gap ++ semicolons := by
      refine Text.dropEndWhile_append_of_ne_nil _ hnil fun c hc => ?_
      rw [hsemicolons c hc]
      rfl
    refine ⟨gap, hgap, ?_⟩
    rw [hkept, Text.dropEndWhile_append_of_forall _ fun c hc => beq_iff_eq.mpr (hsemicolons c hc)]
    by_cases hgapNil : gap = []
    · rw [hgapNil, List.append_nil]
      exact Text.dropEndWhile_of_getLast?_eq hlast hlastSemicolon
    · refine Text.dropEndWhile_append_of_ne_nil _ hgapNil fun c hc => ?_
      rw [beq_eq_false_iff_ne]
      rintro rfl
      exact absurd (hgap _ hc) (by decide)

/-- Tokens are read back from a query that holds a text of them. -/
theorem AreText.ofQuery_eq {tokens : List Token} {text : List Char} (h : AreText tokens text)
    (htokens : ∀ t ∈ tokens, t.IsWritable) {before gap semicolons after : List Char}
    (hbefore : IsGap before) (hgap : IsGap gap) (hsemicolons : ∀ c ∈ semicolons, c = ';')
    (hafter : IsGap after) {query : String}
    (hquery : query.toList = before ++ text ++ gap ++ semicolons ++ after) :
    ofQuery query = .ok tokens := by
  obtain ⟨left, hleft, hbody⟩ :=
    body_eq (h.hasFirmEnds htokens) hbefore hgap hsemicolons hafter
  rw [ofQuery, hquery, hbody, h.readFrom_append htokens hleft]

end LedgerConformance.Query.Token
