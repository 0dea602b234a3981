import LedgerConformance.Proofs.Ledger.Blocks
import LedgerConformance.Proofs.Ledger.Representation
import Mathlib.Tactic.SplitIfs

/-!
Comments are not seen. A line that holds nothing but a comment leaves a scan as it is,
whatever block it is in, so it does no more than move the later lines one down; and a
comment behind a line, with a blank between, leaves the tokens of the line as they are, if no
string is open there. Neither does it matter how the lines are ended.
-/

namespace LedgerConformance.Ledger

namespace Token

/-- Blanks before a comment leave no token. -/
theorem readFrom_gap_comment {blanks : List Char} (hblanks : blanks.all Text.isBlank = true)
    (text : List Char) : readFrom .gap (blanks ++ ';' :: text) = some [] := by
  induction blanks with
  | nil => rfl
  | cons b rest ih =>
    rw [List.all_cons, Bool.and_eq_true] at hblanks
    rw [List.cons_append, readFrom_gap_blank hblanks.1, ih hblanks.2]

/-- Two ends that are read alike from every place may stand for one another. -/
theorem readFrom_append_congr {a b : List Char} (h : ∀ place, readFrom place a = readFrom place b)
    (place : Place) (raw : List Char) : readFrom place (raw ++ a) = readFrom place (raw ++ b) := by
  induction raw generalizing place with
  | nil => exact h place
  | cons c raw ih => cases place <;> simp only [List.cons_append, readFrom, ih]

/-- An end that is read as nothing between tokens and behind a word may be added where no
string is open. -/
theorem readFrom_append {rest : List Char} (hgap : readFrom .gap rest = readFrom .gap [])
    (hword : ∀ read, readFrom (.inWord read) rest = readFrom (.inWord read) []) (place : Place)
    (raw : List Char) (h : readFrom place raw ≠ none) :
    readFrom place (raw ++ rest) = readFrom place raw := by
  induction raw generalizing place with
  | nil =>
    cases place with
    | gap => exact hgap
    | inWord read => exact hword read
    | inText read => exact absurd rfl h
    | afterBackslash read => exact absurd rfl h
  | cons c raw ih =>
    have hmap : ∀ place (f : List Token → List Token), (readFrom place raw).map f ≠ none →
        (readFrom place (raw ++ rest)).map f = (readFrom place raw).map f := by
      intro place f hf
      rw [ih place fun hnone => hf (by rw [hnone, Option.map_none])]
    rw [List.cons_append]
    cases place with
    | gap =>
      simp only [readFrom] at h ⊢
      split_ifs at h ⊢
      · exact ih .gap h
      · rfl
      · exact ih (.inText []) h
      · exact ih (.inWord [c]) h
    | inWord read =>
      simp only [readFrom] at h ⊢
      split_ifs at h ⊢
      · exact hmap .gap _ h
      · exact hmap (.inText []) _ h
      · exact ih (.inWord (c :: read)) h
    | inText read =>
      simp only [readFrom] at h ⊢
      split_ifs at h ⊢
      · exact hmap .gap _ h
      · exact ih (.afterBackslash read) h
      · exact ih (.inText (c :: read)) h
    | afterBackslash read => exact ih (.inText (c :: read)) h

theorem readFrom_inText_blanks {blanks : List Char} (hblanks : blanks.all Text.isBlank = true)
    (read : List Char) : readFrom (.inText read) blanks = none := by
  induction blanks generalizing read with
  | nil => rfl
  | cons b rest ih =>
    rw [List.all_cons, Bool.and_eq_true] at hblanks
    have hquote : b ≠ '"' := by
      rintro rfl
      exact absurd hblanks.1 (by decide)
    have hslash : b ≠ '\\' := by
      rintro rfl
      exact absurd hblanks.1 (by decide)
    simp [readFrom, hquote, hslash, ih hblanks.2]

theorem readFrom_inWord_blank {b : Char} (hb : Text.isBlank b = true) {rest : List Char}
    (hrest : readFrom .gap rest = some []) (read : List Char) :
    readFrom (.inWord read) (b :: rest) = readFrom (.inWord read) [] := by
  simp [readFrom, hb, hrest]

/-- Blanks at the end of a line do not matter. -/
theorem ofLine?_append_blanks {blanks : List Char} (hblanks : blanks.all Text.isBlank = true)
    (raw : List Char) : ofLine? (raw ++ blanks) = ofLine? raw := by
  have hends : ∀ place, readFrom place blanks = readFrom place [] := by
    intro place
    cases place with
    | gap => exact ofLine?_of_blank hblanks
    | inText read => exact readFrom_inText_blanks hblanks read
    | inWord read =>
      cases blanks with
      | nil => rfl
      | cons b rest =>
        rw [List.all_cons, Bool.and_eq_true] at hblanks
        exact readFrom_inWord_blank hblanks.1 (ofLine?_of_blank hblanks.2) read
    | afterBackslash read =>
      cases blanks with
      | nil => rfl
      | cons b rest =>
        rw [List.all_cons, Bool.and_eq_true] at hblanks
        exact readFrom_inText_blanks hblanks.2 (b :: read)
  rw [ofLine?, readFrom_append_congr hends .gap raw, List.append_nil, ofLine?]

/-- Neither does a comment behind a blank, if no string is open. -/
theorem ofLine?_append_comment {b : Char} {blanks : List Char}
    (hblanks : (b :: blanks).all Text.isBlank = true) (text : List Char) {raw : List Char}
    (h : ofLine? raw ≠ none) : ofLine? (raw ++ (b :: blanks ++ ';' :: text)) = ofLine? raw := by
  obtain ⟨hb, hrest⟩ := Bool.and_eq_true .. ▸ hblanks
  refine readFrom_append (readFrom_gap_comment hblanks text) ?_ .gap raw h
  exact readFrom_inWord_blank hb (readFrom_gap_comment hrest text)

end Token

/-- A comment behind blanks, and nothing else. -/
theorem isCommentOnly_iff {raw : List Char} : isCommentOnly raw = true ↔
    ∃ blanks text, blanks.all Text.isBlank = true ∧ raw = blanks ++ ';' :: text := by
  rw [isCommentOnly, beq_iff_eq]
  constructor
  · intro h
    obtain ⟨text, htext⟩ := List.head?_eq_some_iff.mp h
    refine ⟨raw.takeWhile Text.isBlank, text, List.all_takeWhile, ?_⟩
    rw [← htext, List.takeWhile_append_dropWhile]
  · rintro ⟨blanks, text, hblanks, rfl⟩
    rw [List.dropWhile_append_of_pos (List.all_eq_true.mp hblanks)]
    rfl

theorem Token.ofLine?_of_isCommentOnly {raw : List Char} (h : isCommentOnly raw = true) :
    ofLine? raw = some [] := by
  obtain ⟨blanks, text, hblanks, rfl⟩ := isCommentOnly_iff.mp h
  exact readFrom_gap_comment hblanks text

namespace Scan

/-- A line with nothing but a comment is passed over in every block. -/
theorem readLine_of_isCommentOnly (s : Scan) (line : Nat) {raw : List Char}
    (h : isCommentOnly raw = true) : s.readLine line raw = s := by
  have htokens := Token.ofLine?_of_isCommentOnly h
  obtain ⟨blanks, text, hblanks, rfl⟩ := isCommentOnly_iff.mp h
  have hblank : (blanks ++ ';' :: text).all Text.isBlank = false := by
    rw [List.all_append, hblanks]
    rfl
  have hheader : isSectionHeader (blanks ++ ';' :: text) = false := by
    cases blanks with
    | nil => rfl
    | cons b rest =>
      rw [List.all_cons, Bool.and_eq_true] at hblanks
      simp only [List.cons_append, isSectionHeader, beq_eq_false_iff_ne]
      rintro rfl
      exact absurd hblanks.1 (by decide)
  simp [readLine, hblank, hheader, htokens]

/-- A line is told by its first character, if it is not blank, and by its tokens. -/
theorem readLine_append (s : Scan) (line : Nat) {raw rest : List Char}
    (hraw : raw.all Text.isBlank = false) (htokens : Token.ofLine? (raw ++ rest) = Token.ofLine? raw) :
    s.readLine line (raw ++ rest) = s.readLine line raw := by
  have hblank : (raw ++ rest).all Text.isBlank = false := by
    rw [List.all_append, hraw, Bool.false_and]
  cases raw with
  | nil => contradiction
  | cons c raw =>
    rw [readLine, readLine, hblank, hraw, htokens]
    rfl

end Scan

/-- The numbers of lines when one more line is put behind the first `n`. -/
def pastLine (n line : Nat) : Nat := if line ≤ n then line else line + 1

section Renumbering

variable {f : Nat → Nat}

theorem Directive.renumber_of_fixed {d : Directive} (h : ∀ n ∈ d.lineNumbers, f n = n) :
    d.renumber f = d := by
  obtain ⟨hline, hpostings⟩ := List.forall_mem_cons.mp h
  have hsame : d.postings.map (Posting.renumber f) = d.postings := by
    conv => rhs; rw [← List.map_id d.postings]
    apply List.map_congr_left
    intro p hp
    rw [Posting.renumber, hpostings p.line (List.mem_map_of_mem hp), id_eq]
  rw [renumber, hline, hsame]

/-- A scan in which `f` changes no number is left as it is. -/
theorem Scan.renumber_of_fixed {s : Scan} (hlines : ∀ n ∈ s.result.lineNumbers, f n = n)
    (hproblems : ∀ n ∈ s.result.problemLines, f n = n) : s.renumber f = s := by
  obtain ⟨finished, problems, block⟩ := s
  have hdirectives : ∀ d ∈ (Scan.result ⟨finished, problems, block⟩).directives,
      d.renumber f = d := fun d hd =>
    Directive.renumber_of_fixed fun n hn => hlines n (List.mem_flatMap.mpr ⟨d, hd, hn⟩)
  have hfinished : finished.map (Directive.renumber f) = finished := by
    conv => rhs; rw [← List.map_id finished]
    apply List.map_congr_left
    intro d hd
    refine hdirectives d ?_
    cases block <;> simp [result, turnTo, hd]
  have hothers : problems.map (Located.renumber f) = problems := by
    conv => rhs; rw [← List.map_id problems]
    apply List.map_congr_left
    intro p hp
    have hline : f p.line = p.line := by
      refine hproblems p.line (List.mem_map_of_mem ?_)
      cases block <;> simp [result, turnTo, hp]
    rw [Located.renumber, hline, id_eq]
  have hblock : block.renumber f = block := by
    cases block with
    | closed => rfl
    | broken => rfl
    | current d => exact congrArg Block.current (hdirectives d (by simp [result, turnTo]))
  rw [Scan.renumber, hfinished, hothers, hblock]

end Renumbering

/-- A line with nothing but a comment moves the lines behind it one down. -/
theorem scanLines_insert_comment {front : List (List Char)} (back : List (List Char))
    (hfeed : ∀ raw ∈ front, '\n' ∉ raw) {comment : List Char} (h : isCommentOnly comment = true) :
    scanLines (front ++ comment :: back) =
      (scanLines (front ++ back)).renumber (pastLine front.length) := by
  have hread : scanLines front = (({} : Scan).readLines 1 front).result := rfl
  have hconsistent := consistent_scanLines hfeed
  have hfixed : (({} : Scan).readLines 1 front).renumber (pastLine front.length) =
      ({} : Scan).readLines 1 front := by
    rw [hread] at hconsistent
    refine Scan.renumber_of_fixed ?_ ?_
    · intro n hn
      exact if_pos (Nat.le_of_lt_succ (hconsistent.apart.bounds n hn).2)
    · intro n hn
      exact if_pos (Nat.le_of_lt_succ (hconsistent.apart.othersBounds n hn).2)
  have hnext : ∀ i, pastLine front.length (1 + front.length + i) = 1 + front.length + 1 + i := by
    intro i
    rw [pastLine, if_neg (by omega), Nat.add_right_comm]
  have hstart : pastLine front.length (1 + front.length) = 1 + front.length + 1 := hnext 0
  rw [scanLines, scanLines, Scan.readLines_append, Scan.readLines_append, Scan.readLines_cons,
    Scan.readLine_of_isCommentOnly _ _ h, ← Scan.result_renumber, Scan.renumber_readLines, hfixed,
    hstart]
  intro i
  rw [hstart, hnext]

/-- A comment behind a line that is not blank, and on which no string is open, is not seen. -/
theorem scanLines_append_comment (front back : List (List Char)) {raw : List Char}
    (hraw : raw.all Text.isBlank = false) (htokens : Token.ofLine? raw ≠ none) {b : Char}
    {blanks : List Char} (hblanks : (b :: blanks).all Text.isBlank = true) (text : List Char) :
    scanLines (front ++ (raw ++ (b :: blanks ++ ';' :: text)) :: back) =
      scanLines (front ++ raw :: back) := by
  rw [scanLines, scanLines, Scan.readLines_append, Scan.readLines_append, Scan.readLines_cons,
    Scan.readLines_cons,
    Scan.readLine_append _ _ hraw (Token.ofLine?_append_comment hblanks text htokens)]

/-- The second list has one line more, behind the first `n`: a comment, perhaps behind
blanks. -/
inductive CommentLine (n : Nat) : List (List Char) → List (List Char) → Prop
  | mk (front back : List (List Char)) {blanks text : List Char} (hn : front.length = n)
    (hblanks : blanks.all Text.isBlank = true)
    (hfeed : '\n' ∉ blanks ++ text) :
    CommentLine n (front ++ back) (front ++ (blanks ++ ';' :: text) :: back)

/-- The second list has blanks and a comment behind one of the lines, which is not blank and on
which no string is open. -/
inductive CommentBehind : List (List Char) → List (List Char) → Prop
  | mk (front back : List (List Char)) {raw blanks text : List Char}
    (hraw : raw.all Text.isBlank = false) (htokens : Token.ofLine? raw ≠ none)
    (hne : blanks ≠ []) (hblanks : blanks.all Text.isBlank = true)
    (hfeed : '\n' ∉ blanks ++ text) :
    CommentBehind (front ++ raw :: back) (front ++ (raw ++ (blanks ++ ';' :: text)) :: back)

section Texts

variable {source other : String} {lines more : List (List Char)}

theorem Consists.scan_commentLine {n : Nat} (hfeed : ∀ raw ∈ lines, '\n' ∉ raw)
    (hsource : Consists source.toList lines) (h : CommentLine n lines more)
    (hother : Consists other.toList more) : scan other = (scan source).renumber (pastLine n) := by
  cases h with
  | @mk front back blanks text hn hblanks hcomment =>
    subst hn
    obtain ⟨hfront, hback⟩ := List.forall_mem_append.mp hfeed
    have hmore : ∀ raw ∈ front ++ (blanks ++ ';' :: text) :: back, '\n' ∉ raw := by
      refine List.forall_mem_append.mpr ⟨hfront, List.forall_mem_cons.mpr ⟨?_, hback⟩⟩
      simpa using hcomment
    have hkept : withoutReturns (blanks ++ ';' :: text) = blanks ++ ';' :: withoutReturns text :=
      withoutReturns_append_cons (by decide) blanks text
    have hfrontKept : ∀ raw ∈ front.map withoutReturns, '\n' ∉ raw := by
      intro raw hraw
      obtain ⟨line, hline, rfl⟩ := List.mem_map.mp hraw
      exact fun hmem => hfront line hline (Text.mem_of_mem_dropEndWhile hmem)
    rw [hsource.scan_eq hfeed, hother.scan_eq hmore, List.map_append, List.map_append, List.map_cons,
      hkept, scanLines_insert_comment _ hfrontKept
        (isCommentOnly_iff.mpr ⟨blanks, withoutReturns text, hblanks, rfl⟩), List.length_map]

theorem Consists.scan_commentBehind (hfeed : ∀ raw ∈ lines, '\n' ∉ raw)
    (hsource : Consists source.toList lines) (h : CommentBehind lines more)
    (hother : Consists other.toList more) : scan other = scan source := by
  cases h with
  | @mk front back raw blanks text hraw htokens hne hblanks hcomment =>
    obtain ⟨hfront, hback⟩ := List.forall_mem_append.mp hfeed
    obtain ⟨hline, hrest⟩ := List.forall_mem_cons.mp hback
    have hmore : ∀ raw' ∈ front ++ (raw ++ (blanks ++ ';' :: text)) :: back, '\n' ∉ raw' := by
      refine List.forall_mem_append.mpr ⟨hfront, List.forall_mem_cons.mpr ⟨?_, hrest⟩⟩
      simpa [hline] using hcomment
    -- The returns at the end of the line are blanks before the comment.
    obtain ⟨returns, hsplit, hreturns⟩ := withoutReturns_append raw
    obtain ⟨b, others, hgap⟩ := List.exists_cons_of_ne_nil
      (List.append_ne_nil_of_right_ne_nil returns hne)
    have hgapBlank : (b :: others).all Text.isBlank = true := by
      rw [← hgap, List.all_append, hreturns, hblanks]
      rfl
    have hkept : withoutReturns (raw ++ (blanks ++ ';' :: text)) =
        withoutReturns raw ++ (b :: others ++ ';' :: withoutReturns text) := by
      rw [← List.append_assoc, withoutReturns_append_cons (by decide), ← hgap]
      conv => lhs; rw [hsplit]
      simp only [List.append_assoc]
    have htokensKept : Token.ofLine? (withoutReturns raw) ≠ none := by
      rwa [hsplit, Token.ofLine?_append_blanks hreturns] at htokens
    rw [hsource.scan_eq hfeed, hother.scan_eq hmore, List.map_append, List.map_append, List.map_cons,
      List.map_cons, hkept, scanLines_append_comment _ _ _ htokensKept hgapBlank]
    rw [all_isBlank_withoutReturns, hraw]

/-- Whatever its lines are, a line with nothing but a comment moves the later lines one down
and does no more, a comment behind a line does nothing, and neither do the ends of the lines. -/
theorem scan_comments_and_lineEnds (hfeed : ∀ raw ∈ lines, '\n' ∉ raw)
    (hsource : Consists source.toList lines) :
    (∀ n more, CommentLine n lines more → ∀ other : String, Consists other.toList more →
        scan other = (scan source).renumber (pastLine n)) ∧
      (∀ more, CommentBehind lines more → ∀ other : String, Consists other.toList more →
        scan other = scan source) ∧
      ∀ other : String, Consists other.toList lines → scan other = scan source := by
  refine ⟨?_, ?_, ?_⟩
  · intro n more hmore other hother
    exact hsource.scan_commentLine hfeed hmore hother
  · intro more hmore other hother
    exact hsource.scan_commentBehind hfeed hmore hother
  · intro other hother
    rw [hsource.scan_eq hfeed, hother.scan_eq hfeed]

end Texts

/-- A transaction on three lines, of which the last one has no end. -/
def lunch : String := "2024-01-01 * \"Lunch\"\n  Assets:Cash -5 USD\n  Expenses:Food"

/-- The same with a comment line inside. -/
def noted : String := "2024-01-01 * \"Lunch\"\r\n\t; a \"note\\\n  Assets:Cash -5 USD\n  Expenses:Food\n"

/-- The same with a comment behind a line. -/
def tipped : String := "2024-01-01 * \"Lunch\"\n  Assets:Cash -5 USD ; \"tip\r\n  Expenses:Food"

theorem scan_comments_and_lineEnds_lunch :
    scan noted = (scan lunch).renumber (pastLine 1) ∧ scan tipped = scan lunch ∧
      scan (lunch ++ "\r\n") = scan lunch := by
  let head := "2024-01-01 * \"Lunch\"".toList
  let cash := "  Assets:Cash -5 USD".toList
  let food := "  Expenses:Food".toList
  let note := " a \"note\\".toList
  let tip := " \"tip".toList
  have hfeed : ∀ raw ∈ [head, cash, food], '\n' ∉ raw := by decide +kernel
  have hlunch : Consists lunch.toList [head, cash, food] := by
    have htext : lunch.toList = head ++ '\n' :: (cash ++ '\n' :: food) := by decide +kernel
    rw [htext]
    exact .feed head (.feed cash (.last food))
  obtain ⟨hline, hbehind, hends⟩ := scan_comments_and_lineEnds hfeed hlunch
  have hnoted : scan noted = (scan lunch).renumber (pastLine 1) := by
    have hmore : CommentLine 1 ([head] ++ [cash, food])
        ([head] ++ (['\t'] ++ ';' :: note) :: [cash, food]) :=
      .mk [head] [cash, food] rfl rfl (by decide +kernel)
    refine hline 1 _ hmore noted ?_
    have htext : noted.toList = head ++ '\r' :: '\n' :: ((['\t'] ++ ';' :: note) ++
        '\n' :: (cash ++ '\n' :: (food ++ ['\n']))) := by decide +kernel
    rw [htext]
    exact .returnFeed head (.feed _ (.feed cash (.feed food .nothing)))
  have htipped : scan tipped = scan lunch := by
    have hmore : CommentBehind ([head] ++ cash :: [food])
        ([head] ++ (cash ++ ([' '] ++ ';' :: tip)) :: [food]) :=
      .mk [head] [food] (by decide +kernel) (by decide +kernel) (by decide) rfl (by decide +kernel)
    refine hbehind _ hmore tipped ?_
    have htext : tipped.toList = head ++ '\n' :: ((cash ++ ([' '] ++ ';' :: tip)) ++
        '\r' :: '\n' :: food) := by decide +kernel
    rw [htext]
    exact .feed head (.returnFeed _ (.last food))
  have hended : scan (lunch ++ "\r\n") = scan lunch := by
    refine hends _ ?_
    have htext : (lunch ++ "\r\n").toList = head ++ '\n' :: (cash ++ '\n' ::
        (food ++ ['\r', '\n'])) := by decide +kernel
    rw [htext]
    exact .feed head (.feed cash (.returnFeed food .nothing))
  exact ⟨hnoted, htipped, hended⟩

end LedgerConformance.Ledger
