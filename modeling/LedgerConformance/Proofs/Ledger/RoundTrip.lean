import LedgerConformance.Proofs.Ledger.ScanLines
import LedgerConformance.Proofs.Ledger.WellFormed

/-!
Scanning undoes printing. The head of a directive opens a block, its metadata
and its postings are added to that block one line at a time, and the blank line
at the end finishes it. So the text of well-formed directives is scanned as
these directives, each on the lines that it was written on, with no problem.
-/

namespace LedgerConformance.Ledger

open Token

namespace Scan

/-- The head line of a directive opens its block. -/
theorem readLine_head {d : Directive} (h : d.WellFormed) (s : Scan) (line : Nat) :
    s.readLine line (writeAll d.headTokens) =
      s.turnTo (.current { line, date := d.date, content := d.content }) := by
  obtain ⟨hyear, hyear'⟩ := h.year
  obtain ⟨first, rest, hdate, hdigit⟩ := Date.toText_starts_with_digit hyear hyear'
  have hplain : ∀ t ∈ d.headTokens, t.Plain := by
    intro t ht
    rcases List.mem_cons.mp ht with rfl | ht
    · exact plain_date hyear hyear'
    · exact (h.content.onOneLine t ht).plain
  have htokens : ofLine? (writeAll d.headTokens) =
      some (word d.date.toText :: d.content.tokens) := ofLine?_writeAll d.headTokens hplain
  obtain ⟨others, hline⟩ : ∃ others, writeAll d.headTokens = first :: others := by
    rw [writeAll, Directive.headTokens, List.map_cons, write, hdate,
      List.intercalate_cons_cons_left]
    exact ⟨_, rfl⟩
  have hindent : isIndented (writeAll d.headTokens) = false := by
    rw [hline]
    simp only [isIndented, Bool.or_eq_false_iff, beq_eq_false_iff_ne]
    constructor <;> rintro rfl <;> exact absurd hdigit (by decide)
  have hheader : isSectionHeader (writeAll d.headTokens) = false := by
    rw [hline]
    simp only [isSectionHeader, beq_eq_false_iff_ne]
    rintro rfl
    exact absurd hdigit (by decide)
  have hstart : startsWithDigit d.date.toText = true := by
    simp [startsWithDigit, hdate, hdigit]
  rw [readLine_of_margin s line htokens hindent hheader, margin, if_pos hstart,
    Directive.ofTokens_content (Date.ofText?_toText h.date hyear hyear') line h.content]

theorem ofLine?_indent (tokens : List Token) (h : ∀ t ∈ tokens, t.Plain) :
    ofLine? (Directive.indent (writeAll tokens)) = some tokens := by
  rw [ofLine?, Directive.indent, readFrom_gap_blank (by decide), readFrom_gap_blank (by decide)]
  exact ofLine?_writeAll tokens h

/-- A metadata line is added to the block. -/
theorem readLine_metadata {entry : String × String} (hkey : isMetadataKey entry.1.toList)
    {s : Scan} {d : Directive} (hblock : s.block = .current d) (line : Nat) :
    s.readLine line (Directive.indent (writeAll (Directive.metadataTokens entry))) =
      { s with block := .current { d with metadata := d.metadata ++ [entry] } } := by
  have hplain : ∀ t ∈ Directive.metadataTokens entry, t.Plain := by
    simp only [Directive.metadataTokens, List.forall_mem_cons]
    exact ⟨plain_metadataKey hkey, trivial, by simp⟩
  have htokens : ofLine? (Directive.indent (writeAll (Directive.metadataTokens entry))) =
      some [word (entry.1 ++ ":"), text entry.2] := ofLine?_indent _ hplain
  rw [readLine_of_indented s line htokens rfl]
  simp [indented, hblock, metadataOf?, metadataKeyOf?_key hkey, Token.content]

/-- A posting line is added to the block of a transaction. -/
theorem readLine_posting {p : Posting} (hp : p.WellFormed) {s : Scan} {d : Directive}
    (hblock : s.block = .current d) (htransaction : d.content.isTransaction = true)
    (line : Nat) :
    s.readLine line (Directive.indent (writeAll p.tokens)) =
      { s with block := .current { d with postings := d.postings ++ [{ p with line }] } } := by
  obtain ⟨first, rest, htokens⟩ : ∃ first rest, p.tokens = first :: rest :=
    List.exists_cons_of_ne_nil (by simp [Posting.tokens])
  have hplain : ∀ t ∈ p.tokens, t.Plain := fun t ht => (hp.onOneLine t ht).plain
  have hline := ofLine?_indent p.tokens hplain
  have htags : (first :: rest).all isTagOrLinkToken = false :=
    htokens ▸ Posting.all_isTagOrLink_tokens hp
  have hposting : Posting.ofTokens line (first :: rest) = .ok { p with line } :=
    htokens ▸ Posting.ofTokens_tokens hp line
  conv at hline => rhs; rw [htokens]
  rw [readLine_of_indented s line hline rfl, indented, hblock]
  simp only [Posting.metadataOf?_tokens hp htokens, htransaction, htags, hposting]
  rfl

theorem readLines_metadata {entries : List (String × String)}
    (h : ∀ entry ∈ entries, isMetadataKey entry.1.toList) (s : Scan) (d : Directive)
    (hblock : s.block = .current d) (line : Nat) :
    s.readLines line (entries.map fun entry =>
        Directive.indent (writeAll (Directive.metadataTokens entry))) =
      { s with block := .current { d with metadata := d.metadata ++ entries } } := by
  induction entries generalizing s d line with
  | nil => simp [← hblock]
  | cons entry entries ih =>
    rw [List.map_cons, readLines_cons,
      readLine_metadata (h entry List.mem_cons_self) hblock,
      ih (fun e he => h e (List.mem_cons_of_mem _ he)) _ _ rfl]
    simp

/-- Postings with the numbers of the lines that they are written on. -/
theorem readLines_postings {postings : List Posting} (h : ∀ p ∈ postings, p.WellFormed)
    (s : Scan) (d : Directive) (hblock : s.block = .current d)
    (htransaction : postings ≠ [] → d.content.isTransaction = true) (line : Nat) :
    s.readLines line (postings.map fun p => Directive.indent (writeAll p.tokens)) =
      { s with block := .current { d with
          postings := d.postings ++ postings.mapIdx fun i p => { p with line := line + i } } } := by
  induction postings generalizing s d line with
  | nil => simp [← hblock]
  | cons p postings ih =>
    have hd : d.content.isTransaction = true := htransaction (by simp)
    rw [List.map_cons, readLines_cons, readLine_posting (h p List.mem_cons_self) hblock hd,
      ih (fun q hq => h q (List.mem_cons_of_mem _ hq)) _
        { d with postings := d.postings ++ [{ p with line }] } rfl (fun _ => hd)]
    simp [List.mapIdx_cons, Nat.add_assoc, Nat.add_comm 1]

/-- The lines of a directive finish the directive. -/
theorem readLines_directive {d : Directive} (h : d.WellFormed) (s : Scan) (line : Nat) :
    s.readLines line d.lines =
      { finished := d.placedAt line :: (s.turnTo .closed).finished
        problems := s.problems
        block := .closed } := by
  have hmetadata := readLines_metadata (fun entry he => (h.metadata entry he).1)
    (s.turnTo (.current { line, date := d.date, content := d.content })) _
    (turnTo_block _ _) (line + 1)
  have hpostings := readLines_postings h.postings
    { s.turnTo (.current { line, date := d.date, content := d.content }) with
      block := .current { line, date := d.date, content := d.content, metadata := d.metadata } }
    _ rfl h.onTransaction (line + 1 + d.metadata.length)
  rw [Directive.lines, List.cons_append, List.cons_append, readLines_cons, readLine_head h,
    readLines_append, readLines_append, hmetadata, List.nil_append, List.length_map, hpostings,
    readLines_cons, readLine_of_blank _ _ rfl, readLines_nil]
  obtain ⟨finished, problems, block⟩ := s
  cases block <;> simp [turnTo, Directive.placedAt]

theorem readLines_directives {directives : List Directive}
    (h : ∀ d ∈ directives, d.WellFormed) (s : Scan) (hblock : s.block = .closed) (line : Nat) :
    s.readLines line (directives.flatMap Directive.lines) =
      { s with finished := (placedFrom line directives).reverse ++ s.finished } := by
  induction directives generalizing s line with
  | nil => rfl
  | cons d rest ih =>
    rw [List.flatMap_cons, readLines_append, readLines_directive (h d List.mem_cons_self),
      ih (fun e he => h e (List.mem_cons_of_mem _ he)) _ rfl,
      turnTo_finished_of_closed hblock, placedFrom]
    obtain ⟨finished, problems, block⟩ := s
    cases hblock
    simp

end Scan

/-- No line of a well-formed directive has a line feed inside or a carriage
return at its end. -/
theorem Directive.WellFormed.lines_intact {d : Directive} (h : d.WellFormed) :
    ∀ line ∈ d.lines, '\n' ∉ line ∧ line.getLast? ≠ some '\r' := by
  have hwritten : ∀ tokens : List Token, tokens ≠ [] → (∀ t ∈ tokens, t.OnOneLine) →
      '\n' ∉ writeAll tokens ∧ (writeAll tokens).getLast? ≠ some '\r' := by
    intro tokens hne honline
    refine ⟨newline_not_mem_writeAll honline, ?_⟩
    obtain ⟨c, hc, hblank⟩ := getLast?_writeAll hne fun t ht => (honline t ht).plain
    rw [hc]
    rintro ⟨rfl⟩
    exact absurd hblank (by decide)
  have hindented : ∀ tokens : List Token, tokens ≠ [] → (∀ t ∈ tokens, t.OnOneLine) →
      '\n' ∉ indent (writeAll tokens) ∧ (indent (writeAll tokens)).getLast? ≠ some '\r' := by
    intro tokens hne honline
    obtain ⟨hfeed, hreturn⟩ := hwritten tokens hne honline
    obtain ⟨c, hc, _⟩ := getLast?_writeAll hne fun t ht => (honline t ht).plain
    refine ⟨by simpa [indent] using hfeed, ?_⟩
    simpa [indent, List.getLast?_cons, hc] using hreturn
  intro line hline
  simp only [lines, List.cons_append, List.mem_cons, List.mem_append, List.mem_map,
    List.not_mem_nil, or_false] at hline
  rcases hline with rfl | (⟨entry, hentry, rfl⟩ | ⟨p, hp, rfl⟩) | rfl
  · apply hwritten
    · simp [headTokens]
    · intro t ht
      rcases List.mem_cons.mp ht with rfl | ht
      · exact plain_date h.year.1 h.year.2
      · exact h.content.onOneLine t ht
  · obtain ⟨hkey, hvalue⟩ := h.metadata entry hentry
    apply hindented
    · simp [metadataTokens]
    · simp only [metadataTokens, List.forall_mem_cons]
      exact ⟨plain_metadataKey hkey, hvalue, by simp⟩
  · exact hindented _ (by simp [Posting.tokens]) (h.postings p hp).onOneLine
  · simp

theorem sourceLines_render {directives : List Directive} (h : ∀ d ∈ directives, d.WellFormed) :
    sourceLines (render directives).toList = directives.flatMap Directive.lines := by
  have hintact : ∀ line ∈ directives.flatMap Directive.lines,
      '\n' ∉ line ∧ line.getLast? ≠ some '\r' := by
    intro line hline
    obtain ⟨d, hd, hmem⟩ := List.mem_flatMap.mp hline
    exact (h d hd).lines_intact line hmem
  rw [render, String.toList_ofList]
  exact sourceLines_ended_lines _ (fun line hline => (hintact line hline).1)
    fun line hline => (hintact line hline).2

/-- Scanning the text of well-formed directives finds no problem and returns the
directives in order. They differ from the written ones in nothing but the line
numbers, and the numbers are those of the lines that were written. -/
theorem scan_render (directives : List Directive) (h : ∀ d ∈ directives, d.WellFormed) :
    scan (render directives) = { directives := placedFrom 1 directives, problems := [] } ∧
      (placedFrom 1 directives).map Directive.unnumbered =
        directives.map Directive.unnumbered ∧
      ∀ d ∈ placedFrom 1 directives,
        (directives.flatMap Directive.lines)[d.line - 1]? = some (writeAll d.headTokens) ∧
          ∀ p ∈ d.postings, (directives.flatMap Directive.lines)[p.line - 1]? =
            some (Directive.indent (writeAll p.tokens)) := by
  refine ⟨?_, map_unnumbered_placedFrom 1 directives, lines_of_placedFrom [] directives⟩
  rw [scan, sourceLines_render h, scanLines, Scan.readLines_directives h _ rfl]
  simp [Scan.result, Scan.turnTo]

/-- An opening with two currencies, and a transaction whose strings need escapes
and whose second posting carries a flag that looks like a tag. -/
def quotedSample : List Directive :=
  [{ line := 0, date := ⟨0, 2, 29⟩, content := .opening "Assets:Cash:401k" ["USD", "X'.Y_-"] },
    { line := 0, date := ⟨9999, 12, 31⟩
      content := .transaction '#' (some "a \"b\" ; c\r") (some "\\")
      postings :=
        [⟨0, none, "Expenses:Food", some "-1,000.", some "USD"⟩,
          ⟨0, some '#', "Assets:Cash:401k", none, none⟩]
      metadata := [("note-1", "\"")] }]

theorem scan_render_quotedSample :
    (∀ d ∈ quotedSample, d.WellFormed) ∧
      scan (render quotedSample) = { directives := placedFrom 1 quotedSample, problems := [] } ∧
      (placedFrom 1 quotedSample).map (fun d => (d.line, d.postings.map Posting.line)) =
        [(1, []), (3, [5, 6])] :=
  have h : ∀ d ∈ quotedSample, d.WellFormed := by decide
  ⟨h, (scan_render quotedSample h).1, rfl⟩

end LedgerConformance.Ledger
