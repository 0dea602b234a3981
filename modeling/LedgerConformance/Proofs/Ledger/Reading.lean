import LedgerConformance.Proofs.Ledger.RoundTrip

/-!
Reading a ledger piece by piece. Lines contain directives when they add these,
apart from the line numbers, to what was read before them. Comments, blank
lines and lines without a date contain nothing, a head contains its directive
and so do all the lines of a directive, however its tokens are spaced; and
pieces of a ledger that are put together contain what each of them contains.
-/

namespace LedgerConformance.Ledger

open Token

/-- There was no problem, and what has been read are the given directives, apart
from their line numbers. -/
structure Scan.HasRead (s : Scan) (ds : List Directive) : Prop where
  problems : s.problems = []
  directives : (s.turnTo .closed).finished.reverse.map Directive.unnumbered =
    ds.map Directive.unnumbered

/-- Reading the lines adds the directives, whatever was read before. -/
def Contain (lines : List (List Char)) (ds : List Directive) : Prop :=
  ∀ (s : Scan) (line : Nat) (before : List Directive), s.HasRead before →
    (s.readLines line lines).HasRead (before ++ ds)

/-- Two lines that are read in the same way. -/
def ReadAlike (raw raw' : List Char) : Prop :=
  ∀ (s : Scan) (line : Nat), s.readLine line raw = s.readLine line raw'

theorem scanLines_of_contain {lines : List (List Char)} {ds : List Directive}
    (h : Contain lines ds) :
    (scanLines lines).problems = [] ∧
      (scanLines lines).directives.map Directive.unnumbered = ds.map Directive.unnumbered := by
  obtain ⟨hproblems, hdirectives⟩ := h {} 1 [] ⟨rfl, rfl⟩
  refine ⟨?_, hdirectives⟩
  simp [scanLines, Scan.result, hproblems]

theorem contain_nil : Contain [] [] := by
  intro s line before h
  rwa [List.append_nil]

theorem Contain.append {front rest : List (List Char)} {ds es : List Directive}
    (hfront : Contain front ds) (hrest : Contain rest es) : Contain (front ++ rest) (ds ++ es) := by
  intro s line before h
  rw [Scan.readLines_append, ← List.append_assoc]
  exact hrest _ _ _ (hfront s line before h)

theorem Contain.flatMap {α : Type} {xs : List α} {f : α → List (List Char)}
    {g : α → List Directive} (h : ∀ x ∈ xs, Contain (f x) (g x)) :
    Contain (xs.flatMap f) (xs.flatMap g) := by
  induction xs with
  | nil => exact contain_nil
  | cons x xs ih =>
    rw [List.flatMap_cons, List.flatMap_cons]
    exact (h x List.mem_cons_self).append (ih fun y hy => h y (List.mem_cons_of_mem x hy))

/-- A line may stand for another one that is read in the same way. -/
theorem Contain.replace {front back : List (List Char)} {raw raw' : List Char}
    {ds : List Directive} (h : Contain (front ++ raw' :: back) ds) (halike : ReadAlike raw raw') :
    Contain (front ++ raw :: back) ds := by
  intro s line before hbefore
  have hread := h s line before hbefore
  rw [Scan.readLines_append, Scan.readLines_cons] at hread ⊢
  rw [halike]
  exact hread

/-- A line that leaves the scan as it is, or ends its block, contains nothing. -/
theorem contain_nothing {raw : List Char}
    (h : ∀ (s : Scan) (line : Nat), s.readLine line raw = s ∨ s.readLine line raw =
      s.turnTo .closed) : Contain [raw] [] := by
  intro s line before hbefore
  rw [List.append_nil, Scan.readLines_cons, Scan.readLines_nil]
  rcases h s line with hsame | hclosed
  · rwa [hsame]
  · rw [hclosed]
    refine ⟨?_, ?_⟩
    · rw [Scan.turnTo_problems, hbefore.problems]
    · rw [Scan.turnTo_turnTo_closed, hbefore.directives]

theorem contain_blank : Contain [[]] [] :=
  contain_nothing fun s line => Or.inr (s.readLine_of_blank line rfl)

theorem contain_comment (rest : List Char) : Contain [';' :: rest] [] := by
  apply contain_nothing
  intro s line
  have htokens : ofLine? (';' :: rest) = some [] := by simp [ofLine?, readFrom, Text.isBlank]
  left
  simp [Scan.readLine, htokens, Scan.isSectionHeader, Text.isBlank]

/-- A line at the margin without a date, which is none of the wrong ones. -/
theorem contain_undated {raw : List Char} {keyword : String} {args : List Token}
    (htokens : ofLine? raw = some (word keyword :: args))
    (hindent : Scan.isIndented raw = false) (hheader : Scan.isSectionHeader raw = false)
    (hdigit : Scan.startsWithDigit keyword = false) (hok : Scan.undated keyword args = .ok ()) :
    Contain [raw] [] := by
  apply contain_nothing
  intro s line
  right
  rw [Scan.readLine_of_margin s line htokens hindent hheader, Scan.margin, hdigit, hok]
  simp

theorem Directive.unnumbered_bare {d : Directive} (hpostings : d.postings = [])
    (hmetadata : d.metadata = []) (line : Nat) :
    Directive.unnumbered { line, date := d.date, content := d.content } = d.unnumbered := by
  simp [Directive.unnumbered, hpostings, hmetadata]

theorem Scan.turnTo_closed_turnTo_current (s : Scan) (d : Directive) :
    ((s.turnTo (.current d)).turnTo .closed).finished = d :: (s.turnTo .closed).finished := by
  obtain ⟨finished, problems, block⟩ := s
  cases block <;> rfl

/-- The head of a directive that is nothing but its head. -/
theorem contain_head {d : Directive} (h : d.WellFormed) (hpostings : d.postings = [])
    (hmetadata : d.metadata = []) : Contain [writeAll d.headTokens] [d] := by
  intro s line before hbefore
  rw [Scan.readLines_cons, Scan.readLines_nil, Scan.readLine_head h]
  refine ⟨?_, ?_⟩
  · rw [Scan.turnTo_problems, hbefore.problems]
  · rw [Scan.turnTo_closed_turnTo_current, List.reverse_cons, List.map_append,
      hbefore.directives, List.map_append, List.map_singleton, List.map_singleton,
      Directive.unnumbered_bare hpostings hmetadata]

/-- The lines that a directive is written on. -/
theorem contain_directive {d : Directive} (h : d.WellFormed) : Contain d.lines [d] := by
  intro s line before hbefore
  rw [Scan.readLines_directive h]
  refine ⟨hbefore.problems, ?_⟩
  rw [Scan.turnTo_finished_of_closed rfl, List.reverse_cons, List.map_append,
    hbefore.directives, List.map_append, List.map_singleton, List.map_singleton,
    Directive.unnumbered_placedAt]

/-- Indented lines with the same tokens are read in the same way. -/
theorem readAlike_of_indented {raw raw' : List Char} {tokens : List Token} (hne : tokens ≠ [])
    (htokens : ofLine? raw = some tokens) (htokens' : ofLine? raw' = some tokens)
    (hindent : Scan.isIndented raw = true) (hindent' : Scan.isIndented raw' = true) :
    ReadAlike raw raw' := by
  obtain ⟨first, rest, rfl⟩ := List.exists_cons_of_ne_nil hne
  intro s line
  rw [Scan.readLine_of_indented s line htokens hindent,
    Scan.readLine_of_indented s line htokens' hindent']

/-- A line that stays whole when it is ended with a line feed. -/
def IsIntact (line : List Char) : Prop := '\n' ∉ line ∧ line.getLast? ≠ some '\r'

/-- Lines of a text that contain the directives. -/
structure Prints (lines : List String) (ds : List Directive) : Prop where
  contain : Contain (lines.map String.toList) ds
  intact : ∀ line ∈ lines, IsIntact line.toList

namespace Prints

theorem append {front rest : List String} {ds es : List Directive} (hfront : Prints front ds)
    (hrest : Prints rest es) : Prints (front ++ rest) (ds ++ es) := by
  refine ⟨?_, ?_⟩
  · rw [List.map_append]
    exact hfront.contain.append hrest.contain
  · intro line hline
    exact (List.mem_append.mp hline).elim (hfront.intact line) (hrest.intact line)

theorem flatMap {α : Type} {xs : List α} {f : α → List String} {g : α → List Directive}
    (h : ∀ x ∈ xs, Prints (f x) (g x)) : Prints (xs.flatMap f) (xs.flatMap g) := by
  refine ⟨?_, ?_⟩
  · rw [List.map_flatMap]
    exact Contain.flatMap fun x hx => (h x hx).contain
  · intro line hline
    obtain ⟨x, hx, hmem⟩ := List.mem_flatMap.mp hline
    exact (h x hx).intact line hmem

theorem map {α : Type} {xs : List α} {f : α → String} {g : α → Directive}
    (h : ∀ x ∈ xs, Prints [f x] [g x]) : Prints (xs.map f) (xs.map g) := by
  rw [List.map_eq_flatMap, List.map_eq_flatMap]
  exact flatMap h

theorem blank : Prints [""] [] :=
  ⟨contain_blank, by simp [IsIntact]⟩

theorem comment {line : String} (hstart : line.toList.head? = some ';')
    (hintact : IsIntact line.toList) : Prints [line] [] := by
  obtain ⟨rest, hrest⟩ := List.head?_eq_some_iff.mp hstart
  refine ⟨?_, by simpa using hintact⟩
  rw [List.map_singleton, hrest]
  exact contain_comment rest

/-- A line that sets an option. -/
theorem option {line : String} (name value : String)
    (htokens : ofLine? line.toList = some [word "option", text name, text value])
    (hstart : line.toList.head? = some 'o') (hintact : IsIntact line.toList) :
    Prints [line] [] := by
  obtain ⟨rest, hrest⟩ := List.head?_eq_some_iff.mp hstart
  refine ⟨?_, by simpa using hintact⟩
  rw [List.map_singleton]
  exact contain_undated htokens (by rw [hrest]; rfl) (by rw [hrest]; rfl) (by decide) rfl

/-- The one line of a directive that is nothing but its head. -/
theorem head {d : Directive} (h : d.WellFormed) (hpostings : d.postings = [])
    (hmetadata : d.metadata = []) {line : String} (hline : line.toList = writeAll d.headTokens) :
    Prints [line] [d] := by
  have hmem : line.toList ∈ d.lines := by simp [Directive.lines, hline]
  have hintact : IsIntact line.toList := h.lines_intact _ hmem
  refine ⟨?_, by simpa using hintact⟩
  rw [List.map_singleton, hline]
  exact contain_head h hpostings hmetadata

/-- The text of lines that are ended with line feeds is scanned as what they contain. -/
theorem scan_join {lines : List String} {ds : List Directive} (h : Prints lines ds) :
    (scan (String.join (lines.map (· ++ "\n")))).problems = [] ∧
      (scan (String.join (lines.map (· ++ "\n")))).directives.map Directive.unnumbered =
        ds.map Directive.unnumbered := by
  have htext : (String.join (lines.map (· ++ "\n"))).toList =
      (lines.map String.toList).flatMap (· ++ ['\n']) := by
    simp [String.toList_join, List.flatMap_map]
  have hlines : ∀ line ∈ lines.map String.toList, IsIntact line := by
    intro line hline
    obtain ⟨text, htext, rfl⟩ := List.mem_map.mp hline
    exact h.intact text htext
  rw [scan, htext, sourceLines_ended_lines _ (fun line hline => (hlines line hline).1)
    fun line hline => (hlines line hline).2]
  exact scanLines_of_contain h.contain

end Prints

end LedgerConformance.Ledger
