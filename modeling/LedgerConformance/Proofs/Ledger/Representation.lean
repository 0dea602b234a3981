import LedgerConformance.Execution.Reference
import LedgerConformance.Proofs.Ledger.OpenBlock

/-!
What every text is read as. Whatever a text holds, its directives are well
formed, their heads and postings stand on lines that follow one another, the
refused lines are other ones, each refused once, and the current block is that of
the last directive. The numbers of all heads and postings, one after another, and
those of the refused lines are two lists of which each line makes at most one
longer, by its own number.
-/

namespace LedgerConformance.Ledger

/-- The lines of the head and of the postings. -/
def Directive.lineNumbers (d : Directive) : List Nat := d.line :: d.postings.map Posting.line

theorem Directive.Grows.lineNumbers {line : Nat} {d grown : Directive} (h : d.Grows line grown) :
    grown.lineNumbers = d.lineNumbers ∨ grown.lineNumbers = d.lineNumbers ++ [line] := by
  rcases h.postings with hsame | ⟨p, hp, hmore⟩
  · left
    rw [Directive.lineNumbers, h.head, hsame, Directive.lineNumbers]
  · right
    rw [Directive.lineNumbers, h.head, hmore, Directive.lineNumbers, List.map_append,
      List.map_singleton, hp, List.cons_append]

namespace Scanned

/-- The lines of all heads and postings. -/
def lineNumbers (ledger : Scanned) : List Nat := ledger.directives.flatMap Directive.lineNumbers

def problemLines (ledger : Scanned) : List Nat := ledger.problems.map Located.line

variable {line : Nat} {before after : Scanned}

theorem Step.wellFormed (h : Step line before after)
    (hbefore : ∀ d ∈ before.directives, d.WellFormed) : ∀ d ∈ after.directives, d.WellFormed := by
  cases h with
  | stays h => rwa [h]
  | refused problem h => rwa [h]
  | begins d hwell _ _ h =>
    rw [h]
    exact List.forall_mem_append.mpr ⟨hbefore, by simpa using hwell⟩
  | grows front d grown hfront hgrows h =>
    rw [hfront] at hbefore
    obtain ⟨hothers, hlast⟩ := List.forall_mem_append.mp hbefore
    rw [h]
    refine List.forall_mem_append.mpr ⟨hothers, ?_⟩
    simpa using hgrows.wellFormed (by simpa using hlast)

/-- A line is that of a head or a posting, or a refused one, or none of these. -/
theorem Step.lineNumbers (h : Step line before after) :
    (after.lineNumbers = before.lineNumbers ∧ after.problemLines = before.problemLines) ∨
      (after.lineNumbers = before.lineNumbers ++ [line] ∧
        after.problemLines = before.problemLines) ∨
      (after.lineNumbers = before.lineNumbers ∧
        after.problemLines = before.problemLines ++ [line]) := by
  cases h with
  | stays h => simp [h]
  | refused problem h =>
    right; right
    simp [h, Scanned.lineNumbers, problemLines]
  | begins d _ hline hpostings h =>
    right; left
    simp [h, Scanned.lineNumbers, problemLines, Directive.lineNumbers, hline, hpostings]
  | grows front d grown hfront hgrows h =>
    rcases hgrows.lineNumbers with hsame | hmore
    · left
      simp [h, Scanned.lineNumbers, problemLines, hfront, hsame]
    · right; left
      simp [h, Scanned.lineNumbers, problemLines, hfront, hmore]

end Scanned

/-- Two lists of lines before the line `next`, each in order, with no line in both. -/
structure Apart (next : Nat) (lines others : List Nat) : Prop where
  inOrder : lines.Pairwise (· < ·)
  othersInOrder : others.Pairwise (· < ·)
  bounds : ∀ n ∈ lines, 1 ≤ n ∧ n < next
  othersBounds : ∀ n ∈ others, 1 ≤ n ∧ n < next
  disjoint : ∀ n ∈ lines, n ∉ others

namespace Apart

variable {next : Nat} {lines others : List Nat}

theorem symm (h : Apart next lines others) : Apart next others lines :=
  ⟨h.othersInOrder, h.inOrder, h.othersBounds, h.bounds, fun n hn hmem => h.disjoint n hmem hn⟩

/-- The line itself may be in neither list. -/
theorem pass (h : Apart next lines others) : Apart (next + 1) lines others := by
  refine ⟨h.inOrder, h.othersInOrder, ?_, ?_, h.disjoint⟩
  · intro n hn
    have hbounds := h.bounds n hn
    omega
  · intro n hn
    have hbounds := h.othersBounds n hn
    omega

/-- The line itself may be added to one of the lists. -/
theorem concat (h : Apart next lines others) (hnext : 1 ≤ next) :
    Apart (next + 1) (lines ++ [next]) others := by
  have hothers : next ∉ others := fun hmem => Nat.lt_irrefl next (h.othersBounds next hmem).2
  refine ⟨?_, h.othersInOrder, ?_, h.pass.othersBounds, ?_⟩
  · rw [List.pairwise_append]
    refine ⟨h.inOrder, List.pairwise_singleton _ _, ?_⟩
    intro n hn m hm
    rw [List.mem_singleton.mp hm]
    exact (h.bounds n hn).2
  · intro n hn
    rcases List.mem_append.mp hn with hn | hn
    · exact h.pass.bounds n hn
    · rw [List.mem_singleton.mp hn]
      omega
  · exact List.forall_mem_append.mpr ⟨h.disjoint, by simpa using hothers⟩

end Apart

namespace Scanned

/-- What holds of a ledger of which the lines before the line `next` were read. -/
structure Consistent (next : Nat) (ledger : Scanned) : Prop where
  wellFormed : ∀ d ∈ ledger.directives, d.WellFormed
  apart : Apart next ledger.lineNumbers ledger.problemLines

theorem Consistent.step {line : Nat} {before after : Scanned} (hbefore : before.Consistent line)
    (hline : 1 ≤ line) (h : Step line before after) : after.Consistent (line + 1) := by
  refine ⟨h.wellFormed hbefore.wellFormed, ?_⟩
  rcases h.lineNumbers with ⟨hlines, hproblems⟩ | ⟨hlines, hproblems⟩ | ⟨hlines, hproblems⟩
  · rw [hlines, hproblems]
    exact hbefore.apart.pass
  · rw [hlines, hproblems]
    exact hbefore.apart.concat hline
  · rw [hlines, hproblems]
    exact (hbefore.apart.symm.concat hline).symm

theorem Consistent.readLines {s : Scan} {line : Nat} (hline : 1 ≤ line)
    (h : s.result.Consistent line) {lines : List (List Char)}
    (hlines : ∀ raw ∈ lines, '\n' ∉ raw) :
    (s.readLines line lines).result.Consistent (line + lines.length) := by
  induction lines generalizing s line with
  | nil => exact h
  | cons raw rest ih =>
    obtain ⟨hraw, hrest⟩ := List.forall_mem_cons.mp hlines
    have hstep := h.step hline (s.step_readLine line hraw)
    have hread := ih (Nat.le_add_left 1 line) hstep hrest
    rw [List.length_cons, Nat.add_comm rest.length, ← Nat.add_assoc, Scan.readLines_cons]
    exact hread

/-- What is read from a text of the given number of lines. -/
structure Sound (lines : Nat) (ledger : Scanned) : Prop where
  wellFormed : ∀ d ∈ ledger.directives, d.WellFormed
  directivesInOrder : ledger.directives.Pairwise fun d e => d.line < e.line
  withinText : ∀ d ∈ ledger.directives, 1 ≤ d.line ∧ d.line ≤ lines
  postingsInOrder : ∀ d ∈ ledger.directives, d.postings.Pairwise fun p q => p.line < q.line
  postingsBelowHead : ∀ d ∈ ledger.directives, ∀ p ∈ d.postings, d.line < p.line
  postingsAboveNext : ledger.directives.Pairwise fun d e => ∀ p ∈ d.postings, p.line < e.line
  problemsInOrder : ledger.problems.Pairwise fun a b => a.line < b.line
  problemsApart : ∀ problem ∈ ledger.problems, ∀ d ∈ ledger.directives,
    d.line ≠ problem.line ∧ ∀ p ∈ d.postings, p.line ≠ problem.line

theorem Consistent.sound {lines : Nat} {ledger : Scanned} (h : ledger.Consistent (lines + 1)) :
    ledger.Sound lines := by
  obtain ⟨hwithin, hbetween⟩ := List.pairwise_flatMap.mp h.apart.inOrder
  have hhead : ∀ d : Directive, d.line ∈ d.lineNumbers := fun d => List.mem_cons_self
  have hposting : ∀ {d : Directive}, ∀ p ∈ d.postings, p.line ∈ d.lineNumbers := fun p hp =>
    List.mem_cons_of_mem _ (List.mem_map_of_mem hp)
  have hmem : ∀ {n}, ∀ d ∈ ledger.directives, n ∈ d.lineNumbers → n ∈ ledger.lineNumbers :=
    fun d hd hn => List.mem_flatMap.mpr ⟨d, hd, hn⟩
  have hapart : ∀ problem ∈ ledger.problems, problem.line ∉ ledger.lineNumbers :=
    fun problem hproblem hline => h.apart.disjoint _ hline (List.mem_map_of_mem hproblem)
  refine ⟨h.wellFormed, ?_, ?_, ?_, ?_, ?_, ?_, ?_⟩
  · exact hbetween.imp fun hlt => hlt _ (hhead _) _ (hhead _)
  · intro d hd
    have hbounds := h.apart.bounds _ (hmem d hd (hhead d))
    omega
  · intro d hd
    exact List.pairwise_map.mp (List.pairwise_cons.mp (hwithin d hd)).2
  · intro d hd p hp
    exact (List.pairwise_cons.mp (hwithin d hd)).1 _ (List.mem_map_of_mem hp)
  · exact hbetween.imp fun hlt p hp => hlt _ (hposting p hp) _ (hhead _)
  · exact List.pairwise_map.mp h.apart.othersInOrder
  · intro problem hproblem d hd
    constructor
    · intro heq
      exact hapart problem hproblem (heq ▸ hmem d hd (hhead d))
    · intro p hp heq
      exact hapart problem hproblem (heq ▸ hmem d hd (hposting p hp))

end Scanned

theorem consistent_scanLines {lines : List (List Char)} (hlines : ∀ raw ∈ lines, '\n' ∉ raw) :
    (scanLines lines).Consistent (lines.length + 1) := by
  have hstart : ({} : Scan).result.Consistent 1 :=
    ⟨by simp [Scan.result, Scan.turnTo], by
      constructor <;> simp [Scan.result, Scan.turnTo, Scanned.lineNumbers, Scanned.problemLines]⟩
  have hend := hstart.readLines (Nat.le_refl 1) hlines
  rw [Nat.add_comm] at hend
  exact hend

theorem sound_scanLines {lines : List (List Char)} (hlines : ∀ raw ∈ lines, '\n' ∉ raw) :
    (scanLines lines).Sound lines.length := (consistent_scanLines hlines).sound

/-- Whatever a text holds, what is read from it is sound; its problems are told as
problems of parsing; and after every number of lines, a scan that knows the
current block by an index has read the same and has the index of the last
directive. -/
theorem scan_sound (source : String) :
    (scan source).Sound (Text.lines source).length ∧
      (∀ d ∈ Reference.problemDiagnostics (scan source), d.phase = some "parse") ∧
      ∀ n, ∃ s, IndexedScan.readLines? {} 1 ((sourceLines source.toList).take n) = some s ∧
        (⟨s.directives, s.problems⟩ : Scanned) = scanLines ((sourceLines source.toList).take n) ∧
        ∀ i, s.pointer = .current i → i + 1 = s.directives.length := by
  refine ⟨?_, ?_, ?_⟩
  · have hcount : (Text.lines source).length = (sourceLines source.toList).length := by
      simp [Text.lines, sourceLines]
    rw [hcount]
    exact sound_scanLines fun raw hraw => feed_not_mem_of_mem_sourceLines hraw
  · intro d hd
    obtain ⟨problem, _, rfl⟩ := List.mem_map.mp hd
    rfl
  · intro n
    exact ⟨_, Scan.readLines?_indexed {} 1 _, rfl, fun i hi => Scan.indexed_pointer hi⟩

/-- A refused line inside of a transaction takes its number from no other line. -/
example :
    let ledger := scan "2024-01-01 * \"Lunch\"\n  Cash\n  Assets:Cash -5 USD\n2024-1-2 open\n"
    ledger.lineNumbers = [1, 3] ∧ ledger.problemLines = [2, 4] := by
  decide +kernel

end LedgerConformance.Ledger
