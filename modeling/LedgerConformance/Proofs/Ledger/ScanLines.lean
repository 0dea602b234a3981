import LedgerConformance.Ledger.Scan
import LedgerConformance.Proofs.Ledger.TokenText
import LedgerConformance.Proofs.Text.Pieces

/-!
What reading one line does, by the kind of the line: a blank line closes the
block, a line at the margin and an indented line are handed on with their
tokens. Reading lines is reading their front and then their rest, and the lines
of a text that were ended with line feeds are the lines that are read.
-/

namespace LedgerConformance.Ledger

namespace Scan

@[simp] theorem readLines_nil (s : Scan) (line : Nat) : s.readLines line [] = s := rfl

@[simp] theorem readLines_cons (s : Scan) (line : Nat) (raw : List Char)
    (rest : List (List Char)) :
    s.readLines line (raw :: rest) = (s.readLine line raw).readLines (line + 1) rest := rfl

theorem readLines_append (s : Scan) (line : Nat) (front rest : List (List Char)) :
    s.readLines line (front ++ rest) =
      (s.readLines line front).readLines (line + front.length) rest := by
  induction front generalizing s line with
  | nil => rfl
  | cons raw front ih =>
    rw [List.cons_append, readLines_cons, ih, readLines_cons, List.length_cons,
      Nat.add_right_comm, Nat.add_assoc]

theorem readLine_of_blank (s : Scan) (line : Nat) {raw : List Char}
    (h : raw.all Text.isBlank = true) : s.readLine line raw = s.turnTo .closed := by
  simp [readLine, h]

/-- A line with a token is not blank. -/
theorem all_isBlank_eq_false {raw : List Char} {first : Token} {rest : List Token}
    (h : Token.ofLine? raw = some (first :: rest)) : raw.all Text.isBlank = false := by
  rw [Bool.eq_false_iff]
  intro hblank
  simp [Token.ofLine?_of_blank hblank] at h

theorem isSectionHeader_of_isIndented {raw : List Char} (h : isIndented raw = true) :
    isSectionHeader raw = false := by
  cases raw with
  | nil => rfl
  | cons c raw =>
    simp only [isIndented, Bool.or_eq_true, beq_iff_eq] at h
    rcases h with rfl | rfl <;> rfl

theorem readLine_of_indented (s : Scan) (line : Nat) {raw : List Char} {first : Token}
    {rest : List Token} (htokens : Token.ofLine? raw = some (first :: rest))
    (hindent : isIndented raw = true) : s.readLine line raw = s.indented line first rest := by
  have hheader : isSectionHeader raw = false := isSectionHeader_of_isIndented hindent
  simp [readLine, all_isBlank_eq_false htokens, hheader, htokens, hindent]

theorem readLine_of_margin (s : Scan) (line : Nat) {raw : List Char} {first : Token}
    {rest : List Token} (htokens : Token.ofLine? raw = some (first :: rest))
    (hindent : isIndented raw = false) (hheader : isSectionHeader raw = false) :
    s.readLine line raw = s.margin line first rest := by
  simp [readLine, all_isBlank_eq_false htokens, hheader, htokens, hindent]

@[simp] theorem turnTo_problems (s : Scan) (next : Block) :
    (s.turnTo next).problems = s.problems := by
  unfold turnTo
  split <;> rfl

@[simp] theorem turnTo_block (s : Scan) (next : Block) : (s.turnTo next).block = next := by
  unfold turnTo
  split <;> rfl

/-- With no block to end, nothing is finished. -/
theorem turnTo_finished_of_closed {s : Scan} (h : s.block = .closed) (next : Block) :
    (s.turnTo next).finished = s.finished := by
  simp [turnTo, h]

@[simp] theorem turnTo_turnTo_closed (s : Scan) (next : Block) :
    (s.turnTo .closed).turnTo next = s.turnTo next := by
  obtain ⟨finished, problems, block⟩ := s
  cases block <;> rfl

end Scan

/-- Lines that are ended with line feeds are read as they are, if none of them
has a line feed inside or a carriage return at its end. -/
theorem sourceLines_ended_lines (lines : List (List Char)) (hfeed : ∀ line ∈ lines, '\n' ∉ line)
    (hreturn : ∀ line ∈ lines, line.getLast? ≠ some '\r') :
    sourceLines (lines.flatMap (· ++ ['\n'])) = lines := by
  rw [sourceLines, Text.linesOf_ended_lines lines hfeed, List.map_map]
  conv => rhs; rw [← List.map_id lines]
  apply List.map_congr_left
  intro line hline
  rw [Function.comp_apply, Text.dropReturn_of_getLast? (hreturn line hline), id_eq]
  apply Text.dropEndWhile_of_getLast?
  intro c hc
  rw [beq_eq_false_iff_ne]
  rintro rfl
  exact hreturn line hline hc

theorem feed_not_mem_of_mem_sourceLines {source line : List Char}
    (h : line ∈ sourceLines source) : '\n' ∉ line := by
  obtain ⟨raw, hraw, rfl⟩ := List.mem_map.mp h
  exact fun hc => Text.feed_not_mem_of_mem_linesOf hraw (Text.mem_of_mem_dropEndWhile hc)

end LedgerConformance.Ledger
