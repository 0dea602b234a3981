import LedgerConformance.Proofs.Ledger.LineSteps
import LedgerConformance.Proofs.Text.Trimming
import Mathlib.Data.List.Induction

/-!
Texts with given lines. A line ends with a line feed, or with a carriage return and a line
feed, and the last one may have no end. However the lines are ended, they are read without
the carriage returns at their ends, and whether the last one has an end does not matter: if it
is empty it may go missing, but a blank line at the end of a ledger says nothing.
-/

namespace LedgerConformance.Ledger

/-- The text consists of the lines, ended with a line feed or with a carriage return and a
line feed each as it likes; the last one may have no end. -/
inductive Consists : List Char → List (List Char) → Prop
  | nothing : Consists [] []
  | last (line : List Char) : Consists line [line]
  | feed {s : List Char} {rest : List (List Char)} (line : List Char) (h : Consists s rest) :
    Consists (line ++ '\n' :: s) (line :: rest)
  | returnFeed {s : List Char} {rest : List (List Char)} (line : List Char) (h : Consists s rest) :
    Consists (line ++ '\r' :: '\n' :: s) (line :: rest)

/-- The line without the carriage returns at its end. -/
def withoutReturns (raw : List Char) : List Char := Text.dropEndWhile (· == '\r') raw

theorem withoutReturns_concat (raw : List Char) :
    withoutReturns (raw ++ ['\r']) = withoutReturns raw := by
  simp [withoutReturns, Text.dropEndWhile]

/-- The returns that are dropped are blanks. -/
theorem withoutReturns_append (raw : List Char) :
    ∃ returns, raw = withoutReturns raw ++ returns ∧ returns.all Text.isBlank = true := by
  refine ⟨(raw.reverse.takeWhile (· == '\r')).reverse, ?_, ?_⟩
  · rw [withoutReturns, Text.dropEndWhile, ← List.reverse_append, List.takeWhile_append_dropWhile,
      List.reverse_reverse]
  · rw [List.all_eq_true]
    intro c hc
    have hreturn := List.mem_takeWhile_imp (List.mem_reverse.mp hc)
    rw [beq_iff_eq.mp hreturn]
    rfl

theorem all_isBlank_withoutReturns (raw : List Char) :
    (withoutReturns raw).all Text.isBlank = raw.all Text.isBlank := by
  obtain ⟨returns, hraw, hreturns⟩ := withoutReturns_append raw
  conv => rhs; rw [hraw]
  rw [List.all_append, hreturns, Bool.and_true]

/-- Returns are dropped behind any other character only. -/
theorem withoutReturns_append_cons {c : Char} (hc : c ≠ '\r') (s t : List Char) :
    withoutReturns (s ++ c :: t) = s ++ c :: withoutReturns t := by
  induction t using List.reverseRecOn with
  | nil => simp [withoutReturns, Text.dropEndWhile, hc]
  | append_singleton t d ih =>
    by_cases hd : d = '\r'
    · have hassoc : s ++ c :: (t ++ ['\r']) = (s ++ c :: t) ++ ['\r'] := by simp
      rw [hd, hassoc, withoutReturns_concat, withoutReturns_concat, ih]
    · simp [withoutReturns, Text.dropEndWhile, hd]

theorem withoutReturns_dropReturn (raw : List Char) :
    withoutReturns (Text.dropReturn raw) = withoutReturns raw := by
  unfold Text.dropReturn
  split
  · rename_i hlast
    obtain ⟨front, rfl⟩ := List.getLast?_eq_some_iff.mp hlast
    rw [List.dropLast_concat, withoutReturns_concat]
  · rfl

/-- A line that a line feed ends is the first one that is read. -/
theorem sourceLines_append_feed {line : List Char} (hfeed : '\n' ∉ line) (s : List Char) :
    sourceLines (line ++ '\n' :: s) = withoutReturns line :: sourceLines s := by
  rw [sourceLines, Text.linesOf_append_feed, Text.endedLines_of_not_mem hfeed, List.singleton_append,
    List.map_cons]
  exact congrArg (· :: sourceLines s) (withoutReturns_dropReturn line)

/-- All lines are read without carriage returns at their ends, but for an empty one at the end
of the text. -/
theorem Consists.sourceLines {s : List Char} {lines : List (List Char)} (h : Consists s lines)
    (hfeed : ∀ raw ∈ lines, '\n' ∉ raw) :
    lines.map withoutReturns = sourceLines s ∨
      lines.map withoutReturns = sourceLines s ++ [[]] := by
  induction h with
  | nothing => exact Or.inl rfl
  | last line =>
    cases line with
    | nil => exact Or.inr rfl
    | cons c rest =>
      left
      rw [Ledger.sourceLines, Text.linesOf_of_not_mem (hfeed _ List.mem_cons_self) (by simp)]
      rfl
  | feed line h ih =>
    obtain ⟨hline, hrest⟩ := List.forall_mem_cons.mp hfeed
    rw [sourceLines_append_feed hline, List.map_cons]
    rcases ih hrest with heq | heq
    · exact Or.inl (by rw [heq])
    · exact Or.inr (by rw [heq, List.cons_append])
  | @returnFeed s rest line h ih =>
    obtain ⟨hline, hrest⟩ := List.forall_mem_cons.mp hfeed
    have hreturn : '\n' ∉ line ++ ['\r'] := by simpa using hline
    have hsplit : line ++ '\r' :: '\n' :: s = (line ++ ['\r']) ++ '\n' :: s := by simp
    rw [hsplit, sourceLines_append_feed hreturn, withoutReturns_concat, List.map_cons]
    rcases ih hrest with heq | heq
    · exact Or.inl (by rw [heq])
    · exact Or.inr (by rw [heq, List.cons_append])

/-- A blank line at the end adds nothing. -/
theorem scanLines_concat_nil (lines : List (List Char)) :
    scanLines (lines ++ [[]]) = scanLines lines := by
  rw [scanLines, Scan.readLines_append, Scan.readLines_cons, Scan.readLines_nil,
    Scan.readLine_of_blank _ _ rfl, Scan.result_turnTo_closed, scanLines]

/-- However its lines are ended, a text is read as its lines. -/
theorem Consists.scan_eq {source : String} {lines : List (List Char)}
    (h : Consists source.toList lines) (hfeed : ∀ raw ∈ lines, '\n' ∉ raw) :
    scan source = scanLines (lines.map withoutReturns) := by
  rcases h.sourceLines hfeed with heq | heq
  · rw [scan, heq]
  · rw [scan, heq, scanLines_concat_nil]

end LedgerConformance.Ledger
