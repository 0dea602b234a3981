import LedgerConformance.Proofs.Ledger.LineEnds
import LedgerConformance.Proofs.Ledger.Renumbering
import Mathlib.Data.List.TakeWhile

/-!
Blocks of a ledger are read on their own. Behind a blank line, or from a line at
the margin that is no comment, the rest of a ledger is read as if nothing stood
before it, except that its lines have higher numbers. A scan of the rest alone
and the scan that goes on behind other lines do the same with every line: the
second one is the first with what was read before put under it and all numbers
raised.
-/

namespace LedgerConformance.Ledger

/-- The posting as many lines further down. -/
def Posting.shift (n : Nat) (p : Posting) : Posting := { p with line := p.line + n }

/-- The directive with its postings as many lines further down. -/
def Directive.shift (n : Nat) (d : Directive) : Directive :=
  { d with line := d.line + n, postings := d.postings.map (Posting.shift n) }

def Located.shift {α : Type} (n : Nat) (p : Located α) : Located α := { p with line := p.line + n }

def Block.shift (n : Nat) : Block → Block
  | .closed => .closed
  | .broken => .broken
  | .current d => .current (d.shift n)

/-- What the same line further down asks for. -/
def Request.shift (n : Nat) : Request → Request
  | .head d => .head (d.shift n)
  | request => request

namespace Scanned

/-- The same directives and problems as many lines further down. -/
def shift (n : Nat) (ledger : Scanned) : Scanned :=
  ⟨ledger.directives.map (Directive.shift n), ledger.problems.map (Located.shift n)⟩

/-- The directives and the problems of one ledger, each followed by those of another. -/
def append (first second : Scanned) : Scanned :=
  ⟨first.directives ++ second.directives, first.problems ++ second.problems⟩

instance : Append Scanned := ⟨append⟩

theorem append_eq (first second : Scanned) :
    first ++ second =
      ⟨first.directives ++ second.directives, first.problems ++ second.problems⟩ := rfl

end Scanned

/-- A line further down does the same to its directive. -/
theorem Directive.extend_shift (d : Directive) (line n : Nat) (first : Token)
    (rest : List Token) :
    (d.shift n).extend (line + n) first rest =
      (d.extend line first rest).map (Directive.shift n) :=
  extend_renumber (· + n) d line first rest

theorem Request.shift_eq_renumber (n : Nat) (request : Request) :
    request.shift n = request.renumber (· + n) := by
  cases request <;> rfl

/-- Only the number of a directive depends on the number of the line. -/
theorem Request.ofLine_shift (line n : Nat) (raw : List Char) :
    ofLine (line + n) raw = (ofLine line raw).shift n := by
  rw [shift_eq_renumber, ← ofLine_renumber]

namespace Scan

/-- The scan that has read another ledger before, whose lines its own ones follow. -/
def behind (before : Scanned) (n : Nat) (s : Scan) : Scan where
  finished := s.finished.map (Directive.shift n) ++ before.directives.reverse
  problems := s.problems.map (Located.shift n) ++ before.problems.reverse
  block := s.block.shift n

variable (before : Scanned) (n : Nat)

theorem behind_turnTo (s : Scan) (next : Block) :
    (s.turnTo next).behind before n = (s.behind before n).turnTo (next.shift n) := by
  obtain ⟨finished, problems, block⟩ := s
  cases block <;> rfl

theorem behind_refuse (s : Scan) (line : Nat) (problem : Problem) :
    (s.refuse line problem).behind before n =
      (s.behind before n).refuse (line + n) problem := rfl

theorem behind_follow (s : Scan) (line : Nat) (request : Request) :
    (s.follow line request).behind before n =
      (s.behind before n).follow (line + n) (request.shift n) := by
  cases request with
  | nothing => rfl
  | division => exact behind_turnTo before n s .closed
  | head d => exact behind_turnTo before n s (.current d)
  | refusal problem =>
    simp only [follow, breakOff, Request.shift]
    rw [behind_refuse, behind_turnTo]
    rfl
  | indentedRefusal problem => rfl
  | indented first rest =>
    obtain ⟨finished, problems, block⟩ := s
    cases block with
    | closed => rfl
    | broken => rfl
    | current d =>
      have hextend := Directive.extend_shift d line n first rest
      simp only [follow, behind, Request.shift, Block.shift, hextend]
      cases d.extend line first rest <;> rfl

theorem behind_readLine (s : Scan) (line : Nat) (raw : List Char) :
    (s.readLine line raw).behind before n = (s.behind before n).readLine (line + n) raw := by
  rw [readLine_eq_follow, readLine_eq_follow, behind_follow, Request.ofLine_shift]

/-- Lines are read behind others as they are read alone. -/
theorem behind_readLines (s : Scan) (line : Nat) (lines : List (List Char)) :
    (s.readLines line lines).behind before n =
      (s.behind before n).readLines (line + n) lines := by
  induction lines generalizing s line with
  | nil => rfl
  | cons raw rest ih =>
    rw [readLines_cons, ih, behind_readLine, readLines_cons, Nat.add_right_comm]

theorem result_behind (s : Scan) :
    (s.behind before n).result = before ++ s.result.shift n := by
  obtain ⟨finished, problems, block⟩ := s
  cases block <;> simp [result, behind, turnTo, Block.shift, Scanned.append_eq, Scanned.shift]

/-- Once its block is closed, a scan is a fresh one behind what it has read. -/
theorem turnTo_closed_eq_behind (s : Scan) :
    s.turnTo .closed = ({} : Scan).behind s.result n := by
  obtain ⟨finished, problems, block⟩ := s
  cases block <;> simp [turnTo, behind, result, Block.shift]

end Scan

/-- Nothing but a comment stands on the line. -/
def isCommentOnly (raw : List Char) : Bool := (raw.dropWhile Text.isBlank).head? == some ';'

/-- The line stands at the margin and is neither blank nor only a comment. -/
structure StartsBlock (raw : List Char) : Prop where
  margin : Scan.isIndented raw = false
  notBlank : raw.all Text.isBlank = false
  notComment : isCommentOnly raw = false

/-- A token that was begun is read or refused. -/
theorem Token.readFrom_ne_nil {place : Token.Place} (hplace : place ≠ .gap) (raw : List Char) :
    Token.readFrom place raw ≠ some [] := by
  induction raw generalizing place with
  | nil => cases place <;> simp_all [Token.readFrom]
  | cons c rest ih =>
    cases place with
    | gap => contradiction
    | inWord read =>
      have hword : Token.readFrom (.inWord (c :: read)) rest ≠ some [] := ih (by simp)
      simp only [Token.readFrom]
      split
      · simp
      · split
        · simp
        · exact hword
    | inText read =>
      have htext : Token.readFrom (.inText (c :: read)) rest ≠ some [] := ih (by simp)
      have hescape : Token.readFrom (.afterBackslash read) rest ≠ some [] := ih (by simp)
      simp only [Token.readFrom]
      split
      · simp
      · split
        · exact hescape
        · exact htext
    | afterBackslash read =>
      have htext : Token.readFrom (.inText (c :: read)) rest ≠ some [] := ih (by simp)
      exact htext

/-- A line without tokens is blank, or a comment behind blanks. -/
theorem blank_or_comment_of_ofLine? {raw : List Char} (h : Token.ofLine? raw = some []) :
    raw.all Text.isBlank = true ∨ isCommentOnly raw = true := by
  unfold Token.ofLine? at h
  induction raw with
  | nil => exact Or.inl rfl
  | cons c rest ih =>
    by_cases hblank : Text.isBlank c = true
    · have hrest : Token.readFrom .gap rest = some [] := by simpa [Token.readFrom, hblank] using h
      rcases ih hrest with hall | hcomment
      · left
        rw [List.all_cons, hblank, hall]
        rfl
      · right
        rw [isCommentOnly, List.dropWhile_cons_of_pos hblank]
        exact hcomment
    · by_cases hsemicolon : c = ';'
      · right
        rw [isCommentOnly, List.dropWhile_cons_of_neg hblank, hsemicolon]
        rfl
      · by_cases hquote : c = '"'
        · have htext : Token.readFrom (.inText []) rest ≠ some [] :=
            Token.readFrom_ne_nil (by simp) rest
          subst hquote
          simp [Token.readFrom, hblank, htext] at h
        · have hword : Token.readFrom (.inWord [c]) rest ≠ some [] :=
            Token.readFrom_ne_nil (by simp) rest
          simp [Token.readFrom, hblank, hsemicolon, hquote, hword] at h

/-- What is asked for ends the block, whatever it is. -/
def Request.EndsBlock : Request → Prop
  | .division | .head _ | .refusal _ => True
  | .nothing | .indentedRefusal _ | .indented _ _ => False

theorem StartsBlock.endsBlock {raw : List Char} (h : StartsBlock raw) (line : Nat) :
    (Request.ofLine line raw).EndsBlock := by
  unfold Request.ofLine
  split
  · trivial
  · split
    · rw [h.margin]
      trivial
    · rename_i htokens
      rcases blank_or_comment_of_ofLine? htokens with hblank | hcomment
      · rw [h.notBlank] at hblank
        contradiction
      · rw [h.notComment] at hcomment
        contradiction
    · rw [h.margin]
      simp only [Bool.false_eq_true, if_false]
      unfold Request.ofMargin
      split
      · trivial
      · split
        · split <;> trivial
        · split <;> trivial

namespace Scan

theorem follow_turnTo_closed (s : Scan) (line : Nat) {request : Request}
    (h : request.EndsBlock) : (s.turnTo .closed).follow line request = s.follow line request := by
  cases request with
  | division => exact turnTo_turnTo_closed s .closed
  | head d => exact turnTo_turnTo_closed s (.current d)
  | refusal problem => simp only [follow, breakOff, turnTo_turnTo_closed]
  | nothing => exact h.elim
  | indentedRefusal problem => exact h.elim
  | indented first rest => exact h.elim

/-- A line that starts a block does not ask which block it ends. -/
theorem readLine_turnTo_closed (s : Scan) (line : Nat) {raw : List Char} (h : StartsBlock raw) :
    (s.turnTo .closed).readLine line raw = s.readLine line raw := by
  rw [readLine_eq_follow, readLine_eq_follow, follow_turnTo_closed s line (h.endsBlock line)]

/-- Behind a closed block, lines are read as a ledger of their own. -/
theorem result_readLines_turnTo_closed (s : Scan) (n : Nat) (lines : List (List Char)) :
    ((s.turnTo .closed).readLines (1 + n) lines).result =
      s.result ++ (scanLines lines).shift n := by
  rw [turnTo_closed_eq_behind n, ← behind_readLines, result_behind]
  rfl

end Scan

/-- What stands between two parts of a ledger of which the second is a block of its
own: one blank line, or nothing if the second part starts a block. -/
inductive Divides (back : List (List Char)) : List (List Char) → Prop
  | blank {line : List Char} (h : line.all Text.isBlank = true) : Divides back [line]
  | margin {first : List Char} {rest : List (List Char)} (hback : back = first :: rest)
      (h : StartsBlock first) : Divides back []

theorem scanLines_append {front gap back : List (List Char)} (h : Divides back gap) :
    scanLines (front ++ gap ++ back) =
      scanLines front ++ (scanLines back).shift (front.length + gap.length) := by
  have hresult : scanLines front = (({} : Scan).readLines 1 front).result := rfl
  rw [hresult, ← Scan.result_readLines_turnTo_closed, scanLines, Scan.readLines_append,
    Scan.readLines_append, List.length_append]
  cases h with
  | blank hblank =>
    rw [Scan.readLines_cons, Scan.readLines_nil, Scan.readLine_of_blank _ _ hblank]
  | margin hback hstart =>
    subst hback
    rw [Scan.readLines_nil, Scan.readLines_cons, Scan.readLines_cons,
      Scan.readLine_turnTo_closed _ _ hstart]

/-- The text has these lines: a line feed ends each of them, and may be missing
behind the last one. -/
inductive HasLines (source : String) (lines : List (List Char)) : Prop
  | ended (h : source.toList = lines.flatMap (· ++ ['\n']))
  | joined (h : source.toList = ['\n'].intercalate lines)

theorem HasLines.consists {source : String} {lines : List (List Char)} (h : HasLines source lines) :
    Consists source.toList lines := by
  cases h with
  | ended h =>
    rw [h]
    clear h
    induction lines with
    | nil => exact .nothing
    | cons line rest ih =>
      rw [List.flatMap_cons, List.append_assoc]
      exact .feed line ih
  | joined h =>
    rw [h]
    clear h
    induction lines with
    | nil => exact .nothing
    | cons line rest ih =>
      cases rest with
      | nil =>
        rw [List.intercalate_singleton]
        exact .last line
      | cons next rest =>
        rw [List.intercalate_cons_of_ne_nil (by simp), List.append_assoc]
        exact .feed line ih

theorem HasLines.scan_eq {source : String} {lines : List (List Char)}
    (h : HasLines source lines) (hfeed : ∀ raw ∈ lines, '\n' ∉ raw) :
    scan source = scanLines (lines.map withoutReturns) := h.consists.scan_eq hfeed

theorem StartsBlock.withoutReturns {raw : List Char} (h : StartsBlock raw) :
    StartsBlock (withoutReturns raw) := by
  obtain ⟨returns, hraw, -⟩ := withoutReturns_append raw
  have hnotBlank : (Ledger.withoutReturns raw).all Text.isBlank = false := by
    rw [all_isBlank_withoutReturns, h.notBlank]
  have hmargin := h.margin
  have hcomment := h.notComment
  rw [hraw] at hmargin hcomment
  generalize Ledger.withoutReturns raw = kept at hmargin hcomment hnotBlank ⊢
  refine ⟨?_, hnotBlank, ?_⟩
  · cases kept with
    | nil => rfl
    | cons c rest => exact hmargin
  · have hkept : kept.dropWhile Text.isBlank ≠ [] := by
      intro hnil
      rw [List.dropWhile_eq_nil_iff] at hnil
      rw [List.all_eq_true.mpr hnil] at hnotBlank
      contradiction
    rw [isCommentOnly, List.dropWhile_append, if_neg (by simpa using hkept)] at hcomment
    obtain ⟨c, rest, hstart⟩ := List.exists_cons_of_ne_nil hkept
    rw [isCommentOnly, ← hcomment, hstart]
    rfl

theorem Divides.withoutReturns {gap back : List (List Char)} (h : Divides back gap) :
    Divides (back.map withoutReturns) (gap.map withoutReturns) := by
  cases h with
  | blank hblank =>
    refine .blank (List.all_eq_true.mpr ?_)
    intro c hc
    exact List.all_eq_true.mp hblank c (Text.mem_of_mem_dropEndWhile hc)
  | margin hback hstart =>
    subst hback
    exact .margin rfl hstart.withoutReturns

/-- A part of a ledger that follows a blank line, or that begins with a line at the
margin which is no comment, is read behind any other lines as it is read alone, with
its lines counted on. -/
theorem scan_append_block {front gap back : List (List Char)}
    (hfeed : ∀ raw ∈ front ++ gap ++ back, '\n' ∉ raw) (hdivides : Divides back gap)
    {whole first second : String} (hwhole : HasLines whole (front ++ gap ++ back))
    (hfirst : HasLines first front) (hsecond : HasLines second back) :
    scan whole = scan first ++ (scan second).shift (front.length + gap.length) := by
  obtain ⟨hfeedFront, hfeedBack⟩ := List.forall_mem_append.mp hfeed
  rw [hwhole.scan_eq hfeed, hfirst.scan_eq (List.forall_mem_append.mp hfeedFront).1,
    hsecond.scan_eq hfeedBack, List.map_append, List.map_append,
    scanLines_append hdivides.withoutReturns, List.length_map, List.length_map]

/-- A transaction whose string is not closed, with a posting that is passed over. -/
def brokenBlock : String := "2024-01-01 * \"Lunch\n  Assets:Cash -5 USD"

/-- An opening with a line that belongs to it, and a posting that belongs to nothing. -/
def openingBlock : String := "2024-01-02 open Assets:Cash\r\n  note: \"till\"\n\n  Assets:Cash\n"

theorem scan_append_block_brokenBlock :
    scan (brokenBlock ++ "\n" ++ openingBlock) =
        scan brokenBlock ++ (scan openingBlock).shift 2 ∧
      (scan openingBlock).directives.map Directive.line = [1] ∧
      (scan (brokenBlock ++ "\n" ++ openingBlock)).directives.map Directive.line = [3] ∧
      (scan (brokenBlock ++ "\n" ++ openingBlock)).problems.map Located.line = [1, 6] := by
  refine ⟨?_, by decide +kernel, by decide +kernel, by decide +kernel⟩
  let front := ["2024-01-01 * \"Lunch".toList, "  Assets:Cash -5 USD".toList]
  let back := ["2024-01-02 open Assets:Cash\r".toList, "  note: \"till\"".toList, [],
    "  Assets:Cash".toList]
  have hdivides : Divides back [] :=
    .margin rfl ⟨by decide +kernel, by decide +kernel, by decide +kernel⟩
  have hfeed : ∀ raw ∈ front ++ [] ++ back, '\n' ∉ raw := by decide +kernel
  refine scan_append_block hfeed hdivides (.ended ?_) (.joined ?_) (.ended ?_)
  · decide +kernel
  · decide +kernel
  · decide +kernel

end LedgerConformance.Ledger
