import LedgerConformance.Proofs.Ledger.LineSteps

/-!
Lines with other numbers. What a line asks for and what it does to its block depend on its
number only in that heads, postings and problems bear it. So a scan of lines that are
numbered in another way, each line by a number that `f` gives for its own, is the same scan
with `f` applied to all numbers in it.
-/

namespace LedgerConformance.Ledger

def Posting.renumber (f : Nat → Nat) (p : Posting) : Posting := { p with line := f p.line }

def Directive.renumber (f : Nat → Nat) (d : Directive) : Directive :=
  { d with line := f d.line, postings := d.postings.map (Posting.renumber f) }

def Located.renumber {α : Type} (f : Nat → Nat) (p : Located α) : Located α :=
  { p with line := f p.line }

def Block.renumber (f : Nat → Nat) : Block → Block
  | .closed => .closed
  | .broken => .broken
  | .current d => .current (d.renumber f)

/-- What the same line with another number asks for. -/
def Request.renumber (f : Nat → Nat) : Request → Request
  | .head d => .head (d.renumber f)
  | request => request

def Scanned.renumber (f : Nat → Nat) (ledger : Scanned) : Scanned :=
  ⟨ledger.directives.map (Directive.renumber f), ledger.problems.map (Located.renumber f)⟩

def Scan.renumber (f : Nat → Nat) (s : Scan) : Scan where
  finished := s.finished.map (Directive.renumber f)
  problems := s.problems.map (Located.renumber f)
  block := s.block.renumber f

variable (f : Nat → Nat)

theorem Directive.ofTokens_renumber (line : Nat) (date : String) (rest : List Token) :
    Directive.ofTokens (f line) date rest =
      (Directive.ofTokens line date rest).map (Directive.renumber f) := by
  unfold Directive.ofTokens
  split
  · rfl
  · split
    · rfl
    · rfl
    · rename_i keyword args
      -- The content does not depend on the line, and a fresh directive has no postings.
      generalize (ite (keyword == "txn") _ _ : Except Problem Content) = content
      cases content <;> rfl

theorem Posting.ofTokens_renumber (line : Nat) (tokens : List Token) :
    Posting.ofTokens (f line) tokens =
      (Posting.ofTokens line tokens).map (Posting.renumber f) := by
  unfold Posting.ofTokens
  obtain ⟨flag, rest⟩ := splitPostingFlag tokens
  dsimp only
  generalize accountAt rest 0 = account
  generalize postingAmount (rest.drop 1) = amount
  cases account with
  | error problem => rfl
  | ok account => cases amount <;> rfl

@[simp] theorem Directive.renumber_content (d : Directive) :
    (d.renumber f).content = d.content := rfl

/-- A line with another number does the same to its directive. -/
theorem Directive.extend_renumber (d : Directive) (line : Nat) (first : Token)
    (rest : List Token) :
    (d.renumber f).extend (f line) first rest =
      (d.extend line first rest).map (Directive.renumber f) := by
  unfold Directive.extend
  rw [Posting.ofTokens_renumber]
  cases hentry : Scan.metadataOf? first rest with
  | some entry => rfl
  | none =>
    by_cases htransaction : d.content.isTransaction = true
    · by_cases htags : (first :: rest).all Scan.isTagOrLinkToken = true
      · simp [htransaction, htags, Except.map]
      · cases hread : Posting.ofTokens line (first :: rest) with
        | error problem => simp [htransaction, htags, Except.map]
        | ok p => simp [htransaction, htags, Except.map, Directive.renumber]
    · simp [htransaction, Except.map]

namespace Request

theorem ofMargin_renumber (line : Nat) (first : Token) (rest : List Token) :
    ofMargin (f line) first rest = (ofMargin line first rest).renumber f := by
  cases first with
  | text t => rfl
  | word w =>
    simp only [ofMargin, Directive.ofTokens_renumber]
    by_cases hdigit : Scan.startsWithDigit w = true
    · cases hread : Directive.ofTokens line w rest <;> simp [hdigit, Except.map, renumber]
    · cases hread : Scan.undated w rest <;> simp [hdigit, renumber]

/-- Only the number of a directive depends on the number of the line. -/
theorem ofLine_renumber (line : Nat) (raw : List Char) :
    ofLine (f line) raw = (ofLine line raw).renumber f := by
  unfold ofLine
  split
  · rfl
  · split
    · split <;> rfl
    · rfl
    · split
      · rfl
      · exact ofMargin_renumber f line _ _

end Request

namespace Scan

theorem renumber_turnTo (s : Scan) (next : Block) :
    (s.turnTo next).renumber f = (s.renumber f).turnTo (next.renumber f) := by
  obtain ⟨finished, problems, block⟩ := s
  cases block <;> rfl

theorem renumber_refuse (s : Scan) (line : Nat) (problem : Problem) :
    (s.refuse line problem).renumber f = (s.renumber f).refuse (f line) problem := rfl

theorem renumber_follow (s : Scan) (line : Nat) (request : Request) :
    (s.follow line request).renumber f =
      (s.renumber f).follow (f line) (request.renumber f) := by
  cases request with
  | nothing => rfl
  | division => exact renumber_turnTo f s .closed
  | head d => exact renumber_turnTo f s (.current d)
  | refusal problem =>
    simp only [follow, breakOff, Request.renumber]
    rw [renumber_refuse, renumber_turnTo]
    rfl
  | indentedRefusal problem => rfl
  | indented first rest =>
    obtain ⟨finished, problems, block⟩ := s
    cases block with
    | closed => rfl
    | broken => rfl
    | current d =>
      have hextend := Directive.extend_renumber f d line first rest
      simp only [follow, renumber, Request.renumber, Block.renumber, hextend]
      cases d.extend line first rest <;> rfl

theorem renumber_readLine (s : Scan) (line : Nat) (raw : List Char) :
    (s.readLine line raw).renumber f = (s.renumber f).readLine (f line) raw := by
  rw [readLine_eq_follow, readLine_eq_follow, renumber_follow, Request.ofLine_renumber]

/-- Lines that follow one another in both ways of numbering are read alike. -/
theorem renumber_readLines (s : Scan) {line : Nat} (hf : ∀ i, f (line + i) = f line + i)
    (lines : List (List Char)) :
    (s.readLines line lines).renumber f = (s.renumber f).readLines (f line) lines := by
  induction lines generalizing s line with
  | nil => rfl
  | cons raw rest ih =>
    have hnext : ∀ i, f (line + 1 + i) = f (line + 1) + i := by
      intro i
      rw [Nat.add_assoc, hf, hf, Nat.add_assoc]
    rw [readLines_cons, ih _ hnext, renumber_readLine, readLines_cons, hf]

theorem result_renumber (s : Scan) : (s.renumber f).result = s.result.renumber f := by
  obtain ⟨finished, problems, block⟩ := s
  cases block <;> simp [result, renumber, turnTo, Block.renumber, Scanned.renumber]

end Scan

end LedgerConformance.Ledger
