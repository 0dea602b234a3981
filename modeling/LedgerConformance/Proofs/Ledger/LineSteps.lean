import LedgerConformance.Proofs.Ledger.Accepted
import LedgerConformance.Proofs.Ledger.ScanLines

/-!
What one line does to a scan. What a line asks for can be said apart from the
block that it is read in: to pass over it, to close the block, to begin a
directive, to be refused, or to be read as a line of the block. By that, a line
leaves what has been read as it is, adds a problem or a directive at its end, or
lets the last directive grow.
-/

namespace LedgerConformance.Ledger

/-- What a line asks for, apart from the block that it is read in. -/
inductive Request where
  | nothing
  | division
  | head (directive : Directive)
  | refusal (problem : Problem)
  | indentedRefusal (problem : Problem)
  | indented (first : Token) (rest : List Token)

namespace Request

/-- What a line at the margin asks for, given by its first token and the others. -/
def ofMargin (line : Nat) : Token → List Token → Request
  | .text _, _ => .refusal .unexpectedString
  | .word word, args =>
    if Scan.startsWithDigit word then
      match Directive.ofTokens line word args with
      | .ok d => .head d
      | .error problem => .refusal problem
    else
      match Scan.undated word args with
      | .ok () => .division
      | .error problem => .refusal problem

def ofLine (line : Nat) (raw : List Char) : Request :=
  if raw.all Text.isBlank || Scan.isSectionHeader raw then .division
  else
    match Token.ofLine? raw with
    | none =>
      if Scan.isIndented raw then .indentedRefusal .unterminatedString
      else .refusal .unterminatedString
    | some [] => .nothing
    | some (first :: rest) =>
      if Scan.isIndented raw then .indented first rest else ofMargin line first rest

end Request

/-- What an indented line makes of the directive that it belongs to. -/
def Directive.extend (d : Directive) (line : Nat) (first : Token) (rest : List Token) :
    Except Problem Directive :=
  match Scan.metadataOf? first rest with
  | some entry => .ok { d with metadata := d.metadata ++ [entry] }
  | none =>
    if !d.content.isTransaction then .error (.strayLine d.content.keyword)
    else if (first :: rest).all Scan.isTagOrLinkToken then .ok d
    else
      match Posting.ofTokens line (first :: rest) with
      | .ok p => .ok { d with postings := d.postings ++ [p] }
      | .error problem => .error problem

namespace Scan

/-- Does what a line asks for. -/
def follow (s : Scan) (line : Nat) : Request → Scan
  | .nothing => s
  | .division => s.turnTo .closed
  | .head d => s.turnTo (.current d)
  | .refusal problem => s.breakOff line problem
  | .indentedRefusal problem => s.refuse line problem
  | .indented first rest =>
    match s.block with
    | .closed => s.refuse line .orphanLine
    | .broken => s
    | .current d =>
      match d.extend line first rest with
      | .ok grown => { s with block := .current grown }
      | .error problem => s.refuse line problem

theorem follow_ofMargin (s : Scan) (line : Nat) (first : Token) (rest : List Token) :
    s.follow line (.ofMargin line first rest) = s.margin line first rest := by
  cases first with
  | text t => rfl
  | word w =>
    by_cases hdigit : startsWithDigit w = true
    · cases hread : Directive.ofTokens line w rest <;>
        simp [Request.ofMargin, margin, follow, hdigit, hread]
    · cases hread : undated w rest <;>
        simp [Request.ofMargin, margin, follow, hdigit, hread]

/-- The lines of the block that is read go to its directive. -/
theorem follow_indented (s : Scan) (line : Nat) (first : Token) (rest : List Token) :
    s.follow line (.indented first rest) = s.indented line first rest := by
  obtain ⟨finished, problems, block⟩ := s
  cases block with
  | closed => rfl
  | broken => rfl
  | current d =>
    cases hentry : metadataOf? first rest with
    | some entry => simp [follow, indented, Directive.extend, hentry]
    | none =>
      by_cases htransaction : d.content.isTransaction = true
      · by_cases htags : (first :: rest).all isTagOrLinkToken = true
        · simp [follow, indented, Directive.extend, hentry, htransaction, htags]
        · cases hread : Posting.ofTokens line (first :: rest) <;>
            simp [follow, indented, Directive.extend, hentry, htransaction, htags, hread]
      · simp [follow, indented, Directive.extend, hentry, htransaction]

/-- A line is read by doing what it asks for. -/
theorem readLine_eq_follow (s : Scan) (line : Nat) (raw : List Char) :
    s.readLine line raw = s.follow line (.ofLine line raw) := by
  by_cases hblank : raw.all Text.isBlank = true
  · simp [readLine, Request.ofLine, follow, hblank]
  · by_cases hheader : isSectionHeader raw = true
    · simp [readLine, Request.ofLine, follow, hheader]
    · have hplain : ¬ (raw.all Text.isBlank || isSectionHeader raw) = true := by
        simp [hblank, hheader]
      rw [readLine, if_neg hblank, if_neg hheader, Request.ofLine, if_neg hplain]
      cases htokens : Token.ofLine? raw with
      | none => by_cases hindent : isIndented raw = true <;> simp [hindent, follow]
      | some tokens =>
        cases tokens with
        | nil => rfl
        | cons first rest =>
          by_cases hindent : isIndented raw = true
          · simp only [hindent, if_true]
            exact (follow_indented s line first rest).symm
          · simp only [hindent]
            exact (follow_ofMargin s line first rest).symm

@[simp] theorem result_turnTo_closed (s : Scan) : (s.turnTo .closed).result = s.result := by
  simp [result]

@[simp] theorem result_turnTo_broken (s : Scan) : (s.turnTo .broken).result = s.result := by
  obtain ⟨finished, problems, block⟩ := s
  cases block <;> rfl

@[simp] theorem result_turnTo_current (s : Scan) (d : Directive) :
    (s.turnTo (.current d)).result =
      { s.result with directives := s.result.directives ++ [d] } := by
  obtain ⟨finished, problems, block⟩ := s
  cases block <;> simp [result, turnTo]

@[simp] theorem result_refuse (s : Scan) (line : Nat) (problem : Problem) :
    (s.refuse line problem).result =
      { s.result with problems := s.result.problems ++ [⟨line, problem⟩] } := by
  obtain ⟨finished, problems, block⟩ := s
  cases block <;> simp [result, turnTo, refuse]

/-- The directive of the current block is the last one that has been read. -/
theorem result_of_current {s : Scan} {d : Directive} (h : s.block = .current d) :
    s.result = ⟨s.finished.reverse ++ [d], s.problems.reverse⟩ := by
  simp [result, turnTo, h]

end Scan

namespace Directive

/-- One more line below the head, which may be a posting: the directive stays
well formed and keeps the lines that it has. -/
structure Grows (line : Nat) (d grown : Directive) : Prop where
  wellFormed : d.WellFormed → grown.WellFormed
  head : grown.line = d.line
  postings : grown.postings = d.postings ∨
    ∃ p, p.line = line ∧ grown.postings = d.postings ++ [p]

theorem grows_of_extend {d grown : Directive} {line : Nat} {first : Token} {rest : List Token}
    (hline : ∀ t ∈ rest, IsOneLine t.content) (h : d.extend line first rest = .ok grown) :
    d.Grows line grown := by
  unfold extend at h
  split at h
  · rename_i entry hentry
    cases h
    have hwell := Scan.wellFormed_of_metadataOf? hline hentry
    refine ⟨fun hd => ⟨hd.date, hd.year, hd.content, hd.postings, hd.onTransaction, ?_⟩, rfl,
      Or.inl rfl⟩
    exact List.forall_mem_append.mpr ⟨hd.metadata, by simpa using hwell⟩
  · split at h
    · cases h
    · rename_i htransaction
      split at h
      · cases h
        exact ⟨id, rfl, Or.inl rfl⟩
      · split at h
        · rename_i p hread
          cases h
          obtain ⟨hwell, hp⟩ := Posting.wellFormed_of_ofTokens hread
          refine ⟨fun hd => ⟨hd.date, hd.year, hd.content, ?_, ?_, hd.metadata⟩, rfl,
            Or.inr ⟨p, hp, rfl⟩⟩
          · exact List.forall_mem_append.mpr ⟨hd.postings, by simpa using hwell⟩
          · intro _
            simpa using htransaction
        · cases h

end Directive

namespace Request

/-- A head brings a well-formed directive of its own line, and the tokens of an
indented line stand on one line. -/
def Sound (line : Nat) : Request → Prop
  | .head d => d.WellFormed ∧ d.line = line ∧ d.postings = []
  | .indented _ rest => ∀ t ∈ rest, IsOneLine t.content
  | _ => True

theorem sound_ofMargin (line : Nat) {first : Token} {rest : List Token}
    (hrest : ∀ t ∈ rest, IsOneLine t.content) : (ofMargin line first rest).Sound line := by
  unfold ofMargin
  split
  · trivial
  · split
    · split
      · rename_i d hread
        exact Directive.wellFormed_of_ofTokens hrest hread
      · trivial
    · split <;> trivial

theorem sound_ofLine (line : Nat) {raw : List Char} (hraw : '\n' ∉ raw) :
    (ofLine line raw).Sound line := by
  unfold ofLine
  split
  · trivial
  · split
    · split <;> trivial
    · trivial
    · rename_i first rest htokens
      have hrest : ∀ t ∈ rest, IsOneLine t.content := fun t ht =>
        Token.isOneLine_of_ofLine? hraw htokens t (List.mem_cons_of_mem first ht)
      split
      · exact hrest
      · exact sound_ofMargin line hrest

end Request

/-- What a line with the given number can do to what has been read. -/
inductive Scanned.Step (line : Nat) (before after : Scanned) : Prop where
  | stays (h : after = before)
  | refused (problem : Problem)
      (h : after = { before with problems := before.problems ++ [⟨line, problem⟩] })
  | begins (d : Directive) (hwell : d.WellFormed) (hline : d.line = line)
      (hpostings : d.postings = [])
      (h : after = { before with directives := before.directives ++ [d] })
  | grows (front : List Directive) (d grown : Directive)
      (hbefore : before.directives = front ++ [d]) (hgrows : d.Grows line grown)
      (h : after = { before with directives := front ++ [grown] })

/-- Whatever a line asks for, what has been read takes one of these steps. -/
theorem Scan.step_follow (s : Scan) {line : Nat} {request : Request}
    (hsound : request.Sound line) : Scanned.Step line s.result (s.follow line request).result := by
  cases request with
  | nothing => exact .stays rfl
  | division => exact .stays (result_turnTo_closed s)
  | head d =>
    obtain ⟨hwell, hline, hpostings⟩ := hsound
    exact .begins d hwell hline hpostings (result_turnTo_current s d)
  | refusal problem => exact .refused problem (by simp [follow, breakOff])
  | indentedRefusal problem => exact .refused problem (result_refuse s line problem)
  | indented first rest =>
    simp only [follow]
    split
    · exact .refused .orphanLine (result_refuse s line .orphanLine)
    · exact .stays rfl
    · rename_i d hblock
      split
      · rename_i grown hgrown
        have hgrows : d.Grows line grown := Directive.grows_of_extend hsound hgrown
        refine .grows s.finished.reverse d grown ?_ hgrows ?_
        · rw [result_of_current hblock]
        · rw [result_of_current hblock, result_of_current rfl]
      · rename_i problem _
        exact .refused problem (result_refuse s line problem)

theorem Scan.step_readLine (s : Scan) (line : Nat) {raw : List Char} (hraw : '\n' ∉ raw) :
    Scanned.Step line s.result (s.readLine line raw).result := by
  rw [readLine_eq_follow]
  exact s.step_follow (Request.sound_ofLine line hraw)

end LedgerConformance.Ledger
