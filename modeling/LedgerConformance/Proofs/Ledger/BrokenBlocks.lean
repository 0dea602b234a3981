import LedgerConformance.Proofs.Ledger.Comments

/-!
Blocks whose first line was refused. The indented lines below a refused line at the margin
belong to nothing: they bring no directive, no posting and no metadata, and they are not
refused in their turn, except where a string on them is not closed, for a line is cut into
tokens before the block is asked. Comments below the refused line change nothing, and where
the block ends, the ledger goes on as if it began there.
-/

namespace LedgerConformance.Ledger

/-- The line stands at the margin and, read alone, is refused for a reason. -/
structure Refused (raw : List Char) (problem : Problem) : Prop where
  margin : Scan.isIndented raw = false
  alone : scanLines [raw] = ⟨[], [⟨1, problem⟩]⟩

/-- The line is indented and not blank, or nothing but a comment. -/
def Continues (raw : List Char) : Prop :=
  (Scan.isIndented raw = true ∧ raw.all Text.isBlank = false) ∨ isCommentOnly raw = true

instance (raw : List Char) : Decidable (Continues raw) := inferInstanceAs (Decidable (_ ∨ _))

/-- The lines with a string that is not closed, as problems; the first line has the given
number. -/
def unclosedStrings (line : Nat) : List (List Char) → List (Located Problem)
  | [] => []
  | raw :: rest =>
    if Token.ofLine? raw = none then ⟨line, .unterminatedString⟩ :: unclosedStrings (line + 1) rest
    else unclosedStrings (line + 1) rest

/-- What a refused line on the given line and the lines below it add to a ledger. -/
def refusedBlock (line : Nat) (problem : Problem) (below : List (List Char)) : Scanned :=
  ⟨[], ⟨line, problem⟩ :: unclosedStrings (line + 1) below⟩

/-- What is read of lines that stand below a refused line, numbered from one. -/
def scanBelowRefused (lines : List (List Char)) : Scanned :=
  (({ block := .broken } : Scan).readLines 1 lines).result

theorem unclosedStrings_eq_nil_iff (line : Nat) {lines : List (List Char)} :
    unclosedStrings line lines = [] ↔ ∀ raw ∈ lines, Token.ofLine? raw ≠ none := by
  induction lines generalizing line with
  | nil => simp [unclosedStrings]
  | cons raw rest ih =>
    by_cases hraw : Token.ofLine? raw = none
    · simp [unclosedStrings, hraw]
    · simp [unclosedStrings, hraw, ih (line + 1)]

section Refused

variable {raw : List Char} {problem : Problem}

theorem Refused.startsBlock (h : Refused raw problem) : StartsBlock raw := by
  have halone : (({} : Scan).readLine 1 raw).result = ⟨[], [⟨1, problem⟩]⟩ := h.alone
  refine ⟨h.margin, Bool.eq_false_iff.mpr fun hblank => ?_,
    Bool.eq_false_iff.mpr fun hcomment => ?_⟩
  · rw [Scan.readLine_of_blank _ _ hblank] at halone
    cases halone
  · rw [Scan.readLine_of_isCommentOnly _ _ hcomment] at halone
    cases halone

/-- Whatever was read before, the line is refused for the same reason. -/
theorem Refused.ofLine (h : Refused raw problem) (n : Nat) :
    Request.ofLine (1 + n) raw = .refusal problem := by
  have halone : (({} : Scan).readLine 1 raw).result = ⟨[], [⟨1, problem⟩]⟩ := h.alone
  rw [Scan.readLine_eq_follow] at halone
  have hends : (Request.ofLine 1 raw).EndsBlock := h.startsBlock.endsBlock 1
  rw [Request.ofLine_shift]
  cases hrequest : Request.ofLine 1 raw with
  | division =>
    rw [hrequest] at halone
    cases halone
  | head d =>
    rw [hrequest] at halone
    cases halone
  | refusal found =>
    rw [hrequest] at halone
    cases halone
    rfl
  | nothing => rw [hrequest] at hends; exact hends.elim
  | indentedRefusal found => rw [hrequest] at hends; exact hends.elim
  | indented first rest => rw [hrequest] at hends; exact hends.elim

end Refused

namespace Scan

theorem readLine_of_refused (s : Scan) {raw : List Char} {problem : Problem}
    (h : Refused raw problem) (n : Nat) : s.readLine (1 + n) raw = s.breakOff (1 + n) problem := by
  rw [readLine_eq_follow, h.ofLine n, follow]

/-- A line of a broken block is passed over once it is cut into tokens. -/
theorem readLine_of_broken {s : Scan} (hbroken : s.block = .broken) (line : Nat)
    {raw : List Char} (h : Continues raw) :
    s.readLine line raw = { s with problems := unclosedStrings line [raw] ++ s.problems } := by
  obtain ⟨finished, problems, block⟩ := s
  subst hbroken
  rcases h with ⟨hindented, hblank⟩ | hcomment
  · have hheader : isSectionHeader raw = false := isSectionHeader_of_isIndented hindented
    cases htokens : Token.ofLine? raw with
    | none => simp [readLine, hblank, hheader, htokens, hindented, refuse, unclosedStrings]
    | some tokens =>
      cases tokens with
      | nil => simp [readLine, hblank, hheader, htokens, unclosedStrings]
      | cons first rest =>
        simp [readLine, hblank, hheader, htokens, hindented, indented, unclosedStrings]
  · rw [readLine_of_isCommentOnly _ line hcomment]
    simp [unclosedStrings, Token.ofLine?_of_isCommentOnly hcomment]

theorem readLines_of_broken {s : Scan} (hbroken : s.block = .broken) (line : Nat)
    {below : List (List Char)} (h : ∀ raw ∈ below, Continues raw) :
    s.readLines line below =
      { s with problems := (unclosedStrings line below).reverse ++ s.problems } := by
  induction below generalizing s line with
  | nil => rfl
  | cons raw rest ih =>
    obtain ⟨hraw, hrest⟩ := List.forall_mem_cons.mp h
    have hnext := ih (s := { s with problems := unclosedStrings line [raw] ++ s.problems }) hbroken
      (line + 1) hrest
    rw [readLines_cons, readLine_of_broken hbroken line hraw, hnext]
    by_cases htokens : Token.ofLine? raw = none <;> simp [unclosedStrings, htokens]

/-- A broken block reads no more of what came before than a closed one. -/
theorem eq_behind_of_broken {s : Scan} (hbroken : s.block = .broken) (n : Nat) :
    s = ({ block := .broken } : Scan).behind s.result n := by
  obtain ⟨finished, problems, block⟩ := s
  subst hbroken
  simp [behind, result, turnTo, Block.shift]

theorem result_readLines_of_broken {s : Scan} (hbroken : s.block = .broken) (n : Nat)
    (lines : List (List Char)) :
    (s.readLines (1 + n) lines).result = s.result ++ (scanBelowRefused lines).shift n := by
  conv => lhs; rw [eq_behind_of_broken hbroken n]
  rw [← behind_readLines, result_behind]
  rfl

theorem result_refusedBlock (s : Scan) (line : Nat) (problem : Problem)
    (below : List (List Char)) :
    ({ s.breakOff line problem with
      problems := (unclosedStrings (line + 1) below).reverse ++
        (s.breakOff line problem).problems } : Scan).result =
      s.result ++ refusedBlock line problem below := by
  obtain ⟨finished, problems, block⟩ := s
  cases block <;> simp [breakOff, refuse, turnTo, result, refusedBlock, Scanned.append_eq]

end Scan

/-- Where a broken block ends, the ledger goes on as if it began there. -/
theorem scanBelowRefused_eq_scanLines {back : List (List Char)}
    (h : ∀ raw ∈ back.head?, ¬ Continues raw) : scanBelowRefused back = scanLines back := by
  cases back with
  | nil => rfl
  | cons raw rest =>
    have hstop : ¬ Continues raw := h raw rfl
    rw [Continues, not_or, not_and_or, Bool.not_eq_true, Bool.not_eq_false, Bool.not_eq_true] at hstop
    obtain ⟨hmarginOrBlank, hcomment⟩ := hstop
    rw [scanBelowRefused, scanLines, Scan.readLines_cons, Scan.readLines_cons]
    by_cases hblank : raw.all Text.isBlank = true
    · rw [Scan.readLine_of_blank _ _ hblank, Scan.readLine_of_blank _ _ hblank]
      rfl
    · have hstarts : StartsBlock raw :=
        ⟨hmarginOrBlank.resolve_right hblank, Bool.eq_false_iff.mpr hblank, hcomment⟩
      rw [← Scan.readLine_turnTo_closed _ _ hstarts]
      rfl

theorem scanLines_refusedBlock {front below back : List (List Char)} {head : List Char}
    {problem : Problem} (hhead : Refused head problem) (hbelow : ∀ raw ∈ below, Continues raw) :
    scanLines (front ++ head :: (below ++ back)) =
      scanLines front ++ refusedBlock (front.length + 1) problem below ++
        (scanBelowRefused back).shift (front.length + 1 + below.length) := by
  have hfront : scanLines front = (({} : Scan).readLines 1 front).result := rfl
  rw [hfront, scanLines, Scan.readLines_append, Scan.readLines_cons, Scan.readLines_append,
    Scan.readLine_of_refused _ hhead]
  generalize ({} : Scan).readLines 1 front = s
  have hbroken : (s.breakOff (1 + front.length) problem).block = .broken := s.turnTo_block .broken
  have hbehind : 1 + front.length + 1 + below.length = 1 + (front.length + 1 + below.length) := by
    omega
  rw [Scan.readLines_of_broken hbroken _ hbelow, hbehind, Scan.result_readLines_of_broken,
    Scan.result_refusedBlock, Nat.add_comm 1 front.length]
  exact hbroken

/-- A refused line and the lines that continue it add no directive, and let none grow. They
add the problem of the refused line, and one for each line below on which a string is not
closed, so that the problem of the refused line is the only one iff all strings are closed.
A line that does not continue them is read as the first of a ledger. -/
theorem scan_refusedBlock {source : String} {front below back : List (List Char)}
    {head : List Char} {problem : Problem}
    (hlines : sourceLines source.toList = front ++ head :: (below ++ back))
    (hhead : Refused head problem) (hbelow : ∀ raw ∈ below, Continues raw) :
    scan source = scanLines front ++ refusedBlock (front.length + 1) problem below ++
        (scanBelowRefused back).shift (front.length + 1 + below.length) ∧
      (refusedBlock (front.length + 1) problem below = ⟨[], [⟨front.length + 1, problem⟩]⟩ ↔
        ∀ raw ∈ below, Token.ofLine? raw ≠ none) ∧
      ((∀ raw ∈ back.head?, ¬ Continues raw) → scanBelowRefused back = scanLines back) := by
  refine ⟨?_, ?_, scanBelowRefused_eq_scanLines⟩
  · rw [scan, hlines, scanLines_refusedBlock hhead hbelow]
  · rw [← unclosedStrings_eq_nil_iff (front.length + 1 + 1)]
    simp [refusedBlock]

/-- A transaction with a date that does not exist, a comment in it, and a string that is not
closed, between two directives. -/
def unknownMonth : String :=
  "2024-01-01 open Assets:Cash\n2024-13-01 * \"Lunch\"\n  Assets:Cash -5 USD\n; paid\n" ++
    "  note: \"till\n\n2024-01-02 close Assets:Cash\n"

theorem scan_refusedBlock_unknownMonth :
    scan unknownMonth =
        scanLines ["2024-01-01 open Assets:Cash".toList] ++
          ⟨[], [⟨2, .invalidDate "2024-13-01"⟩, ⟨5, .unterminatedString⟩]⟩ ++
          (scanLines [[], "2024-01-02 close Assets:Cash".toList]).shift 5 ∧
      ((scan unknownMonth).directives.map fun d => (d.line, d.metadata)) = [(1, []), (7, [])] := by
  have hscan : scan unknownMonth =
      scanLines ["2024-01-01 open Assets:Cash".toList] ++
        ⟨[], [⟨2, .invalidDate "2024-13-01"⟩, ⟨5, .unterminatedString⟩]⟩ ++
        (scanLines [[], "2024-01-02 close Assets:Cash".toList]).shift 5 := by
    let front := ["2024-01-01 open Assets:Cash".toList]
    let below := ["  Assets:Cash -5 USD".toList, "; paid".toList, "  note: \"till".toList]
    let back := [[], "2024-01-02 close Assets:Cash".toList]
    have hlines : sourceLines unknownMonth.toList =
        front ++ "2024-13-01 * \"Lunch\"".toList :: (below ++ back) := by decide +kernel
    have hbelow : ∀ raw ∈ below, Continues raw := by decide +kernel
    have hhead : Refused "2024-13-01 * \"Lunch\"".toList (.invalidDate "2024-13-01") :=
      ⟨by decide +kernel, by decide +kernel⟩
    obtain ⟨heq, -, hback⟩ := scan_refusedBlock hlines hhead hbelow
    have hproblems : refusedBlock (front.length + 1) (.invalidDate "2024-13-01") below =
        ⟨[], [⟨2, .invalidDate "2024-13-01"⟩, ⟨5, .unterminatedString⟩]⟩ := by decide +kernel
    rw [heq, hproblems, hback (by decide +kernel)]
    rfl
  exact ⟨hscan, by rw [hscan]; decide +kernel⟩

/-- A line below a refused one is refused too. -/
theorem problems_unclosedNote :
    Refused "2024-13-01 open Assets:Cash".toList (.invalidDate "2024-13-01") ∧
      Continues "  note: \"till".toList ∧
      (scan "2024-13-01 open Assets:Cash\n  note: \"till\n").problems =
        [⟨1, .invalidDate "2024-13-01"⟩, ⟨2, .unterminatedString⟩] :=
  ⟨⟨by decide +kernel, by decide +kernel⟩, by decide +kernel, by decide +kernel⟩

end LedgerConformance.Ledger
