import LedgerConformance.Proofs.Benchmark.Accounts
import LedgerConformance.Proofs.Calendar.DateText
import LedgerConformance.Proofs.Ledger.Reading

/-!
The lines of a generated ledger as directives. An amount is a number, names and
texts need no escapes, and a line with two blanks before its amount is read as
one with a single blank; so a generated transaction contains one directive.
-/

namespace LedgerConformance.Benchmark

open Ledger Token

/-- A text that stands between quotes as it is. -/
def IsUnescaped (s : String) : Prop := ∀ c ∈ s.toList, c ≠ '"' ∧ c ≠ '\\' ∧ c ≠ '\n'

instance (s : String) : Decidable (IsUnescaped s) :=
  decidable_of_iff (s.toList.all (fun c => c != '"' && c != '\\' && c != '\n') = true)
    (by simp [IsUnescaped, and_assoc])

theorem IsUnescaped.isOneLine {s : String} (h : IsUnescaped s) : IsOneLine s :=
  fun hmem => (h '\n' hmem).2.2 rfl

theorem IsUnescaped.append {s t : String} (hs : IsUnescaped s) (ht : IsUnescaped t) :
    IsUnescaped (s ++ t) := by
  intro c hc
  rw [String.toList_append, List.mem_append] at hc
  exact hc.elim (hs c) (ht c)

theorem escaped_eq_self {s : List Char} (h : ∀ c ∈ s, c ≠ '"' ∧ c ≠ '\\') : escaped s = s := by
  induction s with
  | nil => rfl
  | cons c rest ih =>
    obtain ⟨hquote, hslash⟩ := h c List.mem_cons_self
    have hrest := ih fun d hd => h d (List.mem_cons_of_mem c hd)
    simp [escaped, hquote, hslash, hrest]

theorem IsUnescaped.escaped_eq {s : String} (h : IsUnescaped s) : escaped s.toList = s.toList :=
  escaped_eq_self fun c hc => ⟨(h c hc).1, (h c hc).2.1⟩

theorem dropSign_of_isDigit {first : Char} (h : first.isDigit = true) (rest : List Char) :
    dropSign (first :: rest) = first :: rest := by
  unfold dropSign
  split
  · rename_i heq
    obtain ⟨rfl, -⟩ := List.cons.inj heq
    exact absurd h (by decide)
  · rename_i heq
    obtain ⟨rfl, -⟩ := List.cons.inj heq
    exact absurd h (by decide)
  · rfl

/-- Digits, a point and digits are a number. -/
theorem isNumber_of_digits {whole decimals : List Char} (hne : whole ≠ [])
    (hwhole : ∀ c ∈ whole, c.isDigit = true) (hdecimals : ∀ c ∈ decimals, c.isDigit = true)
    {s : String} (hs : s.toList = whole ++ '.' :: decimals) : isNumber s = true := by
  obtain ⟨first, rest, rfl⟩ := List.exists_cons_of_ne_nil hne
  have hfirst := hwhole first List.mem_cons_self
  have hbody : dropSign s.toList = first :: rest ++ '.' :: decimals := by
    rw [hs, List.cons_append, dropSign_of_isDigit hfirst]
  have hpoint : ∀ c ∈ first :: rest, (c != '.') = true := by
    intro c hc
    rw [bne_iff_ne]
    rintro rfl
    exact absurd (hwhole '.' hc) (by decide)
  have htake : (dropSign s.toList).takeWhile (· != '.') = first :: rest := by
    rw [hbody, List.takeWhile_append_of_pos hpoint]
    simp
  have hdrop : (dropSign s.toList).dropWhile (· != '.') = '.' :: decimals := by
    rw [hbody, List.dropWhile_append_of_pos hpoint]
    simp
  simp only [isNumber, htake, hdrop, List.drop_one, List.tail_cons, Bool.and_eq_true,
    List.all_eq_true, Bool.or_eq_true]
  exact ⟨⟨hfirst, fun c hc => Or.inl (hwhole c (List.mem_cons_of_mem first hc))⟩, hdecimals⟩

/-- An amount of cents is a number. -/
theorem isNumber_centsText (n : Nat) : isNumber (centsText n) = true := by
  have htext : (centsText n).toList =
      Nat.toDigits 10 (n / 100) ++ '.' :: (Date.padded 2 (n % 100)).toList := by
    simp [centsText]
  exact isNumber_of_digits Nat.toDigits_ne_nil (fun c hc => isDigit_of_mem_toDigits_ten hc)
    (fun c hc => Date.isDigit_of_mem_padded hc) htext

section AmountLine

variable {account number currency : String}

/-- An indented line with an account and, behind two blanks, an amount. -/
def amountLine (account number currency : String) : String :=
  "  " ++ account ++ "  " ++ number ++ " " ++ currency

theorem toList_amountLine : (amountLine account number currency).toList =
    ' ' :: ' ' :: (account.toList ++ ' ' :: ' ' :: (number.toList ++ ' ' :: currency.toList)) := by
  simp [amountLine]

/-- One blank more does not change what a posting says. -/
theorem readAlike_amountLine (haccount : isAccount account = true)
    (hnumber : isNumber number = true) (hcurrency : isCurrency currency = true) :
    ReadAlike (amountLine account number currency).toList
      (Directive.indent (writeAll [word account, word number, word currency])) := by
  have hplain : ∀ t ∈ [word account, word number, word currency], t.Plain := by
    simp only [List.forall_mem_cons]
    exact ⟨plain_account haccount, plain_number hnumber, plain_currency hcurrency, by simp⟩
  apply readAlike_of_indented (List.cons_ne_nil _ _) _ (Scan.ofLine?_indent _ hplain) _ rfl
  · have hblank : Text.isBlank ' ' = true := rfl
    rw [toList_amountLine, ofLine?, readFrom_gap_blank hblank, readFrom_gap_blank hblank]
    have haccount' := readFrom_gap_write_blank (plain_account haccount) hblank
    have hnumber' := readFrom_gap_write_blank (plain_number hnumber) hblank
    have hcurrency' := readFrom_gap_write (plain_currency hcurrency)
    rw [write] at haccount' hnumber' hcurrency'
    rw [haccount', readFrom_gap_blank hblank, hnumber', hcurrency']
    rfl
  · rw [toList_amountLine]
    rfl

theorem amountLine_intact (haccount : isAccount account = true)
    (hnumber : isNumber number = true) (hcurrency : isCurrency currency = true) :
    IsIntact (amountLine account number currency).toList := by
  have hfeed : ∀ {w : String}, (word w).Plain → '\n' ∉ w.toList := by
    intro w ⟨_, hchars, _⟩ hmem
    exact absurd (hchars '\n' hmem).1 (by decide)
  obtain ⟨c, hc, hblank⟩ := getLast?_write (plain_currency hcurrency)
  rw [write] at hc
  rw [toList_amountLine]
  refine ⟨?_, ?_⟩
  · simp [hfeed (plain_account haccount), hfeed (plain_number hnumber),
      hfeed (plain_currency hcurrency)]
  · simp only [List.getLast?_cons, List.getLast?_append, hc]
    rintro ⟨rfl⟩
    exact absurd hblank (by decide)

end AmountLine

/-- A transaction with an amount on one account and the rest on another. -/
structure IsBalanced (d : Directive) (account number currency balancing : String) : Prop where
  wellFormed : d.WellFormed
  postings : d.postings =
    [⟨0, none, account, some number, some currency⟩, ⟨0, none, balancing, none, none⟩]

theorem IsBalanced.prints {d : Directive} {account number currency balancing : String}
    (h : IsBalanced d account number currency balancing) {front : List String}
    (hfront : front.map String.toList = writeAll d.headTokens :: d.metadata.map fun entry =>
      Directive.indent (writeAll (Directive.metadataTokens entry))) :
    Prints (front ++ [amountLine account number currency, "  " ++ balancing, ""]) [d] := by
  have hposting := h.wellFormed.postings
  rw [h.postings] at hposting
  simp only [List.forall_mem_cons, List.not_mem_nil] at hposting
  obtain ⟨hamount, hrest, _⟩ := hposting
  have haccount := hamount.account
  have hnumber := hamount.number number rfl
  have hcurrency := hamount.currency currency rfl
  have hlines : d.lines = front.map String.toList ++
      Directive.indent (writeAll [word account, word number, word currency]) ::
        [("  " ++ balancing).toList, []] := by
    rw [Directive.lines, h.postings, hfront]
    simp [Posting.tokens, Directive.indent, writeAll, write]
  have hcontain := contain_directive h.wellFormed
  have hintact := h.wellFormed.lines_intact
  rw [hlines] at hcontain hintact
  refine ⟨?_, ?_⟩
  · rw [List.map_append]
    exact hcontain.replace (readAlike_amountLine haccount hnumber hcurrency)
  · intro line hline
    simp only [List.mem_append, List.mem_cons, List.not_mem_nil, or_false] at hline
    rcases hline with hmem | rfl | rfl | rfl
    · exact hintact _ (List.mem_append_left _ (List.mem_map_of_mem hmem))
    · exact amountLine_intact haccount hnumber hcurrency
    · exact hintact _ (by simp)
    · exact Prints.blank.intact _ (by simp)

/-- Small forms of ASCII characters. -/
theorem mem_lowerFrom {before rest : List Char} (hascii : ∀ c ∈ rest, c.toNat < 0x80) {c : Char}
    (hc : c ∈ Text.lowerFrom before rest) : ∃ d ∈ rest, c = d.toLower := by
  induction rest generalizing before with
  | nil => simp [Text.lowerFrom] at hc
  | cons d rest ih =>
    have hd := hascii d List.mem_cons_self
    have hsigma : (d == 'Σ') = false := by
      rw [beq_eq_false_iff_ne]
      rintro rfl
      exact absurd hd (by decide)
    have hsmall : Text.lowerFrom before (d :: rest) =
        d.toLower :: Text.lowerFrom (d :: before) rest := by
      simp [Text.lowerFrom, hsigma, Text.smallForm, hd]
    rw [hsmall] at hc
    rcases List.mem_cons.mp hc with rfl | hmem
    · exact ⟨d, List.mem_cons_self, rfl⟩
    · obtain ⟨e, he, heq⟩ := ih (fun e he => hascii e (List.mem_cons_of_mem d he)) hmem
      exact ⟨e, List.mem_cons_of_mem d he, heq⟩

theorem isAlphanum_toLower {c : Char} (h : c.isAlphanum = true) :
    c.toLower.isAlphanum = true := by
  have hascii : ∀ n < 0x80, (Char.ofNat n).isAlphanum = true →
      (Char.ofNat n).toLower.isAlphanum = true := by decide
  have hrange := Text.isAlphanum_iff.mp h
  have hc := hascii c.toNat (by omega)
  rw [Char.ofNat_toNat] at hc
  exact hc h

theorem isUnescaped_categoryOf {account : String} (h : isAccount account = true) :
    IsUnescaped (categoryOf account) := by
  have hchars : ∀ c ∈ Text.afterLast ':' account.toList, c.isAlphanum = true ∨ c ∈ [':', '-'] := by
    intro c hc
    refine isAccount_chars h ?_
    rw [Text.afterLast, List.mem_reverse] at hc
    exact List.mem_reverse.mp ((List.takeWhile_sublist _).subset hc)
  have hascii : ∀ c ∈ Text.afterLast ':' account.toList, c.toNat < 0x80 := by
    intro c hc
    rcases hchars c hc with halnum | hmark
    · have hrange := Text.isAlphanum_iff.mp halnum
      omega
    · simp only [List.mem_cons, List.not_mem_nil, or_false] at hmark
      rcases hmark with rfl | rfl <;> decide
  intro c hc
  rw [categoryOf, Text.lower, String.toList_ofList, String.toList_ofList] at hc
  obtain ⟨d, hd, rfl⟩ := mem_lowerFrom hascii hc
  rcases hchars d hd with halnum | hmark
  · have hlower := isAlphanum_toLower halnum
    refine ⟨?_, ?_, ?_⟩ <;> intro heq <;> rw [heq] at hlower <;> exact absurd hlower (by decide)
  · simp only [List.mem_cons, List.not_mem_nil, or_false] at hmark
    rcases hmark with rfl | rfl <;> decide

/-- What a scan finds of a transaction, apart from the line numbers. -/
def Transaction.directive (t : Transaction) : Directive :=
  { line := 0, date := t.date, content := .transaction t.flag (some t.payee) (some t.narration)
    metadata := t.category.toList.map fun c => ("category", c)
    postings := [⟨0, none, t.account, some (centsText t.cents), some t.currency⟩,
      ⟨0, none, t.balancing, none, none⟩] }

/-- A transaction whose lines can be read. -/
structure Transaction.Printable (t : Transaction) : Prop where
  date : t.date.Valid
  year : 0 ≤ t.date.year ∧ t.date.year ≤ 9999
  flag : t.flag ∈ flagMarks
  payee : IsUnescaped t.payee
  narration : IsUnescaped t.narration
  category : ∀ c ∈ t.category, IsUnescaped c
  account : isAccount t.account = true
  currency : isCurrency t.currency = true
  balancing : isAccount t.balancing = true

namespace Transaction.Printable

variable {t : Transaction}

theorem isBalanced (h : t.Printable) :
    IsBalanced t.directive t.account (centsText t.cents) t.currency t.balancing := by
  refine ⟨⟨h.date, h.year, ?_, ?_, fun _ => rfl, ?_⟩, rfl⟩
  · refine ⟨h.flag, fun _ => rfl, ?_, ?_⟩
    · rintro _ ⟨rfl⟩
      exact h.payee.isOneLine
    · rintro _ ⟨rfl⟩
      exact h.narration.isOneLine
  · simp only [directive, List.forall_mem_cons]
    refine ⟨⟨by simp, h.account, ?_, ?_, fun _ => rfl⟩, ⟨by simp, h.balancing, by simp, by simp,
      by simp⟩, by simp⟩
    · rintro _ ⟨rfl⟩
      exact isNumber_centsText t.cents
    · rintro _ ⟨rfl⟩
      exact h.currency
  · have hkey : isMetadataKey "category".toList = true := by decide
    intro entry hentry
    obtain ⟨c, hc, rfl⟩ := List.mem_map.mp hentry
    exact ⟨hkey, (h.category c (Option.mem_toList.mp hc)).isOneLine⟩

/-- The lines of a transaction contain its directive. -/
theorem prints (h : t.Printable) : Prints (t.lines ++ [""]) [t.directive] := by
  have hlines : t.lines ++ [""] =
      ((t.date.toText ++ " " ++ String.singleton t.flag ++ " \"" ++ t.payee ++ "\" \"" ++
          t.narration ++ "\"") ::
        (t.category.map fun c => "  category: \"" ++ c ++ "\"").toList) ++
      [amountLine t.account (centsText t.cents) t.currency, "  " ++ t.balancing, ""] := by
    simp [Transaction.lines, amountLine]
  rw [hlines]
  apply h.isBalanced.prints
  have hhead : (t.date.toText ++ " " ++ String.singleton t.flag ++ " \"" ++ t.payee ++
      "\" \"" ++ t.narration ++ "\"").toList = writeAll t.directive.headTokens := by
    have htokens : t.directive.headTokens =
        [word t.date.toText, word (String.singleton t.flag), text t.payee, text t.narration] := rfl
    simp [htokens, writeAll, h.payee.escaped_eq, h.narration.escaped_eq, write, List.intercalate]
  have hcategory : (t.category.map fun c => "  category: \"" ++ c ++ "\"").toList.map
      String.toList = t.directive.metadata.map fun entry =>
        Directive.indent (writeAll (Directive.metadataTokens entry)) := by
    cases hc : t.category with
    | none => simp [directive, hc]
    | some c =>
      have htext := (h.category c hc).escaped_eq
      simp [directive, hc, writeAll, Directive.metadataTokens, htext, write, List.intercalate,
        Directive.indent]
  rw [List.map_cons, hhead, hcategory]

end Transaction.Printable

end LedgerConformance.Benchmark
