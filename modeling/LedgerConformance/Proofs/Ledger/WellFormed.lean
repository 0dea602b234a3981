import LedgerConformance.Ledger.Scan
import LedgerConformance.Proofs.Ledger.WordClasses

/-!
Directives that can be written as a ledger. Their words belong to the word
classes, their strings stand on one line, and only transactions have postings.
Each line of such a directive is a line of plain tokens, and what the tokens
say is the directive: its head, a metadata entry or a posting.
-/

namespace LedgerConformance.Ledger

open Token

/-- A string without a line feed. -/
def IsOneLine (s : String) : Prop := '\n' ∉ s.toList

instance (s : String) : Decidable (IsOneLine s) := inferInstanceAs (Decidable (_ ∉ _))

/-- Words of their classes and strings on one line; a payee only together with
a narration. -/
def Content.WellFormed : Content → Prop
  | .transaction flag payee narration =>
    flag ∈ flagMarks ∧ (payee.isSome → narration.isSome) ∧
      (∀ s ∈ payee, IsOneLine s) ∧ ∀ s ∈ narration, IsOneLine s
  | .opening account currencies => isAccount account ∧ ∀ c ∈ currencies, isCurrency c
  | .closing account => isAccount account
  | .commodity currency => isCurrency currency
  | .balance account number currency =>
    isAccount account ∧ isNumber number ∧ isCurrency currency
  | .pad account source => isAccount account ∧ isAccount source
  | .note account comment => isAccount account ∧ IsOneLine comment
  | .document account path => isAccount account ∧ IsOneLine path
  | .event name value => IsOneLine name ∧ IsOneLine value
  | .query name statement => IsOneLine name ∧ IsOneLine statement
  | .price currency number quote => isCurrency currency ∧ isNumber number ∧ isCurrency quote
  | .custom name => IsOneLine name

/-- A posting with words of their classes; a currency only together with a number. -/
structure Posting.WellFormed (p : Posting) : Prop where
  flag : ∀ f ∈ p.flag, f ∈ flagMarks
  account : isAccount p.account
  number : ∀ n ∈ p.number, isNumber n
  currency : ∀ c ∈ p.currency, isCurrency c
  amount : p.currency.isSome → p.number.isSome

/-- A directive that can be written; the year has four digits. -/
structure Directive.WellFormed (d : Directive) : Prop where
  date : d.date.Valid
  year : 0 ≤ d.date.year ∧ d.date.year ≤ 9999
  content : d.content.WellFormed
  postings : ∀ p ∈ d.postings, p.WellFormed
  onTransaction : d.postings ≠ [] → d.content.isTransaction
  metadata : ∀ entry ∈ d.metadata, isMetadataKey entry.1.toList ∧ IsOneLine entry.2

instance : (c : Content) → Decidable c.WellFormed
  | .transaction flag payee narration =>
    inferInstanceAs (Decidable (flag ∈ flagMarks ∧ (payee.isSome → narration.isSome) ∧
      (∀ s ∈ payee, IsOneLine s) ∧ ∀ s ∈ narration, IsOneLine s))
  | .opening account currencies =>
    inferInstanceAs (Decidable (isAccount account ∧ ∀ c ∈ currencies, isCurrency c))
  | .closing account => inferInstanceAs (Decidable (isAccount account))
  | .commodity currency => inferInstanceAs (Decidable (isCurrency currency))
  | .balance .. | .pad .. | .note .. | .document .. | .event .. | .query .. | .price .. =>
    inferInstanceAs (Decidable (_ ∧ _))
  | .custom name => inferInstanceAs (Decidable (IsOneLine name))

instance (p : Posting) : Decidable p.WellFormed :=
  decidable_of_iff
    (p.flag.all (· ∈ flagMarks) ∧ isAccount p.account ∧ (∀ n ∈ p.number, isNumber n) ∧
      (∀ c ∈ p.currency, isCurrency c) ∧ (p.currency.isSome → p.number.isSome))
    ⟨fun ⟨flag, account, number, currency, amount⟩ =>
        ⟨by simpa [Option.all_eq_true] using flag, account, number, currency, amount⟩,
      fun h => ⟨by simpa [Option.all_eq_true] using h.flag, h.account, h.number, h.currency,
        h.amount⟩⟩

instance (d : Directive) : Decidable d.WellFormed :=
  decidable_of_iff
    (d.date.Valid ∧ (0 ≤ d.date.year ∧ d.date.year ≤ 9999) ∧ d.content.WellFormed ∧
      (∀ p ∈ d.postings, p.WellFormed) ∧ (d.postings ≠ [] → d.content.isTransaction) ∧
      ∀ entry ∈ d.metadata, isMetadataKey entry.1.toList ∧ IsOneLine entry.2)
    ⟨fun ⟨date, year, content, postings, onTransaction, metadata⟩ =>
        ⟨date, year, content, postings, onTransaction, metadata⟩,
      fun h => ⟨h.date, h.year, h.content, h.postings, h.onTransaction, h.metadata⟩⟩

/-- The word of currencies that are joined by commas. -/
theorem plain_currencies {currencies : List String} (hne : currencies ≠ [])
    (h : ∀ c ∈ currencies, isCurrency c) : (word (",".intercalate currencies)).Plain := by
  induction currencies with
  | nil => contradiction
  | cons first rest ih =>
    have hfirst := plain_currency (h first List.mem_cons_self)
    cases rest with
    | nil => simpa using hfirst
    | cons second rest =>
      obtain ⟨hnil, hchars, hhead⟩ := hfirst
      obtain ⟨_, hothers, _⟩ := ih (by simp) fun c hc => h c (List.mem_cons_of_mem _ hc)
      have htext : (",".intercalate (first :: second :: rest)).toList =
          first.toList ++ ',' :: (",".intercalate (second :: rest)).toList := by
        simp [String.intercalate_cons_cons]
      refine ⟨by simp [hnil], ?_, ?_⟩
      · intro c hc
        rw [htext, List.mem_append, List.mem_cons] at hc
        rcases hc with hc | rfl | hc
        · exact hchars c hc
        · decide
        · exact hothers c hc
      · obtain ⟨c, others, hcons⟩ := List.exists_cons_of_ne_nil hnil
        simpa [htext, hcons] using hhead

theorem currenciesAt_intercalate {currencies : List String} (hne : currencies ≠ [])
    (h : ∀ c ∈ currencies, isCurrency c) (first : Token) :
    currenciesAt [first, word (",".intercalate currencies)] 1 = .ok currencies := by
  have hpieces : (",".intercalate currencies).toList.splitOn ',' =
      currencies.map String.toList := by
    rw [String.toList_intercalate]
    apply List.splitOn_intercalate
    · intro piece hpiece
      obtain ⟨c, hc, rfl⟩ := List.mem_map.mp hpiece
      exact comma_not_mem_currency (h c hc)
    · simpa using hne
  have hkept : (currencies.map String.toList).filter (! ·.isEmpty) =
      currencies.map String.toList := by
    rw [List.filter_eq_self]
    intro piece hpiece
    obtain ⟨c, hc, rfl⟩ := List.mem_map.mp hpiece
    simpa using (isCurrency_shape (h c hc)).1
  have hback : (currencies.map String.toList).map String.ofList = currencies := by
    simp [List.map_map, Function.comp_def]
  have hgood : currencies.find? (! isCurrency ·) = none := by
    rw [List.find?_eq_none]
    intro c hc
    simp [h c hc]
  simp only [currenciesAt, List.getElem?_cons_succ, List.getElem?_cons_zero,
    Text.splitOnChar_eq_splitOn, hpieces, hkept, hback, hgood]

/-- The words that name directives. -/
def keywords : List String :=
  ["open", "close", "commodity", "balance", "pad", "note", "document", "event", "query",
    "price", "custom"]

theorem plain_keyword {k : String} (h : k ∈ keywords) : (word k).Plain := by
  have hink : keywords.all (fun k => !k.toList.isEmpty && k.toList.all isInk) = true := by decide
  have hk := List.all_eq_true.mp hink k h
  rw [Bool.and_eq_true] at hk
  exact IsPlainWord.of_ink (by simpa using hk.1) (List.all_eq_true.mp hk.2)

theorem Content.WellFormed.onOneLine {c : Content} (h : c.WellFormed) :
    ∀ t ∈ c.tokens, t.OnOneLine := by
  cases c with
  | transaction flag payee narration =>
    obtain ⟨hflag, _, hpayee, hnarration⟩ := h
    simp only [Content.tokens, List.forall_mem_cons]
    refine ⟨plain_flag hflag, ?_⟩
    intro t ht
    obtain ⟨s, hs, rfl⟩ := List.mem_map.mp ht
    rcases List.mem_append.mp hs with hs | hs
    · exact hpayee s (Option.mem_toList.mp hs)
    · exact hnarration s (Option.mem_toList.mp hs)
  | opening account currencies =>
    cases currencies with
    | nil =>
      simp only [Content.tokens, List.forall_mem_cons]
      exact ⟨plain_keyword (by decide), plain_account h.1, by simp⟩
    | cons first rest =>
      simp only [Content.tokens, List.forall_mem_cons]
      exact ⟨plain_keyword (by decide), plain_account h.1, plain_currencies (by simp) h.2,
        by simp⟩
  | closing account =>
    simp only [Content.tokens, List.forall_mem_cons]
    exact ⟨plain_keyword (by decide), plain_account h, by simp⟩
  | commodity currency =>
    simp only [Content.tokens, List.forall_mem_cons]
    exact ⟨plain_keyword (by decide), plain_currency h, by simp⟩
  | balance account number currency =>
    simp only [Content.tokens, List.forall_mem_cons]
    exact ⟨plain_keyword (by decide), plain_account h.1, plain_number h.2.1,
      plain_currency h.2.2, by simp⟩
  | pad account source =>
    simp only [Content.tokens, List.forall_mem_cons]
    exact ⟨plain_keyword (by decide), plain_account h.1, plain_account h.2, by simp⟩
  | note account comment =>
    simp only [Content.tokens, List.forall_mem_cons]
    exact ⟨plain_keyword (by decide), plain_account h.1, h.2, by simp⟩
  | document account path =>
    simp only [Content.tokens, List.forall_mem_cons]
    exact ⟨plain_keyword (by decide), plain_account h.1, h.2, by simp⟩
  | event name value =>
    simp only [Content.tokens, List.forall_mem_cons]
    exact ⟨plain_keyword (by decide), h.1, h.2, by simp⟩
  | query name statement =>
    simp only [Content.tokens, List.forall_mem_cons]
    exact ⟨plain_keyword (by decide), h.1, h.2, by simp⟩
  | price currency number quote =>
    simp only [Content.tokens, List.forall_mem_cons]
    exact ⟨plain_keyword (by decide), plain_currency h.1, plain_number h.2.1,
      plain_currency h.2.2, by simp⟩
  | custom name =>
    simp only [Content.tokens, List.forall_mem_cons]
    exact ⟨plain_keyword (by decide), h, by simp⟩

theorem headerStrings_texts (strings : List String) :
    headerStrings (strings.map text) = .ok strings := by
  induction strings with
  | nil => rfl
  | cons s rest ih => simp [headerStrings, ih, Except.map]

theorem transactionHeader_strings (flag : Char) {payee narration : Option String}
    (h : payee.isSome → narration.isSome) :
    transactionHeader flag ((payee.toList ++ narration.toList).map text) =
      .ok (.transaction flag payee narration) := by
  rw [transactionHeader, headerStrings_texts]
  cases payee with
  | none => cases narration <;> rfl
  | some p =>
    cases narration with
    | none => simp at h
    | some n => rfl

namespace Directive

/-- A date, a flag and the strings of a header make a transaction. -/
theorem ofTokens_flag {date : Date} (hdate : Date.ofText? date.toText = some date) (line : Nat)
    {flag : Char} (hflag : flag ∈ flagMarks) (args : List Token) {c : Content}
    (hheader : transactionHeader flag args = .ok c) :
    ofTokens line date.toText (word (String.singleton flag) :: args) =
      .ok { line, date, content := c } := by
  have htxn : (String.singleton flag == "txn") = false := by
    rw [beq_eq_false_iff_ne]
    intro heq
    simpa using congrArg (fun s => s.toList.length) heq
  simp only [ofTokens, hdate, htxn, flagOf?_singleton hflag, hheader]
  rfl

/-- A date, a keyword and its arguments make another directive. -/
theorem ofTokens_keyword {date : Date} (hdate : Date.ofText? date.toText = some date)
    (line : Nat) {keyword : String} (hkeyword : keyword ∈ keywords) (args : List Token)
    {c : Content} (hcontent : contentOfKeyword keyword args = .ok c) :
    ofTokens line date.toText (word keyword :: args) = .ok { line, date, content := c } := by
  have hplain : ∀ k ∈ keywords, (k == "txn") = false ∧ flagOf? k = none := by decide
  obtain ⟨htxn, hflag⟩ := hplain keyword hkeyword
  simp only [ofTokens, hdate, htxn, hflag, hcontent]
  rfl

/-- The tokens behind a date say what they were written for. -/
theorem ofTokens_content {date : Date} (hdate : Date.ofText? date.toText = some date)
    (line : Nat) {c : Content} (h : c.WellFormed) :
    ofTokens line date.toText c.tokens = .ok { line, date, content := c } := by
  cases c with
  | transaction flag payee narration =>
    exact ofTokens_flag hdate line h.1 _ (transactionHeader_strings flag h.2.1)
  | opening account currencies =>
    have haccount : isAccount account = true := h.1
    cases currencies with
    | nil =>
      refine ofTokens_keyword hdate line (by decide) _ ?_
      simp only [contentOfKeyword, wordAt, accountAt, List.getElem?_cons_zero, haccount]
      rfl
    | cons first rest =>
      refine ofTokens_keyword hdate line (by decide) _ ?_
      simp only [contentOfKeyword, wordAt, accountAt, List.getElem?_cons_zero, haccount]
      rw [currenciesAt_intercalate (by simp) h.2]
      rfl
  | closing account =>
    have haccount : isAccount account = true := h
    refine ofTokens_keyword hdate line (by decide) _ ?_
    simp only [contentOfKeyword, wordAt, accountAt, List.getElem?_cons_zero, haccount]
    rfl
  | commodity currency =>
    have hcurrency : isCurrency currency = true := h
    refine ofTokens_keyword hdate line (by decide) _ ?_
    simp only [contentOfKeyword, wordAt, currencyAt, List.getElem?_cons_zero, hcurrency]
    rfl
  | balance account number currency =>
    obtain ⟨haccount, hnumber, hcurrency⟩ := h
    refine ofTokens_keyword hdate line (by decide) _ ?_
    simp only [contentOfKeyword, wordAt, accountAt, numberAt, currencyAt, List.getElem?_cons_zero,
      List.getElem?_cons_succ, haccount, hnumber, hcurrency]
    rfl
  | pad account source =>
    obtain ⟨haccount, hsource⟩ := h
    refine ofTokens_keyword hdate line (by decide) _ ?_
    simp only [contentOfKeyword, wordAt, accountAt, List.getElem?_cons_zero,
      List.getElem?_cons_succ, haccount, hsource]
    rfl
  | note account comment =>
    have haccount : isAccount account = true := h.1
    refine ofTokens_keyword hdate line (by decide) _ ?_
    simp only [contentOfKeyword, wordAt, accountAt, List.getElem?_cons_zero, haccount]
    rfl
  | document account path =>
    have haccount : isAccount account = true := h.1
    refine ofTokens_keyword hdate line (by decide) _ ?_
    simp only [contentOfKeyword, wordAt, accountAt, List.getElem?_cons_zero, haccount]
    rfl
  | event name value => exact ofTokens_keyword hdate line (by decide) _ rfl
  | query name statement => exact ofTokens_keyword hdate line (by decide) _ rfl
  | price currency number quote =>
    obtain ⟨hcurrency, hnumber, hquote⟩ := h
    refine ofTokens_keyword hdate line (by decide) _ ?_
    simp only [contentOfKeyword, wordAt, numberAt, currencyAt, List.getElem?_cons_zero,
      List.getElem?_cons_succ, hcurrency, hnumber, hquote]
    rfl
  | custom name => exact ofTokens_keyword hdate line (by decide) _ rfl

end Directive

namespace Posting

/-- The tokens behind the flag of a posting. -/
def bodyTokens (p : Posting) : List Token :=
  (p.account :: (p.number.toList ++ p.currency.toList)).map word

theorem WellFormed.onOneLine {p : Posting} (h : p.WellFormed) : ∀ t ∈ p.tokens, t.OnOneLine := by
  intro t ht
  rcases List.mem_append.mp ht with ht | ht
  · obtain ⟨flag, hflag, rfl⟩ := List.mem_map.mp ht
    exact plain_flag (h.flag flag (Option.mem_toList.mp hflag))
  · obtain ⟨w, hw, rfl⟩ := List.mem_map.mp ht
    rcases List.mem_cons.mp hw with rfl | hw
    · exact plain_account h.account
    · rcases List.mem_append.mp hw with hw | hw
      · exact plain_number (h.number w (Option.mem_toList.mp hw))
      · exact plain_currency (h.currency w (Option.mem_toList.mp hw))

theorem splitPostingFlag_tokens {p : Posting} (h : p.WellFormed) :
    splitPostingFlag p.tokens = (p.flag, p.bodyTokens) := by
  have hbody : p.bodyTokens = word p.account :: (p.number.toList ++ p.currency.toList).map word :=
    rfl
  cases hflag : p.flag with
  | none =>
    have htokens : p.tokens = p.bodyTokens := by simp [tokens, bodyTokens, hflag]
    rw [htokens, hbody]
    cases (p.number.toList ++ p.currency.toList).map word with
    | nil => rfl
    | cons next rest => simp [splitPostingFlag, flagOf?_account h.account]
  | some flag =>
    have htokens : p.tokens = word (String.singleton flag) :: p.bodyTokens := by
      simp [tokens, bodyTokens, hflag]
    rw [htokens, hbody]
    simp [splitPostingFlag, flagOf?_singleton (h.flag flag hflag)]

theorem postingAmount_tokens {p : Posting} (h : p.WellFormed) :
    postingAmount (p.bodyTokens.drop 1) = .ok (p.number, p.currency) := by
  obtain ⟨line, flag, account, number, currency⟩ := p
  cases number with
  | none =>
    cases currency with
    | none => rfl
    | some c =>
      have hamount := h.amount rfl
      contradiction
  | some n =>
    have hnumber : isNumber n = true := h.number n rfl
    cases currency with
    | none => simp [bodyTokens, postingAmount, hnumber]
    | some c =>
      have hcurrency : isCurrency c = true := h.currency c rfl
      simp [bodyTokens, postingAmount, hnumber, hcurrency]

/-- The tokens of a posting say what they were written for. -/
theorem ofTokens_tokens {p : Posting} (h : p.WellFormed) (line : Nat) :
    ofTokens line p.tokens = .ok { p with line } := by
  have haccount : accountAt p.bodyTokens 0 = .ok p.account := by
    simp [bodyTokens, accountAt, wordAt, h.account]
  rw [ofTokens, splitPostingFlag_tokens h]
  simp only [haccount]
  change (postingAmount (p.bodyTokens.drop 1)).bind _ = _
  rw [postingAmount_tokens h]
  rfl

/-- The first token of a posting is a flag or an account, no metadata key. -/
theorem metadataOf?_tokens {p : Posting} (h : p.WellFormed) {first : Token} {rest : List Token}
    (htokens : p.tokens = first :: rest) : Scan.metadataOf? first rest = none := by
  cases hflag : p.flag with
  | none =>
    have hfirst : word p.account = first := by
      simp only [tokens, hflag] at htokens
      exact (List.cons.inj htokens).1
    simp [← hfirst, Scan.metadataOf?, metadataKeyOf?_account h.account]
  | some flag =>
    have hfirst : word (String.singleton flag) = first := by
      simp only [tokens, hflag] at htokens
      exact (List.cons.inj htokens).1
    simp [← hfirst, Scan.metadataOf?, metadataKeyOf?_flag (h.flag flag hflag)]

theorem all_isTagOrLink_tokens {p : Posting} (h : p.WellFormed) :
    p.tokens.all Scan.isTagOrLinkToken = false := by
  rw [List.all_eq_false]
  refine ⟨word p.account, by simp [tokens], ?_⟩
  simp [Scan.isTagOrLinkToken, isTagOrLink_account h.account]

end Posting

end LedgerConformance.Ledger
