import LedgerConformance.Proofs.Ledger.WellFormed
import LedgerConformance.Proofs.Steps

/-!
What accepted lines hold. The tokens of a line are made of its characters, and a
reader that takes a token as an account, a currency, a number or a string has
looked at its class. So a directive, a metadata entry and a posting that are read
from one line are well formed, whatever else the line holds.
-/

namespace LedgerConformance.Ledger

namespace Token

/-- What the reader of a line has of the token that it is in. -/
def Place.begun : Place → List Char
  | .gap => []
  | .inWord read | .inText read | .afterBackslash read => read

/-- A token that is ended by a character was begun before it; the others come from
the rest of the line. -/
theorem mem_begun_or_rest {ended t : Token} {read rest : List Char} {d c : Char}
    {found : Option (List Token)} {tokens : List Token}
    (hended : ended.content = String.ofList read.reverse)
    (hfound : ∀ {others}, found = some others → t ∈ others → c ∈ rest)
    (h : found.map (ended :: ·) = some tokens) (ht : t ∈ tokens) (hc : c ∈ t.content.toList) :
    c ∈ read ∨ c ∈ d :: rest := by
  obtain ⟨others, hothers, rfl⟩ := Option.map_eq_some_iff.mp h
  rcases List.mem_cons.mp ht with rfl | ht
  · rw [hended, String.toList_ofList, List.mem_reverse] at hc
    exact Or.inl hc
  · exact Or.inr (List.mem_cons_of_mem d (hfound hothers ht))

/-- Tokens are made of the characters of their line. -/
theorem mem_of_readFrom {place : Place} {line : List Char} {tokens : List Token}
    (h : readFrom place line = some tokens) {t : Token} (ht : t ∈ tokens) {c : Char}
    (hc : c ∈ t.content.toList) : c ∈ place.begun ∨ c ∈ line := by
  fun_induction readFrom place line generalizing tokens with
  | case6 read =>
    cases h
    rw [List.mem_singleton.mp ht] at hc
    exact Or.inl (by simpa [content, Place.begun] using hc)
  -- A blank or a quote ends the token that the reader is in.
  | case7 read d rest _ ih =>
    exact mem_begun_or_rest rfl (fun h ht => by simpa [Place.begun] using ih h ht) h ht hc
  | case8 read d rest _ _ ih =>
    exact mem_begun_or_rest rfl (fun h ht => by simpa [Place.begun] using ih h ht) h ht hc
  | case11 read d rest _ ih =>
    exact mem_begun_or_rest rfl (fun h ht => by simpa [Place.begun] using ih h ht) h ht hc
  -- Elsewhere there is no token, or its characters come from the rest of the line.
  | _ => grind [Place.begun]

theorem isOneLine_of_ofLine? {line : List Char} {tokens : List Token} (hline : '\n' ∉ line)
    (h : ofLine? line = some tokens) : ∀ t ∈ tokens, IsOneLine t.content := by
  intro t ht hfeed
  rcases mem_of_readFrom h ht hfeed with hbegun | hmem
  · simp [Place.begun] at hbegun
  · exact hline hmem

end Token

section Arguments

variable {args : List Token} {i : Nat}

/-- A word that is taken at an argument position belongs to its class. -/
theorem isOfClass_of_wordAt {isOfClass : String → Bool} {invalid : String → Problem}
    {missing : Problem} {w : String} (h : wordAt isOfClass invalid missing args i = .ok w) :
    isOfClass w = true := by
  unfold wordAt at h
  split at h
  · split at h
    · cases h
      assumption
    · cases h
  · cases h

theorem isAccount_of_accountAt {w : String} (h : accountAt args i = .ok w) :
    isAccount w = true :=
  isOfClass_of_wordAt h

theorem isCurrency_of_currencyAt {w : String} (h : currencyAt args i = .ok w) :
    isCurrency w = true :=
  isOfClass_of_wordAt h

theorem isNumber_of_numberAt {w : String} (h : numberAt args i = .ok w) :
    isNumber w = true :=
  isOfClass_of_wordAt h

theorem mem_of_stringAt {keyword s : String} (h : stringAt keyword args i = .ok s) :
    .text s ∈ args := by
  unfold stringAt at h
  split at h
  · rename_i found hfound
    cases h
    exact List.mem_of_getElem? hfound
  · cases h

theorem isCurrency_of_currenciesAt {currencies : List String}
    (h : currenciesAt args i = .ok currencies) : ∀ c ∈ currencies, isCurrency c = true := by
  unfold currenciesAt at h
  split at h
  · simp only at h
    split at h
    · cases h
    · rename_i hnone
      cases h
      intro c hc
      have hgood := List.find?_eq_none.mp hnone c hc
      simpa using hgood
  · cases h
    simp

theorem mem_of_headerStrings {strings : List String} (h : headerStrings args = .ok strings) :
    ∀ s ∈ strings, .text s ∈ args := by
  induction args generalizing strings with
  | nil =>
    cases h
    simp
  | cons t rest ih =>
    cases t with
    | text s =>
      simp only [headerStrings] at h
      cases hrest : headerStrings rest with
      | error problem => simp [hrest, Except.map] at h
      | ok others =>
        simp only [hrest, Except.map, Except.ok.injEq] at h
        subst h
        intro found hfound
        rcases List.mem_cons.mp hfound with rfl | hfound
        · exact List.mem_cons_self
        · exact List.mem_cons_of_mem _ (ih hrest found hfound)
    | word w =>
      simp only [headerStrings] at h
      split at h
      · intro found hfound
        exact List.mem_cons_of_mem _ (ih h found hfound)
      · cases h

end Arguments

variable {args : List Token}

theorem transactionHeader_wellFormed {flag : Char} {c : Content} (hflag : flag ∈ flagMarks)
    (hargs : ∀ t ∈ args, IsOneLine t.content) (h : transactionHeader flag args = .ok c) :
    c.WellFormed := by
  have hstrings : ∀ {strings}, headerStrings args = .ok strings →
      ∀ s ∈ strings, IsOneLine s := by
    intro strings hread s hs
    exact hargs _ (mem_of_headerStrings hread s hs)
  unfold transactionHeader at h
  split at h
  · cases h
  · cases h
    simp [Content.WellFormed, hflag]
  · rename_i narration hread
    cases h
    have hline := hstrings hread
    simp only [List.forall_mem_cons] at hline
    simp [Content.WellFormed, hflag, hline.1]
  · rename_i payee narration hread
    cases h
    have hline := hstrings hread
    simp only [List.forall_mem_cons] at hline
    simp [Content.WellFormed, hflag, hline.1, hline.2.1]
  · cases h

theorem contentOfKeyword_wellFormed {keyword : String} {c : Content}
    (hargs : ∀ t ∈ args, IsOneLine t.content) (h : contentOfKeyword keyword args = .ok c) :
    c.WellFormed := by
  have hstring : ∀ {keyword s i}, stringAt keyword args i = .ok s → IsOneLine s := by
    intro keyword s i hread
    exact hargs _ (mem_of_stringAt hread)
  unfold contentOfKeyword at h
  split at h
  -- open
  · obtain ⟨account, haccount, h⟩ := exists_of_bind_eq_ok h
    obtain ⟨currencies, hcurrencies, h⟩ := exists_of_bind_eq_ok h
    cases h
    exact ⟨isAccount_of_accountAt haccount, isCurrency_of_currenciesAt hcurrencies⟩
  -- close
  · obtain ⟨account, haccount, h⟩ := exists_of_bind_eq_ok h
    cases h
    exact isAccount_of_accountAt haccount
  -- commodity
  · obtain ⟨currency, hcurrency, h⟩ := exists_of_bind_eq_ok h
    cases h
    exact isCurrency_of_currencyAt hcurrency
  -- balance
  · obtain ⟨account, haccount, h⟩ := exists_of_bind_eq_ok h
    obtain ⟨number, hnumber, h⟩ := exists_of_bind_eq_ok h
    obtain ⟨currency, hcurrency, h⟩ := exists_of_bind_eq_ok h
    cases h
    exact ⟨isAccount_of_accountAt haccount, isNumber_of_numberAt hnumber,
      isCurrency_of_currencyAt hcurrency⟩
  -- pad
  · obtain ⟨account, haccount, h⟩ := exists_of_bind_eq_ok h
    obtain ⟨source, hsource, h⟩ := exists_of_bind_eq_ok h
    cases h
    exact ⟨isAccount_of_accountAt haccount, isAccount_of_accountAt hsource⟩
  -- note
  · obtain ⟨account, haccount, h⟩ := exists_of_bind_eq_ok h
    obtain ⟨comment, hcomment, h⟩ := exists_of_bind_eq_ok h
    cases h
    exact ⟨isAccount_of_accountAt haccount, hstring hcomment⟩
  -- document
  · obtain ⟨account, haccount, h⟩ := exists_of_bind_eq_ok h
    obtain ⟨path, hpath, h⟩ := exists_of_bind_eq_ok h
    cases h
    exact ⟨isAccount_of_accountAt haccount, hstring hpath⟩
  -- event
  · obtain ⟨name, hname, h⟩ := exists_of_bind_eq_ok h
    obtain ⟨value, hvalue, h⟩ := exists_of_bind_eq_ok h
    cases h
    exact ⟨hstring hname, hstring hvalue⟩
  -- query
  · obtain ⟨name, hname, h⟩ := exists_of_bind_eq_ok h
    obtain ⟨statement, hstatement, h⟩ := exists_of_bind_eq_ok h
    cases h
    exact ⟨hstring hname, hstring hstatement⟩
  -- price
  · obtain ⟨currency, hcurrency, h⟩ := exists_of_bind_eq_ok h
    obtain ⟨number, hnumber, h⟩ := exists_of_bind_eq_ok h
    obtain ⟨quote, hquote, h⟩ := exists_of_bind_eq_ok h
    cases h
    exact ⟨isCurrency_of_currencyAt hcurrency, isNumber_of_numberAt hnumber,
      isCurrency_of_currencyAt hquote⟩
  -- custom
  · obtain ⟨name, hname, h⟩ := exists_of_bind_eq_ok h
    cases h
    exact hstring hname
  · cases h

theorem mem_flagMarks_of_flagOf? {word : String} {flag : Char} (h : flagOf? word = some flag) :
    flag ∈ flagMarks := by
  unfold flagOf? at h
  split at h
  · split at h
    · rename_i hmark
      cases h
      simpa using hmark
    · cases h
  · cases h

/-- A directive that is read from a line is well formed, with nothing below its head. -/
theorem Directive.wellFormed_of_ofTokens {line : Nat} {date : String} {d : Directive}
    (hargs : ∀ t ∈ args, IsOneLine t.content) (h : ofTokens line date args = .ok d) :
    d.WellFormed ∧ d.line = line ∧ d.postings = [] := by
  unfold ofTokens at h
  split at h
  · cases h
  · rename_i day hday
    obtain ⟨hvalid, hyear⟩ := Date.valid_of_ofText? hday
    split at h
    · cases h
    · cases h
    · rename_i keyword rest
      have hrest : ∀ t ∈ rest, IsOneLine t.content :=
        fun t ht => hargs t (List.mem_cons_of_mem _ ht)
      obtain ⟨content, hcontent, h⟩ := exists_of_bind_eq_ok h
      cases h
      have hwell : content.WellFormed := by
        split at hcontent
        · exact transactionHeader_wellFormed (by decide) hrest hcontent
        · split at hcontent
          · rename_i flag hflag
            exact transactionHeader_wellFormed (mem_flagMarks_of_flagOf? hflag) hrest hcontent
          · exact contentOfKeyword_wellFormed hrest hcontent
      exact ⟨⟨hvalid, hyear, hwell, by simp, by simp, by simp⟩, rfl, rfl⟩

theorem mem_flagMarks_of_splitPostingFlag {flag : Char}
    (h : (splitPostingFlag args).1 = some flag) : flag ∈ flagMarks := by
  unfold splitPostingFlag at h
  split at h
  · split at h
    · rename_i found hfound
      cases h
      exact mem_flagMarks_of_flagOf? hfound
    · cases h
  · cases h

/-- The number and the currency of a posting belong to their classes, and the
currency stands behind a number. -/
theorem wellFormed_of_postingAmount {number currency : Option String}
    (h : postingAmount args = .ok (number, currency)) :
    (∀ n ∈ number, isNumber n = true) ∧ (∀ c ∈ currency, isCurrency c = true) ∧
      (currency.isSome → number.isSome) := by
  unfold postingAmount at h
  split at h
  · cases h
    simp
  · cases h
  · rename_i w rest
    split at h
    · rename_i hnumber
      split at h
      · rename_i c _
        cases h
        by_cases hcurrency : isCurrency c = true
        · simp [hnumber, hcurrency]
        · simp [hnumber, hcurrency]
      · cases h
        simp [hnumber]
    · split at h
      · cases h
        simp
      · cases h

theorem Posting.wellFormed_of_ofTokens {line : Nat} {p : Posting}
    (h : ofTokens line args = .ok p) : p.WellFormed ∧ p.line = line := by
  obtain ⟨account, haccount, h⟩ := exists_of_bind_eq_ok h
  obtain ⟨⟨number, currency⟩, hread, h⟩ := exists_of_bind_eq_ok h
  cases h
  obtain ⟨hnumber, hcurrency, hamount⟩ := wellFormed_of_postingAmount hread
  refine ⟨⟨?_, isAccount_of_accountAt haccount, hnumber, hcurrency, hamount⟩, rfl⟩
  intro flag hflag
  exact mem_flagMarks_of_splitPostingFlag hflag

theorem isMetadataKey_of_metadataKeyOf? {word key : String} (h : metadataKeyOf? word = some key) :
    isMetadataKey key.toList = true := by
  unfold metadataKeyOf? at h
  split at h
  · simp only at h
    split at h
    · rename_i hkey
      cases h
      simpa using hkey
    · cases h
  · cases h

/-- Strings on one line are joined to one line. -/
theorem isOneLine_intercalate {strings : List String} (h : ∀ s ∈ strings, IsOneLine s) :
    IsOneLine (" ".intercalate strings) := by
  induction strings with
  | nil => simp [IsOneLine]
  | cons first rest ih =>
    simp only [List.forall_mem_cons] at h
    cases rest with
    | nil => simpa using h.1
    | cons second rest =>
      have htext : (" ".intercalate (first :: second :: rest)).toList =
          first.toList ++ ' ' :: (" ".intercalate (second :: rest)).toList := by
        simp [String.intercalate_cons_cons]
      intro hfeed
      rw [htext, List.mem_append, List.mem_cons] at hfeed
      rcases hfeed with hfeed | hfeed | hfeed
      · exact h.1 hfeed
      · exact absurd hfeed (by decide)
      · exact ih h.2 hfeed

theorem Scan.wellFormed_of_metadataOf? {first : Token} {rest : List Token}
    {entry : String × String} (hrest : ∀ t ∈ rest, IsOneLine t.content)
    (h : metadataOf? first rest = some entry) :
    isMetadataKey entry.1.toList = true ∧ IsOneLine entry.2 := by
  cases first with
  | word w =>
    obtain ⟨key, hkey, rfl⟩ := Option.map_eq_some_iff.mp h
    refine ⟨isMetadataKey_of_metadataKeyOf? hkey, isOneLine_intercalate ?_⟩
    intro s hs
    obtain ⟨t, ht, rfl⟩ := List.mem_map.mp hs
    exact hrest t ht
  | text s => cases h

end LedgerConformance.Ledger
