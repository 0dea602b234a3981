import LedgerConformance.Proofs.Query.Grammar
import LedgerConformance.Proofs.Query.Layouts

/-!
Statements are read back from their texts. A text of a statement spells its keywords and
columns in any letter case and lays its tokens out in any way, with blanks around it and
semicolons behind it. Every statement that a query can make has such a text, and each of its
texts is read as this statement and no other.
-/

namespace LedgerConformance.Query

namespace Token

/-- A word is a spelling of every word that differs in letter case only, and any token is one
of itself. -/
inductive IsSpelling : Token → Token → Prop
  | word {w v : String} : w.toUpper = v.toUpper → IsSpelling (word w) (word v)
  | same (t : Token) : IsSpelling t t

theorem isSpelling_of_chars {w v : String}
    (h : w.toList.map Char.toUpper = v.toList.map Char.toUpper) :
    IsSpelling (word w) (word v) := by
  refine .word (String.toList_inj.mp ?_)
  rw [Text.toList_toUpper, Text.toList_toUpper, h]

theorem isSpelling_word_iff {t : Token} {v : String} :
    IsSpelling t (.word v) ↔ ∃ w, t = .word w ∧ w.toUpper = v.toUpper := by
  constructor
  · rintro (hw | _)
    · exact ⟨_, rfl, hw⟩
    · exact ⟨v, rfl, rfl⟩
  · rintro ⟨w, rfl, hw⟩
    exact .word hw

/-- A keyword is written in capitals where it is named. -/
theorem IsSpelling.exists_keyword {t : Token} {v : String} (h : IsSpelling t (.word v))
    (hv : v.toUpper = v) : ∃ w, t = .word w ∧ w.toUpper = v := by
  obtain ⟨w, rfl, hw⟩ := isSpelling_word_iff.mp h
  exact ⟨w, rfl, hw.trans hv⟩

theorem IsSpelling.eq {t u : Token} (h : IsSpelling t u) (hu : u.isWord = false) : t = u := by
  cases h with
  | word => contradiction
  | same => rfl

theorem isName_of_toUpper_eq {w v : String} (h : w.toUpper = v.toUpper) (hv : IsName v) :
    IsName w := by
  have hchars : w.toList.map Char.toUpper = v.toList.map Char.toUpper := by
    rw [← Text.toList_toUpper, ← Text.toList_toUpper, h]
  constructor
  · intro hnil
    rw [hnil, List.map_nil, eq_comm, List.map_eq_nil_iff] at hchars
    exact hv.ne_nil hchars
  · intro c hc
    have hmem : c.toUpper ∈ v.toList.map Char.toUpper := hchars ▸ List.mem_map_of_mem hc
    obtain ⟨d, hd, hsame⟩ := List.mem_map.mp hmem
    exact Text.isAlphanum_of_toUpper_eq hsame (hv.isAlphanum d hd)

theorem IsSpelling.isWritable {t u : Token} (h : IsSpelling t u) (hu : u.IsWritable) :
    t.IsWritable := by
  cases h with
  | word hw => exact isName_of_toUpper_eq hw hu
  | same => exact hu

theorem isWritable_of_spellings {tokens others : List Token}
    (h : List.Forall₂ IsSpelling tokens others) (hothers : ∀ t ∈ others, t.IsWritable) :
    ∀ t ∈ tokens, t.IsWritable := by
  induction h with
  | nil => exact hothers
  | cons ht _ ih =>
    obtain ⟨hother, hothers⟩ := List.forall_mem_cons.mp hothers
    exact List.forall_mem_cons.mpr ⟨ht.isWritable hother, ih hothers⟩

/-- Spellings of two rows of tokens are spellings of the one and then of the other. -/
theorem exists_append_of_spellings {tokens front back : List Token}
    (h : List.Forall₂ IsSpelling tokens (front ++ back)) :
    ∃ left right, tokens = left ++ right ∧ List.Forall₂ IsSpelling left front ∧
      List.Forall₂ IsSpelling right back :=
  ⟨tokens.take front.length, tokens.drop front.length, (List.take_append_drop _ _).symm,
    List.forall₂_take_append _ _ _ h, List.forall₂_drop_append _ _ _ h⟩

end Token

namespace Statement

open Token

/-! ### Other spellings of the tokens of a statement -/

theorem isDistinct_of_spellings {distinct : Bool} {tokens : List Token}
    (h : List.Forall₂ IsSpelling tokens (if distinct then [.word "DISTINCT"] else [])) :
    IsDistinct tokens distinct := by
  cases distinct with
  | false =>
    cases h
    exact .no
  | true =>
    obtain _ | ⟨hmark, hnil⟩ := h
    cases hnil
    obtain ⟨w, rfl, hw⟩ := hmark.exists_keyword (by decide +kernel)
    exact .yes hw

theorem isItem_of_spelling {t : Token} {c : Column} (h : IsSpelling t (.word c.name)) :
    IsItem t [c] := by
  obtain ⟨w, rfl, hw⟩ := isSpelling_word_iff.mp h
  exact .column (Column.upper_name_eq_iff.mp hw.symm)

theorem isSelectList_of_spellings {columns : List Column} (hne : columns ≠ [])
    {tokens : List Token} (h : List.Forall₂ IsSpelling tokens (columnTokens columns)) :
    IsSelectList tokens columns := by
  induction columns using columnTokens.induct generalizing tokens with
  | case1 => contradiction
  | case2 c =>
    obtain _ | ⟨hitem, hnil⟩ := h
    cases hnil
    exact .last (isItem_of_spelling hitem)
  | case3 c rest hrest ih =>
    rw [columnTokens.eq_3 c rest hrest] at h
    obtain _ | ⟨hitem, h⟩ := h
    obtain _ | ⟨hcomma, h⟩ := h
    rw [hcomma.eq rfl]
    exact .more (isItem_of_spelling hitem) (ih hrest h)

/-- The tokens of a condition. -/
def conditionTokens (filter : Column × String) : List Token :=
  [.word filter.1.name, .equals, .literal filter.2]

theorem isCondition_of_spellings {filter : Column × String} {tokens : List Token}
    (h : List.Forall₂ IsSpelling tokens (conditionTokens filter)) :
    IsCondition tokens filter := by
  obtain _ | ⟨hcolumn, h⟩ := h
  obtain _ | ⟨hequals, h⟩ := h
  obtain _ | ⟨hliteral, hnil⟩ := h
  cases hnil
  obtain ⟨w, rfl, hw⟩ := isSpelling_word_iff.mp hcolumn
  rw [hequals.eq rfl, hliteral.eq rfl]
  exact .equals filter.2 (Column.upper_name_eq_iff.mp hw.symm)

/-- A first condition behind its keyword, and the tokens of the others. -/
theorem exists_condition_of_spellings {keyword : String} (hkeyword : keyword.toUpper = keyword)
    {filter : Column × String} {filters : List (Column × String)} {tokens : List Token}
    (h : List.Forall₂ IsSpelling tokens (filterTokens keyword (filter :: filters))) :
    ∃ w condition rest, tokens = .word w :: (condition ++ rest) ∧ w.toUpper = keyword ∧
      IsCondition condition filter ∧ List.Forall₂ IsSpelling rest (filterTokens "AND" filters) := by
  obtain _ | ⟨hfirst, h⟩ := h
  obtain ⟨w, rfl, hw⟩ := hfirst.exists_keyword hkeyword
  have hsplit : List.Forall₂ IsSpelling _
      (conditionTokens filter ++ filterTokens "AND" filters) := h
  obtain ⟨condition, rest, rfl, hcondition, hrest⟩ := exists_append_of_spellings hsplit
  exact ⟨w, condition, rest, rfl, hw, isCondition_of_spellings hcondition, hrest⟩

/-- Conditions behind a keyword. -/
theorem areConditions_of_spellings {keyword : String} (hkeyword : keyword.toUpper = keyword)
    {filter : Column × String} {filters : List (Column × String)} {tokens : List Token}
    (h : List.Forall₂ IsSpelling tokens (filterTokens keyword (filter :: filters))) :
    ∃ w conditions, tokens = .word w :: conditions ∧ w.toUpper = keyword ∧
      AreConditions conditions (filter :: filters) := by
  induction filters generalizing keyword filter tokens with
  | nil =>
    obtain ⟨w, condition, rest, rfl, hw, hcondition, hnil⟩ :=
      exists_condition_of_spellings hkeyword h
    cases hnil
    rw [List.append_nil]
    exact ⟨w, condition, rfl, hw, .last hcondition⟩
  | cons next filters ih =>
    obtain ⟨w, condition, rest, rfl, hw, hcondition, hrest⟩ :=
      exists_condition_of_spellings hkeyword h
    obtain ⟨and, conditions, rfl, hand, hconditions⟩ := ih (by decide +kernel) hrest
    exact ⟨w, _, rfl, hw, .more hcondition hand hconditions⟩

theorem exists_filters_of_spellings {filters : List (Column × String)} {tokens rest : List Token}
    (h : List.Forall₂ IsSpelling tokens (filterTokens "WHERE" filters)) {cs : List Clause}
    (hrest : AreClauses rest cs) :
    ∃ all, AreClauses (tokens ++ rest) all ∧ filtersOf all = filters ++ filtersOf cs ∧
      limitOf all = limitOf cs := by
  cases filters with
  | nil =>
    cases h
    exact ⟨cs, hrest, rfl, rfl⟩
  | cons filter filters =>
    obtain ⟨w, conditions, rfl, hw, hconditions⟩ :=
      areConditions_of_spellings (by decide +kernel) h
    exact ⟨.filters (filter :: filters) :: cs, .more (.filters hw hconditions) hrest, rfl, rfl⟩

theorem isNumeral_toString (n : Nat) : IsNumeral (toString n) n := by
  have hdigits : (toString n).toList = Nat.toDigits 10 n := Nat.toList_repr
  rw [IsNumeral, hdigits]
  refine ⟨Nat.toDigits_ne_nil, ?_, (Nat.ofDigitChars_ten_toDigits).symm⟩
  intro c hc
  exact Nat.isDigit_of_mem_toDigits (by omega) (by omega) hc

theorem exists_limit_of_spellings {limit : Option Nat} {tokens : List Token}
    (h : List.Forall₂ IsSpelling tokens (limitTokens limit))
    (hlimit : ∀ n ∈ limit, n < 0x10000000000000000) :
    ∃ cs, AreClauses tokens cs ∧ filtersOf cs = [] ∧ limitOf cs = limit := by
  cases limit with
  | none =>
    cases h
    exact ⟨[], .none, rfl, rfl⟩
  | some n =>
    obtain _ | ⟨hkeyword, h⟩ := h
    obtain _ | ⟨hnumber, hnil⟩ := h
    cases hnil
    obtain ⟨w, rfl, hw⟩ := hkeyword.exists_keyword (by decide +kernel)
    obtain ⟨digits, rfl, hsame⟩ := isSpelling_word_iff.mp hnumber
    have hnumeral := isNumeral_toString n
    have heq : toString n = digits := by
      rw [← String.toList_inj, Text.toList_toUpper, Text.toList_toUpper] at hsame
      exact String.toList_inj.mp (Text.eq_of_map_toUpper_eq_of_isDigit hsame.symm hnumeral.2.1)
    rw [heq] at hnumeral
    have hclause := IsClause.limit hw hnumeral (hlimit n rfl)
    exact ⟨[.limit n], .more hclause .none, rfl, rfl⟩

/-- Tokens that spell those of a statement are of the language, and they say this statement. -/
theorem isStatement_of_spellings {s : Statement} (hcolumns : s.columns ≠ [])
    (hlimit : ∀ n ∈ s.limit, n < 0x10000000000000000) {tokens : List Token}
    (h : List.Forall₂ IsSpelling tokens s.tokens) : IsStatement tokens s := by
  obtain ⟨before, limit, rfl, hbefore, hlimitTokens⟩ := exists_append_of_spellings h
  obtain ⟨before, filters, rfl, hbefore, hfilterTokens⟩ := exists_append_of_spellings hbefore
  obtain ⟨front, items, rfl, hfront, hitems⟩ := exists_append_of_spellings hbefore
  obtain _ | ⟨hselect, hmark⟩ := hfront
  obtain ⟨w, rfl, hw⟩ := hselect.exists_keyword (by decide +kernel)
  obtain ⟨last, hlast, hnone, hlastLimit⟩ := exists_limit_of_spellings hlimitTokens hlimit
  obtain ⟨cs, hcs, hfilters, hlimits⟩ := exists_filters_of_spellings hfilterTokens hlast
  have hstatement := IsStatement.select hw (isDistinct_of_spellings hmark)
    (isSelectList_of_spellings hcolumns hitems) hcs
  rw [hfilters, hnone, List.append_nil, hlimits, hlastLimit] at hstatement
  rw [List.append_assoc]
  exact hstatement

/-! ### Texts of a statement -/

/-- Each literal lacks one of the two quotes. -/
def IsQuotable (s : Statement) : Prop :=
  ∀ filter ∈ s.filters, '\'' ∉ filter.2.toList ∨ '"' ∉ filter.2.toList

/-- How a query may write a statement: the tokens in any spelling and layout, blanks around
them, and any number of semicolons behind them. -/
def IsText (s : Statement) (query : String) : Prop :=
  ∃ tokens before text gap semicolons after,
    List.Forall₂ IsSpelling tokens s.tokens ∧ AreText tokens text ∧ IsGap before ∧ IsGap gap ∧
      (∀ c ∈ semicolons, c = ';') ∧ IsGap after ∧
      query.toList = before ++ text ++ gap ++ semicolons ++ after

theorem isName_columnName (c : Column) : IsName c.name := by
  cases c <;> decide

theorem isWritable_columnTokens (columns : List Column) :
    ∀ t ∈ columnTokens columns, t.IsWritable := by
  induction columns using columnTokens.induct with
  | case1 => exact List.forall_mem_nil _
  | case2 c => exact List.forall_mem_singleton.mpr (isName_columnName c)
  | case3 c rest hrest ih =>
    rw [columnTokens.eq_3 c rest hrest, List.forall_mem_cons, List.forall_mem_cons]
    exact ⟨isName_columnName c, trivial, ih⟩

theorem isWritable_filterTokens {keyword : String} (hkeyword : IsName keyword)
    {filters : List (Column × String)}
    (h : ∀ filter ∈ filters, '\'' ∉ filter.2.toList ∨ '"' ∉ filter.2.toList) :
    ∀ t ∈ filterTokens keyword filters, t.IsWritable := by
  induction filters generalizing keyword with
  | nil => exact List.forall_mem_nil _
  | cons filter filters ih =>
    obtain ⟨hfilter, h⟩ := List.forall_mem_cons.mp h
    simp only [filterTokens, List.forall_mem_cons]
    exact ⟨hkeyword, isName_columnName _, trivial, hfilter, ih (by decide) h⟩

theorem isWritable_limitTokens (limit : Option Nat) :
    ∀ t ∈ limitTokens limit, t.IsWritable := by
  cases limit with
  | none => exact List.forall_mem_nil _
  | some n =>
    obtain ⟨hne, hdigits, -⟩ := isNumeral_toString n
    have hkeyword : IsName "LIMIT" := by decide
    have hnumber : IsName (toString n) :=
      ⟨hne, fun c hc => Text.isAlphanum_of_isDigit (hdigits c hc)⟩
    simp only [limitTokens, List.forall_mem_cons]
    exact ⟨hkeyword, hnumber, List.forall_mem_nil _⟩

theorem IsQuotable.isWritable {s : Statement} (h : s.IsQuotable) :
    ∀ t ∈ s.tokens, t.IsWritable := by
  have hselect : IsName "SELECT" := by decide
  have hmark : ∀ t ∈ (if s.distinct then [Token.word "DISTINCT"] else []), t.IsWritable := by
    cases s.distinct with
    | false => exact List.forall_mem_nil _
    | true =>
      have hname : IsName "DISTINCT" := by decide
      exact List.forall_mem_singleton.mpr hname
  rw [tokens, List.forall_mem_append, List.forall_mem_append, List.forall_mem_append]
  exact ⟨⟨⟨List.forall_mem_cons.mpr ⟨hselect, hmark⟩, isWritable_columnTokens _⟩,
    isWritable_filterTokens (by decide) h⟩, isWritable_limitTokens _⟩

/-- A statement whose literals can be quoted has a text, which is its printed form, and each of
its texts is read as this statement. -/
theorem parse_reads_statements (s : Statement) (hcolumns : s.columns ≠ [])
    (hlimit : ∀ n ∈ s.limit, n < 0x10000000000000000) (hliterals : s.IsQuotable) :
    s.IsText s.render ∧ ∀ query, s.IsText query → Statement.parse query = .ok s := by
  constructor
  · have htext := areText_writeAll (List.cons_ne_nil _ _) hliterals.isWritable
    refine ⟨s.tokens, [], writeAll s.tokens, [], [], [], ?_, htext, isGap_nil, isGap_nil,
      List.forall_mem_nil _, isGap_nil, ?_⟩
    · exact List.forall₂_same.mpr fun t _ => .same t
    · simp [render]
  · rintro query ⟨tokens, before, text, gap, semicolons, after, hspelling, htext, hbefore, hgap,
      hsemicolons, hafter, hquery⟩
    have hwritable := isWritable_of_spellings hspelling hliterals.isWritable
    refine parse_eq_ok_iff.mpr ⟨tokens, ?_, isStatement_of_spellings hcolumns hlimit hspelling⟩
    exact htext.ofQuery_eq hwritable hbefore hgap hsemicolons hafter hquery

/-- A condition on a literal that holds a semicolon and a clause. -/
def restrained : Statement where
  distinct := true
  columns := [.payee]
  filters := [(.payee, ";\n\"LIMIT\" 1;")]
  limit := some 18446744073709551615

def restrainedQuery : String :=
  " Select distinct Payee\nwhere PAYEE= ';\n\"LIMIT\" 1;'limit 18446744073709551615 ;;\n"

def restrainedTokens : List Token :=
  [.word "Select", .word "distinct", .word "Payee", .word "where", .word "PAYEE", .equals,
    .literal ";\n\"LIMIT\" 1;", .word "limit", .word "18446744073709551615"]

theorem tokens_restrained : restrained.tokens =
    [.word "SELECT", .word "DISTINCT", .word "payee", .word "WHERE", .word "payee", .equals,
      .literal ";\n\"LIMIT\" 1;", .word "LIMIT", .word "18446744073709551615"] := by
  decide +kernel

theorem spellings_restrainedTokens :
    List.Forall₂ IsSpelling restrainedTokens restrained.tokens := by
  rw [tokens_restrained]
  refine .cons (isSpelling_of_chars ?_) <| .cons (isSpelling_of_chars ?_) <|
    .cons (isSpelling_of_chars ?_) <| .cons (isSpelling_of_chars ?_) <|
    .cons (isSpelling_of_chars ?_) <| .cons (.same _) <| .cons (.same _) <|
    .cons (isSpelling_of_chars ?_) <| .cons (.same _) .nil
  all_goals decide +kernel

theorem isText_restrainedQuery : restrained.IsText restrainedQuery := by
  have hspace : IsGap [' '] := isGap_singleton rfl
  have hfeed : IsGap ['\n'] := isGap_singleton rfl
  have htext : AreText restrainedTokens _ :=
    .more (.word "Select") hspace (fun _ => List.cons_ne_nil _ _) <|
    .more (.word "distinct") hspace (fun _ => List.cons_ne_nil _ _) <|
    .more (.word "Payee") hfeed (fun _ => List.cons_ne_nil _ _) <|
    .more (.word "where") hspace (fun _ => List.cons_ne_nil _ _) <|
    .more (.word "PAYEE") isGap_nil (fun h => nomatch h.2) <|
    .more .equals hspace (fun _ => List.cons_ne_nil _ _) <|
    .more (.literal (.inl rfl) (by decide)) isGap_nil (fun h => nomatch h.1) <|
    .more (.word "limit") hspace (fun _ => List.cons_ne_nil _ _) <|
    .last (.word "18446744073709551615")
  exact ⟨restrainedTokens, [' '], _, [' '], [';', ';'], ['\n'], spellings_restrainedTokens, htext,
    hspace, hspace, by simp, hfeed, by decide +kernel⟩

theorem parse_reads_statements_clauseInLiteral :
    restrained.columns ≠ [] ∧ (∀ n ∈ restrained.limit, n < 0x10000000000000000) ∧
      restrained.IsQuotable ∧ restrained.IsText restrainedQuery ∧
      Statement.parse restrainedQuery = .ok restrained := by
  have hcolumns : restrained.columns ≠ [] := by decide
  have hlimit : ∀ n ∈ restrained.limit, n < 0x10000000000000000 := by decide
  have hliterals : restrained.IsQuotable := List.forall_mem_singleton.mpr (.inl (by decide))
  exact ⟨hcolumns, hlimit, hliterals, isText_restrainedQuery,
    (parse_reads_statements restrained hcolumns hlimit hliterals).2 _ isText_restrainedQuery⟩

end Statement

end LedgerConformance.Query
