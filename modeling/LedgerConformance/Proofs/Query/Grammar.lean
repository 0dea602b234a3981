import LedgerConformance.Proofs.Steps
import LedgerConformance.Proofs.Text.LetterCase
import LedgerConformance.Query.Statement
import Mathlib.Data.List.Induction

/-!
The language of queries. A statement is the word SELECT, possibly the word DISTINCT,
items with commas between them, and any number of clauses; words are written in any
letter case. A query is accepted exactly when its tokens are of this language, and it
then says what its derivation says. A query without tokens is refused as empty, and
no other one is.
-/

namespace LedgerConformance.Query

/-! ### The grammar -/

/-- An item of the select list and the columns that it stands for. -/
inductive IsItem : Token → List Column → Prop
  | all : IsItem .star [.date, .flag, .payee, .narration, .account, .number, .currency]
  | column {w : String} {c : Column} : w.toLower = c.name → IsItem (.word w) [c]

/-- Items with commas between them. -/
inductive IsSelectList : List Token → List Column → Prop
  | last {t : Token} {columns : List Column} : IsItem t columns → IsSelectList [t] columns
  | more {t : Token} {columns others : List Column} {tokens : List Token} :
    IsItem t columns → IsSelectList tokens others →
    IsSelectList (t :: .comma :: tokens) (columns ++ others)

inductive IsCondition : List Token → Column × String → Prop
  | equals {w : String} {c : Column} (value : String) :
    w.toLower = c.name → IsCondition [.word w, .equals, .literal value] (c, value)

/-- Conditions with the word AND between them. -/
inductive AreConditions : List Token → List (Column × String) → Prop
  | last {tokens : List Token} {filter : Column × String} :
    IsCondition tokens filter → AreConditions tokens [filter]
  | more {tokens rest : List Token} {filter : Column × String} {w : String}
    {filters : List (Column × String)} :
    IsCondition tokens filter → w.toUpper = "AND" → AreConditions rest filters →
    AreConditions (tokens ++ .word w :: rest) (filter :: filters)

/-- A word of decimal digits and its value. -/
def IsNumeral (w : String) (n : Nat) : Prop :=
  w.toList ≠ [] ∧ (∀ c ∈ w.toList, c.isDigit = true) ∧ n = Nat.ofDigitChars 10 w.toList 0

inductive Clause where
  | filters (conditions : List (Column × String))
  | limit (n : Nat)

inductive IsClause : List Token → Clause → Prop
  | filters {w : String} {tokens : List Token} {conditions : List (Column × String)} :
    w.toUpper = "WHERE" → AreConditions tokens conditions →
    IsClause (.word w :: tokens) (.filters conditions)
  | limit {w digits : String} {n : Nat} :
    w.toUpper = "LIMIT" → IsNumeral digits n → n < 0x10000000000000000 →
    IsClause [.word w, .word digits] (.limit n)

inductive AreClauses : List Token → List Clause → Prop
  | none : AreClauses [] []
  | more {tokens rest : List Token} {c : Clause} {cs : List Clause} :
    IsClause tokens c → AreClauses rest cs → AreClauses (tokens ++ rest) (c :: cs)

/-- The word DISTINCT or nothing. -/
inductive IsDistinct : List Token → Bool → Prop
  | no : IsDistinct [] false
  | yes {w : String} : w.toUpper = "DISTINCT" → IsDistinct [.word w] true

/-- The conditions of all clauses in order. -/
def filtersOf (cs : List Clause) : List (Column × String) :=
  cs.flatMap fun
    | .filters conditions => conditions
    | .limit _ => []

/-- The last of the limits. -/
def limitOf (cs : List Clause) : Option Nat :=
  (cs.filterMap fun
    | .filters _ => none
    | .limit n => some n).getLast?

/-- The tokens of a statement. All conditions of its clauses count, and the last limit. -/
inductive IsStatement : List Token → Statement → Prop
  | select {w : String} {mark items tokens : List Token} {distinct : Bool}
    {columns : List Column} {cs : List Clause} :
    w.toUpper = "SELECT" → IsDistinct mark distinct → IsSelectList items columns →
    AreClauses tokens cs →
    IsStatement (.word w :: mark ++ items ++ tokens) ⟨distinct, columns, filtersOf cs, limitOf cs⟩

/-! ### Words -/

theorem upper_eq (w : String) : upper w = w.toUpper := rfl

namespace Column

theorem mem_all (c : Column) : c ∈ all := by cases c <;> decide

theorem name_injective : Function.Injective name := by
  intro a b h
  cases a <;> cases b <;> first | rfl | contradiction

theorem upper_name_eq_iff {w : String} {c : Column} :
    upper c.name = upper w ↔ w.toLower = c.name := by
  have hname : c.name.toLower = c.name := by cases c <;> decide +kernel
  rw [upper_eq, upper_eq, Text.sameCapitals_iff, hname, eq_comm]

theorem ofWord_eq_ok_iff {w : String} {c : Column} : ofWord w = .ok c ↔ w.toLower = c.name := by
  unfold ofWord
  constructor
  · intro h
    split at h
    · rename_i found hfound
      cases h
      exact upper_name_eq_iff.mp (by simpa using List.find?_some hfound)
    · cases h
  · intro h
    have hsame : (upper c.name == upper w) = true := by
      rw [beq_iff_eq, upper_name_eq_iff]
      exact h
    cases hfound : all.find? fun c => upper c.name == upper w with
    | none =>
      rw [List.find?_eq_none] at hfound
      exact absurd hsame (hfound c c.mem_all)
    | some found =>
      have hfoundName := upper_name_eq_iff.mp (by simpa using List.find?_some hfound)
      rw [name_injective (hfoundName.symm.trans h)]

end Column

/-! ### Items -/

/-- What the reader of the list makes of one item. -/
def itemColumns : Token → Except Problem (List Column)
  | .star => .ok Column.all
  | .word w => (Column.ofWord w).map ([·])
  | other => .error (.noColumn (some other))

theorem itemColumns_eq_ok_iff {t : Token} {columns : List Column} :
    itemColumns t = .ok columns ↔ IsItem t columns := by
  constructor
  · intro h
    cases t with
    | star =>
      cases h
      exact .all
    | word w =>
      cases hword : Column.ofWord w with
      | error problem =>
        rw [itemColumns, hword] at h
        cases h
      | ok c =>
        rw [itemColumns, hword] at h
        cases h
        exact .column (Column.ofWord_eq_ok_iff.mp hword)
    | _ => cases h
  · intro h
    cases h with
    | all => rfl
    | column hname =>
      rw [itemColumns, Column.ofWord_eq_ok_iff.mpr hname]
      rfl

theorem selectList_comma (t : Token) (rest : List Token) :
    selectList (t :: .comma :: rest) = do
      let columns ← itemColumns t
      let (more, rest) ← selectList rest
      return (columns ++ more, rest) := by
  cases t <;> rfl

theorem selectList_last (t : Token) {rest : List Token} (h : rest.head? ≠ some .comma) :
    selectList (t :: rest) = do
      let columns ← itemColumns t
      return (columns, rest) := by
  cases rest with
  | nil => cases t <;> rfl
  | cons next rest =>
    cases next with
    | comma => exact absurd rfl h
    | _ => cases t <;> rfl

/-- The list that is read is as long as the commas make it. -/
theorem IsSelectList.selectList_eq {items rest : List Token} {columns : List Column}
    (h : IsSelectList items columns) (hrest : rest.head? ≠ some .comma) :
    selectList (items ++ rest) = .ok (columns, rest) := by
  induction h with
  | last hitem =>
    rw [List.singleton_append, selectList_last _ hrest, itemColumns_eq_ok_iff.mpr hitem]
    rfl
  | more hitem _ ih =>
    rw [List.cons_append, List.cons_append, selectList_comma, itemColumns_eq_ok_iff.mpr hitem, ih]
    rfl

theorem exists_isSelectList {tokens rest : List Token} {columns : List Column}
    (h : selectList tokens = .ok (columns, rest)) :
    ∃ items, tokens = items ++ rest ∧ IsSelectList items columns := by
  induction tokens using List.twoStepInduction generalizing columns with
  | nil => cases h
  | singleton t =>
    rw [selectList_last t (by simp)] at h
    obtain ⟨first, hitem, h⟩ := exists_of_bind_eq_ok h
    cases h
    exact ⟨[t], rfl, .last (itemColumns_eq_ok_iff.mp hitem)⟩
  | cons_cons t next tail ih _ =>
    by_cases hcomma : next = .comma
    · subst hcomma
      rw [selectList_comma] at h
      obtain ⟨first, hitem, h⟩ := exists_of_bind_eq_ok h
      obtain ⟨⟨others, left⟩, htail, h⟩ := exists_of_bind_eq_ok h
      cases h
      obtain ⟨items, rfl, hitems⟩ := ih htail
      exact ⟨t :: .comma :: items, rfl, .more (itemColumns_eq_ok_iff.mp hitem) hitems⟩
    · rw [selectList_last t (by simpa using hcomma)] at h
      obtain ⟨first, hitem, h⟩ := exists_of_bind_eq_ok h
      cases h
      exact ⟨[t], rfl, .last (itemColumns_eq_ok_iff.mp hitem)⟩

/-! ### Clauses -/

theorem limitOf?_eq (w : String) :
    limitOf? w = if w.toList.all Char.isDigit && !w.toList.isEmpty then
      if Nat.ofDigitChars 10 w.toList 0 < 0x10000000000000000 then
        some (Nat.ofDigitChars 10 w.toList 0)
      else none
    else none := rfl

theorem limitOf?_eq_some_iff {w : String} {n : Nat} :
    limitOf? w = some n ↔ IsNumeral w n ∧ n < 0x10000000000000000 := by
  have hdigits : (w.toList.all Char.isDigit && !w.toList.isEmpty) = true ↔
      w.toList ≠ [] ∧ ∀ c ∈ w.toList, c.isDigit = true := by
    simp [and_comm]
  rw [limitOf?_eq]
  unfold IsNumeral
  constructor
  · intro h
    split at h
    · rename_i hall
      obtain ⟨hsome, hall⟩ := hdigits.mp hall
      split at h
      · rename_i hsmall
        cases h
        exact ⟨⟨hsome, hall, rfl⟩, hsmall⟩
      · cases h
    · cases h
  · rintro ⟨⟨hsome, hall, rfl⟩, hsmall⟩
    rw [if_pos (hdigits.mpr ⟨hsome, hall⟩), if_pos hsmall]

/-- What some clauses say after others. -/
def Clauses.and (c : Clauses) (cs : List Clause) : Clauses :=
  { filters := c.filters ++ filtersOf cs, limit := (limitOf cs).or c.limit }

namespace Clauses

variable (c : Clauses)

theorem and_nil : c.and [] = c := by
  simp [Clauses.and, filtersOf, limitOf]

theorem and_filters (conditions : List (Column × String)) (cs : List Clause) :
    c.and (.filters conditions :: cs) =
      { c with filters := c.filters ++ conditions }.and cs := by
  simp [Clauses.and, filtersOf, limitOf]

theorem and_limit (n : Nat) (cs : List Clause) :
    c.and (.limit n :: cs) = { c with limit := some n }.and cs := by
  have hlast : limitOf (.limit n :: cs) = (limitOf cs).or (some n) := by
    simp [limitOf, List.getLast?_cons]
  simp [Clauses.and, filtersOf, hlast]

end Clauses

/-- What a query may go on with at a turn of its reader. -/
inductive Continues : Turn → List Token → List Clause → Prop
  | clauses (afterCondition : Bool) {tokens : List Token} {cs : List Clause} :
    AreClauses tokens cs → Continues (.clause afterCondition) tokens cs
  | conditions {tokens rest : List Token} {conditions : List (Column × String)}
    {cs : List Clause} : AreConditions tokens conditions → AreClauses rest cs →
    Continues .condition (tokens ++ rest) (.filters conditions :: cs)
  | and {w : String} {tokens : List Token} {cs : List Clause} :
    w.toUpper = "AND" → Continues .condition tokens cs →
    Continues (.clause true) (.word w :: tokens) cs

/-- A condition may stand alone or before others. -/
theorem Continues.condition {tokens rest : List Token} {filter : Column × String}
    {cs : List Clause} (hcondition : IsCondition tokens filter)
    (h : Continues (.clause true) rest cs) :
    ∃ all, Continues .condition (tokens ++ rest) all ∧
      ∀ c : Clauses, { c with filters := c.filters ++ [filter] }.and cs = c.and all := by
  cases h with
  | clauses _ hclauses =>
    exact ⟨_, .conditions (.last hcondition) hclauses, fun c => (c.and_filters _ _).symm⟩
  | and hand hmore =>
    cases hmore with
    | @conditions front rest others cs hothers hclauses =>
      refine ⟨.filters (filter :: others) :: cs, ?_, ?_⟩
      · have hall := Continues.conditions (.more hcondition hand hothers) hclauses
        rwa [List.append_assoc, List.cons_append] at hall
      · intro c
        simp [Clauses.and_filters]

theorem exists_continues {turn : Turn} {c said : Clauses} {tokens : List Token}
    (h : clauses turn c tokens = .ok said) :
    ∃ cs, Continues turn tokens cs ∧ said = c.and cs := by
  fun_induction clauses turn c tokens with
  | case1 => cases h
  | case2 c w value rest column hword ih =>
    obtain ⟨cs, hrest, rfl⟩ := ih h
    obtain ⟨all, hall, hsaid⟩ := hrest.condition (.equals value (Column.ofWord_eq_ok_iff.mp hword))
    exact ⟨all, hall, hsaid c⟩
  | case3 => cases h
  | case4 after c =>
    cases h
    exact ⟨[], .clauses after .none, (Clauses.and_nil _).symm⟩
  | case5 after c w rest hand ih =>
    obtain ⟨cs, hrest, rfl⟩ := ih h
    obtain ⟨rfl, hw⟩ := Bool.and_eq_true_iff.mp hand
    exact ⟨cs, .and (beq_iff_eq.mp hw) hrest, rfl⟩
  | case6 after c w rest _ hw ih =>
    obtain ⟨_, hrest, rfl⟩ := ih h
    cases hrest with
    | conditions hconditions hclauses =>
      have hclause := IsClause.filters (beq_iff_eq.mp hw) hconditions
      exact ⟨_, .clauses after (.more hclause hclauses), rfl⟩
  | case7 after c w _ _ hw digits rest limit hlimit ih =>
    obtain ⟨cs, hrest, rfl⟩ := ih h
    cases hrest with
    | clauses _ hclauses =>
      obtain ⟨hnumeral, hsmall⟩ := limitOf?_eq_some_iff.mp hlimit
      have hclause := IsClause.limit (beq_iff_eq.mp hw) hnumeral hsmall
      exact ⟨_, .clauses after (.more hclause hclauses), (c.and_limit limit cs).symm⟩
  | _ => cases h

section Turns

variable {w : String} {afterCondition : Bool} {c : Clauses} {rest : List Token}

theorem clauses_condition {tokens : List Token} {filter : Column × String}
    (h : IsCondition tokens filter) :
    clauses .condition c (tokens ++ rest) =
      clauses (.clause true) { c with filters := c.filters ++ [filter] } rest := by
  cases h with
  | equals value hname =>
    simp only [List.cons_append, List.nil_append, clauses]
    rw [Column.ofWord_eq_ok_iff.mpr hname]

theorem clauses_and (h : w.toUpper = "AND") :
    clauses (.clause true) c (.word w :: rest) = clauses .condition c rest := by
  rw [clauses.eq_def]
  simp [upper_eq, h]

theorem clauses_where (h : w.toUpper = "WHERE") :
    clauses (.clause afterCondition) c (.word w :: rest) = clauses .condition c rest := by
  rw [clauses.eq_def]
  simp [upper_eq, h]

theorem clauses_limit {digits : String} {n : Nat} (h : w.toUpper = "LIMIT")
    (hnumeral : IsNumeral digits n) (hsmall : n < 0x10000000000000000) :
    clauses (.clause afterCondition) c (.word w :: .word digits :: rest) =
      clauses (.clause false) { c with limit := some n } rest := by
  simp [clauses, upper_eq, h, limitOf?_eq_some_iff.mpr ⟨hnumeral, hsmall⟩]

end Turns

theorem AreConditions.clauses_eq {tokens : List Token} {conditions : List (Column × String)}
    (h : AreConditions tokens conditions) (c : Clauses) (rest : List Token) :
    clauses .condition c (tokens ++ rest) =
      clauses (.clause true) { c with filters := c.filters ++ conditions } rest := by
  induction h generalizing c with
  | last hcondition => exact clauses_condition hcondition
  | more hcondition hand _ ih =>
    rw [List.append_assoc, clauses_condition hcondition, List.cons_append, clauses_and hand, ih]
    simp

theorem AreClauses.clauses_eq {tokens : List Token} {cs : List Clause} (h : AreClauses tokens cs)
    (afterCondition : Bool) (c : Clauses) :
    clauses (.clause afterCondition) c tokens = .ok (c.and cs) := by
  induction h generalizing afterCondition c with
  | none =>
    rw [Clauses.and_nil]
    rfl
  | more hclause _ ih =>
    cases hclause with
    | filters hwhere hconditions =>
      rw [List.cons_append, clauses_where hwhere, hconditions.clauses_eq, ih, Clauses.and_filters]
    | limit hlimit hnumeral hsmall =>
      rw [List.cons_append, List.cons_append, List.nil_append,
        clauses_limit hlimit hnumeral hsmall, ih, Clauses.and_limit]

theorem clauses_eq_ok_iff {tokens : List Token} {said : Clauses} :
    clauses (.clause false) {} tokens = .ok said ↔
      ∃ cs, AreClauses tokens cs ∧ said = ⟨filtersOf cs, limitOf cs⟩ := by
  have hempty : ∀ cs, ({} : Clauses).and cs = ⟨filtersOf cs, limitOf cs⟩ := by
    intro cs
    simp [Clauses.and]
  constructor
  · intro h
    obtain ⟨cs, hcontinues, rfl⟩ := exists_continues h
    cases hcontinues with
    | clauses _ hclauses => exact ⟨cs, hclauses, hempty cs⟩
  · rintro ⟨cs, hclauses, rfl⟩
    rw [hclauses.clauses_eq, hempty]

/-! ### Statements -/

/-- Neither a clause nor the end of a query goes on with the list of items. -/
theorem AreClauses.head?_ne_comma {tokens : List Token} {cs : List Clause}
    (h : AreClauses tokens cs) : tokens.head? ≠ some .comma := by
  cases h with
  | none => simp
  | more hclause _ => cases hclause <;> simp

/-- What stands before the items, and the tokens from the items on. -/
def distinctMark (tokens : List Token) : Bool × List Token :=
  match tokens with
  | .word w :: rest => if upper w == "DISTINCT" then (true, rest) else (false, tokens)
  | _ => (false, tokens)

theorem selectBody_eq (tokens : List Token) :
    selectBody tokens = do
      let (columns, rest) ← selectList (distinctMark tokens).2
      let c ← clauses (.clause false) {} rest
      return ⟨(distinctMark tokens).1, columns, c.filters, c.limit⟩ := by
  rfl

theorem exists_isDistinct (tokens : List Token) :
    ∃ mark, tokens = mark ++ (distinctMark tokens).2 ∧ IsDistinct mark (distinctMark tokens).1 := by
  unfold distinctMark
  split
  · rename_i w rest
    by_cases hw : upper w = "DISTINCT"
    · rw [if_pos (beq_iff_eq.mpr hw)]
      exact ⟨[.word w], rfl, .yes hw⟩
    · rw [if_neg (by simpa using hw)]
      exact ⟨[], rfl, .no⟩
  · exact ⟨[], rfl, .no⟩

theorem IsSelectList.exists_first {items : List Token} {columns : List Column}
    (h : IsSelectList items columns) :
    ∃ t rest first, items = t :: rest ∧ IsItem t first := by
  cases h with
  | last hitem => exact ⟨_, _, _, rfl, hitem⟩
  | more hitem _ => exact ⟨_, _, _, rfl, hitem⟩

/-- No column is called DISTINCT, so that word before the items is never one of them. -/
theorem IsDistinct.distinctMark_eq {mark items : List Token} {distinct : Bool}
    {columns : List Column} (h : IsDistinct mark distinct) (hitems : IsSelectList items columns)
    (rest : List Token) :
    distinctMark (mark ++ items ++ rest) = (distinct, items ++ rest) := by
  cases h with
  | yes hw => simp [distinctMark, upper_eq, hw]
  | no =>
    obtain ⟨t, later, first, rfl, hitem⟩ := hitems.exists_first
    cases hitem with
    | all => rfl
    | @column w c hname =>
      have hother : upper w ≠ "DISTINCT" := by
        rw [← Column.upper_name_eq_iff.mpr hname]
        cases c <;> decide +kernel
      simp [distinctMark, hother]

theorem selectBody_eq_ok_iff {tokens : List Token} {s : Statement} :
    selectBody tokens = .ok s ↔
      ∃ mark items rest cs, tokens = mark ++ items ++ rest ∧ IsDistinct mark s.distinct ∧
        IsSelectList items s.columns ∧ AreClauses rest cs ∧ s.filters = filtersOf cs ∧
        s.limit = limitOf cs := by
  rw [selectBody_eq]
  constructor
  · intro h
    obtain ⟨⟨columns, rest⟩, hlist, h⟩ := exists_of_bind_eq_ok h
    obtain ⟨said, hsaid, h⟩ := exists_of_bind_eq_ok h
    cases h
    obtain ⟨mark, htokens, hmark⟩ := exists_isDistinct tokens
    obtain ⟨items, hitems, hcolumns⟩ := exists_isSelectList hlist
    obtain ⟨cs, hclauses, rfl⟩ := clauses_eq_ok_iff.mp hsaid
    refine ⟨mark, items, rest, cs, ?_, hmark, hcolumns, hclauses, rfl, rfl⟩
    rw [List.append_assoc, ← hitems]
    exact htokens
  · rintro ⟨mark, items, rest, cs, rfl, hmark, hcolumns, hclauses, hfilters, hlimit⟩
    rw [hmark.distinctMark_eq hcolumns rest]
    refine bind_eq_ok_iff.mpr ⟨_, hcolumns.selectList_eq hclauses.head?_ne_comma, ?_⟩
    refine bind_eq_ok_iff.mpr ⟨_, clauses_eq_ok_iff.mpr ⟨cs, hclauses, rfl⟩, ?_⟩
    rw [← hfilters, ← hlimit]
    rfl

theorem ofTokens_eq_ok_iff {tokens : List Token} {s : Statement} :
    Statement.ofTokens tokens = .ok s ↔ IsStatement tokens s := by
  constructor
  · intro h
    unfold Statement.ofTokens at h
    split at h
    · cases h
    · rename_i w rest
      split at h
      · rename_i hw
        obtain ⟨mark, items, tokens, cs, rfl, hmark, hitems, hclauses, hfilters, hlimit⟩ :=
          selectBody_eq_ok_iff.mp h
        have hstatement := IsStatement.select hw hmark hitems hclauses
        rw [← hfilters, ← hlimit] at hstatement
        exact hstatement
      all_goals cases h
    · cases h
  · intro h
    cases h with
    | @select w mark items tokens distinct columns cs hw hmark hitems hclauses =>
      have hbody : selectBody (mark ++ items ++ tokens) =
          .ok ⟨distinct, columns, filtersOf cs, limitOf cs⟩ :=
        selectBody_eq_ok_iff.mpr ⟨mark, items, tokens, cs, rfl, hmark, hitems, hclauses, rfl, rfl⟩
      simp only [List.cons_append, Statement.ofTokens, upper_eq, hw]
      exact hbody

/-! ### Refusals -/

theorem Column.ofWord_ne_empty (w : String) : ofWord w ≠ .error .empty := by
  unfold ofWord
  split <;> simp

theorem itemColumns_ne_empty (t : Token) : itemColumns t ≠ .error .empty := by
  cases t with
  | word w =>
    intro h
    cases hword : Column.ofWord w with
    | error problem =>
      rw [itemColumns, hword] at h
      cases h
      exact Column.ofWord_ne_empty w hword
    | ok c =>
      rw [itemColumns, hword] at h
      cases h
  | _ => simp [itemColumns]

theorem selectList_ne_empty (tokens : List Token) : selectList tokens ≠ .error .empty := by
  have hlast : ∀ (t : Token) (rest : List Token), rest.head? ≠ some .comma →
      selectList (t :: rest) ≠ .error .empty := by
    intro t rest hrest h
    rw [selectList_last t hrest] at h
    rcases bind_eq_error_iff.mp h with h | ⟨_, _, h⟩
    · exact itemColumns_ne_empty t h
    · cases h
  induction tokens using List.twoStepInduction with
  | nil => simp [selectList]
  | singleton t => exact hlast t [] (by simp)
  | cons_cons t next tail ih _ =>
    by_cases hcomma : next = .comma
    · subst hcomma
      rw [selectList_comma]
      intro h
      rcases bind_eq_error_iff.mp h with h | ⟨_, _, h⟩
      · exact itemColumns_ne_empty t h
      · rcases bind_eq_error_iff.mp h with h | ⟨_, _, h⟩
        · exact ih h
        · cases h
    · exact hlast t _ (by simpa using hcomma)

theorem conditionProblem_ne_empty (tokens : List Token) : conditionProblem tokens ≠ .empty := by
  unfold conditionProblem
  split
  · rename_i w rest
    split
    · rename_i problem hword
      rintro rfl
      exact Column.ofWord_ne_empty w hword
    · split <;> simp
  · simp

theorem clauses_ne_empty (turn : Turn) (c : Clauses) (tokens : List Token) :
    clauses turn c tokens ≠ .error .empty := by
  fun_induction clauses turn c tokens with
  | case1 c w value rest problem hword =>
    rintro ⟨⟩
    exact Column.ofWord_ne_empty w hword
  | case3 c tokens _ => simpa using conditionProblem_ne_empty tokens
  | case2 => assumption
  | case5 => assumption
  | case6 => assumption
  | case7 => assumption
  | _ => simp

theorem selectBody_ne_empty (tokens : List Token) : selectBody tokens ≠ .error .empty := by
  rw [selectBody_eq]
  intro h
  rcases bind_eq_error_iff.mp h with h | ⟨_, _, h⟩
  · exact selectList_ne_empty _ h
  · rcases bind_eq_error_iff.mp h with h | ⟨_, _, h⟩
    · exact clauses_ne_empty _ _ _ h
    · cases h

theorem ofTokens_eq_empty_iff {tokens : List Token} :
    Statement.ofTokens tokens = .error .empty ↔ tokens = [] := by
  constructor
  · intro h
    unfold Statement.ofTokens at h
    split at h
    · rfl
    · split at h
      · exact absurd h (selectBody_ne_empty _)
      all_goals cases h
    · cases h
  · rintro rfl
    rfl

theorem parse_of_tokens {query : String} {tokens : List Token}
    (h : Token.ofQuery query = .ok tokens) :
    Statement.parse query = Statement.ofTokens tokens := by
  rw [Statement.parse, h]

/-- A query that does not fall into tokens is refused, but not as empty. -/
theorem parse_of_fault {query : String} {fault : Token.Fault}
    (h : Token.ofQuery query = .error fault) :
    ∃ problem, Statement.parse query = .error problem ∧ problem ≠ .empty := by
  rw [Statement.parse, h]
  cases fault with
  | unterminatedLiteral => exact ⟨_, rfl, by simp⟩
  | unexpectedCharacter c => exact ⟨_, rfl, by simp⟩

theorem parse_eq_ok_iff {query : String} {s : Statement} :
    Statement.parse query = .ok s ↔
      ∃ tokens, Token.ofQuery query = .ok tokens ∧ IsStatement tokens s := by
  cases hquery : Token.ofQuery query with
  | ok tokens =>
    rw [parse_of_tokens hquery, ofTokens_eq_ok_iff]
    simp
  | error fault =>
    obtain ⟨problem, hproblem, -⟩ := parse_of_fault hquery
    rw [hproblem]
    simp

theorem parse_eq_empty_iff {query : String} :
    Statement.parse query = .error .empty ↔ Token.ofQuery query = .ok [] := by
  cases hquery : Token.ofQuery query with
  | ok tokens =>
    rw [parse_of_tokens hquery, ofTokens_eq_empty_iff, Except.ok.injEq]
  | error fault =>
    obtain ⟨problem, hproblem, hother⟩ := parse_of_fault hquery
    rw [hproblem]
    simp [hother]

/-- A query is accepted exactly as the statements that its tokens derive. Any other one
is refused, and as empty exactly when it has no tokens. -/
theorem parse_accepts_statements (query : String) :
    (∀ s, Statement.parse query = .ok s ↔
      ∃ tokens, Token.ofQuery query = .ok tokens ∧ IsStatement tokens s) ∧
    ((∃ problem, Statement.parse query = .error problem) ↔
      ¬ ∃ tokens s, Token.ofQuery query = .ok tokens ∧ IsStatement tokens s) ∧
    (Statement.parse query = .error .empty ↔ Token.ofQuery query = .ok []) := by
  refine ⟨fun s => parse_eq_ok_iff, ?_, parse_eq_empty_iff⟩
  have haccepted : (∃ tokens s, Token.ofQuery query = .ok tokens ∧ IsStatement tokens s) ↔
      ∃ s, Statement.parse query = .ok s := by
    rw [exists_comm]
    exact exists_congr fun s => parse_eq_ok_iff.symm
  rw [haccepted]
  cases Statement.parse query <;> simp

end LedgerConformance.Query
