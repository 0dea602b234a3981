import LedgerConformance.Proofs.Steps
import LedgerConformance.Query.Table

/-!
Queries as a chain of list operations. The postings of all transactions are
filtered and projected, of equal rows the first one stays, and the limit cuts the
rest. Rows are collected one posting after another until the limit is reached, and
what is collected is the result of that chain.
-/

namespace LedgerConformance.Query

open Ledger (Directive Posting)

/-! ### What is asked for -/

/-- The postings of all transactions in source order, each with its transaction. -/
def postings (directives : List Directive) : List (Directive × Posting) :=
  (directives.filter (·.content.isTransaction)).flatMap fun d => d.postings.map fun p => (d, p)

/-- What a column shows of a posting in its transaction. The flag of the posting goes
before that of the transaction; what is not written shows nothing. -/
def shown (place : Directive × Posting) : Column → Option String
  | .date => some place.1.date.toText
  | .flag =>
    match place.2.flag, place.1.content with
    | some flag, _ => some (String.singleton flag)
    | none, .transaction flag _ _ => some (String.singleton flag)
    | none, _ => none
  | .payee =>
    match place.1.content with
    | .transaction _ payee _ => payee
    | _ => none
  | .narration =>
    match place.1.content with
    | .transaction _ _ narration => narration
    | _ => none
  | .account => some place.2.account
  | .number => place.2.number
  | .currency => place.2.currency

namespace Statement

variable (s : Statement)

/-- Every column of a condition shows the text that is asked for. -/
def Meets (cells : Column → Option String) : Prop :=
  ∀ condition ∈ s.filters, cells condition.1 = some condition.2

instance (cells : Column → Option String) : Decidable (s.Meets cells) :=
  inferInstanceAs (Decidable (∀ condition ∈ s.filters, _))

/-- One row for each of the postings that meet the conditions. -/
def projected (all : List (Column → Option String)) : List Row :=
  (all.filter fun cells => s.Meets cells).map fun cells => s.columns.map cells

/-- The first of equal rows, where rows are to be distinct. -/
def deduplicated (rows : List Row) : List Row := if s.distinct then rows.eraseDups else rows

/-- The first rows, as many as the limit allows. -/
def limited (rows : List Row) : List Row :=
  match s.limit with
  | none => rows
  | some n => rows.take n

/-- The rows that a statement asks for. -/
def select (directives : List Directive) : List Row :=
  s.limited (s.deduplicated (s.projected ((postings directives).map shown)))

end Statement

/-! ### Legs -/

/-- The legs of a ledger show what its postings show. -/
theorem map_cell_legs (directives : List Directive) :
    (directives.flatMap legsOf).map Leg.cell = (postings directives).map shown := by
  induction directives with
  | nil => rfl
  | cons d rest ih =>
    have hcells : ∀ (flag : Char) (payee narration : Option String) (p : Posting),
        d.content = .transaction flag payee narration →
          Leg.cell ⟨d.date, flag, payee, narration, p⟩ = shown (d, p) := by
      intro flag payee narration p hcontent
      funext column
      cases column with
      | flag => cases hflag : p.flag <;> simp [Leg.cell, shown, hcontent, hflag]
      | _ => simp [Leg.cell, shown, hcontent]
    rw [List.flatMap_cons, List.map_append, ih]
    cases hcontent : d.content with
    | transaction flag payee narration =>
      simp [postings, legsOf, hcontent, hcells flag payee narration _ hcontent,
        Ledger.Content.isTransaction]
    | _ => simp [postings, legsOf, hcontent, Ledger.Content.isTransaction]

/-! ### Rows collected one after another -/

variable {s : Statement}

theorem meets_iff {leg : Leg} : leg.meets s.filters = true ↔ s.Meets leg.cell := by
  simp [Leg.meets, Statement.Meets]

/-- The rows that are added to those that are there already. -/
def added (s : Statement) (done rows : List Row) : List Row :=
  s.deduplicated (rows.filter fun row => !(s.distinct && done.contains row))

theorem added_nil (rows : List Row) : added s [] rows = s.deduplicated rows := by
  have hall : rows.filter (fun row => !(s.distinct && [].contains row)) = rows := by
    rw [List.filter_eq_self]
    simp
  rw [added, hall]

theorem added_cons_of_seen {done rows : List Row} {row : Row}
    (h : (s.distinct && done.contains row) = true) :
    added s done (row :: rows) = added s done rows := by
  rw [added, List.filter_cons_of_neg (by rw [h]; decide)]
  rfl

theorem added_cons_of_new {done rows : List Row} {row : Row}
    (h : (s.distinct && done.contains row) = false) :
    added s done (row :: rows) = row :: added s (row :: done) rows := by
  rw [added, added, List.filter_cons_of_pos (by rw [h]; rfl)]
  by_cases hdistinct : s.distinct = true
  · have hlater : (rows.filter fun other => !(s.distinct && done.contains other)).filter
        (fun other => !other == row) =
          rows.filter fun other => !(s.distinct && (row :: done).contains other) := by
      rw [List.filter_filter]
      apply List.filter_congr
      intro other _
      rw [hdistinct, List.contains_cons, Bool.true_and, Bool.true_and, Bool.not_or]
    rw [Statement.deduplicated, if_pos hdistinct, List.eraseDups_cons, hlater,
      Statement.deduplicated, if_pos hdistinct]
  · simp [Statement.deduplicated, hdistinct]

theorem projected_cons_of_meets {cells : Column → Option String}
    {rest : List (Column → Option String)} (h : s.Meets cells) :
    s.projected (cells :: rest) = s.columns.map cells :: s.projected rest := by
  rw [Statement.projected, List.filter_cons_of_pos (by simpa using h), List.map_cons]
  rfl

theorem projected_cons_of_not_meets {cells : Column → Option String}
    {rest : List (Column → Option String)} (h : ¬ s.Meets cells) :
    s.projected (cells :: rest) = s.projected rest := by
  rw [Statement.projected, List.filter_cons_of_neg (by simpa using h)]
  rfl

theorem limited_eq_self {rows : List Row} (h : ∀ n ∈ s.limit, rows.length ≤ n) :
    s.limited rows = rows := by
  unfold Statement.limited
  split
  · rfl
  · rename_i n hn
    exact List.take_of_length_le (h n hn)

/-- What has been collected stays in front, and as many rows are added to it as the
limit allows. -/
theorem reverse_collect (legs : List Leg) (rows : List Row)
    (hroom : ∀ n ∈ s.limit, rows.length < n) :
    (collect s rows legs).reverse =
      s.limited (rows.reverse ++ added s rows (s.projected (legs.map Leg.cell))) := by
  induction legs generalizing rows with
  | nil =>
    have hnil : added s rows (s.projected ([].map Leg.cell)) = [] := by
      cases hdistinct : s.distinct <;>
        simp [added, Statement.projected, Statement.deduplicated, hdistinct]
    rw [collect, hnil, List.append_nil, limited_eq_self]
    intro n hn
    rw [List.length_reverse]
    exact Nat.le_of_lt (hroom n hn)
  | cons leg rest ih =>
    rw [List.map_cons, collect]
    by_cases hmeets : s.Meets leg.cell
    · rw [if_pos (meets_iff.mpr hmeets), projected_cons_of_meets hmeets]
      dsimp only
      cases hseen : s.distinct && rows.contains (s.columns.map leg.cell) with
      | true =>
        rw [if_pos rfl, added_cons_of_seen hseen]
        exact ih rows hroom
      | false =>
        have hfront : ∀ (row : Row) (more : List Row),
            rows.reverse ++ row :: more = (row :: rows).reverse ++ more := by simp
        rw [if_neg (by decide), added_cons_of_new hseen, hfront]
        -- There was room for a row; the one that fills it up ends the collection.
        by_cases hfull : ∃ n, s.limit = some n ∧ n ≤ rows.length + 1
        · obtain ⟨n, hn, hle⟩ := hfull
          have hlength : n = rows.length + 1 := Nat.le_antisymm hle (hroom n hn)
          rw [if_pos (by simpa [hn] using hle), Statement.limited, hn, hlength]
          exact (List.take_left' (by simp)).symm
        · have hopen : ∀ n ∈ s.limit, (s.columns.map leg.cell :: rows).length < n :=
            fun n hn => Nat.lt_of_not_le fun hle => hfull ⟨n, hn, hle⟩
          rw [if_neg, ih _ hopen]
          intro hany
          obtain ⟨n, hn, hle⟩ := (Option.any_eq_true _ _).mp hany
          exact hfull ⟨n, hn, by simpa using hle⟩
    · rw [if_neg (mt meets_iff.mp hmeets), projected_cons_of_not_meets hmeets]
      exact ih rows hroom

/-- What is collected from a ledger is what the statement asks for. -/
theorem evaluate_eq_select (s : Statement) (directives : List Directive) :
    s.evaluate directives = ⟨s.columns, s.select directives⟩ := by
  unfold Statement.evaluate
  by_cases hzero : s.limit = some 0
  · have hnone : s.select directives = [] := by
      rw [Statement.select, Statement.limited, hzero]
      rfl
    rw [hnone, hzero]
    rfl
  · have hroom : ∀ n ∈ s.limit, ([] : List Row).length < n := by
      intro n hn
      rw [List.length_nil, Nat.pos_iff_ne_zero]
      rintro rfl
      exact hzero hn
    dsimp only
    rw [if_neg (by simpa using hzero), reverse_collect _ _ hroom, added_nil, map_cell_legs]
    rfl

/-- An accepted query is answered by its columns and, as rows, the postings that meet
its conditions: projected, without repetitions where rows are to be distinct, and
then as many as the limit allows. -/
theorem run_eq_select (directives : List Directive) (query : String) (s : Statement)
    (h : Statement.parse query = .ok s) :
    run directives query = .ok ⟨s.columns, s.select directives⟩ := by
  rw [run, h, ← evaluate_eq_select]
  rfl

/-- Two flagged transactions around an opening, with a posting of each account that
has a flag of its own, and one without an amount. -/
def flaggedLedger : List Directive :=
  [{ line := 1, date := ⟨2020, 1, 2⟩, content := .transaction '*' (some "Cafe") none
     postings := [⟨2, none, "Assets:Cash", some "-4.50", some "USD"⟩,
       ⟨3, some '!', "Expenses:Food", some "4.50", some "USD"⟩,
       ⟨4, some '!', "Assets:Cash", none, none⟩] },
   { line := 6, date := ⟨2020, 1, 3⟩, content := .opening "Assets:Bank" [] },
   { line := 7, date := ⟨2020, 1, 4⟩, content := .transaction '!' (some "Cafe") none
     postings := [⟨8, none, "Expenses:Food", some "9.00", some "USD"⟩,
       ⟨9, none, "Assets:Bank", none, none⟩] }]

theorem run_eq_select_flaggedLedger :
    Statement.parse "select distinct payee, account where flag = '!' limit 2;" =
        .ok ⟨true, [.payee, .account], [(.flag, "!")], some 2⟩ ∧
      run flaggedLedger "select distinct payee, account where flag = '!' limit 2;" =
        .ok ⟨[.payee, .account],
          [[some "Cafe", some "Expenses:Food"], [some "Cafe", some "Assets:Cash"]]⟩ := by
  have hparse : Statement.parse "select distinct payee, account where flag = '!' limit 2;" =
      .ok ⟨true, [.payee, .account], [(.flag, "!")], some 2⟩ :=
    eq_ok_of_toOption_eq_some (by decide +kernel)
  refine ⟨hparse, ?_⟩
  rw [run_eq_select flaggedLedger _ _ hparse]
  rfl

end LedgerConformance.Query
