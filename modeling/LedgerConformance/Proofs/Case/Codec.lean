import LedgerConformance.Case.Codec
import LedgerConformance.Proofs.Json.Codec
import LedgerConformance.Proofs.Steps

/-!
Inputs and expectations, written and read. What is not filled in is left out, and the
reader takes what it misses for just that; a list of messages is written as a list
whatever it was read from.
-/

namespace LedgerConformance

open Json

theorem Expectation.reads_name (e : Expectation) :
    Reads Expectation.decode (.string e.name) e := by
  have hfound : ofName? e.name = some e := by cases e <;> rfl
  exact reads_word hfound

namespace Input

/-- The fields of an input in the order in which they are written. -/
def parts (i : Input) : List (String × Option Json) :=
  [("inline", i.inline.map .string), ("file", i.file.map .string), ("query", i.query.map .string)]

theorem nodup_parts (i : Input) : (i.parts.map Prod.fst).Nodup := by
  have hnames : i.parts.map Prod.fst = ["inline", "file", "query"] := rfl
  rw [hnames]
  decide

theorem toJson_eq (i : Input) : i.toJson = .object (present i.parts) := by
  simp [toJson, parts, present]

theorem reads_toJson (i : Input) : Reads decode i.toJson i := by
  intro doc hsaid
  rw [toJson_eq] at hsaid
  obtain ⟨found, hrecord, hfound⟩ := record_of_says i.nodup_parts hsaid
  simp only [parts, List.forall_mem_cons] at hfound
  obtain ⟨hinline, hfile, hquery, -⟩ := hfound
  refine bind_eq_some_of hrecord ?_
  refine bind_eq_some_of (readsField_text _ _ hinline) ?_
  refine bind_eq_some_of (readsField_text _ _ hfile) ?_
  exact bind_eq_some_of (readsField_text _ _ hquery) rfl

end Input

namespace Expected

/-! ### Fields -/

/-- The fields of the expectations in the order in which they are written. -/
def parts (e : Expected) : List (String × Option Json) :=
  [("parse", e.parse.map fun x => .string x.name),
    ("validate", e.validate.map fun x => .string x.name),
    ("query", e.query.map fun x => .string x.name),
    ("error_contains", unlessEmpty e.errorContains (Json.strings e.errorContains)),
    ("error_count", e.errorCount.map .nat),
    ("error_types", unlessEmpty e.errorTypes (Json.strings e.errorTypes)),
    ("directives", e.directives.map .nat),
    ("accounts", unlessEmpty e.accounts (Json.strings e.accounts)),
    ("row_count", e.rowCount.map .nat),
    ("columns", unlessEmpty e.columns (Json.strings e.columns)),
    ("balance", unlessEmpty e.balance (balanceJson e.balance))]

theorem nodup_parts (e : Expected) : (e.parts.map Prod.fst).Nodup := by
  have hnames : e.parts.map Prod.fst = fieldNames.flatten := rfl
  rw [hnames]
  decide

theorem toJson_eq (e : Expected) : e.toJson = .object (present e.parts) := by
  simp [toJson, parts, present, listField, fieldIf_unlessEmpty]

/-! ### Reading back -/

/-- The accounts of the balance are in order, and so are the currencies of each. -/
structure Ordered (e : Expected) : Prop where
  accounts : Ascending e.balance
  currencies : ∀ entry ∈ e.balance, Ascending entry.2

theorem reads_oneOrMany (items : List String) : Reads oneOrMany (.strings items) items := by
  intro doc hsaid
  have hlist := reads_strings items doc hsaid
  change doc.Says (.array (items.map .string)) at hsaid
  cases hsaid
  exact hlist

/-- The amounts of an account as they stand in the balance. -/
def amountsJson (amounts : List (String × String)) : Json :=
  .object (amounts.map fun amount => (amount.1, .string amount.2))

theorem reads_amountsJson {amounts : List (String × String)} (h : Ascending amounts) :
    Reads (Decode.map Decode.string) (amountsJson amounts) amounts :=
  reads_map h fun amount _ => reads_string amount.2

theorem reads_balanceJson {balance : List (String × List (String × String))}
    (haccounts : Ascending balance) (hcurrencies : ∀ entry ∈ balance, Ascending entry.2) :
    Reads (Decode.map (Decode.map Decode.string)) (balanceJson balance) balance :=
  reads_map haccounts fun entry hentry => reads_amountsJson (hcurrencies entry hentry)

theorem reads_toJson {e : Expected} (h : e.Ordered) : Reads decode e.toJson e := by
  intro doc hsaid
  rw [toJson_eq] at hsaid
  obtain ⟨found, hrecord, hfound⟩ := record_of_says e.nodup_parts hsaid
  simp only [parts, List.forall_mem_cons] at hfound
  obtain ⟨hparse, hvalidate, hquery, hcontains, hcount, htypes, hdirectives, haccounts, hrows,
    hcolumns, hbalance, -⟩ := hfound
  have hstate : ∀ state : Option Expectation,
      ReadsField (Decode.maybe Expectation.decode) (state.map fun x => .string x.name) state :=
    fun _ => readsField_maybe fun x _ => ⟨Json.noConfusion, x.reads_name⟩
  have hlist : ∀ items : List String,
      ReadsField (Decode.withDefault [] (Decode.list Decode.string))
        (unlessEmpty items (Json.strings items)) items :=
    fun items => readsField_unlessEmpty (reads_strings items)
  refine bind_eq_some_of hrecord ?_
  refine bind_eq_some_of (hstate _ _ hparse) ?_
  refine bind_eq_some_of (hstate _ _ hvalidate) ?_
  refine bind_eq_some_of (hstate _ _ hquery) ?_
  refine bind_eq_some_of (readsField_unlessEmpty (reads_oneOrMany _) _ hcontains) ?_
  refine bind_eq_some_of (readsField_nat _ _ hcount) ?_
  refine bind_eq_some_of (hlist _ _ htypes) ?_
  refine bind_eq_some_of (readsField_nat _ _ hdirectives) ?_
  refine bind_eq_some_of (hlist _ _ haccounts) ?_
  refine bind_eq_some_of (readsField_nat _ _ hrows) ?_
  refine bind_eq_some_of (hlist _ _ hcolumns) ?_
  exact bind_eq_some_of
    (readsField_unlessEmpty (reads_balanceJson h.accounts h.currencies) _ hbalance) rfl

/-- The order comes from the reader, whatever the order of the document. -/
theorem ordered_of_decode {doc : Document} {e : Expected} (h : decode doc = some e) :
    e.Ordered := by
  obtain ⟨fields, -, h⟩ := Option.bind_eq_some_iff.mp h
  split at h
  · simp only [Option.bind_eq_bind, Option.bind_eq_some_iff, Option.pure_def,
      Option.some.injEq] at h
    obtain ⟨_, -, _, -, _, -, _, -, _, -, _, -, _, -, _, -, _, -, _, -, balance, hbalance, rfl⟩ := h
    apply of_withDefault hbalance
    · exact ⟨List.Pairwise.nil, by simp⟩
    · intro doc hread
      obtain ⟨haccounts, hentries⟩ := ordered_of_map hread
      refine ⟨haccounts, ?_⟩
      intro entry hentry
      obtain ⟨amounts, hamounts⟩ := hentries entry hentry
      exact (ordered_of_map hamounts).1
  · cases h

end Expected

end LedgerConformance
