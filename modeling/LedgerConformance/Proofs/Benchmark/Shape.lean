import LedgerConformance.Proofs.Benchmark.Acceptance
import LedgerConformance.Proofs.Calendar.DateShifts
import Mathlib.Data.List.DropRight

/-!
The shape of generated transactions. They are the last directives of a ledger, a paycheck
first and at every thirtieth place and purchases at the others. Each has an amount with two
decimals on its first posting and none on its second, and the dates go on from the first one
in steps of at most three days.
-/

namespace LedgerConformance.Benchmark

open Ledger

/-! ### Amounts -/

/-- Digits, a point and two more digits, which all together count the cents. -/
def WritesCents (text : String) (cents : Nat) : Prop :=
  ∃ whole decimals, text.toList = whole ++ '.' :: decimals ∧ whole ≠ [] ∧ decimals.length = 2 ∧
    (∀ c ∈ whole ++ decimals, c.isDigit = true) ∧
    Nat.ofDigitChars 10 (whole ++ decimals) 0 = cents

theorem writesCents_centsText (n : Nat) : WritesCents (centsText n) n := by
  have hlength := Date.length_padded (Date.length_toDigits_le_two (Nat.mod_lt n (by omega : 100 > 0)))
  refine ⟨Nat.toDigits 10 (n / 100), (Date.padded 2 (n % 100)).toList, ?_, Nat.toDigits_ne_nil,
    hlength, ?_, ?_⟩
  · simp [centsText]
  · intro c hc
    rcases List.mem_append.mp hc with hwhole | hdecimal
    · exact isDigit_of_mem_toDigits_ten hwhole
    · exact Date.isDigit_of_mem_padded hdecimal
  · have hdecimals : Nat.ofDigitChars 10 (Date.padded 2 (n % 100)).toList 0 = n % 100 :=
      Date.numeral_padded 2 (n % 100)
    rw [Nat.ofDigitChars_append, Nat.ofDigitChars_ten_toDigits,
      Nat.ofDigitChars_eq_ofDigitChars_zero, hlength, hdecimals]
    omega

/-- The least and the greatest amount of the transaction at a place. -/
def bounds (config : Config) (index : Nat) : Nat × Nat :=
  if index % 30 = 0 then (200000, 800000) else config.complexity.amounts

/-- The currencies of all amounts. -/
def usedCurrencies (count : Nat) : List String :=
  if count = 0 then ["USD"] else commodities.take (min 3 count)

theorem currencies_eq (accounts : List String) (count : Nat) :
    (Pools.of accounts (commodityPool count)).currencies = usedCurrencies count := by
  cases count with
  | zero => rfl
  | succ count =>
    have hsome : ¬ (commodityPool (count + 1)).isEmpty = true := Bool.false_ne_true
    rw [usedCurrencies, if_neg (Nat.succ_ne_zero count), ← List.take_take, Pools.of,
      mainCurrencies, if_neg hsome, commodityPool]

/-! ### Transactions -/

/-- A posting with an amount for the transaction at a place. -/
structure HasAmount (config : Config) (index : Nat) (p : Posting) : Prop where
  number : ∃ text cents, p.number = some text ∧ WritesCents text cents ∧
    (bounds config index).1 ≤ cents ∧ cents ≤ (bounds config index).2
  currency : ∃ currency ∈ usedCurrencies config.commodities, p.currency = some currency

/-- What a directive is that was generated as the transaction at a place. -/
structure HasShape (config : Config) (index : Nat) (d : Directive) : Prop where
  content : ∃ flag payee narration,
    d.content = .transaction flag (some payee) (some narration) ∧
      (payee = "Employer" ∧ narration = "Paycheck" ↔ index % 30 = 0)
  postings : ∃ first second, d.postings = [first, second] ∧ HasAmount config index first ∧
    second.number = none ∧ second.currency = none
  metadata : d.metadata.length ≤ 1 ∧
    ∀ entry ∈ d.metadata, entry.1 = "category" ∧ config.complexity = .high

/-- What is drawn for a place. -/
def IsEntry (config : Config) (pools : Pools) (index : Nat) (t : Transaction) : Prop :=
  if index % 30 = 0 then IsPaycheck pools t else IsPurchase pools config.complexity t

theorem IsStream.getElem? {config : Config} {pools : Pools} {index : Nat} {date : Date}
    {ts : List Transaction} (h : IsStream config pools index date ts) {i : Nat} {t : Transaction}
    (ht : ts[i]? = some t) : IsEntry config pools (index + i) t := by
  induction ts generalizing index date i with
  | nil => simp at ht
  | cons first rest ih =>
    obtain ⟨-, hfirst, hrest⟩ := h
    cases i with
    | zero =>
      cases ht
      exact hfirst
    | succ i =>
      rw [List.getElem?_cons_succ] at ht
      have hlater := ih hrest ht
      rwa [Nat.add_right_comm, Nat.add_assoc] at hlater

namespace IsEntry

variable {config : Config} {pools : Pools} {index : Nat} {t : Transaction}

theorem paycheck_iff (h : IsEntry config pools index t) :
    t.payee = "Employer" ∧ t.narration = "Paycheck" ↔ index % 30 = 0 := by
  unfold IsEntry at h
  split at h
  · rename_i hindex
    exact iff_of_true ⟨h.payee, h.narration⟩ hindex
  · rename_i hindex
    refine iff_of_false ?_ hindex
    rintro ⟨-, hnarration⟩
    have hchars := congrArg String.toList (h.narration.symm.trans hnarration)
    rw [String.toList_append] at hchars
    have hsecond : some 'u' = some 'a' := congrArg (·[1]?) hchars
    exact absurd hsecond (by decide)

theorem cents (h : IsEntry config pools index t) :
    (bounds config index).1 ≤ t.cents ∧ t.cents ≤ (bounds config index).2 := by
  unfold IsEntry at h
  unfold bounds
  split at h
  · rename_i hindex
    rw [if_pos hindex]
    exact h.cents
  · rename_i hindex
    rw [if_neg hindex]
    exact h.cents

theorem currency (h : IsEntry config pools index t) : t.currency ∈ pools.currencies := by
  unfold IsEntry at h
  split at h
  · exact h.currency
  · exact h.currency

theorem category (h : IsEntry config pools index t) :
    ∀ c ∈ t.category, config.complexity = .high := by
  unfold IsEntry at h
  split at h
  · simp [h.category]
  · exact fun c hc => (h.category c hc).1

theorem hasShape (h : IsEntry config pools index t)
    (hcurrencies : pools.currencies = usedCurrencies config.commodities) :
    HasShape config index t.directive := by
  have hcurrency := h.currency
  rw [hcurrencies] at hcurrency
  refine ⟨⟨t.flag, t.payee, t.narration, rfl, h.paycheck_iff⟩,
    ⟨_, _, rfl, ⟨⟨centsText t.cents, t.cents, rfl, writesCents_centsText _, h.cents⟩,
      t.currency, hcurrency, rfl⟩, rfl, rfl⟩, ?_, ?_⟩
  · rw [Transaction.directive, List.length_map]
    exact Option.length_toList_le
  · intro entry hentry
    obtain ⟨c, hc, rfl⟩ := List.mem_map.mp hentry
    exact ⟨rfl, h.category c (Option.mem_toList.mp hc)⟩

end IsEntry

/-- The shape does not depend on the numbers of lines. -/
theorem HasShape.of_unnumbered {config : Config} {index : Nat} {d : Directive}
    (h : HasShape config index d.unnumbered) : HasShape config index d := by
  obtain ⟨first, second, hpostings, hamount, hrest⟩ := h.postings
  rw [Directive.unnumbered] at hpostings
  obtain ⟨p, others, hp, rfl, hothers⟩ := List.map_eq_cons_iff.mp hpostings
  obtain ⟨q, none, rfl, rfl, hnone⟩ := List.map_eq_cons_iff.mp hothers
  rw [List.map_eq_nil_iff.mp hnone] at hp
  exact ⟨h.content, ⟨p, q, hp, ⟨hamount.number, hamount.currency⟩, hrest⟩, h.metadata⟩

/-! ### Dates -/

/-- A date that is at most three days later. -/
def IsStep (date next : Date) : Prop :=
  next.Valid ∧ date ≤ next ∧ next.dayNumber ≤ date.dayNumber + 3

/-- Days close to one whose year has four digits have years that fit. -/
theorem fitsYear_of_close {m n : Int}
    (hyear : 0 ≤ Date.yearOfDayNumber m ∧ Date.yearOfDayNumber m ≤ 9999) (hfrom : m ≤ n)
    (hto : n ≤ m + 4) : Date.FitsYear (Date.yearOfDayNumber n) := by
  obtain ⟨d, hd, rfl⟩ := Date.exists_valid_dayNumber m
  rw [Date.yearOfDayNumber_dayNumber hd] at hyear
  have hfirst := (Date.le_iff_dayNumber_le (by decide) hd).mp (Date.firstOfYear_le hd hyear.1)
  have hlast := (Date.le_iff_dayNumber_le hd (by decide)).mp (Date.le_lastOfYear hd hyear.2)
  have hlow : Date.firstNumber ≤ Date.dayNumber ⟨0, 1, 1⟩ := by decide
  have hhigh : Date.dayNumber ⟨9999, 12, 31⟩ + 4 ≤ Date.lastNumber := by decide
  exact Date.fitsYear_iff.mpr ⟨by omega, by omega⟩

/-- The dates go on in steps, given that none of them leaves the range of years. -/
theorem IsStream.steps {config : Config} {pools : Pools} {index : Nat} {date : Date}
    {ts : List Transaction} (h : IsStream config pools index date ts) (hdate : date.Valid)
    (hyear : Date.FitsYear date.year)
    (hlater : Date.FitsYear (Date.yearOfDayNumber (date.dayNumber + 3)))
    (hyears : ∀ t ∈ ts, 0 ≤ t.date.year ∧ t.date.year ≤ 9999) :
    (∀ t ∈ ts, t.date.Valid) ∧ (date :: ts.map (·.date)).IsChain IsStep := by
  induction ts generalizing index date with
  | nil => exact ⟨List.forall_mem_nil _, .singleton date⟩
  | cons first rest ih =>
    obtain ⟨hfollow, -, hrest⟩ := h
    obtain ⟨hfirst, hyears⟩ := List.forall_mem_cons.mp hyears
    obtain ⟨hvalid, hfrom, hto⟩ := hfollow.near hdate hyear hlater
    have hnext : Date.FitsYear (Date.yearOfDayNumber (first.date.dayNumber + 3)) := by
      refine fitsYear_of_close (m := first.date.dayNumber) ?_ (by omega) (by omega)
      rwa [Date.yearOfDayNumber_dayNumber hvalid]
    obtain ⟨hvalids, hchain⟩ :=
      ih hrest hvalid (by unfold Date.FitsYear; omega) hnext hyears
    have hstep : IsStep date first.date :=
      ⟨hvalid, (Date.le_iff_dayNumber_le hdate hvalid).mpr hfrom, hto⟩
    exact ⟨List.forall_mem_cons.mpr ⟨hvalid, hvalids⟩, List.isChain_cons_cons.mpr ⟨hstep, hchain⟩⟩

/-! ### The last directives -/

/-- The transactions of a ledger are its last directives. -/
theorem rtake_directives {config : Config} (h : IsDated config (drawn config).2) :
    ((scan (generate config)).directives.rtake config.transactions).map Directive.unnumbered =
      (drawn config).2.map fun t => t.directive.unnumbered := by
  obtain ⟨-, hdirectives⟩ := scan_generate_of_isDated h
  have hcount := (isDrawn_drawn config).length
  have hlength := congrArg List.length hdirectives
  rw [ledgerOf, List.map_append, List.length_map, List.length_append, List.length_map,
    List.length_map, List.length_map] at hlength
  rw [List.rtake, List.map_drop, hdirectives, ledgerOf, List.map_append, List.map_map]
  refine List.drop_left' ?_
  rw [List.length_map]
  omega

/-- The last directives of a generated ledger are its transactions. Each has its shape, and
their dates go on from the first date in steps of at most three days. -/
theorem scan_generate_shapes (config : Config) (hstart : config.startDate.Valid)
    (hbefore : 0 ≤ Date.yearOfDayNumber (config.startDate.dayNumber - 1) ∧
      Date.yearOfDayNumber (config.startDate.dayNumber - 1) ≤ 9999)
    (hyears : ∀ t ∈ (drawn config).2, 0 ≤ t.date.year ∧ t.date.year ≤ 9999) :
    let last := (scan (generate config)).directives.rtake config.transactions
    last.length = config.transactions ∧
      (∀ index d, last[index]? = some d → HasShape config index d) ∧
      (config.startDate :: last.map (·.date)).IsChain IsStep := by
  intro last
  have hdrawn := isDrawn_drawn config
  have hyear := fitsYear_of_close (n := config.startDate.dayNumber) hbefore (by omega) (by omega)
  have hlater := fitsYear_of_close (n := config.startDate.dayNumber + 3) hbefore (by omega)
    (by omega)
  rw [Date.yearOfDayNumber_dayNumber hstart] at hyear
  obtain ⟨hvalids, hsteps⟩ := hdrawn.stream.steps hstart hyear hlater hyears
  obtain ⟨hopening, hopeningYear, -⟩ := opening_of_before hbefore.1 hbefore.2
  have hlast := rtake_directives
    ⟨hopening, hopeningYear, fun t ht => ⟨hvalids t ht, hyears t ht⟩⟩
  refine ⟨?_, ?_, ?_⟩
  · have hlength := congrArg List.length hlast
    rwa [List.length_map, List.length_map, hdrawn.length] at hlength
  · intro index d hd
    have hsame := congrArg (·[index]?) hlast
    rw [List.getElem?_map, List.getElem?_map, hd, Option.map_some, eq_comm,
      Option.map_eq_some_iff] at hsame
    obtain ⟨t, ht, hd⟩ := hsame
    have hentry := hdrawn.stream.getElem? ht
    rw [Nat.zero_add] at hentry
    refine HasShape.of_unnumbered ?_
    rw [← hd]
    exact hentry.hasShape (currencies_eq _ _)
  · have hdates := congrArg (List.map Directive.date) hlast
    rw [List.map_map, List.map_map] at hdates
    exact hdates ▸ hsteps

/-- Ten thousand transactions from the last day of a century on. -/
def centuryEnd : Config :=
  { Preset.medium.apply {} with startDate := ⟨1999, 12, 31⟩, complexity := .high }

theorem scan_generate_shapes_centuryEnd :
    centuryEnd.startDate.Valid ∧
      (0 ≤ Date.yearOfDayNumber (centuryEnd.startDate.dayNumber - 1) ∧
        Date.yearOfDayNumber (centuryEnd.startDate.dayNumber - 1) ≤ 9999) ∧
      (∀ t ∈ (drawn centuryEnd).2, 0 ≤ t.date.year ∧ t.date.year ≤ 9999) ∧
      ((scan (generate centuryEnd)).directives.rtake 10000).length = 10000 ∧
      (∀ index d, ((scan (generate centuryEnd)).directives.rtake 10000)[index]? = some d →
        HasShape centuryEnd index d) ∧
      (⟨1999, 12, 31⟩ ::
        ((scan (generate centuryEnd)).directives.rtake 10000).map (·.date)).IsChain IsStep := by
  have hstart : centuryEnd.startDate.Valid := by decide
  have hbefore : 0 ≤ Date.yearOfDayNumber (centuryEnd.startDate.dayNumber - 1) ∧
      Date.yearOfDayNumber (centuryEnd.startDate.dayNumber - 1) ≤ 9999 := by decide
  have hyears : ∀ t ∈ (drawn centuryEnd).2, 0 ≤ t.date.year ∧ t.date.year ≤ 9999 := by
    intro t ht
    exact ((isDrawn_drawn centuryEnd).dates ⟨hstart, hbefore.1, by decide⟩ t ht).2.1
  exact ⟨hstart, hbefore, hyears, scan_generate_shapes centuryEnd hstart hbefore hyears⟩

end LedgerConformance.Benchmark
