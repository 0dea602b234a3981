import LedgerConformance.Proofs.Benchmark.Lines
import LedgerConformance.Proofs.Calendar.DayNumber
import LedgerConformance.Proofs.Ledger.Lifecycle

/-!
Generated ledgers are accepted. Whatever is drawn, the text of a ledger is
scanned without a problem as its declarations, its opening balance and its
transactions; and as every account is opened on the day before the first
transaction, the account rules hold as soon as the pool has the account that
opening balances come from.
-/

namespace LedgerConformance.Benchmark

open Ledger Token

section Dates

/-- The next date is at most three days later, given that the years up to there fit. -/
theorem MayFollow.near {date next : Date} (h : MayFollow date next) (hdate : date.Valid)
    (hyear : Date.FitsYear date.year)
    (hlater : Date.FitsYear (Date.yearOfDayNumber (date.dayNumber + 3))) :
    next.Valid ∧ date.dayNumber ≤ next.dayNumber ∧ next.dayNumber ≤ date.dayNumber + 3 := by
  rcases h with rfl | ⟨days, hlow, hhigh, rfl⟩
  · exact ⟨hdate, by omega, by omega⟩
  · have hsame := Date.yearOfDayNumber_dayNumber hdate
    have hbefore := Date.yearOfDayNumber_mono (m := date.dayNumber) (n := date.dayNumber + days)
      (by omega)
    have hafter := Date.yearOfDayNumber_mono (m := date.dayNumber + days)
      (n := date.dayNumber + 3) (by omega)
    have hfits : Date.FitsYear (Date.yearOfDayNumber (date.dayNumber + days)) := by
      unfold Date.FitsYear at *
      omega
    obtain ⟨hvalid, hnumber, -⟩ := Date.ofDayNumber_spec hfits
    unfold Date.addDays
    exact ⟨hvalid, by omega, by omega⟩

/-- The next date is in the same range of years. -/
theorem MayFollow.valid {date next : Date} (h : MayFollow date next) (hdate : date.Valid)
    (hyear : 0 ≤ date.year) (hbound : Date.yearOfDayNumber (date.dayNumber + 3) ≤ 9999) :
    next.Valid ∧ (0 ≤ next.year ∧ next.year ≤ 9999) ∧
      date.dayNumber ≤ next.dayNumber ∧ next.dayNumber ≤ date.dayNumber + 3 := by
  have hsame := Date.yearOfDayNumber_dayNumber hdate
  have hmono := Date.yearOfDayNumber_mono (m := date.dayNumber) (n := date.dayNumber + 3) (by omega)
  obtain ⟨hvalid, hfrom, hto⟩ :=
    h.near hdate (by unfold Date.FitsYear; omega) (by unfold Date.FitsYear; omega)
  have hnext := Date.yearOfDayNumber_dayNumber hvalid
  have hbefore := Date.yearOfDayNumber_mono hfrom
  have hafter := Date.yearOfDayNumber_mono hto
  exact ⟨hvalid, by omega, hfrom, hto⟩

/-- The dates of transactions are valid and not before the first one. -/
theorem IsStream.dates {config : Config} {pools : Pools} {index : Nat} {date : Date}
    {ts : List Transaction} (h : IsStream config pools index date ts) (hdate : date.Valid)
    (hyear : 0 ≤ date.year)
    (hbound : Date.yearOfDayNumber (date.dayNumber + 3 * ts.length) ≤ 9999) :
    ∀ t ∈ ts, t.date.Valid ∧ (0 ≤ t.date.year ∧ t.date.year ≤ 9999) ∧
      date.dayNumber ≤ t.date.dayNumber := by
  induction ts generalizing index date with
  | nil => simp
  | cons first rest ih =>
    obtain ⟨hfollow, _, hrest⟩ := h
    rw [List.length_cons] at hbound
    have hthree := Date.yearOfDayNumber_mono (m := date.dayNumber + 3)
      (n := date.dayNumber + 3 * (rest.length + 1 : Nat)) (by omega)
    obtain ⟨hvalid, hyears, hfrom, hto⟩ := hfollow.valid hdate hyear (by omega)
    have hlater := Date.yearOfDayNumber_mono (m := first.date.dayNumber + 3 * rest.length)
      (n := date.dayNumber + 3 * (rest.length + 1 : Nat)) (by omega)
    intro t ht
    rcases List.mem_cons.mp ht with rfl | hmem
    · exact ⟨hvalid, hyears, hfrom⟩
    · obtain ⟨htvalid, htyears, htfrom⟩ := ih hrest hvalid hyears.1 (by omega) t hmem
      exact ⟨htvalid, htyears, by omega⟩

end Dates

section Transactions

theorem IsStream.drawn {config : Config} {pools : Pools} {index : Nat} {date : Date}
    {ts : List Transaction} (h : IsStream config pools index date ts) :
    ∀ t ∈ ts, IsPaycheck pools t ∨ IsPurchase pools config.complexity t := by
  induction ts generalizing index date with
  | nil => simp
  | cons first rest ih =>
    obtain ⟨_, hfirst, hrest⟩ := h
    intro t ht
    rcases List.mem_cons.mp ht with rfl | hmem
    · split at hfirst
      · exact Or.inl hfirst
      · exact Or.inr hfirst
    · exact ih hrest t hmem

theorem isUnescaped_of_mem_payeesFor {account payee : String} (h : payee ∈ payeesFor account) :
    IsUnescaped payee := by
  have hknown : ∀ entry ∈ payees, ∀ name ∈ entry.2, IsUnescaped name := by decide +kernel
  have hother : ∀ name ∈ otherPayees, IsUnescaped name := by decide +kernel
  unfold payeesFor at h
  split at h
  · rename_i word names hfind
    exact hknown (word, names) (List.mem_of_find?_eq_some hfind) payee h
  · exact hother payee h

theorem isCurrency_of_mem_commodities : ∀ c ∈ commodities, isCurrency c = true := by
  decide +kernel

theorem isCurrency_of_mem_currencies (accounts : List String) (count : Nat) :
    ∀ c ∈ (Pools.of accounts (commodityPool count)).currencies, isCurrency c = true := by
  intro c hc
  refine isCurrency_of_mem_commodities c ?_
  simp only [Pools.of, mainCurrencies] at hc
  split at hc
  · exact List.mem_of_mem_take hc
  · exact List.mem_of_mem_take (List.mem_of_mem_take hc)

variable {pools : Pools} {t : Transaction}

/-- A drawn transaction can be read, given that its date can. -/
theorem printable_of_drawn {complexity : Complexity}
    (h : IsPaycheck pools t ∨ IsPurchase pools complexity t)
    (hnames : pools.NamesIn fun name => isAccount name = true)
    (hcurrencies : ∀ c ∈ pools.currencies, isCurrency c = true) (hdate : t.date.Valid)
    (hyear : 0 ≤ t.date.year ∧ t.date.year ≤ 9999) : t.Printable := by
  rcases h with h | h
  · refine ⟨hdate, hyear, ?_, ?_, ?_, by simp [h.category], hnames.assets _ h.account,
      hcurrencies _ h.currency, ?_⟩
    · rw [h.flag]
      decide
    · rw [h.payee]
      decide
    · rw [h.narration]
      decide
    · rcases h.balancing with hmem | ⟨_, heq⟩
      · exact hnames.income _ hmem
      · rw [heq]
        decide
  · have hflags : flags ⊆ flagMarks := by simp [flags, flagMarks]
    have hpayee := isUnescaped_of_mem_payeesFor h.payee
    have haccount := hnames.expenses _ h.account
    refine ⟨hdate, hyear, hflags h.flag, hpayee, ?_, ?_, haccount, hcurrencies _ h.currency,
      hnames.assets _ h.balancing⟩
    · rw [h.narration]
      exact IsUnescaped.append (by decide) hpayee
    · intro c hc
      rw [(h.category c hc).2]
      exact isUnescaped_categoryOf haccount

end Transactions

section Declarations

/-- A character that ends no line. -/
def isInLine (c : Char) : Bool := c != '\n' && c != '\r'

theorem isIntact_of_all {line : List Char} (h : line.all isInLine = true) : IsIntact line := by
  rw [List.all_eq_true] at h
  refine ⟨fun hmem => ?_, fun hlast => ?_⟩
  · exact absurd (h _ hmem) (by decide)
  · exact absurd (h _ (List.mem_of_getLast? hlast)) (by decide)

theorem all_isInLine_toString (n : Nat) : (toString n).toList.all isInLine = true := by
  rw [List.all_eq_true]
  intro c hc
  rw [Nat.toString_eq_repr, Nat.toList_repr] at hc
  have hdigit := isDigit_of_mem_toDigits_ten hc
  simp only [isInLine, Bool.and_eq_true, bne_iff_ne]
  constructor <;> rintro rfl <;> exact absurd hdigit (by decide)

/-- Comments and options contain nothing. -/
theorem prints_headerLines (config : Config) : Prints (headerLines config) [] := by
  have hcount : Prints ["; Benchmark file generated with " ++ toString config.transactions ++
      " transactions"] [] := by
    refine Prints.comment (by simp) (isIntact_of_all ?_)
    simp only [String.toList_append, List.all_append, Bool.and_eq_true]
    exact ⟨⟨by decide, all_isInLine_toString _⟩, by decide⟩
  have hpools : Prints ["; Accounts: " ++ toString config.accounts ++ ", Commodities: " ++
      toString config.commodities] [] := by
    refine Prints.comment (by simp) (isIntact_of_all ?_)
    simp only [String.toList_append, List.all_append, Bool.and_eq_true]
    exact ⟨⟨⟨by decide, all_isInLine_toString _⟩, by decide⟩, all_isInLine_toString _⟩
  have hcomplexity : Prints ["; Complexity: " ++ config.complexity.name] [] := by
    refine Prints.comment (by simp) (isIntact_of_all ?_)
    cases config.complexity <;> decide
  have htitle : Prints ["option \"title\" \"Benchmark Ledger\""] [] :=
    Prints.option "title" "Benchmark Ledger" (by decide +kernel) (by decide)
      (isIntact_of_all (by decide))
  have hcurrency : Prints ["option \"operating_currency\" \"USD\""] [] :=
    Prints.option "operating_currency" "USD" (by decide +kernel) (by decide)
      (isIntact_of_all (by decide))
  exact hcount.append (hpools.append (hcomplexity.append (Prints.blank.append
    (htitle.append (hcurrency.append Prints.blank)))))

/-- A directive on one line. -/
def declaration (date : Date) (content : Content) : Directive := { line := 0, date, content }

/-- The transaction before all others. -/
def openingBalance (date : Date) : Directive :=
  { line := 0, date, content := .transaction '*' none (some "Opening Balance")
    postings := [⟨0, none, "Assets:Bank:Checking", some "10000.00", some "USD"⟩,
      ⟨0, none, "Equity:OpeningBalances", none, none⟩] }

/-- What stands before the transactions. -/
def declarations (config : Config) (accounts : List String) : List Directive :=
  let opening := config.startDate.addDays (-1)
  ((commodityPool config.commodities).map fun c => declaration ⟨1900, 1, 1⟩ (.commodity c)) ++
    (accounts.map fun a => declaration opening (.opening a [])) ++ [openingBalance opening]

theorem prints_declaration {date : Date} {content : Content} {line : String}
    (hdate : date.Valid) (hyear : 0 ≤ date.year ∧ date.year ≤ 9999) (hcontent : content.WellFormed)
    (hline : line.toList = writeAll (declaration date content).headTokens) :
    Prints [line] [declaration date content] :=
  Prints.head ⟨hdate, hyear, hcontent, by simp [declaration], by simp [declaration],
    by simp [declaration]⟩ rfl rfl hline

theorem prints_openingBalance {date : Date} (hdate : date.Valid)
    (hyear : 0 ≤ date.year ∧ date.year ≤ 9999) :
    Prints [date.toText ++ " * \"Opening Balance\"", "  Assets:Bank:Checking  10000.00 USD",
      "  Equity:OpeningBalances", ""] [openingBalance date] := by
  have hbalanced : IsBalanced (openingBalance date) "Assets:Bank:Checking" "10000.00" "USD"
      "Equity:OpeningBalances" :=
    ⟨⟨hdate, hyear, by simp [openingBalance]; decide, by simp only [openingBalance]; decide,
      fun _ => rfl, by simp [openingBalance]⟩, rfl⟩
  have hhead : [date.toText ++ " * \"Opening Balance\""].map String.toList =
      writeAll (openingBalance date).headTokens :: (openingBalance date).metadata.map fun entry =>
        Directive.indent (writeAll (Directive.metadataTokens entry)) := by
    have htokens : (openingBalance date).headTokens =
        [word date.toText, word (String.singleton '*'), text "Opening Balance"] := rfl
    have hmetadata : (openingBalance date).metadata = [] := rfl
    rw [htokens, hmetadata]
    simp [writeAll, write, escaped, List.intercalate]
  exact hbalanced.prints hhead

theorem prints_openingLines (config : Config) {accounts : List String}
    (haccounts : ∀ a ∈ accounts, isAccount a = true)
    (hdate : (config.startDate.addDays (-1)).Valid)
    (hyear : 0 ≤ (config.startDate.addDays (-1)).year ∧
      (config.startDate.addDays (-1)).year ≤ 9999) :
    Prints (openingLines config accounts) (declarations config accounts) := by
  have hcommodities : Prints ((commodityPool config.commodities).map fun c =>
      "1900-01-01 commodity " ++ c)
      ((commodityPool config.commodities).map fun c =>
        declaration ⟨1900, 1, 1⟩ (.commodity c)) := by
    apply Prints.map
    intro c hc
    have hcontent : (Content.commodity c).WellFormed :=
      isCurrency_of_mem_commodities c (List.mem_of_mem_take hc)
    have hday : Date.toText ⟨1900, 1, 1⟩ = "1900-01-01" := by decide +kernel
    refine prints_declaration (by decide) (by decide) hcontent ?_
    simp [declaration, Directive.headTokens, Content.tokens, writeAll, write, List.intercalate,
      hday]
  have hopens : Prints (accounts.map fun a =>
      (config.startDate.addDays (-1)).toText ++ " open " ++ a)
      (accounts.map fun a => declaration (config.startDate.addDays (-1)) (.opening a [])) := by
    apply Prints.map
    intro a ha
    have hcontent : (Content.opening a []).WellFormed := ⟨haccounts a ha, by simp⟩
    refine prints_declaration hdate hyear hcontent ?_
    simp [declaration, Directive.headTokens, Content.tokens, writeAll, write, List.intercalate]
  exact (hcommodities.append (Prints.blank.append hopens)).append
    (Prints.blank.append (prints_openingBalance hdate hyear))

end Declarations

section Ledgers

/-- A valid start such that no day of the ledger leaves the years 0 to 9999. -/
structure Config.InRange (config : Config) : Prop where
  start : config.startDate.Valid
  before : 0 ≤ Date.yearOfDayNumber (config.startDate.dayNumber - 1)
  after : Date.yearOfDayNumber (config.startDate.dayNumber + 3 * config.transactions) ≤ 9999

/-- The directives of a ledger. -/
def ledgerOf (config : Config) (accounts : List String) (ts : List Transaction) :
    List Directive := declarations config accounts ++ ts.map Transaction.directive

/-- What the lines of a ledger are made of. -/
structure IsDrawn (config : Config) (accounts : List String) (ts : List Transaction) : Prop where
  pool : IsAccountPool config.accounts accounts
  length : ts.length = config.transactions
  stream : IsStream config (Pools.of accounts (commodityPool config.commodities)) 0
    config.startDate ts

/-- The accounts and the transactions of a ledger. -/
def drawn (config : Config) : List String × List Transaction :=
  ((draw config).run (Source.ofSeed config.seed)).1

theorem isDrawn_drawn (config : Config) : IsDrawn config (drawn config).1 (drawn config).2 := by
  obtain ⟨haccounts, hlength, hstream⟩ := always_draw config (Source.ofSeed config.seed)
  exact ⟨haccounts, hlength, hstream⟩

theorem lines_eq (config : Config) : lines config = headerLines config ++
    openingLines config (drawn config).1 ++ (drawn config).2.flatMap fun t => t.lines ++ [""] := by
  unfold lines drawn
  generalize (draw config).run (Source.ofSeed config.seed) = drawn
  rfl

/-- The days of a ledger have years of four digits. -/
structure IsDated (config : Config) (ts : List Transaction) : Prop where
  opening : (config.startDate.addDays (-1)).Valid
  openingYear : 0 ≤ (config.startDate.addDays (-1)).year ∧
    (config.startDate.addDays (-1)).year ≤ 9999
  dates : ∀ t ∈ ts, t.date.Valid ∧ (0 ≤ t.date.year ∧ t.date.year ≤ 9999)

variable {config : Config} {accounts : List String} {ts : List Transaction}

/-- The day before the first. -/
theorem opening_of_before (hbefore : 0 ≤ Date.yearOfDayNumber (config.startDate.dayNumber - 1))
    (hyear : Date.yearOfDayNumber (config.startDate.dayNumber - 1) ≤ 9999) :
    (config.startDate.addDays (-1)).Valid ∧
      (0 ≤ (config.startDate.addDays (-1)).year ∧ (config.startDate.addDays (-1)).year ≤ 9999) ∧
      (config.startDate.addDays (-1)).dayNumber = config.startDate.dayNumber - 1 := by
  have hday : config.startDate.addDays (-1) =
      Date.ofDayNumber (config.startDate.dayNumber - 1) := rfl
  have hfits : Date.FitsYear (Date.yearOfDayNumber (config.startDate.dayNumber - 1)) := by
    unfold Date.FitsYear
    omega
  obtain ⟨hvalid, hnumber, hsame⟩ := Date.ofDayNumber_spec hfits
  rw [hday]
  exact ⟨hvalid, by omega, hnumber⟩

theorem Config.InRange.opening (h : config.InRange) :
    (config.startDate.addDays (-1)).Valid ∧
      (0 ≤ (config.startDate.addDays (-1)).year ∧ (config.startDate.addDays (-1)).year ≤ 9999) ∧
      (config.startDate.addDays (-1)).dayNumber = config.startDate.dayNumber - 1 := by
  have hmono := Date.yearOfDayNumber_mono (m := config.startDate.dayNumber - 1)
    (n := config.startDate.dayNumber + 3 * config.transactions) (by omega)
  exact opening_of_before h.before (hmono.trans h.after)

theorem IsDrawn.dates (h : IsDrawn config accounts ts) (hrange : config.InRange) :
    ∀ t ∈ ts, t.date.Valid ∧ (0 ≤ t.date.year ∧ t.date.year ≤ 9999) ∧
      config.startDate.dayNumber ≤ t.date.dayNumber := by
  have hmono := Date.yearOfDayNumber_mono (m := config.startDate.dayNumber - 1)
    (n := config.startDate.dayNumber) (by omega)
  rw [Date.yearOfDayNumber_dayNumber hrange.start] at hmono
  have hbefore := hrange.before
  have hafter := hrange.after
  rw [← h.length] at hafter
  exact h.stream.dates hrange.start (by omega) hafter

theorem IsDrawn.isDated (h : IsDrawn config accounts ts) (hrange : config.InRange) :
    IsDated config ts := by
  obtain ⟨hvalid, hyear, -⟩ := hrange.opening
  refine ⟨hvalid, hyear, fun t ht => ?_⟩
  obtain ⟨htvalid, htyear, -⟩ := h.dates hrange t ht
  exact ⟨htvalid, htyear⟩

/-- The lines of a ledger contain its directives. -/
theorem IsDrawn.prints (h : IsDrawn config accounts ts) (hdated : IsDated config ts) :
    Prints (headerLines config ++ openingLines config accounts ++
      ts.flatMap fun t => t.lines ++ [""]) (ledgerOf config accounts ts) := by
  have hdeclared := prints_openingLines config (fun a ha => h.pool.isAccount ha) hdated.opening
    hdated.openingYear
  have htransactions : Prints (ts.flatMap fun t => t.lines ++ [""])
      (ts.map Transaction.directive) := by
    rw [List.map_eq_flatMap]
    apply Prints.flatMap
    intro t ht
    obtain ⟨htvalid, htyear⟩ := hdated.dates t ht
    exact (printable_of_drawn (h.stream.drawn t ht) (Pools.of_isAccount h.pool _)
      (isCurrency_of_mem_currencies accounts config.commodities) htvalid htyear).prints
  exact ((prints_headerLines config).append hdeclared).append htransactions

/-- Scanning a generated ledger finds what was drawn and no problem. -/
theorem scan_generate_of_isDated (h : IsDated config (drawn config).2) :
    (scan (generate config)).problems = [] ∧
      (scan (generate config)).directives.map Directive.unnumbered =
        (ledgerOf config (drawn config).1 (drawn config).2).map Directive.unnumbered := by
  have hscan := ((isDrawn_drawn config).prints h).scan_join
  rwa [← lines_eq] at hscan

/-- Scanning a generated ledger finds no problem and its directives. -/
theorem scan_generate_eq (hrange : config.InRange) :
    ∃ accounts ts, IsDrawn config accounts ts ∧ (scan (generate config)).problems = [] ∧
      (scan (generate config)).directives.map Directive.unnumbered =
        (ledgerOf config accounts ts).map Directive.unnumbered := by
  have hdrawn := isDrawn_drawn config
  exact ⟨_, _, hdrawn, scan_generate_of_isDated (hdrawn.isDated hrange)⟩

theorem opened?_declarations :
    (declarations config accounts).filterMap Directive.opened? = accounts := by
  have hcommodities : ((commodityPool config.commodities).map fun c =>
      declaration ⟨1900, 1, 1⟩ (.commodity c)).filterMap Directive.opened? = [] := by
    rw [List.filterMap_map, List.filterMap_eq_nil_iff]
    exact fun _ _ => rfl
  have hopens : (accounts.map fun a =>
      declaration (config.startDate.addDays (-1)) (.opening a [])).filterMap
        Directive.opened? = accounts := by
    rw [List.filterMap_map]
    exact List.filterMap_some
  rw [declarations, List.filterMap_append, List.filterMap_append, hcommodities, hopens]
  simp [openingBalance, Directive.opened?]

theorem opened?_ledgerOf :
    (ledgerOf config accounts ts).filterMap Directive.opened? = accounts := by
  have htransactions : (ts.map Transaction.directive).filterMap Directive.opened? = [] := by
    rw [List.filterMap_map, List.filterMap_eq_nil_iff]
    exact fun _ _ => rfl
  rw [ledgerOf, List.filterMap_append, opened?_declarations, htransactions, List.append_nil]

theorem length_ledgerOf :
    (ledgerOf config accounts ts).length =
      min config.commodities 17 + accounts.length + 1 + ts.length := by
  simp only [ledgerOf, declarations, commodityPool, commodities, List.length_append,
    List.length_map, List.length_take, List.length_cons, List.length_nil]

theorem mem_ledgerOf {d : Directive} : d ∈ ledgerOf config accounts ts ↔
    (∃ c ∈ commodityPool config.commodities, d = declaration ⟨1900, 1, 1⟩ (.commodity c)) ∨
      (∃ a ∈ accounts, d = declaration (config.startDate.addDays (-1)) (.opening a [])) ∨
      d = openingBalance (config.startDate.addDays (-1)) ∨ ∃ t ∈ ts, d = t.directive := by
  simp only [ledgerOf, declarations, List.mem_append, List.mem_map, List.mem_singleton,
    or_assoc, eq_comm]

theorem closed?_of_mem_ledgerOf {d : Directive} (h : d ∈ ledgerOf config accounts ts) :
    d.closed? = none := by
  rcases mem_ledgerOf.mp h with ⟨c, _, rfl⟩ | ⟨a, _, rfl⟩ | rfl | ⟨t, _, rfl⟩ <;> rfl

/-- The accounts of the pool are open from the day before the first on. -/
theorem openBy_ledgerOf_iff {account : String} {day : Date} :
    OpenBy (ledgerOf config accounts ts) account day ↔
      account ∈ accounts ∧ config.startDate.addDays (-1) ≤ day := by
  constructor
  · rintro ⟨o, ho, hopened, hday⟩
    rcases mem_ledgerOf.mp ho with ⟨c, _, rfl⟩ | ⟨a, ha, rfl⟩ | rfl | ⟨t, _, rfl⟩
    · contradiction
    · obtain rfl : a = account := Option.some.inj hopened
      exact ⟨ha, hday⟩
    · contradiction
    · contradiction
  · rintro ⟨haccount, hday⟩
    exact ⟨_, mem_ledgerOf.mpr (Or.inr (Or.inl ⟨account, haccount, rfl⟩)), rfl, hday⟩

/-- The accounts of a transaction are in a large enough pool. -/
theorem IsDrawn.accounts_mem (h : IsDrawn config accounts ts) (hlarge : 45 ≤ config.accounts)
    {t : Transaction} (ht : t ∈ ts) : t.account ∈ accounts ∧ t.balancing ∈ accounts := by
  obtain ⟨hnames, hincome⟩ := Pools.of_large h.pool hlarge (commodityPool config.commodities)
  rcases h.stream.drawn t ht with hpaycheck | hpurchase
  · refine ⟨hnames.assets _ hpaycheck.account, ?_⟩
    rcases hpaycheck.balancing with hmem | ⟨hnil, _⟩
    · exact hnames.income _ hmem
    · exact absurd hnil hincome
  · exact ⟨hnames.expenses _ hpurchase.account, hnames.assets _ hpurchase.balancing⟩

/-- The account rules hold in a ledger exactly when its pool is large enough. -/
theorem IsDrawn.violations_eq_nil_iff (h : IsDrawn config accounts ts) (hrange : config.InRange) :
    violations (ledgerOf config accounts ts) = [] ↔ 45 ≤ config.accounts := by
  rw [Ledger.violations_eq_nil_iff fun d hd => closed?_of_mem_ledgerOf hd, opened?_ledgerOf]
  constructor
  · rintro ⟨_, hopen⟩
    have hbalance := hopen _ (mem_ledgerOf.mpr (Or.inr (Or.inr (Or.inl rfl)))) rfl
      "Equity:OpeningBalances" (by simp [openingBalance, Directive.accounts])
    exact h.pool.openingBalances_mem_iff.mp (openBy_ledgerOf_iff.mp hbalance).1
  · intro hlarge
    refine ⟨h.pool.nodup, ?_⟩
    obtain ⟨hvalid, _, hnumber⟩ := hrange.opening
    intro d hd hopened account haccount
    rw [openBy_ledgerOf_iff]
    rcases mem_ledgerOf.mp hd with ⟨c, _, rfl⟩ | ⟨a, _, rfl⟩ | rfl | ⟨t, ht, rfl⟩
    · simp [declaration, Directive.accounts] at haccount
    · contradiction
    · refine ⟨?_, Date.le_refl _⟩
      simp only [openingBalance, Directive.accounts, List.map_cons, List.map_nil, List.mem_cons,
        List.not_mem_nil, or_false] at haccount
      rcases haccount with rfl | rfl
      · exact h.pool.mem_of_large hlarge (by decide +kernel)
      · exact h.pool.openingBalances_mem_iff.mpr hlarge
    · obtain ⟨htvalid, _, hday⟩ := h.dates hrange t ht
      obtain ⟨hfirst, hsecond⟩ := h.accounts_mem hlarge ht
      have hle := (Date.le_iff_dayNumber_le hvalid htvalid).mpr (by omega)
      simp only [Transaction.directive, Directive.accounts, List.map_cons, List.map_nil,
        List.mem_cons, List.not_mem_nil, or_false] at haccount
      rcases haccount with rfl | rfl
      · exact ⟨hfirst, hle⟩
      · exact ⟨hsecond, hle⟩

end Ledgers

/-- A generated ledger is scanned without a problem, with a directive for each
commodity, account and transaction and one for the opening balance. No account is
opened twice, and the account rules hold exactly when there are at least 45
accounts. -/
theorem scan_generate (config : Config) (hstart : config.startDate.Valid)
    (hbefore : 0 ≤ Date.yearOfDayNumber (config.startDate.dayNumber - 1))
    (hafter :
      Date.yearOfDayNumber (config.startDate.dayNumber + 3 * config.transactions) ≤ 9999) :
    (scan (generate config)).problems = [] ∧
      (scan (generate config)).directives.length =
        min config.commodities 17 + config.accounts + 1 + config.transactions ∧
      ((scan (generate config)).directives.filterMap Directive.opened?).Nodup ∧
      (violations (scan (generate config)).directives = [] ↔ 45 ≤ config.accounts) := by
  have hrange : config.InRange := ⟨hstart, hbefore, hafter⟩
  obtain ⟨accounts, ts, hdrawn, hproblems, hdirectives⟩ := scan_generate_eq hrange
  have hlength := congrArg List.length hdirectives
  rw [List.length_map, List.length_map, length_ledgerOf, hdrawn.pool.length_eq,
    hdrawn.length] at hlength
  have hopened := congrArg (List.filterMap Directive.opened?) hdirectives
  rw [List.filterMap_map, List.filterMap_map] at hopened
  have hsame : Directive.opened? ∘ Directive.unnumbered = Directive.opened? := rfl
  rw [hsame, opened?_ledgerOf] at hopened
  refine ⟨hproblems, hlength, ?_, ?_⟩
  · rw [hopened]
    exact hdrawn.pool.nodup
  · rw [violations_eq_nil_congr hdirectives]
    exact hdrawn.violations_eq_nil_iff hrange

/-- The small preset breaks the account rules and the medium one keeps them. -/
theorem scan_generate_presets :
    (scan (generate (Preset.small.apply {}))).directives.length = 124 ∧
      violations (scan (generate (Preset.small.apply {}))).directives ≠ [] ∧
      violations (scan (generate (Preset.medium.apply {}))).directives = [] := by
  obtain ⟨_, hlength, _, hsmall⟩ :=
    scan_generate (Preset.small.apply {}) (by decide) (by decide) (by decide)
  obtain ⟨_, _, _, hmedium⟩ :=
    scan_generate (Preset.medium.apply {}) (by decide) (by decide) (by decide)
  exact ⟨hlength, fun hnil => absurd (hsmall.mp hnil) (by decide), hmedium.mpr (by decide)⟩

end LedgerConformance.Benchmark
