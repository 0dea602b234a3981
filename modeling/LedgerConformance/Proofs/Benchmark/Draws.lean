import LedgerConformance.Benchmark.Ledger

/-!
What draws come to, from every source. A draw satisfies a property when its
value does whatever the state of the source is, so the pieces of a generated
ledger are known without knowing the seed: which accounts there are, what each
transaction is made of, and how the dates go on.
-/

namespace LedgerConformance.Benchmark

namespace Draw

variable {α β : Type}

/-- What is drawn satisfies `P`, from every source. -/
def Always (m : Draw α) (P : α → Prop) : Prop := ∀ s, P (m.run s).1

theorem Always.pure {a : α} {P : α → Prop} (h : P a) : Always (Pure.pure a) P := fun _ => h

theorem Always.bind {m : Draw α} {f : α → Draw β} {P : α → Prop} {Q : β → Prop}
    (hm : Always m P) (hf : ∀ a, P a → Always (f a) Q) : Always (m >>= f) Q :=
  fun s => hf _ (hm s) _

theorem Always.mono {m : Draw α} {P Q : α → Prop} (hm : Always m P) (h : ∀ a, P a → Q a) :
    Always m Q := fun s => h _ (hm s)

theorem always_between {low high : Nat} (h : low ≤ high) :
    Always (between low high) fun n => low ≤ n ∧ n ≤ high := by
  intro s
  have hmod : (word.run s).1.toNat % (high - low + 1) < high - low + 1 :=
    Nat.mod_lt _ (Nat.succ_pos _)
  show low ≤ low + (word.run s).1.toNat % (high - low + 1) ∧
    low + (word.run s).1.toNat % (high - low + 1) ≤ high
  omega

/-- One of some items is drawn; the default only stands in when there is none. -/
theorem always_pick (items : List α) (default : α) :
    Always (pick items default) fun a => a ∈ items ∨ items = [] ∧ a = default := by
  intro s
  by_cases hnil : items = []
  · subst hnil
    exact Or.inr ⟨rfl, rfl⟩
  · have hpick : ((pick items default).run s).1 =
        (items[(word.run s).1.toNat % items.length]?).getD default := by
      simp [pick, pick?, hnil]
      rfl
    have hlt : (word.run s).1.toNat % items.length < items.length :=
      Nat.mod_lt _ (List.length_pos_iff.mpr hnil)
    rw [hpick, List.getElem?_eq_getElem hlt, Option.getD_some]
    exact Or.inl (List.getElem_mem hlt)

theorem always_pick_mem {items : List α} (hne : items ≠ []) (default : α) :
    Always (pick items default) (· ∈ items) :=
  (always_pick items default).mono fun _ ha => ha.resolve_right fun h => hne h.1

end Draw

open Draw

/-- Sub-accounts that are numbered from `size` on. -/
def AreSubAccounts : (size : Nat) → List String → Prop
  | _, [] => True
  | size, name :: rest =>
    (∃ base ∈ baseAccounts, name = base ++ ":Sub" ++ toString size) ∧
      AreSubAccounts (size + 1) rest

theorem always_subAccounts (missing size : Nat) :
    Always (subAccounts missing size) fun below =>
      below.length = missing ∧ AreSubAccounts size below := by
  induction missing generalizing size with
  | zero => exact Always.pure ⟨rfl, trivial⟩
  | succ missing ih =>
    have hgroups : accountGroups ≠ [] := by simp [accountGroups]
    have hgroup : ∀ group ∈ accountGroups, group ≠ [] := by decide
    refine (always_pick_mem hgroups _).bind fun group hmem => ?_
    refine (always_pick_mem (hgroup group hmem) _).bind fun base hbase => ?_
    refine (ih (size + 1)).bind fun below ⟨hlength, hbelow⟩ => ?_
    refine Always.pure ⟨by rw [List.length_cons, hlength], ⟨base, ?_, rfl⟩, hbelow⟩
    exact List.mem_flatten.mpr ⟨group, hmem, hbase⟩

/-- The accounts of a ledger: the first of the base accounts, and sub-accounts when
these do not suffice. -/
def IsAccountPool (count : Nat) (accounts : List String) : Prop :=
  ∃ below, below.length = count - baseAccounts.length ∧
    AreSubAccounts baseAccounts.length below ∧ accounts = (baseAccounts ++ below).take count

theorem always_accountPool (count : Nat) : Always (accountPool count) (IsAccountPool count) := by
  refine (always_subAccounts _ _).bind fun below ⟨hlength, hbelow⟩ => ?_
  exact Always.pure ⟨below, hlength, hbelow, rfl⟩

/-- Pools that purchases can be drawn from. -/
structure Pools.Stocked (pools : Pools) : Prop where
  assets : pools.assets ≠ []
  expenses : pools.expenses ≠ []
  currencies : pools.currencies ≠ []

theorem Pools.of_stocked (accounts : List String) (count : Nat) :
    (Pools.of accounts (commodityPool count)).Stocked := by
  constructor
  · simp only [Pools.of]
    split
    · simp
    · rename_i h
      simp only [Bool.or_eq_true, not_or] at h
      simpa using h.1
  · simp only [Pools.of]
    split
    · simp
    · rename_i h
      simp only [Bool.or_eq_true, not_or] at h
      simpa using h.2
  · simp only [Pools.of, mainCurrencies]
    split
    · simp [commodities]
    · rename_i h
      simpa using h

theorem payeesFor_ne_nil (account : String) : payeesFor account ≠ [] := by
  have hknown : ∀ entry ∈ payees, entry.2 ≠ [] := by decide
  unfold payeesFor
  split
  · rename_i word names hfind
    exact hknown (word, names) (List.mem_of_find?_eq_some hfind)
  · simp [otherPayees]

/-- A purchase: an amount on an expense account that an asset account pays. -/
structure IsPurchase (pools : Pools) (complexity : Complexity) (t : Transaction) : Prop where
  flag : t.flag ∈ flags
  payee : t.payee ∈ payeesFor t.account
  narration : t.narration = "Purchase at " ++ t.payee
  category : ∀ c ∈ t.category, complexity = .high ∧ c = categoryOf t.account
  account : t.account ∈ pools.expenses
  cents : complexity.amounts.1 ≤ t.cents ∧ t.cents ≤ complexity.amounts.2
  currency : t.currency ∈ pools.currencies
  balancing : t.balancing ∈ pools.assets

/-- A paycheck: an amount on an asset account that comes from an income account. -/
structure IsPaycheck (pools : Pools) (t : Transaction) : Prop where
  flag : t.flag = '*'
  payee : t.payee = "Employer"
  narration : t.narration = "Paycheck"
  category : t.category = none
  account : t.account ∈ pools.assets
  cents : 200000 ≤ t.cents ∧ t.cents ≤ 800000
  currency : t.currency ∈ pools.currencies
  balancing : t.balancing ∈ pools.income ∨ pools.income = [] ∧ t.balancing = "Income:Salary"

theorem always_drawCategory (complexity : Complexity) (account : String) :
    Always (drawCategory complexity account) fun category =>
      ∀ c ∈ category, complexity = .high ∧ c = categoryOf account := by
  unfold drawCategory
  split
  · rename_i hhigh
    refine Always.bind (P := fun _ => True) (fun _ => trivial) fun given _ => ?_
    refine Always.pure ?_
    intro c hc
    refine ⟨by simpa using hhigh, ?_⟩
    split at hc
    · exact (Option.some.inj hc).symm
    · contradiction
  · exact Always.pure (by simp)

theorem always_purchase {pools : Pools} (h : pools.Stocked) (date : Date)
    (complexity : Complexity) :
    Always (purchase date pools complexity) fun t =>
      t.date = date ∧ IsPurchase pools complexity t := by
  have hamounts : complexity.amounts.1 ≤ complexity.amounts.2 := by cases complexity <;> decide
  have hflags : flags ≠ [] := by simp [flags]
  refine (always_pick_mem h.expenses _).bind fun account haccount => ?_
  refine (always_pick_mem h.assets _).bind fun balancing hbalancing => ?_
  refine (always_pick_mem (payeesFor_ne_nil account) _).bind fun payee hpayee => ?_
  refine (always_pick_mem h.currencies _).bind fun currency hcurrency => ?_
  refine (always_between hamounts).bind fun cents hcents => ?_
  refine (always_pick_mem hflags _).bind fun flag hflag => ?_
  refine (always_drawCategory complexity account).bind fun category hcategory => ?_
  exact Always.pure
    ⟨rfl, hflag, hpayee, rfl, hcategory, haccount, hcents, hcurrency, hbalancing⟩

theorem always_paycheck {pools : Pools} (h : pools.Stocked) (date : Date) :
    Always (paycheck date pools) fun t => t.date = date ∧ IsPaycheck pools t := by
  refine (always_pick pools.income _).bind fun balancing hbalancing => ?_
  refine (always_pick_mem h.assets _).bind fun account haccount => ?_
  refine (always_pick_mem h.currencies _).bind fun currency hcurrency => ?_
  refine (always_between (by decide)).bind fun cents hcents => ?_
  exact Always.pure ⟨rfl, rfl, rfl, rfl, rfl, haccount, hcents, hcurrency, hbalancing⟩

/-- A date on which the next transaction may be. -/
def MayFollow (date next : Date) : Prop :=
  next = date ∨ ∃ days : Nat, 1 ≤ days ∧ days ≤ 3 ∧ next = date.addDays days

theorem always_nextDate (date : Date) : Always (nextDate date) (MayFollow date) := by
  refine Always.bind (P := fun _ => True) (fun _ => trivial) fun moves _ => ?_
  cases moves with
  | true =>
    refine (always_between (by decide)).bind fun days hdays => ?_
    exact Always.pure (Or.inr ⟨days, hdays.1, hdays.2, rfl⟩)
  | false => exact Always.pure (Or.inl rfl)

/-- Transactions that follow `index` others, the last of them on `date`. -/
def IsStream (config : Config) (pools : Pools) :
    (index : Nat) → Date → List Transaction → Prop
  | _, _, [] => True
  | index, date, t :: rest =>
    MayFollow date t.date ∧
      (if index % 30 = 0 then IsPaycheck pools t else IsPurchase pools config.complexity t) ∧
      IsStream config pools (index + 1) t.date rest

theorem always_transactionsFrom (config : Config) {pools : Pools} (h : pools.Stocked)
    (count index : Nat) (date : Date) (done : List Transaction) :
    Always (transactionsFrom config pools count index date done) fun ts =>
      ∃ rest, ts = done.reverse ++ rest ∧ rest.length = count ∧
        IsStream config pools index date rest := by
  induction count generalizing index date done with
  | zero => exact Always.pure ⟨[], by simp, rfl, trivial⟩
  | succ count ih =>
    refine (always_nextDate date).bind fun next hnext => ?_
    have hgoOn : ∀ t, t.date = next → (if index % 30 = 0 then IsPaycheck pools t
        else IsPurchase pools config.complexity t) →
        Always (transactionsFrom config pools count (index + 1) next (t :: done)) fun ts =>
          ∃ rest, ts = done.reverse ++ rest ∧ rest.length = count + 1 ∧
            IsStream config pools index date rest := by
      rintro t rfl ht
      refine (ih (index + 1) t.date (t :: done)).mono ?_
      rintro ts ⟨rest, rfl, hlength, hrest⟩
      exact ⟨t :: rest, by simp, by rw [List.length_cons, hlength], hnext, ht, hrest⟩
    by_cases hindex : index % 30 = 0
    · rw [if_pos (by simpa using hindex)]
      refine (always_paycheck h next).bind fun t ⟨hdate, ht⟩ => hgoOn t hdate ?_
      rwa [if_pos hindex]
    · rw [if_neg (by simpa using hindex)]
      refine (always_purchase h next config.complexity).bind fun t ⟨hdate, ht⟩ => hgoOn t hdate ?_
      rwa [if_neg hindex]

/-- What is drawn for a configuration. -/
theorem always_draw (config : Config) :
    Always (draw config) fun drawn =>
      IsAccountPool config.accounts drawn.1 ∧ drawn.2.length = config.transactions ∧
        IsStream config (Pools.of drawn.1 (commodityPool config.commodities)) 0
          config.startDate drawn.2 := by
  refine (always_accountPool config.accounts).bind fun accounts haccounts => ?_
  have hstocked := Pools.of_stocked accounts config.commodities
  refine (always_transactionsFrom config hstocked config.transactions 0 config.startDate
    []).bind ?_
  rintro ts ⟨rest, rfl, hlength, hrest⟩
  exact Always.pure ⟨haccounts, by simpa using hlength, by simpa using hrest⟩

end LedgerConformance.Benchmark
