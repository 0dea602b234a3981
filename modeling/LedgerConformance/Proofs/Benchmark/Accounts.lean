import LedgerConformance.Proofs.Benchmark.Draws
import LedgerConformance.Proofs.Ledger.WordClasses
import Mathlib.Data.List.Basic

/-!
The accounts of a generated ledger. Sub-accounts end with their number and base
accounts end with a letter, so all of them differ; and a sub-account is an
account, as its last part is a component of its own.
-/

namespace LedgerConformance.Benchmark

open Ledger

/-- An account with one more component is an account. -/
theorem isAccount_append {name : String} {piece : List Char} (hname : isAccount name = true)
    (hpiece : isAccountComponent piece = true) (hcolon : ':' ∉ piece) :
    isAccount (name ++ ":" ++ String.ofList piece) = true := by
  obtain ⟨root, hroot, first, components, hpieces, hall⟩ := exists_pieces_of_isAccount hname
  have hsplit : (name ++ ":" ++ String.ofList piece).toList.splitOn ':' =
      root.toList :: ((first :: components) ++ [piece]) := by
    simp only [String.toList_append, String.toList_ofList, List.append_assoc]
    rw [show ":".toList ++ piece = ':' :: piece from rfl, List.splitOn_append_cons_self, hpieces,
      List.splitOn_eq_singleton hcolon]
    rfl
  unfold isAccount
  rw [Text.splitOnChar_eq_splitOn, hsplit]
  simp only [String.ofList_toList, Bool.and_eq_true, List.contains_iff_mem, List.all_eq_true]
  refine ⟨⟨hroot, by simp⟩, ?_⟩
  intro part hpart
  rcases List.mem_append.mp hpart with hmem | hmem
  · exact hall part hmem
  · rw [List.mem_singleton.mp hmem]
    exact hpiece

/-- The digits that a name ends with, the last one first. -/
def numberAtEnd (name : String) : List Char := name.toList.reverse.takeWhile Char.isDigit

theorem baseAccounts_shape :
    ∀ name ∈ baseAccounts, isAccount name = true ∧ numberAtEnd name = [] := by
  decide +kernel

theorem nodup_baseAccounts : baseAccounts.Nodup := by
  decide +kernel

/-- The last component of a sub-account. -/
def subComponent (n : Nat) : List Char := "Sub".toList ++ Nat.toDigits 10 n

theorem isDigit_of_mem_toDigits_ten {n : Nat} {c : Char} (h : c ∈ Nat.toDigits 10 n) :
    c.isDigit = true := Nat.isDigit_of_mem_toDigits (by omega) (by omega) h

theorem subAccount_eq (base : String) (n : Nat) :
    base ++ ":Sub" ++ toString n = base ++ ":" ++ String.ofList (subComponent n) := by
  rw [← String.toList_inj]
  simp [subComponent]

theorem isAccount_subAccount {base : String} (h : isAccount base = true) (n : Nat) :
    isAccount (base ++ ":Sub" ++ toString n) = true := by
  rw [subAccount_eq]
  apply isAccount_append h
  · have hcomponent : isAccountComponent (subComponent n) =
        (Nat.toDigits 10 n).all fun c => c.isAlphanum || c == '-' := rfl
    rw [hcomponent, List.all_eq_true]
    intro c hc
    rw [Text.isAlphanum_of_isDigit (isDigit_of_mem_toDigits_ten hc), Bool.true_or]
  · intro hcolon
    rcases List.mem_append.mp hcolon with hmem | hmem
    · exact absurd hmem (by decide)
    · exact absurd (isDigit_of_mem_toDigits_ten hmem) (by decide)

theorem numberAtEnd_subAccount (base : String) (n : Nat) :
    numberAtEnd (base ++ ":Sub" ++ toString n) = (Nat.toDigits 10 n).reverse := by
  have hreverse : (base ++ ":Sub" ++ toString n).toList.reverse =
      (Nat.toDigits 10 n).reverse ++ 'b' :: 'u' :: 'S' :: ':' :: base.toList.reverse := by
    simp
  rw [numberAtEnd, hreverse, List.takeWhile_append_of_pos]
  · simp
  · intro c hc
    exact isDigit_of_mem_toDigits_ten (List.mem_reverse.mp hc)

theorem toDigits_ten_injective {m n : Nat} (h : Nat.toDigits 10 m = Nat.toDigits 10 n) :
    m = n := by
  have hvalue := congrArg (Nat.ofDigitChars 10 · 0) h
  simpa using hvalue

namespace AreSubAccounts

variable {size : Nat} {below : List String}

theorem exists_base (h : AreSubAccounts size below) {name : String} (hname : name ∈ below) :
    ∃ base ∈ baseAccounts, ∃ n ≥ size, name = base ++ ":Sub" ++ toString n := by
  induction below generalizing size with
  | nil => simp at hname
  | cons first rest ih =>
    obtain ⟨⟨base, hbase, rfl⟩, hrest⟩ := h
    rcases List.mem_cons.mp hname with rfl | hmem
    · exact ⟨base, hbase, size, Nat.le_refl size, rfl⟩
    · obtain ⟨base', hbase', n, hn, heq⟩ := ih hrest hmem
      exact ⟨base', hbase', n, by omega, heq⟩

theorem nodup (h : AreSubAccounts size below) : below.Nodup := by
  induction below generalizing size with
  | nil => exact List.nodup_nil
  | cons first rest ih =>
    obtain ⟨⟨base, _, rfl⟩, hrest⟩ := h
    refine List.nodup_cons.mpr ⟨?_, ih hrest⟩
    intro hmem
    obtain ⟨base', _, n, hn, heq⟩ := hrest.exists_base hmem
    have hdigits := congrArg numberAtEnd heq
    rw [numberAtEnd_subAccount, numberAtEnd_subAccount, List.reverse_inj] at hdigits
    have hsame := toDigits_ten_injective hdigits
    omega

theorem not_mem_baseAccounts (h : AreSubAccounts size below) {name : String}
    (hname : name ∈ below) : name ∉ baseAccounts := by
  intro hbase
  obtain ⟨base, _, n, _, rfl⟩ := h.exists_base hname
  have hdigits := (baseAccounts_shape _ hbase).2
  rw [numberAtEnd_subAccount, List.reverse_eq_nil_iff] at hdigits
  exact Nat.toDigits_ne_nil hdigits

end AreSubAccounts

namespace IsAccountPool

variable {count : Nat} {accounts : List String}

theorem length_eq (h : IsAccountPool count accounts) : accounts.length = count := by
  obtain ⟨below, hlength, _, rfl⟩ := h
  rw [List.length_take, List.length_append]
  omega

theorem isAccount (h : IsAccountPool count accounts) {name : String} (hname : name ∈ accounts) :
    isAccount name = true := by
  obtain ⟨below, _, hbelow, rfl⟩ := h
  rcases List.mem_append.mp (List.mem_of_mem_take hname) with hbase | hsub
  · exact (baseAccounts_shape name hbase).1
  · obtain ⟨base, hbase, n, _, rfl⟩ := hbelow.exists_base hsub
    exact isAccount_subAccount (baseAccounts_shape base hbase).1 n

theorem nodup (h : IsAccountPool count accounts) : accounts.Nodup := by
  obtain ⟨below, _, hbelow, rfl⟩ := h
  refine List.Nodup.sublist (List.take_sublist _ _) ?_
  refine List.nodup_append.mpr ⟨nodup_baseAccounts, hbelow.nodup, ?_⟩
  rintro name hbase _ hsub rfl
  exact hbelow.not_mem_baseAccounts hsub hbase

/-- A base account is in the pool when it is among the first `count`. -/
theorem mem_iff (h : IsAccountPool count accounts) {name : String} (hname : name ∈ baseAccounts) :
    name ∈ accounts ↔ baseAccounts.idxOf name < count := by
  obtain ⟨below, _, hbelow, rfl⟩ := h
  rw [List.take_append, List.mem_append, ← List.mem_take_iff_idxOf_lt hname]
  constructor
  · rintro (hbase | hsub)
    · exact hbase
    · exact absurd hname (hbelow.not_mem_baseAccounts (List.mem_of_mem_take hsub))
  · exact Or.inl

/-- The account that opening balances come from is in the pools of at least 45. -/
theorem openingBalances_mem_iff (h : IsAccountPool count accounts) :
    "Equity:OpeningBalances" ∈ accounts ↔ 45 ≤ count := by
  have hindex : baseAccounts.idxOf "Equity:OpeningBalances" = 44 := by decide +kernel
  rw [h.mem_iff (by decide +kernel), hindex]
  omega

/-- A pool of at least 45 accounts has all accounts but those of equity. -/
theorem mem_of_large (h : IsAccountPool count accounts) (hcount : 45 ≤ count) {name : String}
    (hname : name ∈ baseAccounts.take 45) : name ∈ accounts := by
  have hbase := List.mem_of_mem_take hname
  have hindex := (List.mem_take_iff_idxOf_lt hbase).mp hname
  exact (h.mem_iff hbase).mpr (by omega)

end IsAccountPool

/-- Accounts that transactions may name. -/
structure Pools.NamesIn (pools : Pools) (P : String → Prop) : Prop where
  assets : ∀ name ∈ pools.assets, P name
  expenses : ∀ name ∈ pools.expenses, P name
  income : ∀ name ∈ pools.income, P name

theorem Pools.of_isAccount {count : Nat} {accounts : List String}
    (h : IsAccountPool count accounts) (pool : List String) :
    (Pools.of accounts pool).NamesIn fun name => isAccount name = true := by
  have hbelow : ∀ root, ∀ name ∈ accounts.filter (Text.startsWith · root),
      isAccount name = true := fun root name hname => h.isAccount (List.mem_of_mem_filter hname)
  have hinstead : ∀ (lacking : Bool) (root instead : String), isAccount instead = true →
      ∀ name ∈ if lacking then [instead] else accounts.filter (Text.startsWith · root),
        isAccount name = true := by
    intro lacking root instead hname
    cases lacking with
    | true => simpa using hname
    | false => exact hbelow root
  exact ⟨hinstead _ _ _ (by decide), hinstead _ _ _ (by decide), hbelow _⟩

/-- A large enough pool has all accounts that are drawn, and there is income to draw. -/
theorem Pools.of_large {count : Nat} {accounts : List String} (h : IsAccountPool count accounts)
    (hcount : 45 ≤ count) (pool : List String) :
    (Pools.of accounts pool).NamesIn (· ∈ accounts) ∧ (Pools.of accounts pool).income ≠ [] := by
  have hmem : ∀ root name, name ∈ baseAccounts.take 45 → Text.startsWith name root = true →
      accounts.filter (Text.startsWith · root) ≠ [] := by
    intro root name hname hroot
    exact List.ne_nil_of_mem (List.mem_filter.mpr ⟨h.mem_of_large hcount hname, hroot⟩)
  have hassets := hmem "Assets:" "Assets:Cash" (by decide +kernel) (by decide)
  have hexpenses := hmem "Expenses:" "Expenses:Food:Coffee" (by decide +kernel) (by decide)
  have hincome := hmem "Income:" "Income:Salary" (by decide +kernel) (by decide)
  have hlacking : ((accounts.filter (Text.startsWith · "Assets:")).isEmpty ||
      (accounts.filter (Text.startsWith · "Expenses:")).isEmpty) = false := by
    simp only [Bool.or_eq_false_iff, List.isEmpty_eq_false_iff]
    exact ⟨hassets, hexpenses⟩
  have hpools : Pools.of accounts pool =
      { assets := accounts.filter (Text.startsWith · "Assets:")
        expenses := accounts.filter (Text.startsWith · "Expenses:")
        income := accounts.filter (Text.startsWith · "Income:")
        currencies := mainCurrencies pool } := by
    simp only [Pools.of, hlacking]
    rfl
  rw [hpools]
  exact ⟨⟨fun _ => List.mem_of_mem_filter, fun _ => List.mem_of_mem_filter,
    fun _ => List.mem_of_mem_filter⟩, hincome⟩

end LedgerConformance.Benchmark
