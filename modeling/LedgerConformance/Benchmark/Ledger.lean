import LedgerConformance.Benchmark.Pool
import LedgerConformance.Calendar.Date
import LedgerConformance.Text.Lowercase

/-!
Synthetic ledgers: declarations, an opening balance, and purchases with a
paycheck every thirty transactions. The text depends on nothing but the
configuration.
-/

namespace LedgerConformance.Benchmark

inductive Complexity where
  | low
  | medium
  | high
deriving DecidableEq, Repr

namespace Complexity

def all : List Complexity := [low, medium, high]

def name : Complexity → String
  | low => "low"
  | medium => "medium"
  | high => "high"

def ofName? (s : String) : Option Complexity := all.find? (·.name == s)

/-- The least and the greatest amount of a purchase in cents. -/
def amounts : Complexity → Nat × Nat
  | low => (500, 10000)
  | medium => (1000, 50000)
  | high => (100, 1000000)

end Complexity

structure Config where
  transactions : Nat := 10000
  accounts : Nat := 100
  commodities : Nat := 5
  startDate : Date := ⟨2020, 1, 1⟩
  complexity : Complexity := .medium
  seed : UInt64 := 42
deriving DecidableEq, Repr

/-- Named scales. -/
inductive Preset where
  | small
  | medium
  | large
  | huge
deriving DecidableEq, Repr

namespace Preset

def all : List Preset := [small, medium, large, huge]

def name : Preset → String
  | small => "small"
  | medium => "medium"
  | large => "large"
  | huge => "huge"

def ofName? (s : String) : Option Preset := all.find? (·.name == s)

/-- Sets the three counts of a configuration. -/
def apply (p : Preset) (c : Config) : Config :=
  match p with
  | small => { c with transactions := 100, accounts := 20, commodities := 3 }
  | medium => { c with transactions := 10000, accounts := 100, commodities := 5 }
  | large => { c with transactions := 100000, accounts := 200, commodities := 10 }
  | huge => { c with transactions := 1000000, accounts := 500, commodities := 20 }

end Preset

/-- A transaction with an amount on its first account and the rest on its second. -/
structure Transaction where
  date : Date
  flag : Char
  payee : String
  narration : String
  category : Option String := none
  account : String
  cents : Nat
  currency : String
  balancing : String
deriving DecidableEq, Repr

/-- An amount with two decimals. -/
def centsText (n : Nat) : String := toString (n / 100) ++ "." ++ Date.padded 2 (n % 100)

def Transaction.lines (t : Transaction) : List String :=
  (t.date.toText ++ " " ++ String.singleton t.flag ++ " \"" ++ t.payee ++ "\" \"" ++ t.narration ++
      "\"") ::
    ((t.category.map fun c => "  category: \"" ++ c ++ "\"").toList ++
      ["  " ++ t.account ++ "  " ++ centsText t.cents ++ " " ++ t.currency, "  " ++ t.balancing])

/-- What transactions draw from. -/
structure Pools where
  assets : List String
  expenses : List String
  income : List String
  currencies : List String
deriving DecidableEq, Repr

/-- At most three currencies are used, and at least one. -/
def mainCurrencies (pool : List String) : List String :=
  if pool.isEmpty then commodities.take 1 else pool.take 3

def Pools.of (accounts pool : List String) : Pools :=
  let below (root : String) := accounts.filter (Text.startsWith · root)
  let (assets, expenses) := (below "Assets:", below "Expenses:")
  let lacking := assets.isEmpty || expenses.isEmpty
  { assets := if lacking then ["Assets:Checking"] else assets
    expenses := if lacking then ["Expenses:Misc"] else expenses
    income := below "Income:"
    currencies := mainCurrencies pool }

/-- Three of ten. -/
def threeTenths : Binary64 := (Binary64.ofRatio? false 3 10).getD (Binary64.zero false)

/-- Three flags of four mark a transaction as complete. -/
def flags : List Char := ['*', '*', '*', '!']

/-- The last part of the name of an account in small letters. -/
def categoryOf (account : String) : String :=
  Text.lower (String.ofList (Text.afterLast ':' account.toList))

def drawCategory (complexity : Complexity) (account : String) : Draw (Option String) :=
  if complexity == .high then do
    return if ← Draw.chance threeTenths then some (categoryOf account) else none
  else return none

def purchase (date : Date) (pools : Pools) (complexity : Complexity) : Draw Transaction := do
  let account ← Draw.pick pools.expenses "Expenses:Misc"
  let balancing ← Draw.pick pools.assets "Assets:Checking"
  let payee ← Draw.pick (payeesFor account) "Generic Vendor"
  let currency ← Draw.pick pools.currencies "USD"
  let cents ← Draw.between complexity.amounts.1 complexity.amounts.2
  let flag ← Draw.pick flags '*'
  let category ← drawCategory complexity account
  return { date, flag, payee, narration := "Purchase at " ++ payee, category, account, cents
           currency, balancing }

def paycheck (date : Date) (pools : Pools) : Draw Transaction := do
  let balancing ← Draw.pick pools.income "Income:Salary"
  let account ← Draw.pick pools.assets "Assets:Checking"
  let currency ← Draw.pick pools.currencies "USD"
  let cents ← Draw.between 200000 800000
  return { date, flag := '*', payee := "Employer", narration := "Paycheck", account, cents
           currency, balancing }

/-- The date of the next transaction: the same, or one to three days later. -/
def nextDate (date : Date) : Draw Date := do
  if ← Draw.chance threeTenths then return date.addDays (← Draw.between 1 3) else return date

/-- Draws `count` transactions that follow `index` others; `done` has those
before in reverse. -/
def transactionsFrom (config : Config) (pools : Pools) :
    (count index : Nat) → Date → List Transaction → Draw (List Transaction)
  | 0, _, _, done => return done.reverse
  | count + 1, index, date, done => do
    let date ← nextDate date
    let t ← if index % 30 == 0 then paycheck date pools
      else purchase date pools config.complexity
    transactionsFrom config pools count (index + 1) date (t :: done)

/-- The accounts and transactions of a configuration. -/
def draw (config : Config) : Draw (List String × List Transaction) := do
  let accounts ← accountPool config.accounts
  let pools := Pools.of accounts (commodityPool config.commodities)
  let transactions ← transactionsFrom config pools config.transactions 0 config.startDate []
  return (accounts, transactions)

def headerLines (config : Config) : List String :=
  ["; Benchmark file generated with " ++ toString config.transactions ++ " transactions",
    "; Accounts: " ++ toString config.accounts ++ ", Commodities: " ++
      toString config.commodities,
    "; Complexity: " ++ config.complexity.name, "", "option \"title\" \"Benchmark Ledger\"",
    "option \"operating_currency\" \"USD\"", ""]

/-- The declarations and the opening balance, on the day before the first. -/
def openingLines (config : Config) (accounts : List String) : List String :=
  let opening := (config.startDate.addDays (-1)).toText
  ((commodityPool config.commodities).map fun c => "1900-01-01 commodity " ++ c) ++ "" ::
    (accounts.map fun a => opening ++ " open " ++ a) ++
    ["", opening ++ " * \"Opening Balance\"", "  Assets:Bank:Checking  10000.00 USD",
      "  Equity:OpeningBalances", ""]

def lines (config : Config) : List String :=
  let ((accounts, transactions), _) := (draw config).run (Source.ofSeed config.seed)
  headerLines config ++ openingLines config accounts ++
    transactions.flatMap fun t => t.lines ++ [""]

/-- The ledger of a configuration. -/
def generate (config : Config) : String := String.join ((lines config).map (· ++ "\n"))

end LedgerConformance.Benchmark
