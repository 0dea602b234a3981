import LedgerConformance.Benchmark.Random
import LedgerConformance.Text.Substring

/-!
The names that generated ledgers draw from: accounts by their kind, payees by
the account that is paid for, and commodities.
-/

namespace LedgerConformance.Benchmark

def assetAccounts : List String := [
  "Assets:Bank:Checking", "Assets:Bank:Savings", "Assets:Cash", "Assets:Investment:Brokerage",
  "Assets:Investment:401k", "Assets:Investment:IRA", "Assets:Receivables"]

def liabilityAccounts : List String := [
  "Liabilities:CreditCard:Visa", "Liabilities:CreditCard:Amex", "Liabilities:Mortgage",
  "Liabilities:StudentLoan"]

def incomeAccounts : List String := [
  "Income:Salary", "Income:Bonus", "Income:Interest", "Income:Dividends", "Income:Freelance"]

def expenseAccounts : List String := [
  "Expenses:Food:Groceries", "Expenses:Food:Restaurants", "Expenses:Food:Coffee",
  "Expenses:Transport:Gas", "Expenses:Transport:PublicTransit", "Expenses:Transport:Parking",
  "Expenses:Housing:Rent", "Expenses:Housing:Utilities:Electric",
  "Expenses:Housing:Utilities:Gas", "Expenses:Housing:Utilities:Water",
  "Expenses:Housing:Utilities:Internet", "Expenses:Shopping:Clothing",
  "Expenses:Shopping:Electronics", "Expenses:Shopping:Home", "Expenses:Health:Insurance",
  "Expenses:Health:Medical", "Expenses:Health:Pharmacy", "Expenses:Entertainment:Movies",
  "Expenses:Entertainment:Games", "Expenses:Entertainment:Subscriptions",
  "Expenses:Travel:Flights", "Expenses:Travel:Hotels", "Expenses:Travel:CarRental",
  "Expenses:Education:Books", "Expenses:Education:Courses", "Expenses:Taxes:Federal",
  "Expenses:Taxes:State", "Expenses:Taxes:Property"]

def equityAccounts : List String := [
  "Equity:OpeningBalances", "Equity:Adjustments"]

def accountGroups : List (List String) :=
  [assetAccounts, liabilityAccounts, incomeAccounts, expenseAccounts, equityAccounts]

def baseAccounts : List String := accountGroups.flatten

/-- Payees by a word in the name of the account; the first word that fits counts. -/
def payees : List (String × List String) := [
  ("Groceries", ["Whole Foods", "Trader Joe's", "Safeway", "Costco", "Walmart"]),
  ("Restaurants", ["Chipotle", "Olive Garden", "Local Cafe", "Pizza Hut", "Thai Place"]),
  ("Coffee", ["Starbucks", "Blue Bottle", "Philz Coffee", "Local Roaster"]),
  ("Gas", ["Shell", "Chevron", "Costco Gas", "BP", "Exxon"]),
  ("Clothing", ["Target", "Nordstrom", "Amazon", "Old Navy", "Gap"]),
  ("Electronics", ["Best Buy", "Amazon", "Apple Store", "Newegg"])]

def otherPayees : List String := ["Generic Vendor", "Local Store", "Online Purchase"]

def commodities : List String := [
  "USD", "EUR", "GBP", "JPY", "CAD", "AUD", "CHF", "AAPL", "GOOG", "MSFT", "AMZN", "TSLA",
  "META", "NVDA", "VTI", "VOO", "BND"]

/-- The first `count` commodities, as far as there are so many. -/
def commodityPool (count : Nat) : List String := commodities.take count

/-- Draws sub-accounts, numbered by how many accounts there are before each. -/
def subAccounts : (missing size : Nat) → Draw (List String)
  | 0, _ => return []
  | missing + 1, size => do
    let group ← Draw.pick accountGroups assetAccounts
    let base ← Draw.pick group "Assets:Cash"
    let rest ← subAccounts missing (size + 1)
    return (base ++ ":Sub" ++ toString size) :: rest

/-- The first `count` of the base accounts and as many sub-accounts as it takes. -/
def accountPool (count : Nat) : Draw (List String) := do
  let below ← subAccounts (count - baseAccounts.length) baseAccounts.length
  return (baseAccounts ++ below).take count

def payeesFor (account : String) : List String :=
  match payees.find? fun (word, _) => Text.contains account word with
  | some (_, names) => names
  | none => otherPayees

end LedgerConformance.Benchmark
