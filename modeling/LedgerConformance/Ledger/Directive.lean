import LedgerConformance.Calendar.Date
import LedgerConformance.Ledger.Name
import LedgerConformance.Ledger.Token

/-!
Dated directives and the postings of transactions, with the rules by which a
line of tokens becomes one of them. Every way in which a line can be wrong is
a constructor of `Problem`.
-/

namespace LedgerConformance.Ledger

/-- What a dated directive says. -/
inductive Content where
  | transaction (flag : Char) (payee narration : Option String)
  | opening (account : String) (currencies : List String)
  | closing (account : String)
  | commodity (currency : String)
  | balance (account number currency : String)
  | pad (account source : String)
  | note (account comment : String)
  | document (account path : String)
  | event (name value : String)
  | query (name query : String)
  | price (currency number quote : String)
  | custom (name : String)
deriving DecidableEq, Repr

/-- One leg of a transaction; an amount may be left out, or have a number
without a currency. -/
structure Posting where
  line : Nat
  flag : Option Char
  account : String
  number : Option String
  currency : Option String
deriving DecidableEq, Repr

/-- A dated directive with the indented lines that belong to it. -/
structure Directive where
  line : Nat
  date : Date
  content : Content
  postings : List Posting := []
  metadata : List (String × String) := []
deriving DecidableEq, Repr

/-- The word that names this kind of directive. -/
def Content.keyword : Content → String
  | .transaction .. => "transaction"
  | .opening .. => "open"
  | .closing .. => "close"
  | .commodity .. => "commodity"
  | .balance .. => "balance"
  | .pad .. => "pad"
  | .note .. => "note"
  | .document .. => "document"
  | .event .. => "event"
  | .query .. => "query"
  | .price .. => "price"
  | .custom .. => "custom"

def Content.isTransaction : Content → Bool
  | .transaction .. => true
  | _ => false

/-- The accounts that a directive names, in source order. -/
def Directive.accounts (d : Directive) : List String :=
  match d.content with
  | .transaction .. => d.postings.map Posting.account
  | .opening account _ | .closing account | .balance account .. | .note account _
  | .document account _ => [account]
  | .pad account source => [account, source]
  | _ => []

/-- Why a line is refused. -/
inductive Problem where
  | unterminatedString
  | unexpectedWord (word : String)
  | unexpectedString
  | malformed (keyword : String)
  | orphanLine
  | strayLine (keyword : String)
  | invalidDate (word : String)
  | missingDirective
  | missingFlag
  | unknownDirective (word : String)
  | headerToken (word : String)
  | tooManyStrings
  | invalidAccount (word : String)
  | missingAccount
  | invalidCurrency (word : String)
  | missingCurrency
  | invalidNumber (word : String)
  | missingNumber
  | missingString (keyword : String)
  | invalidAmount (word : String)
  | stringInPosting
deriving DecidableEq, Repr

def Problem.message : Problem → String
  | unterminatedString => "Unterminated string"
  | unexpectedWord word => "Syntax error: unexpected '" ++ word ++ "'"
  | unexpectedString => "Syntax error: unexpected string"
  | malformed keyword => "Invalid " ++ keyword ++ " directive"
  | orphanLine => "Indented line outside of a directive"
  | strayLine keyword => "Unexpected indented line in " ++ keyword ++ " directive"
  | invalidDate word => "Invalid date '" ++ word ++ "'"
  | missingDirective => "Missing directive after date"
  | missingFlag => "Missing flag in transaction"
  | unknownDirective word => "Unknown directive '" ++ word ++ "'"
  | headerToken word => "Unexpected token '" ++ word ++ "' in transaction header"
  | tooManyStrings => "Too many strings in transaction header"
  | invalidAccount word => "Invalid account name '" ++ word ++ "'"
  | missingAccount => "Expected account name"
  | invalidCurrency word => "Invalid currency '" ++ word ++ "'"
  | missingCurrency => "Expected currency"
  | invalidNumber word => "Invalid number '" ++ word ++ "'"
  | missingNumber => "Expected number"
  | missingString keyword => "Expected string in " ++ keyword ++ " directive"
  | invalidAmount word => "Invalid posting amount '" ++ word ++ "'"
  | stringInPosting => "Unexpected string in posting"

/-- The word at an argument position, if it belongs to a class of words. -/
def wordAt (isOfClass : String → Bool) (invalid : String → Problem) (missing : Problem)
    (args : List Token) (i : Nat) : Except Problem String :=
  match args[i]? with
  | some (.word w) => if isOfClass w then .ok w else .error (invalid w)
  | _ => .error missing

def accountAt (args : List Token) (i : Nat) : Except Problem String :=
  wordAt isAccount .invalidAccount .missingAccount args i

def currencyAt (args : List Token) (i : Nat) : Except Problem String :=
  wordAt isCurrency .invalidCurrency .missingCurrency args i

def numberAt (args : List Token) (i : Nat) : Except Problem String :=
  wordAt isNumber .invalidNumber .missingNumber args i

def stringAt (keyword : String) (args : List Token) (i : Nat) : Except Problem String :=
  match args[i]? with
  | some (.text s) => .ok s
  | _ => .error (.missingString keyword)

/-- The currencies after an account that is opened: a word divided by commas,
of which empty pieces are dropped. -/
def currenciesAt (args : List Token) (i : Nat) : Except Problem (List String) :=
  match args[i]? with
  | some (.word list) =>
    let currencies :=
      ((Text.splitOnChar ',' list.toList).filter (! ·.isEmpty)).map String.ofList
    match currencies.find? (! isCurrency ·) with
    | some bad => .error (.invalidCurrency bad)
    | none => .ok currencies
  | _ => .ok []

/-- The strings of a transaction header, where tags and links are passed over. -/
def headerStrings : List Token → Except Problem (List String)
  | [] => .ok []
  | .text s :: rest => (headerStrings rest).map (s :: ·)
  | .word w :: rest => if isTagOrLink w then headerStrings rest else .error (.headerToken w)

/-- One string is the narration, two are payee and narration. -/
def transactionHeader (flag : Char) (args : List Token) : Except Problem Content :=
  match headerStrings args with
  | .error problem => .error problem
  | .ok [] => .ok (.transaction flag none none)
  | .ok [narration] => .ok (.transaction flag none (some narration))
  | .ok [payee, narration] => .ok (.transaction flag (some payee) (some narration))
  | .ok _ => .error .tooManyStrings

/-- What the keyword and its arguments say, once the keyword is no flag. -/
def contentOfKeyword (keyword : String) (args : List Token) : Except Problem Content := do
  match keyword with
  | "open" => return .opening (← accountAt args 0) (← currenciesAt args 1)
  | "close" => return .closing (← accountAt args 0)
  | "commodity" => return .commodity (← currencyAt args 0)
  | "balance" =>
    return .balance (← accountAt args 0) (← numberAt args 1) (← currencyAt args 2)
  | "pad" => return .pad (← accountAt args 0) (← accountAt args 1)
  | "note" => return .note (← accountAt args 0) (← stringAt "note" args 1)
  | "document" => return .document (← accountAt args 0) (← stringAt "document" args 1)
  | "event" => return .event (← stringAt "event" args 0) (← stringAt "event" args 1)
  | "query" => return .query (← stringAt "query" args 0) (← stringAt "query" args 1)
  | "price" =>
    return .price (← currencyAt args 0) (← numberAt args 1) (← currencyAt args 2)
  | "custom" => return .custom (← stringAt "custom" args 0)
  | other => throw (.unknownDirective other)

/-- Reads the tokens of a line that starts with a date. -/
def Directive.ofTokens (line : Nat) (date : String) (rest : List Token) :
    Except Problem Directive :=
  match Date.ofText? date with
  | none => .error (.invalidDate date)
  | some day =>
    match rest with
    | [] => .error .missingDirective
    | .text _ :: _ => .error .missingFlag
    | .word keyword :: args =>
      let content :=
        if keyword == "txn" then transactionHeader '*' args
        else match flagOf? keyword with
          | some flag => transactionHeader flag args
          | none => contentOfKeyword keyword args
      content.map fun c => { line, date := day, content := c }

/-- A price, a cost or an expression may stand where a number could, and is
passed over. -/
def opensAnnotation (word : String) : Bool :=
  match word.toList with
  | c :: _ => c == '(' || c == '{' || c == '@'
  | [] => false

/-- The flag before a posting and the tokens after it. A flag that is the whole
line is read as an account. -/
def splitPostingFlag : List Token → Option Char × List Token
  | .word w :: next :: rest =>
    match flagOf? w with
    | some flag => (some flag, next :: rest)
    | none => (none, .word w :: next :: rest)
  | tokens => (none, tokens)

/-- Number and currency of a posting, from the tokens after its account. -/
def postingAmount : List Token → Except Problem (Option String × Option String)
  | [] => .ok (none, none)
  | .text _ :: _ => .error .stringInPosting
  | .word w :: rest =>
    if isNumber w then
      match rest with
      | .word c :: _ => .ok (some w, if isCurrency c then some c else none)
      | _ => .ok (some w, none)
    else if opensAnnotation w then .ok (none, none)
    else .error (.invalidAmount w)

/-- Reads the tokens of an indented line as a posting. -/
def Posting.ofTokens (line : Nat) (tokens : List Token) : Except Problem Posting := do
  let (flag, rest) := splitPostingFlag tokens
  let account ← accountAt rest 0
  let (number, currency) ← postingAmount (rest.drop 1)
  return { line, flag, account, number, currency }

end LedgerConformance.Ledger
