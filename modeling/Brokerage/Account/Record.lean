import Brokerage.Json.Record

namespace Brokerage

/-- The kinds of account numbers. -/
inductive AccountNumberKind where
  | test
  | real
  | demo
  | tis
  | invest
deriving DecidableEq, Repr

namespace AccountNumberKind

/-- The server's number for the kind. -/
def code : AccountNumberKind → Int64
  | test => 0
  | real => 1
  | demo => 2
  | tis => 3
  | invest => 4

/-- The name of the kind. -/
def name : AccountNumberKind → String
  | test => "Test"
  | real => "Real"
  | demo => "Demo"
  | tis => "Tis"
  | invest => "Invest"

/-- The kinds in the order of their numbers. -/
def all : List AccountNumberKind := [test, real, demo, tis, invest]

/-- The kind with the given number. -/
def ofCode? (code : Int64) : Option AccountNumberKind :=
  all.find? fun k => k.code = code

/-- The words for a number that no kind has. -/
def unknownMessage (code : Int64) : String :=
  "unknown account number type " ++ toString code.toInt

def ofJson? (v : Json) : Option AccountNumberKind :=
  v.asInt64?.bind ofCode?

def toJson (k : AccountNumberKind) : Json :=
  .ofInt64 k.code

end AccountNumberKind

/-- The id of an account or an account number. -/
structure IdParams where
  id : Int64
deriving DecidableEq

def IdParams.toJson (p : IdParams) : Json :=
  .object [("Id", .ofInt64 p.id)]

def IdParams.ofJson? (v : Json) : Option IdParams := do
  let members ← Record.read? [.named "Id"] v
  return ⟨← Record.required Json.asInt64? "Id" members⟩

/-- The names of the symbols to quote. -/
structure QuotesParams where
  symbols : List String
deriving DecidableEq

def QuotesParams.toJson (p : QuotesParams) : Json :=
  .object [("Symbols", .array (p.symbols.map Json.string))]

def QuotesParams.ofJson? (v : Json) : Option QuotesParams := do
  let members ← Record.read? [.named "Symbols"] v
  return ⟨← Record.required (Json.asList? Json.asString?) "Symbols" members⟩

/-- A client account to open. The server needs no more than an email and a
    name. -/
structure NewAccount where
  name : String := ""
  email : String := ""
  agentAccount : Option Int64 := none
  country : String := ""
  city : String := ""
  phone : String := ""
  state : String := ""
  zipCode : String := ""
  address : String := ""
  comment : String := ""
deriving DecidableEq

namespace NewAccount

def fields : List Record.Field :=
  ["Name", "Email", "AgentAccount", "Country", "City", "Phone", "State", "ZipCode", "Address", "Comment"].map
    Record.Field.named

/-- An account with an email and a name, all else empty. -/
def ofEmail (email name : String) : NewAccount :=
  { email, name }

/-- The account as a value. A missing agent is written as null. -/
def toJson (a : NewAccount) : Json :=
  .object [("Name", .string a.name), ("Email", .string a.email),
    ("AgentAccount", (a.agentAccount.map Json.ofInt64).getD .null), ("Country", .string a.country),
    ("City", .string a.city), ("Phone", .string a.phone), ("State", .string a.state),
    ("ZipCode", .string a.zipCode), ("Address", .string a.address), ("Comment", .string a.comment)]

def ofJson? (v : Json) : Option NewAccount := do
  let members ← Record.read? fields v
  let text (name : String) := Record.required Json.asString? name members
  return {
    name := ← text "Name"
    email := ← text "Email"
    agentAccount := ← Record.optional Json.asInt64? "AgentAccount" members
    country := ← text "Country"
    city := ← text "City"
    phone := ← text "Phone"
    state := ← text "State"
    zipCode := ← text "ZipCode"
    address := ← text "Address"
    comment := ← text "Comment" }

end NewAccount

/-- An account number to open under an account. -/
structure NewAccountNumber where
  accountId : Int64
  leverage : Int64
  settingsTemplate : String
  displayName : String
  tags : List String
  kind : AccountNumberKind
deriving DecidableEq

namespace NewAccountNumber

def fields : List Record.Field :=
  ["AccountId", "Leverage", "SettingsTemplate", "DisplayName", "Tags", "Type"].map Record.Field.named

def toJson (n : NewAccountNumber) : Json :=
  .object [("AccountId", .ofInt64 n.accountId), ("Leverage", .ofInt64 n.leverage),
    ("SettingsTemplate", .string n.settingsTemplate), ("DisplayName", .string n.displayName),
    ("Tags", .array (n.tags.map Json.string)), ("Type", n.kind.toJson)]

def ofJson? (v : Json) : Option NewAccountNumber := do
  let members ← Record.read? fields v
  return {
    accountId := ← Record.required Json.asInt64? "AccountId" members
    leverage := ← Record.required Json.asInt64? "Leverage" members
    settingsTemplate := ← Record.required Json.asString? "SettingsTemplate" members
    displayName := ← Record.required Json.asString? "DisplayName" members
    tags := ← Record.defaulted [] (Json.asList? Json.asString?) "Tags" members
    kind := ← Record.required AccountNumberKind.ofJson? "Type" members }

end NewAccountNumber

/-- The session that a trading password opens. -/
def traderSession : Int64 := 0

/-- The session that a withdrawal password opens. -/
def withdrawSession : Int64 := 4

/-- A password to set. -/
structure PasswordSetParams where
  accountId : Int64
  login : Json
  password : String
  session : Int64
deriving DecidableEq

namespace PasswordSetParams

def fields : List Record.Field :=
  ["AccountId", "Login", "Password", "SessionType"].map Record.Field.named

def toJson (p : PasswordSetParams) : Json :=
  .object [("AccountId", .ofInt64 p.accountId), ("Login", p.login), ("Password", .string p.password),
    ("SessionType", .ofInt64 p.session)]

def ofJson? (v : Json) : Option PasswordSetParams := do
  let members ← Record.read? fields v
  return {
    accountId := ← Record.required Json.asInt64? "AccountId" members
    login := ← Record.required some "Login" members
    password := ← Record.required Json.asString? "Password" members
    session := ← Record.required Json.asInt64? "SessionType" members }

end PasswordSetParams

/-- A password to check. -/
structure PasswordCheckParams where
  login : Json
  password : String
  session : Int64
deriving DecidableEq

namespace PasswordCheckParams

def fields : List Record.Field :=
  ["Login", "Password", "SessionType"].map Record.Field.named

def toJson (p : PasswordCheckParams) : Json :=
  .object [("Login", p.login), ("Password", .string p.password), ("SessionType", .ofInt64 p.session)]

def ofJson? (v : Json) : Option PasswordCheckParams := do
  let members ← Record.read? fields v
  return {
    login := ← Record.required some "Login" members
    password := ← Record.required Json.asString? "Password" members
    session := ← Record.required Json.asInt64? "SessionType" members }

end PasswordCheckParams

/-- The account numbers whose money is asked for, and the currency to write it
    in. -/
structure MoneyInfoParams where
  accountNumbers : List Int64
  currency : Option String
deriving DecidableEq

namespace MoneyInfoParams

def fields : List Record.Field :=
  ["AccountNumbers", "Currency"].map Record.Field.named

def toJson (p : MoneyInfoParams) : Json :=
  .object (Record.member "AccountNumbers" (.array (p.accountNumbers.map Json.ofInt64)) ++
    Record.memberIfSome Json.string "Currency" p.currency)

def ofJson? (v : Json) : Option MoneyInfoParams := do
  let members ← Record.read? fields v
  return {
    accountNumbers := ← Record.required (Json.asList? Json.asInt64?) "AccountNumbers" members
    currency := ← Record.optional Json.asString? "Currency" members }

end MoneyInfoParams

/-- A balance, bonus or credit operation on an account number. -/
structure BalanceParams where
  accountNumberId : Int64
  amount : Int64
  comment : String
deriving DecidableEq

namespace BalanceParams

def fields : List Record.Field :=
  ["AccountNumberId", "Amount", "Comment"].map Record.Field.named

def toJson (p : BalanceParams) : Json :=
  .object [("AccountNumberId", .ofInt64 p.accountNumberId), ("Amount", .ofInt64 p.amount),
    ("Comment", .string p.comment)]

def ofJson? (v : Json) : Option BalanceParams := do
  let members ← Record.read? fields v
  return {
    accountNumberId := ← Record.required Json.asInt64? "AccountNumberId" members
    amount := ← Record.required Json.asInt64? "Amount" members
    comment := ← Record.required Json.asString? "Comment" members }

end BalanceParams

end Brokerage
