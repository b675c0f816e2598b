import Brokerage.Remote.Envelope
import Brokerage.Search.Builder
import Brokerage.Search.Rows
import Brokerage.Settings

namespace Brokerage

/-- A client of one broker, which calls through a channel of type `τ`: its
    settings, the channel, and the tables loaded over it. -/
structure Client (τ : Type) where
  settings : Settings
  channel : τ
  tables : Tables
  loaded : Bool
deriving DecidableEq

/-- A remote operation of a client. -/
abbrev Operation (α : Type) := Dialogue ClientError α

namespace Operation

variable {α : Type}

/-- The record that a value has to write. -/
def decoded (read : Json → Option α) (v : Json) : Operation α :=
  match read v with
  | some a => .result a
  | none => .fail .undecodable

/-- A call whose answer has to be a record. -/
def callAs (read : Json → Option α) (method : String) (params : Json) : Operation α := do
  let answer ← Dialogue.call method params
  decoded read answer

/-- A call with the parameters that a record writes. -/
def callWith (method : String) (params : Json) : Operation Json :=
  Dialogue.call method params.sorted

end Operation

/-- The name of the method that evaluates a search. -/
def searchMethod : String := "Search"

/-- Sends a compiled search. Whatever comes back is the result. -/
def Document.execute {ε : Type} (d : Document) : Dialogue ε ResultSet := do
  let answer ← Dialogue.call searchMethod d.toParams
  return ⟨answer⟩

/-- Compiles and sends a search; one that does not compile is not sent. -/
def Builder.execute {ε : Type} (wrap : SearchError → ε) (b : Builder) : Dialogue ε ResultSet :=
  match b.compile with
  | .ok document => document.execute
  | .error e => .fail (wrap e)

namespace Client

variable {τ α : Type}

/-- A client without tables. -/
def create (settings : Settings) (channel : τ) : Client τ :=
  ⟨settings, channel, .empty, false⟩

/-- Loads both tables, unless they are loaded already. They are loaded once,
    both or neither. -/
def init (c : Client τ) : Operation (Client τ) :=
  if c.loaded then .result c
  else do
    let symbols ← Operation.callAs (Json.asList? SymbolInfo.ofJson?) "SymbolsGet" (.object [])
    let currencies ← Operation.callAs (Json.asList? CurrencyInfo.ofJson?) "CurrenciesGet" (.object [])
    return { c with tables := ⟨symbols, currencies⟩, loaded := true }

/-- A search of the given columns, of the default ones if there are none. -/
def search (_ : Client τ) (columns : List SelectItem) : Builder :=
  Builder.new.select columns

/-- The expression of a computed column. -/
def expression (_ : Client τ) (text : String) : Except ClientError Expression :=
  (Expression.parse text).mapError .search

/-- What is there, or the error for what is missing. -/
def found (e : ClientError) : Option α → Except ClientError α
  | some a => .ok a
  | none => .error e

/-- The symbol that the key selects. -/
def symbol (c : Client τ) (key : LookupKey) : Except ClientError SymbolInfo :=
  found (.symbolNotFound key) (c.tables.symbol? key)

/-- The currency that the key selects. -/
def currency (c : Client τ) (key : LookupKey) : Except ClientError CurrencyInfo :=
  found (.currencyNotFound key) (c.tables.currency? key)

/-- Tells an unknown symbol from an unknown margin currency. -/
def checkMarginCurrency (c : Client τ) (symbol : LookupKey) : Except ClientError Unit := do
  let info ← c.symbol symbol
  let _ ← c.currency (.byId info.marginCurrencyId)
  return ()

/-- The price of a symbol from the server's integer. -/
def priceFromInt (c : Client τ) (symbol : LookupKey) (price : Int64) : Except ClientError Binary64 :=
  found (.symbolNotFound symbol) (c.tables.priceFromInt? symbol price)

/-- The server's integer for a price of a symbol. -/
def priceToInt (c : Client τ) (symbol : LookupKey) (price : Binary64) : Except ClientError Int64 :=
  found (.symbolNotFound symbol) (c.tables.priceToInt? symbol price)

/-- The volume of a symbol from the server's integer. -/
def volumeFromInt (c : Client τ) (symbol : LookupKey) (volume : Int64) : Except ClientError Binary64 := do
  c.checkMarginCurrency symbol
  found (.symbolNotFound symbol) (c.tables.volumeFromInt? symbol volume)

/-- The server's integer for a volume of a symbol. -/
def volumeToInt (c : Client τ) (symbol : LookupKey) (volume : Binary64) : Except ClientError Int64 := do
  c.checkMarginCurrency symbol
  found (.symbolNotFound symbol) (c.tables.volumeToInt? symbol volume)

/-- The amount in a currency from the server's integer. -/
def depositFromInt (c : Client τ) (currency : LookupKey) (amount : Int64) : Except ClientError Binary64 :=
  found (.currencyNotFound currency) (c.tables.depositFromInt? currency amount)

/-- The server's integer for an amount in a currency. -/
def depositToInt (c : Client τ) (currency : LookupKey) (amount : Binary64) : Except ClientError Int64 :=
  found (.currencyNotFound currency) (c.tables.depositToInt? currency amount)

end Client

end Brokerage
