import Brokerage.Market.Record
import Brokerage.Scaling

namespace Brokerage

/-- How a row is looked up. -/
inductive LookupKey where
  | byId (id : Int64)
  | byName (name : String)
deriving DecidableEq

/-- The key in words: a number sign and the id, or the name. -/
def LookupKey.text : LookupKey → String
  | byId id => "#" ++ toString id.toInt
  | byName name => name

/-- A row with this id and name is the one looked for. -/
def LookupKey.selects (id : Int64) (name : String) : LookupKey → Bool
  | byId i => id = i
  | byName n => name = n

/-- The symbol and the currency table of a broker, rows in the order the server
    sent them. A symbol's prices have its own digits; its volumes have those of
    its margin currency. -/
structure Tables where
  symbols : List SymbolInfo
  currencies : List CurrencyInfo
deriving DecidableEq

namespace Tables

/-- Tables without rows. -/
def empty : Tables := ⟨[], []⟩

/-- The first symbol that the key selects. -/
def symbol? (t : Tables) (key : LookupKey) : Option SymbolInfo :=
  t.symbols.find? fun s => key.selects s.id s.name

/-- The first currency that the key selects. -/
def currency? (t : Tables) (key : LookupKey) : Option CurrencyInfo :=
  t.currencies.find? fun c => key.selects c.id c.name

/-- The margin currency of a symbol. -/
def marginCurrency? (t : Tables) (symbol : LookupKey) : Option CurrencyInfo :=
  (t.symbol? symbol).bind fun s => t.currency? (.byId s.marginCurrencyId)

/-- The price that the server writes as an integer. -/
def priceFromInt? (t : Tables) (symbol : LookupKey) (price : Int64) : Option Binary64 :=
  (t.symbol? symbol).map fun s => Scaling.toFloat price s.fractionalDigits

/-- The integer that the server writes for a price. -/
def priceToInt? (t : Tables) (symbol : LookupKey) (price : Binary64) : Option Int64 :=
  (t.symbol? symbol).map fun s => Scaling.toInt price s.fractionalDigits

/-- The volume that the server writes as an integer. -/
def volumeFromInt? (t : Tables) (symbol : LookupKey) (volume : Int64) : Option Binary64 :=
  (t.marginCurrency? symbol).map fun c => Scaling.toFloat volume c.volumeFractionalDigits

/-- The integer that the server writes for a volume. -/
def volumeToInt? (t : Tables) (symbol : LookupKey) (volume : Binary64) : Option Int64 :=
  (t.marginCurrency? symbol).map fun c => Scaling.toInt volume c.volumeFractionalDigits

/-- The amount of money that the server writes as an integer. -/
def depositFromInt? (t : Tables) (currency : LookupKey) (amount : Int64) : Option Binary64 :=
  (t.currency? currency).map fun c => Scaling.toFloat amount c.depositFractionalDigits

/-- The integer that the server writes for an amount of money. -/
def depositToInt? (t : Tables) (currency : LookupKey) (amount : Binary64) : Option Int64 :=
  (t.currency? currency).map fun c => Scaling.toInt amount c.depositFractionalDigits

end Tables

end Brokerage
