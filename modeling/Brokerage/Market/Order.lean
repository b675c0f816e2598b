import Brokerage.Json.Record

namespace Brokerage

/-- What an order does. -/
inductive TradeCommand where
  | buy
  | sell
  | buyLimit
  | sellLimit
  | buyStop
  | sellStop
  | balance
  | credit
deriving DecidableEq, Repr

namespace TradeCommand

/-- The server's number for the command. -/
def code : TradeCommand → Int64
  | buy => 0
  | sell => 1
  | buyLimit => 2
  | sellLimit => 3
  | buyStop => 4
  | sellStop => 5
  | balance => 6
  | credit => 7

/-- The name of the command. -/
def name : TradeCommand → String
  | buy => "Buy"
  | sell => "Sell"
  | buyLimit => "BuyLimit"
  | sellLimit => "SellLimit"
  | buyStop => "BuyStop"
  | sellStop => "SellStop"
  | balance => "Balance"
  | credit => "Credit"

/-- The commands in the order of their numbers. -/
def all : List TradeCommand := [buy, sell, buyLimit, sellLimit, buyStop, sellStop, balance, credit]

/-- The command with the given number. -/
def ofCode? (code : Int64) : Option TradeCommand :=
  all.find? fun c => c.code = code

/-- The words for a number that no command has. -/
def unknownMessage (code : Int64) : String :=
  "unknown trade command " ++ toString code.toInt

def ofJson? (v : Json) : Option TradeCommand :=
  v.asInt64?.bind ofCode?

def toJson (c : TradeCommand) : Json :=
  .ofInt64 c.code

end TradeCommand

/-- An order to open on behalf of a trader. -/
structure OrderOpen where
  accountNumberId : Int64
  symbolId : Int64
  volume : Int64
  command : TradeCommand
  price : Int64 := 0
  stopLoss : Int64 := 0
  takeProfit : Int64 := 0
  comment : String := ""
deriving DecidableEq

namespace OrderOpen

def fields : List Record.Field :=
  ["AccountNumberId", "SymbolId", "Volume", "TradeCmd", "Price", "Sl", "Tp", "Comment"].map Record.Field.named

/-- A market order without stops. -/
def market (accountNumberId symbolId volume : Int64) (command : TradeCommand) : OrderOpen :=
  { accountNumberId, symbolId, volume, command }

def toJson (o : OrderOpen) : Json :=
  .object [("AccountNumberId", .ofInt64 o.accountNumberId), ("SymbolId", .ofInt64 o.symbolId),
    ("Volume", .ofInt64 o.volume), ("TradeCmd", o.command.toJson), ("Price", .ofInt64 o.price),
    ("Sl", .ofInt64 o.stopLoss), ("Tp", .ofInt64 o.takeProfit), ("Comment", .string o.comment)]

def ofJson? (v : Json) : Option OrderOpen := do
  let members ← Record.read? fields v
  return {
    accountNumberId := ← Record.required Json.asInt64? "AccountNumberId" members
    symbolId := ← Record.required Json.asInt64? "SymbolId" members
    volume := ← Record.required Json.asInt64? "Volume" members
    command := ← Record.required TradeCommand.ofJson? "TradeCmd" members
    price := ← Record.defaulted 0 Json.asInt64? "Price" members
    stopLoss := ← Record.defaulted 0 Json.asInt64? "Sl" members
    takeProfit := ← Record.defaulted 0 Json.asInt64? "Tp" members
    comment := ← Record.defaulted "" Json.asString? "Comment" members }

end OrderOpen

end Brokerage
