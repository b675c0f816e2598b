import Brokerage.Http.Status
import Brokerage.Market.Tables
import Brokerage.Remote.Payload
import Brokerage.Search.Error

namespace Brokerage

/-- Why a request brought no reply that can be read. -/
inductive TransportFault where
  /-- The server answered with a status that is not a success. -/
  | status (code : Nat)
  /-- The server at `url` answered with a status other than 200. -/
  | statusFrom (code : Nat) (url : String)
  /-- A successful reply is not JSON. -/
  | invalidReply
  /-- The exchange itself failed, in the words of whoever carried it. -/
  | exchange (words : String)
deriving DecidableEq

def TransportFault.text : TransportFault → String
  | status code => "HTTP " ++ Http.statusText code
  | statusFrom code url => "HTTP " ++ Http.statusText code ++ " from " ++ url
  | invalidReply => "Invalid JSON reply"
  | exchange words => words

/-- Why no settings for a connection could be had. -/
inductive SettingsFault where
  /-- The file at `path` cannot be read, for a reason in the words of whoever tried. -/
  | unreadable (path reason : String)
  /-- The file at `path` does not hold settings. -/
  | invalid (path : String)
  /-- The environment variable does not hold a number. -/
  | notANumber (name value : String)
  /-- Required settings are left out. -/
  | missing (names : List String)
  /-- No terminal is known. -/
  | noTerminal
deriving DecidableEq

def SettingsFault.text : SettingsFault → String
  | unreadable path reason => "Failed to read " ++ path ++ ": " ++ reason
  | invalid path => "Invalid config " ++ path
  | notANumber name value => name ++ " is not a valid number: " ++ value
  | missing names => "missing " ++ ", ".intercalate names
  | noTerminal => "terminal_url is not set"

/-- How a reply differs from what was expected. -/
inductive ReplyFault where
  /-- A reply is not an object. -/
  | notAnObject (reply : Json)
  /-- A reply has neither a result nor an error. -/
  | empty
  /-- The money of an account number is not among the money sent. -/
  | noMoney (accountNumber : Int64)
  /-- The terminal sent neither a token nor an error. -/
  | noToken
deriving DecidableEq

def ReplyFault.text : ReplyFault → String
  | notAnObject reply => "expected a JSON-RPC object, got " ++ reply.compact
  | empty => "reply carries neither result nor error"
  | noMoney accountNumber => "MoneyInfo lacks account number " ++ toString accountNumber.toInt
  | noToken => "terminal reply carries no jwt"

/-- Everything that can go wrong between a caller and the server, each with its
    code and its words. -/
inductive ClientError where
  | transport (fault : TransportFault)
  | server (payload : ErrorPayload)
  | settings (fault : SettingsFault)
  | search (error : SearchError)
  /-- A value does not have the form of the record it should be. -/
  | undecodable
  | symbolNotFound (key : LookupKey)
  | currencyNotFound (key : LookupKey)
  | notEnoughMoney (available : Binary64) (requested : Int64)
  | refused (words : String)
  | unexpectedReply (fault : ReplyFault)
deriving DecidableEq

namespace ClientError

/-- The code of the error: the server's own, or one of the client's outside the
    server's range. -/
def code : ClientError → Int64
  | transport _ => -32000
  | server payload => payload.code
  | settings _ => -32001
  | search _ => -32602
  | undecodable => -32700
  | symbolNotFound _ | currencyNotFound _ => -32002
  | notEnoughMoney .. => -32003
  | refused _ => -32004
  | unexpectedReply _ => -32603

def message : ClientError → String
  | transport fault => "Transport error: " ++ fault.text
  | server payload => "Server error: " ++ payload.text
  | settings fault => "Configuration error: " ++ fault.text
  | search error => "Query error: " ++ error.message
  | undecodable => "JSON error"
  | symbolNotFound key => "Symbol not found: " ++ key.text
  | currencyNotFound key => "Currency not found: " ++ key.text
  | notEnoughMoney available requested =>
    "Not enough money: " ++ available.plainText ++ " available, " ++ toString requested.toInt ++ " requested"
  | refused words => "Authentication failed: " ++ words
  | unexpectedReply fault => "Unexpected response: " ++ fault.text

end ClientError

end Brokerage
