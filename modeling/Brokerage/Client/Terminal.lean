import Brokerage.Client.Basic
import Brokerage.Http.Exchange

namespace Brokerage

/-- The credentials that the terminal asks for. -/
structure TraderAuthParams where
  login : String
  password : String
  ip : String
  agent : String
deriving DecidableEq

namespace TraderAuthParams

def fields : List Record.Field :=
  ["login", "password", "ip", "agent"].map Record.Field.named

def toJson (p : TraderAuthParams) : Json :=
  .object [("login", .string p.login), ("password", .string p.password), ("ip", .string p.ip),
    ("agent", .string p.agent)]

def ofJson? (v : Json) : Option TraderAuthParams := do
  let members ← Record.read? fields v
  return {
    login := ← Record.required Json.asString? "login" members
    password := ← Record.required Json.asString? "password" members
    ip := ← Record.required Json.asString? "ip" members
    agent := ← Record.required Json.asString? "agent" members }

end TraderAuthParams

/-- The terminal's reply. -/
structure TraderAuthResult where
  token : Option String
  error : Option Json
deriving DecidableEq

namespace TraderAuthResult

def fields : List Record.Field :=
  ["jwt", "error"].map Record.Field.named

/-- The reply as a value. Missing members are written as null. -/
def toJson (r : TraderAuthResult) : Json :=
  .object [("jwt", (r.token.map Json.string).getD .null), ("error", r.error.getD .null)]

/-- The reply that the fields of a record give. -/
def ofMembers? (members : List (String × Json)) : Option TraderAuthResult := do
  return {
    token := ← Record.optional Json.asString? "jwt" members
    error := ← Record.optional some "error" members }

def ofJson? (v : Json) : Option TraderAuthResult :=
  (Record.read? fields v).bind ofMembers?

/-- The reply that a text writes. The terminal's reply is decoded from the bytes
    of its body, and bytes that are not UTF-8 in it make the reply undecodable;
    such bodies are not among the texts read here. -/
def parse? (s : String) : Option TraderAuthResult :=
  (Record.parse? fields s).bind ofMembers?

/-- The token, unless there is an error other than null, which wins. -/
def outcome (r : TraderAuthResult) : Except ClientError String :=
  match r.error.filter (!·.isNull), r.token with
  | some error, _ => .error (.refused (error.unquoted))
  | none, some token => .ok token
  | none, none => .error (.unexpectedReply .noToken)

end TraderAuthResult

namespace Terminal

/-- The text without the slashes at its end. -/
def withoutSlashes (s : String) : String :=
  String.ofList (s.toList.reverse.dropWhile (· = '/')).reverse

/-- The address that a terminal gives tokens at. -/
def address (terminalUrl : String) : String :=
  withoutSlashes terminalUrl ++ "/get-jwt"

/-- The request for a token. -/
def request (terminalUrl : String) (credentials : TraderAuthParams) : Http.Request :=
  ⟨address terminalUrl, none, credentials.toJson⟩

/-- The outcome of a reply from `url`. Only status 200 counts. -/
def outcome (url : String) (reply : Http.Reply) : Except ClientError String :=
  if reply.status ≠ 200 then .error (.transport (.statusFrom reply.status url))
  else
    match TraderAuthResult.parse? reply.text with
    | some result => result.outcome
    | none => .error (.transport (.exchange "error decoding response body"))

/-- Asks the terminal for a trader's token, over HTTP and without the channel of
    the client: the outcome, and the requests made. -/
def login (server : Http.Server) (settings : Settings) (credentials : TraderAuthParams) :
    Except ClientError String × List Http.Request :=
  match settings.terminalUrl with
  | none => (.error (.settings .noTerminal), [])
  | some url =>
    let request := request url credentials
    match server [request] with
    | .ok reply => (outcome request.url reply, [request])
    | .error words => (.error (.transport (.exchange words)), [request])

end Terminal

end Brokerage
