import Brokerage.Json.Parser
import Brokerage.Remote.Envelope
import Brokerage.Settings
import Brokerage.Text.Base64
import Brokerage.Text.Quoted

namespace Brokerage.Http

/-- A request, always a POST with a JSON body. Each call is one of these, with
    the call's envelope as the body. -/
structure Request where
  url : String
  authorization : Option String
  body : Json
deriving DecidableEq

/-- A reply: its status and the text of its body. A body is text here, so bodies
    whose bytes are not UTF-8 are not represented. For the channel this leaves
    nothing out, since it reads a body as text, with replacement characters for
    such bytes, before it looks for JSON; the terminal's reply is decoded from
    the bytes themselves. -/
structure Reply where
  status : Nat
  body : String
deriving DecidableEq

/-- The text that a reply carries. Replies with no content and those that point
    to an unchanged one carry none, whatever follows their head. -/
def Reply.text (r : Reply) : String :=
  if r.status = 204 ∨ r.status = 304 then "" else r.body

/-- What answers requests: the requests made so far, the present one last,
    decide the reply. An exchange that brings no reply fails in the words of its
    carrier. -/
abbrev Server := List Request → Except String Reply

/-- The header value that names a broker and its password. -/
def basicAuth (brokerId : UInt64) (password : String) : String :=
  let credentials := toString brokerId.toNat ++ ":" ++ password
  "Basic " ++ String.ofList (Text.Base64.encode credentials.toUTF8.data.toList)

/-- Where calls are sent, and with which credentials. -/
structure Channel where
  endpoint : String
  authorization : String
deriving DecidableEq

namespace Channel

/-- The channel that the settings describe. -/
def ofSettings (s : Settings) : Channel :=
  ⟨s.endpoint, basicAuth s.brokerId s.password⟩

/-- The channel with another address. -/
def withEndpoint (ch : Channel) (endpoint : String) : Channel :=
  { ch with endpoint }

/-- The channel for inspection. The credentials are not shown. -/
def inspect (ch : Channel) : String :=
  "HttpTransport \x7b endpoint: " ++ Text.quoted ch.endpoint ++ ", .. \x7d"

/-- The request for a call under an identifier. -/
def request (ch : Channel) (id : String) (call : Call) : Request :=
  ⟨ch.endpoint, some ch.authorization, (RequestEnvelope.ofCall id call).toJson⟩

/-- The reply has an error member that is not null. -/
def carriesError (reply : Json) : Bool :=
  (reply.get? "error").any fun error => !error.isNull

/-- The answer in a reply. A reply without success counts only if it carries an
    error of the server's own. -/
def answer (r : Reply) : Except ClientError Json :=
  match Json.parse? r.text with
  | some reply =>
    if isSuccess r.status ∨ carriesError reply then ReplyEnvelope.decode reply
    else .error (.transport (.status r.status))
  | none =>
    if isSuccess r.status then .error (.transport .invalidReply)
    else .error (.transport (.status r.status))

/-- The requests for calls, the n-th of them under the identifier `ids n`. -/
def requests (ch : Channel) (ids : Nat → String) (calls : List Call) : List Request :=
  calls.zipIdx.map fun (call, n) => ch.request (ids n) call

/-- The answers to calls sent to a server, the n-th of them under the identifier
    `ids n`. -/
def answers (ch : Channel) (ids : Nat → String) (server : Server) : Answers ClientError := fun calls =>
  match server (ch.requests ids calls) with
  | .ok reply => answer reply
  | .error words => .error (.transport (.exchange words))

end Channel

end Brokerage.Http
