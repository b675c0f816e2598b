import Brokerage.Client.Error
import Brokerage.Remote.Dialogue

namespace Brokerage

/-- The envelope of a call, in the JSON-RPC 2.0 form. -/
structure RequestEnvelope where
  version : String
  id : String
  method : String
  params : Option Json
deriving DecidableEq

namespace RequestEnvelope

def fields : List Record.Field :=
  ["jsonrpc", "id", "method", "params"].map Record.Field.named

/-- The envelope of a call under an identifier of its own. -/
def ofCall (id : String) (call : Call) : RequestEnvelope :=
  ⟨"2.0", id, call.method, some call.params⟩

def toJson (r : RequestEnvelope) : Json :=
  .object (Record.member "jsonrpc" (.string r.version) ++ Record.member "id" (.string r.id) ++
    Record.member "method" (.string r.method) ++ Record.memberIfSome (fun v => v) "params" r.params)

def ofJson? (v : Json) : Option RequestEnvelope := do
  let members ← Record.read? fields v
  let version ← Record.required Json.asString? "jsonrpc" members
  let id ← Record.required Json.asString? "id" members
  let method ← Record.required Json.asString? "method" members
  let params ← Record.optional some "params" members
  return ⟨version, id, method, params⟩

end RequestEnvelope

namespace ReplyEnvelope

/-- The payload of an error member. One that does not have a payload's form is
    kept whole, with its text as the message. -/
def payload (error : Json) : ErrorPayload :=
  (ErrorPayload.ofJson? error).getD ⟨-32603, error.unquoted, none, some error⟩

/-- The result in a reply of the same form, or the error in it. An error other
    than null wins over a result. -/
def decode : Json → Except ClientError Json
  | .object members =>
    match members.lookup "error" with
    | none | some .null =>
      match members.lookup "result" with
      | some result => .ok result
      | none => .error (.unexpectedReply .empty)
    | some error => .error (.server (payload error))
  | reply => .error (.unexpectedReply (.notAnObject reply))

end ReplyEnvelope

end Brokerage
