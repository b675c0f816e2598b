import Brokerage.Json.Printer
import Brokerage.Json.Record

namespace Brokerage

/-- An error as the server reports it in place of a result. Its own name for the
    error stands in `error`, beside the standard fields. -/
structure ErrorPayload where
  code : Int64
  message : String
  data : Option Json
  error : Option Json
deriving DecidableEq

namespace ErrorPayload

def fields : List Record.Field :=
  ["code", "message", "data", "error"].map Record.Field.named

def toJson (p : ErrorPayload) : Json :=
  .object (Record.member "code" (.ofInt64 p.code) ++ Record.member "message" (.string p.message) ++
    Record.memberIfSome id "data" p.data ++ Record.memberIfSome id "error" p.error)

def ofJson? (v : Json) : Option ErrorPayload := do
  let members ← Record.read? fields v
  let code ← Record.defaulted 0 Json.asInt64? "code" members
  let message ← Record.defaulted "" Json.asString? "message" members
  let data ← Record.optional some "data" members
  let error ← Record.optional some "error" members
  return ⟨code, message, data, error⟩

def text (p : ErrorPayload) : String :=
  let detail := toString p.code.toInt ++ ": " ++ p.message
  match p.error with
  | some v => v.unquoted ++ " (" ++ detail ++ ")"
  | none => detail

end ErrorPayload

end Brokerage
