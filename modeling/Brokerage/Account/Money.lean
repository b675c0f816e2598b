import Brokerage.Binary64.Arithmetic
import Brokerage.Market.Record

namespace Brokerage

/-- The money of an account number. Like the rows of the tables it keeps the
    members it has no field for. -/
structure MoneyInfo where
  free : Binary64
  credit : Binary64
  others : List (String × Json)
deriving DecidableEq

namespace MoneyInfo

def fields : List Record.Field :=
  ["Free", "Credit"].map Record.Field.named

def toJson (m : MoneyInfo) : Json :=
  .object ([("Free", .ofBinary64 m.free), ("Credit", .ofBinary64 m.credit)] ++ m.others)

def ofJson? : Json → Option MoneyInfo
  | .object members => do
    let free ← Record.defaulted .zero Json.asBinary64? "Free" members
    let credit ← Record.defaulted .zero Json.asBinary64? "Credit" members
    return ⟨free, credit, Record.otherMembers fields members⟩
  | _ => none

/-- The money that can leave the account. -/
def withdrawable (m : MoneyInfo) : Binary64 :=
  m.free.sub m.credit

/-- Several records by name, ascending. -/
def tableOfJson? : Json → Option (List (String × MoneyInfo))
  | .object members => members.mapM fun (name, v) => (ofJson? v).map fun m => (name, m)
  | _ => none

end MoneyInfo

/-- The ticket of a money operation: a member of that name that is an integer
    other than zero. -/
def ticket? (result : Json) : Option Int64 :=
  ((result.get? "Ticket").bind Json.asInt64?).filter fun t => t != 0

end Brokerage
