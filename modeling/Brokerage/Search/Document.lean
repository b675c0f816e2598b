import Brokerage.Json.Record
import Brokerage.Search.Expression
import Brokerage.Text.Uppercase

namespace Brokerage

/-- The tables that can be searched. -/
inductive SearchContext where
  | accounts
  | accountNumbers
  | binaryOptions
  | orders
deriving DecidableEq, Repr

/-- The table's name. -/
def SearchContext.text : SearchContext → String
  | accounts => "Accounts"
  | accountNumbers => "AccountNumbers"
  | binaryOptions => "BinaryOptions"
  | orders => "Orders"

/-- The direction of sorting. -/
inductive SortDirection where
  | ascending
  | descending
deriving DecidableEq, Repr, Inhabited

namespace SortDirection

/-- The direction as it is written. -/
def text : SortDirection → String
  | ascending => "ASC"
  | descending => "DESC"

/-- The direction that a text names, or the upper case of a text that names
    none. -/
def parse (s : String) : Except String SortDirection :=
  let name := Text.uppercase s
  if name = "ASC" then .ok ascending
  else if name = "DESC" then .ok descending
  else .error name

/-- The words for a text that names no direction. -/
def unknownMessage (name : String) : String :=
  "unknown sort direction \"" ++ name ++ "\""

/-- The direction with exactly this written form. -/
def ofText? (s : String) : Option SortDirection :=
  if s = "ASC" then some ascending else if s = "DESC" then some descending else none

/-- The direction that a value writes: its text, or an object with that text as
    its one name and null as the value. -/
def ofJson? : Json → Option SortDirection
  | .string s => ofText? s
  | .object [(name, .null)] => ofText? name
  | _ => none

def toJson (d : SortDirection) : Json :=
  .string d.text

end SortDirection

/-- A column of the answer: one of the table, or one that the server
    computes. -/
inductive Projection where
  | column (name : String)
  | computed (expression : Expression) (label : String)
deriving DecidableEq

namespace Projection

/-- The column as a value: its name, or an object with the expression and the
    name given to it. -/
def toJson : Projection → Json
  | column name => .string name
  | computed expression label => .object [("Expr", expression.toJson), ("As", .string label)]

/-- The column that a value writes. A computed column is an object only. -/
def ofJson? : Json → Option Projection
  | .string name => some (.column name)
  | .object members => do
    let expression ← Record.required Expression.ofJson? "Expr" members
    let label ← Record.required Json.asString? "As" members
    return .computed expression label
  | _ => none

end Projection

/-- The document that describes a search to the server. Parts that were not
    asked for are left out of it. -/
structure Document where
  context : String
  columns : List Projection
  whereClause : Json
  groupBy : Option String
  sortBy : Option String
  sortDirection : Option SortDirection
  limit : Option UInt64
  offset : Option UInt64
  floatMode : Bool
deriving DecidableEq

namespace Document

def fields : List Record.Field :=
  ["Context", "Select", "Where", "GroupBy", "SortBy", "SortDir", "Limit", "Offset", "FloatMode"].map Record.Field.named

/-- The document as a value, its parts in the order of the fields. -/
def toJson (d : Document) : Json :=
  .object <|
    Record.member "Context" (.string d.context) ++
    Record.member "Select" (.array (d.columns.map Projection.toJson)) ++
    Record.member "Where" d.whereClause ++
    Record.memberIfSome Json.string "GroupBy" d.groupBy ++
    Record.memberIfSome Json.string "SortBy" d.sortBy ++
    Record.memberIfSome SortDirection.toJson "SortDir" d.sortDirection ++
    Record.memberIfSome Json.ofUInt64 "Limit" d.limit ++
    Record.memberIfSome Json.ofUInt64 "Offset" d.offset ++
    (if d.floatMode then Record.member "FloatMode" (.bool true) else [])

def ofJson? (v : Json) : Option Document := do
  let members ← Record.read? fields v
  let context ← Record.required Json.asString? "Context" members
  let columns ← Record.required (Json.asList? Projection.ofJson?) "Select" members
  let whereClause ← Record.required some "Where" members
  let groupBy ← Record.optional Json.asString? "GroupBy" members
  let sortBy ← Record.optional Json.asString? "SortBy" members
  let sortDirection ← Record.optional SortDirection.ofJson? "SortDir" members
  let limit ← Record.optional Json.asUInt64? "Limit" members
  let offset ← Record.optional Json.asUInt64? "Offset" members
  let floatMode ← Record.defaulted false Json.asBool? "FloatMode" members
  return ⟨context, columns, whereClause, groupBy, sortBy, sortDirection, limit, offset, floatMode⟩

/-- The document as the server takes it: an object with its names ascending at
    every level. -/
def toParams (d : Document) : Json :=
  d.toJson.sorted

end Document

end Brokerage
