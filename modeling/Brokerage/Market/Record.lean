import Brokerage.Json.Record

namespace Brokerage

/-- The members that belong to no field of a record. -/
def Record.otherMembers (fields : List Record.Field) (members : List (String × Json)) : List (String × Json) :=
  members.filter fun (name, _) => (Record.fieldName? fields name).isNone

namespace Record

/-- A row of a table: an identifier, a name, a number of digits and one more
    number, and the members that belong to no field. These are kept and written
    back after the row's own, so a row is an object and never a list. -/
structure Row (α : Type) where
  id : Int64
  name : String
  first : UInt32
  second : α
  others : List (String × Json)

/-- How the rows of a table are written: the names of their two numbers, and the
    form and the default of the second. The identifier and the name are the same
    in every table, and the first number is always 32 bits without a sign. -/
structure RowForm (α : Type) where
  first : String
  second : String
  decode : Json → Option α
  encode : α → Json
  default : α

namespace RowForm

variable {α : Type}

def fields (form : RowForm α) : List Field :=
  ["Id", "Name", form.first, form.second].map Field.named

def write (form : RowForm α) (row : Row α) : Json :=
  .object ([("Id", .ofInt64 row.id), ("Name", .string row.name), (form.first, .ofUInt64 row.first.toUInt64),
    (form.second, form.encode row.second)] ++ row.others)

def read? (form : RowForm α) : Json → Option (Row α)
  | .object members => do
    let id ← required Json.asInt64? "Id" members
    let name ← required Json.asString? "Name" members
    let first ← defaulted 0 Json.asUInt32? form.first members
    let second ← defaulted form.default form.decode form.second members
    return ⟨id, name, first, second, otherMembers form.fields members⟩
  | _ => none

end RowForm

end Record

/-- A row of the symbol table. -/
structure SymbolInfo where
  id : Int64
  name : String
  fractionalDigits : UInt32
  marginCurrencyId : Int64
  others : List (String × Json)
deriving DecidableEq

namespace SymbolInfo

def form : Record.RowForm Int64 :=
  ⟨"FractionalDigits", "MarginCurrencyId", Json.asInt64?, Json.ofInt64, 0⟩

def row (s : SymbolInfo) : Record.Row Int64 :=
  ⟨s.id, s.name, s.fractionalDigits, s.marginCurrencyId, s.others⟩

def ofRow (row : Record.Row Int64) : SymbolInfo :=
  ⟨row.id, row.name, row.first, row.second, row.others⟩

def toJson (s : SymbolInfo) : Json :=
  form.write s.row

def ofJson? (v : Json) : Option SymbolInfo :=
  (form.read? v).map ofRow

end SymbolInfo

/-- A row of the currency table. -/
structure CurrencyInfo where
  id : Int64
  name : String
  volumeFractionalDigits : UInt32
  depositFractionalDigits : UInt32
  others : List (String × Json)
deriving DecidableEq

namespace CurrencyInfo

def form : Record.RowForm UInt32 :=
  ⟨"VolumeFractionalDigits", "DepositFractionalDigits", Json.asUInt32?, fun n => .ofUInt64 n.toUInt64, 0⟩

def row (c : CurrencyInfo) : Record.Row UInt32 :=
  ⟨c.id, c.name, c.volumeFractionalDigits, c.depositFractionalDigits, c.others⟩

def ofRow (row : Record.Row UInt32) : CurrencyInfo :=
  ⟨row.id, row.name, row.first, row.second, row.others⟩

def toJson (c : CurrencyInfo) : Json :=
  form.write c.row

def ofJson? (v : Json) : Option CurrencyInfo :=
  (form.read? v).map ofRow

end CurrencyInfo

end Brokerage
