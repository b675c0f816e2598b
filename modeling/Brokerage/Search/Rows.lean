import Brokerage.Json.Printer

namespace Brokerage

/-- What a search was answered with. The server sends a list of objects; any
    other value is kept as it is, and has no rows. -/
structure ResultSet where
  raw : Json
deriving DecidableEq

namespace ResultSet

/-- The rows in the order sent. -/
def rows (r : ResultSet) : List Json :=
  match r.raw with
  | .array items => items
  | _ => []

/-- A row's value in a column, null if it has none. -/
def cell (row : Json) (column : String) : Json :=
  (row.get? column).getD .null

/-- One column across all rows. -/
def column (r : ResultSet) (name : String) : List Json :=
  r.rows.map (cell · name)

/-- What a row is indexed to: one column of it, or the row itself. -/
def indexed (value : Option String) (row : Json) : Json :=
  match value with
  | some column => cell row column
  | none => row

/-- The rows by the text of a key column, ascending; of rows with the same text
    the last stays. -/
def index (r : ResultSet) (key : String) (value : Option String) : List (String × Json) :=
  Json.sortMembers (r.rows.map fun row => ((cell row key).unquoted, indexed value row))

/-- The first row, or the whole answer when it has none. -/
def first (r : ResultSet) : Json :=
  match r.raw with
  | .array (row :: _) => row
  | v => v

/-- A field of the first row, else the default, else null. A field that holds
    null is there. -/
def get (r : ResultSet) (column : String) (default : Option Json) : Json :=
  ((r.first.get? column).or default).getD .null

end ResultSet

end Brokerage
