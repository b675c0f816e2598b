import Brokerage.Search.Document
import Brokerage.Search.Predicate

namespace Brokerage

/-- A column asked for: one of the table, or an expression with a name for its
    value. -/
inductive SelectItem where
  | column (name : String)
  | computed (expression label : String)
deriving DecidableEq

/-- The column with its expression parsed. -/
def SelectItem.compile : SelectItem → Except SearchError Projection
  | column name => .ok (.column name)
  | computed expression label => (Expression.parse expression).map (Projection.computed · label)

/-- The columns of an answer when none is asked for. -/
def defaultColumns : List String :=
  ["Ticket", "SymbolId", "Comment", "OpenTime", "CloseTime", "TradeCmd", "AccountNumberId", "Sl", "Tp", "Volume",
    "OpenPrice", "ClosePrice", "Commission", "Swap", "Profit"]

/-- A search under construction. Setters overwrite or append, and nothing is
    checked before the search is compiled. -/
structure Builder where
  context : Option String := none
  columns : List SelectItem := []
  entries : List Predicate.Entry := []
  groupBy : Option String := none
  sortBy : Option String := none
  sortDirection : Option SortDirection := none
  limit : Option UInt64 := none
  offset : Option UInt64 := none
  floatMode : Bool := false
deriving DecidableEq

namespace Builder

/-- Nothing set yet. -/
def new : Builder := {}

/-- Sets the table to search. -/
def inContext (b : Builder) (context : String) : Builder :=
  { b with context := some context }

/-- Replaces the columns. -/
def select (b : Builder) (items : List SelectItem) : Builder :=
  { b with columns := items }

/-- Adds a column of the table. -/
def column (b : Builder) (name : String) : Builder :=
  { b with columns := b.columns ++ [.column name] }

/-- Adds a computed column. -/
def computed (b : Builder) (expression label : String) : Builder :=
  { b with columns := b.columns ++ [.computed expression label] }

/-- Adds an entry to the predicate. -/
def entry (b : Builder) (e : Predicate.Entry) : Builder :=
  { b with entries := b.entries ++ [e] }

/-- Adds a condition joined by AND. -/
def andWhere (b : Builder) (column operator : String) (value : Json) : Builder :=
  b.entry (.condition .and ⟨column, operator, value⟩)

/-- Adds a condition joined by OR. -/
def orWhere (b : Builder) (column operator : String) (value : Json) : Builder :=
  b.entry (.condition .or ⟨column, operator, value⟩)

/-- The same as `andWhere`. -/
def filter (b : Builder) (column operator : String) (value : Json) : Builder :=
  b.andWhere column operator value

/-- Opens a group joined by AND. -/
def andWhereOpen (b : Builder) : Builder :=
  b.entry (.opening .and)

/-- Opens a group joined by OR. -/
def orWhereOpen (b : Builder) : Builder :=
  b.entry (.opening .or)

/-- The same as `andWhereOpen`. -/
def whereOpen (b : Builder) : Builder :=
  b.andWhereOpen

/-- Closes a group, with AND recorded. -/
def andWhereClose (b : Builder) : Builder :=
  b.entry (.closing .and)

/-- Closes a group, with OR recorded. -/
def orWhereClose (b : Builder) : Builder :=
  b.entry (.closing .or)

/-- The same as `andWhereClose`. -/
def whereClose (b : Builder) : Builder :=
  b.andWhereClose

/-- Groups rows by a column. -/
def groupedBy (b : Builder) (column : String) : Builder :=
  { b with groupBy := some column }

/-- Sorts by a column, ascending when no direction is given. -/
def orderBy (b : Builder) (column : String) (direction : Option SortDirection) : Builder :=
  { b with sortBy := some column, sortDirection := direction }

/-- Asks for at most so many rows. -/
def limitTo (b : Builder) (limit : UInt64) : Builder :=
  { b with limit := some limit }

/-- Passes over so many rows. -/
def startAt (b : Builder) (offset : UInt64) : Builder :=
  { b with offset := some offset }

/-- Asks for floating-point amounts in place of scaled integers, or not. -/
def withFloats (b : Builder) (enabled : Bool) : Builder :=
  { b with floatMode := enabled }

/-- The columns of the answer: those asked for, or the default ones when the
    list is empty. -/
def projections (b : Builder) : Except SearchError (List Projection) :=
  if b.columns.isEmpty then .ok (defaultColumns.map .column) else b.columns.mapM SelectItem.compile

/-- The description of the search. A missing context is reported first, then the
    first expression that does not parse, then the predicate. A direction counts
    only with a column to sort by. -/
def compile (b : Builder) : Except SearchError Document := do
  let some context := b.context | .error .missingContext
  let columns ← b.projections
  let whereClause ← Predicate.compile b.entries
  return {
    context, columns, whereClause
    groupBy := b.groupBy
    sortBy := b.sortBy
    sortDirection := b.sortBy.map fun _ => b.sortDirection.getD .ascending
    limit := b.limit
    offset := b.offset
    floatMode := b.floatMode }

end Builder

end Brokerage
