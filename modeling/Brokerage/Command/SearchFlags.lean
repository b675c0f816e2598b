import Brokerage.Command.Clause
import Brokerage.Search.Builder

namespace Brokerage

/-- The flags of the search commands. -/
structure SearchFlags where
  context : String := ""
  columns : List String := []
  computed : List String := []
  filters : List String := []
  groupBy : Option String := none
  orderBy : Option String := none
  descending : Bool := false
  limit : Option UInt64 := none
  offset : Option UInt64 := none
  floatMode : Bool := false
deriving DecidableEq

namespace SearchFlags

/-- A search with a computed column added. -/
def addComputed (b : Builder) (item : String) : Except ClauseError Builder :=
  (parseComputed item).map fun (label, expression) => b.computed expression label

/-- A search with a clause added to its predicate. -/
def addClause (b : Builder) (filter : String) : Except ClauseError Builder :=
  (Clause.parse filter).map fun clause =>
    match clause with
    | .condition .and column operator value => b.andWhere column operator.text value
    | .condition .or column operator value => b.orWhere column operator.text value
    | .opening .and => b.andWhereOpen
    | .opening .or => b.orWhereOpen
    | .closing .and => b.andWhereClose
    | .closing .or => b.orWhereClose

/-- The search that the flags describe. Computed columns follow the plain ones
    and are read first, then the clauses. The direction counts only with a
    column to sort by. -/
def toBuilder (f : SearchFlags) : Except ClauseError Builder := do
  let b := (Builder.new.select (f.columns.map .column)).inContext f.context
  let b ← f.computed.foldlM addComputed b
  let b ← f.filters.foldlM addClause b
  let b := match f.groupBy with
    | some column => b.groupedBy column
    | none => b
  let b := match f.orderBy with
    | some column => b.orderBy column (if f.descending then some .descending else none)
    | none => b
  let b := match f.limit with
    | some limit => b.limitTo limit
    | none => b
  let b := match f.offset with
    | some offset => b.startAt offset
    | none => b
  return b.withFloats f.floatMode

end SearchFlags

end Brokerage
