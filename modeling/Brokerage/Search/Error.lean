namespace Brokerage

/-- How the group markers of a predicate fail to match. -/
inductive GroupingFault where
  /-- A group is closed while none is open. -/
  | closeWithoutOpen
  /-- A group is still open at the end. -/
  | neverClosed
deriving DecidableEq, Repr

/-- Why the markers do not match, in words. -/
def GroupingFault.reason : GroupingFault → String
  | closeWithoutOpen => "close without a matching open"
  | neverClosed => "group is never closed"

/-- What can be wrong with a search before it is sent. -/
inductive SearchError where
  /-- No table to search was named. -/
  | missingContext
  /-- The predicate entry at `position` is a group marker without its partner. -/
  | malformedGrouping (position : Nat) (fault : GroupingFault)
  /-- The parenthesis at the byte `offset` of an expression has no partner. -/
  | unbalancedParenthesis (offset : Nat)
deriving DecidableEq, Repr

def SearchError.message : SearchError → String
  | missingContext => "Search context is not set"
  | malformedGrouping position fault => s!"Malformed grouping at entry {position}: {fault.reason}"
  | unbalancedParenthesis offset => s!"Unbalanced parenthesis at offset {offset}"

end Brokerage
