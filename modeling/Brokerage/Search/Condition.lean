import Brokerage.Json.Basic
import Brokerage.Text.Uppercase

namespace Brokerage

/-- The comparison operators that the server is known to evaluate. A condition
    may also carry any other text. -/
inductive Operator where
  | eq
  | neq
  | gt
  | lt
  | gte
  | lte
  | isIn
  | notIn
  | like
  | notLike
deriving DecidableEq, Repr

/-- The operator as it is written. -/
def Operator.text : Operator → String
  | eq => "="
  | neq => "!="
  | gt => ">"
  | lt => "<"
  | gte => ">="
  | lte => "<="
  | isIn => "IN"
  | notIn => "NOT IN"
  | like => "LIKE"
  | notLike => "NOT LIKE"

/-- The characters hold an `I` with an `N` right after it. -/
def containsIn : List Char → Bool
  | 'I' :: 'N' :: _ => true
  | _ :: cs => containsIn cs
  | [] => false

/-- An operator is a membership test if its upper case contains `IN`. -/
def isMembership (operator : String) : Bool :=
  containsIn (Text.upperChars operator.toList)

/-- A filter on one column. -/
structure Condition where
  column : String
  operator : String
  value : Json
deriving DecidableEq

namespace Condition

/-- The value in the form its operator asks for: a membership test takes a
    list. -/
def listed (operator : String) (value : Json) : Json :=
  if isMembership operator ∧ ¬value.isArray then .array [value] else value

/-- The canonical form: the operator in upper case, and a list as the value of
    every membership test. Column and operator are not validated. -/
def normalize (c : Condition) : Condition :=
  let operator := Text.uppercase c.operator
  ⟨c.column, operator, listed operator c.value⟩

/-- Column, operator and value in the order in which they are sent. -/
def triple (c : Condition) : List Json :=
  [.string c.column, .string c.operator, c.value]

end Condition

end Brokerage
