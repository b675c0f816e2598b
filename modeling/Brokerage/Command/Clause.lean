import Brokerage.Json.Parser
import Brokerage.Search.Predicate
import Brokerage.Text.WhiteSpace

namespace Brokerage

/-- A filter clause as it is typed on a command line, such as `Ticket > 0`, `or
    Login IN [1,2]`, `(` and `)`. -/
inductive Clause where
  | condition (connective : Connective) (column : String) (operator : Operator) (value : Json)
  | opening (connective : Connective)
  | closing (connective : Connective)
deriving DecidableEq

/-- What is wrong with a clause or a computed column, and the text it stood
    in. -/
inductive ClauseError where
  | empty
  | missingColumn (input : String)
  | missingOperator (input : String)
  | missingValue (input : String)
  | badComputed (input : String)
deriving DecidableEq, Repr

def ClauseError.message : ClauseError → String
  | empty => "empty filter"
  | missingColumn input => "no column in filter \"" ++ input ++ "\""
  | missingOperator input => "no operator in filter \"" ++ input ++ "\""
  | missingValue input => "no value in filter \"" ++ input ++ "\""
  | badComputed input => "computed column \"" ++ input ++ "\" must be ALIAS=EXPR"

namespace Clause

/-- The operators in the order in which they are tried, so that none is taken
    for a shorter one. -/
def operators : List Operator :=
  [.notLike, .notIn, .like, .isIn, .gte, .lte, .neq, .eq, .gt, .lt]

/-- The characters after the word, if it begins them in any ASCII case. -/
def dropWord? : (word : List Char) → List Char → Option (List Char)
  | [], cs => some cs
  | w :: ws, c :: cs => if w.toLower = c.toLower then dropWord? ws cs else none
  | _ :: _, [] => none

/-- White space begins the characters. -/
def startsBlank : List Char → Bool
  | c :: _ => Text.isWhiteSpace c
  | [] => false

/-- The connective that begins a clause, with white space or an opening
    parenthesis after it, and the rest of the clause. A clause without one is
    joined by AND. -/
def splitConnective (cs : List Char) : Connective × List Char :=
  let after? (word : List Char) : Option (List Char) :=
    (dropWord? word cs).bind fun rest =>
      if startsBlank rest ∨ Text.trimStart rest = ['('] then some (Text.trimStart rest) else none
  match after? ['a', 'n', 'd'] with
  | some rest => (.and, rest)
  | none =>
    match after? ['o', 'r'] with
    | some rest => (.or, rest)
    | none => (.and, cs)

/-- The operator is a word rather than made of symbols. -/
def isWord (o : Operator) : Bool :=
  match o.text.toList with
  | c :: _ => c.isAlpha
  | [] => false

/-- The operator that begins the characters, and the characters after it. A word
    needs white space or the end there. -/
def splitOperator? (cs : List Char) : Option (Operator × List Char) :=
  operators.findSome? fun o =>
    (dropWord? o.text.toList cs).bind fun rest =>
      if isWord o ∧ rest ≠ [] ∧ ¬startsBlank rest then none else some (o, rest)

/-- The character ends a column: white space, or one that a symbolic operator
    may begin with. -/
def endsColumn (c : Char) : Bool :=
  Text.isWhiteSpace c || c = '=' || c = '!' || c = '<' || c = '>'

/-- The value that a text writes: what it is as JSON, or else the text
    itself. -/
def valueOf (text : String) : Json :=
  (Json.parse? text).getD (.string text)

/-- The clause that a text writes. -/
def parse (input : String) : Except ClauseError Clause :=
  match Text.trim input.toList with
  | [] => .error .empty
  | text =>
    match splitConnective text with
    | (connective, ['(']) => .ok (.opening connective)
    | (connective, [')']) => .ok (.closing connective)
    | (connective, rest) =>
      match rest.takeWhile (!endsColumn ·) with
      | [] => .error (.missingColumn input)
      | column =>
        match splitOperator? (Text.trimStart (rest.dropWhile (!endsColumn ·))) with
        | none => .error (.missingOperator input)
        | some (operator, after) =>
          match Text.trim after with
          | [] => .error (.missingValue input)
          | raw => .ok (.condition connective (String.ofList column) operator (valueOf (String.ofList raw)))

end Clause

/-- The name and the expression of a computed column, such as `Net=Profit-Swap`:
    what stands before and after the first equals sign, both of them not
    empty. -/
def parseComputed (input : String) : Except ClauseError (String × String) :=
  let cs := input.toList
  match cs.dropWhile (· ≠ '=') with
  | _ :: after =>
    let label := Text.trim (cs.takeWhile (· ≠ '='))
    let expression := Text.trim after
    if label ≠ [] ∧ expression ≠ [] then .ok (String.ofList label, String.ofList expression)
    else .error (.badComputed input)
  | [] => .error (.badComputed input)

end Brokerage
