import Brokerage.Json.Basic
import Brokerage.Search.Error

namespace Brokerage

/-- An element of an expression. -/
inductive Expression.Node where
  /-- An operand, or one of the operators `+ - * /`. -/
  | token (text : String)
  /-- A part in parentheses. -/
  | group (nodes : List Expression.Node)
deriving Inhabited

namespace Expression.Node

mutual

def decideEq : (a b : Node) → Decidable (a = b)
  | token a, token b => if h : a = b then isTrue (h ▸ rfl) else isFalse (by simp [h])
  | group a, group b =>
    match decideEqNodes a b with
    | isTrue h => isTrue (h ▸ rfl)
    | isFalse h => isFalse (by simp [h])
  | token _, group _ | group _, token _ => isFalse (by simp)

def decideEqNodes : (a b : List Node) → Decidable (a = b)
  | [], [] => isTrue rfl
  | [], _ :: _ | _ :: _, [] => isFalse (by simp)
  | x :: xs, y :: ys =>
    match decideEq x y, decideEqNodes xs ys with
    | isTrue h, isTrue hs => isTrue (h ▸ hs ▸ rfl)
    | isFalse h, _ => isFalse (by simp [h])
    | _, isFalse h => isFalse (by simp [h])

end

instance : DecidableEq Node := decideEq

end Expression.Node

/-- The expression of a computed column, such as `(Profit-Swap)*2`: its operands
    and operators in the order written, with a nested list for each part in
    parentheses. Precedence is the server's business. -/
abbrev Expression := List Expression.Node

namespace Expression

/-- The four operators. -/
def isOperator (c : Char) : Bool :=
  c = '+' || c = '-' || c = '*' || c = '/'

/-- The nodes with an operand in front of them, which an empty one is not. -/
def withOperand (operand : List Char) (nodes : List Node) : List Node :=
  if operand = [] then nodes else .token (String.ofList operand) :: nodes

/-- What reading a list of nodes gives: the operand that it begins with, empty
    if it begins otherwise, the nodes after that operand, and the characters
    left unread with the byte offset they begin at. -/
structure Reading where
  operand : List Char
  nodes : List Node
  offset : Nat
  rest : List Char

/-- All nodes read, the leading operand included. -/
def Reading.all (r : Reading) : List Node :=
  withOperand r.operand r.nodes

/-- The reading with a character in front that is no parenthesis: an operator is
    a node of its own, a space is passed over, also inside an operand, and any
    other character begins the operand. -/
def Reading.prepend (c : Char) (r : Reading) : Reading :=
  if isOperator c then { r with operand := [], nodes := .token (String.singleton c) :: r.all }
  else if c = ' ' then r
  else { r with operand := c :: r.operand }

theorem Reading.rest_prepend (c : Char) (r : Reading) : (r.prepend c).rest = r.rest := by
  unfold prepend
  split
  · rfl
  · split <;> rfl

/-- Reads nodes up to the end of the text, or up to and with the parenthesis
    that closes the one at `openedAt`. The character `cs` begins with is at the
    byte `offset`. -/
def readNodes (openedAt : Option Nat) (offset : Nat) (cs : List Char) :
    Except SearchError { r : Reading // r.rest.length ≤ cs.length } :=
  match cs with
  | [] =>
    match openedAt with
    | some position => .error (.unbalancedParenthesis position)
    | none => .ok ⟨⟨[], [], offset, []⟩, Nat.le_refl _⟩
  | c :: cs =>
    if c = '(' then do
      let ⟨inner, hinner⟩ ← readNodes (some offset) (offset + 1) cs
      let ⟨outer, houter⟩ ← readNodes openedAt inner.offset inner.rest
      return ⟨⟨[], .group inner.all :: outer.all, outer.offset, outer.rest⟩, by simp only [List.length_cons]; omega⟩
    else if c = ')' then
      match openedAt with
      | some _ => .ok ⟨⟨[], [], offset + 1, cs⟩, Nat.le_succ _⟩
      | none => .error (.unbalancedParenthesis offset)
    else do
      let ⟨after, hafter⟩ ← readNodes openedAt (offset + c.utf8Size) cs
      return ⟨after.prepend c, by rw [after.rest_prepend]; exact Nat.le_succ_of_le hafter⟩
termination_by cs.length

/-- The expression that a text writes. -/
def parse (s : String) : Except SearchError Expression :=
  (readNodes none 0 s.toList).map fun r => r.val.all

mutual

/-- A node as a value: a string for a token, a list for a group. -/
def Node.toJson : Node → Json
  | .token text => .string text
  | .group nodes => .array (nodesToJson nodes)

/-- Nodes as values. -/
def nodesToJson : List Node → List Json
  | [] => []
  | n :: ns => n.toJson :: nodesToJson ns

end

/-- An expression as a value, a list of strings and nested lists. -/
def toJson (e : Expression) : Json :=
  .array (nodesToJson e)

mutual

/-- The node that a value writes: a string or a list of nodes. -/
def Node.ofJson? : Json → Option Node
  | .string text => some (.token text)
  | .array items => (nodesOfJson? items).map .group
  | _ => none

/-- The nodes that values write, if each writes one. -/
def nodesOfJson? : List Json → Option (List Node)
  | [] => some []
  | v :: vs => do
    let n ← Node.ofJson? v
    let ns ← nodesOfJson? vs
    return n :: ns

end

def ofJson? : Json → Option Expression
  | .array items => nodesOfJson? items
  | _ => none

end Expression

end Brokerage
