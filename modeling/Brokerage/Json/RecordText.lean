import Brokerage.Json.Parser
import Brokerage.Json.Record

namespace Brokerage.Record

open Json (readString? readNumeral? readWord? readSequence? readValue? skipBlanks readAll?)

/-- The characters after a string body, whose escapes are checked but not
    resolved. -/
def skipStringBody? : List Char → Option (List Char)
  | '"' :: rest => some rest
  | '\\' :: 'u' :: a :: b :: c :: d :: rest =>
    match Json.unit? a b c d with
    | some _ => skipStringBody? rest
    | none => none
  | '\\' :: c :: rest =>
    match Json.simpleEscape? c with
    | some _ => skipStringBody? rest
    | none => none
  | c :: rest => if c.toNat < 0x20 ∨ c = '\\' then none else skipStringBody? rest
  | [] => none

/-- The characters after a member's name and colon. -/
def skipName? (cs : List Char) : Option (List Char) :=
  match skipBlanks cs with
  | '"' :: cs => do
    let cs ← skipStringBody? cs
    match skipBlanks cs with
    | ':' :: cs => some cs
    | _ => none
  | _ => none

/-- The characters after a value. A value nests no deeper than it is long, which
    `depth` has to allow. -/
def skipValue? : (depth : Nat) → List Char → Option (Unit × List Char)
  | 0, _ => none
  | depth + 1, cs =>
    match cs with
    | 'n' :: cs => (readWord? ['u', 'l', 'l'] cs).map fun cs => ((), cs)
    | 't' :: cs => (readWord? ['r', 'u', 'e'] cs).map fun cs => ((), cs)
    | 'f' :: cs => (readWord? ['a', 'l', 's', 'e'] cs).map fun cs => ((), cs)
    | '"' :: cs => (skipStringBody? cs).map fun cs => ((), cs)
    | '[' :: cs => (readSequence? (skipValue? depth) ']' cs).map fun (_, cs) => ((), cs)
    | '\x7b' :: cs =>
      let member (cs : List Char) := (skipName? cs).bind fun cs => skipValue? depth (skipBlanks cs)
      (readSequence? member '\x7d' cs).map fun (_, cs) => ((), cs)
    | cs => (readNumeral? cs).map fun (_, cs) => ((), cs)

/-- A member of a record: its field's name and value, or nothing for one that
    belongs to no field. -/
def readMember? (fields : List Field) (cs : List Char) : Option (Option (String × Json) × List Char) := do
  let (name, cs) ← readString? (skipBlanks cs)
  match skipBlanks cs with
  | ':' :: cs =>
    let cs := skipBlanks cs
    match fieldName? fields name with
    | some field => (readValue? (Json.maxDepth - 1) cs).map fun (v, cs) => (some (field, v), cs)
    | none => (skipValue? (cs.length + 1) cs).map fun (_, cs) => (none, cs)
  | _ => none

/-- The fields of a record that begins the characters, as an object or as a
    list. -/
def readFields? (fields : List Field) : List Char → Option (List (String × Json) × List Char)
  | '\x7b' :: cs => do
    let (members, cs) ← readSequence? (readMember? fields) '\x7d' cs
    let known := members.filterMap id
    if distinctNames known then some (known, cs) else none
  | '[' :: cs => do
    let (items, cs) ← readSequence? (readValue? (Json.maxDepth - 1)) ']' cs
    return (← ofItems? fields items, cs)
  | _ => none

/-- The fields of the record that a whole text writes. Their values are read as
    anywhere; a member that belongs to no field is only checked against the
    grammar, so that it may nest to any depth, hold numbers out of range and
    escape lone surrogates. -/
def parse? (fields : List Field) (s : String) : Option (List (String × Json)) :=
  readAll? (readFields? fields) s

end Brokerage.Record
