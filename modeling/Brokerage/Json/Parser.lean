import Brokerage.Json.Lexical
import Brokerage.Json.Numeral

namespace Brokerage.Json

/-- How many arrays and objects may be open at once. -/
def maxDepth : Nat := 127

/-- Items up to the closing bracket, each read by `item` and separated by
    commas. The characters begin at an item; `steps` bounds the number of
    items. -/
def readItems? {α : Type} (item : List Char → Option (α × List Char)) (close : Char) :
    (steps : Nat) → List Char → Option (List α × List Char)
  | 0, _ => none
  | steps + 1, cs => do
    let (first, cs) ← item (skipBlanks cs)
    match skipBlanks cs with
    | ',' :: cs => do
      let (others, cs) ← readItems? item close steps cs
      return (first :: others, cs)
    | c :: cs => if c = close then some ([first], cs) else none
    | [] => none

/-- What an opening bracket begins: nothing before the closing one, or items.
    Every item takes a character at least, so there are no more of them than
    characters. -/
def readSequence? {α : Type} (item : List Char → Option (α × List Char)) (close : Char) (cs : List Char) :
    Option (List α × List Char) :=
  match skipBlanks cs with
  | c :: rest => if c = close then some ([], rest) else readItems? item close (rest.length + 1) (c :: rest)
  | [] => none

/-- A member: a name, a colon and what `value` reads. -/
def readMember? {α : Type} (value : List Char → Option (α × List Char)) (cs : List Char) :
    Option ((String × α) × List Char) := do
  let (name, cs) ← readString? (skipBlanks cs)
  match skipBlanks cs with
  | ':' :: cs => do
    let (v, cs) ← value (skipBlanks cs)
    return ((name, v), cs)
  | _ => none

/-- The characters after the word, if it begins them. -/
def readWord? : (word : List Char) → List Char → Option (List Char)
  | [], cs => some cs
  | w :: ws, c :: cs => if w = c then readWord? ws cs else none
  | _ :: _, [] => none

/-- A value other than an array or an object. -/
def readScalar? (cs : List Char) : Option (Json × List Char) :=
  match cs with
  | 'n' :: cs => (readWord? ['u', 'l', 'l'] cs).map fun cs => (null, cs)
  | 't' :: cs => (readWord? ['r', 'u', 'e'] cs).map fun cs => (bool true, cs)
  | 'f' :: cs => (readWord? ['a', 'l', 's', 'e'] cs).map fun cs => (bool false, cs)
  | '"' :: _ => (readString? cs).map fun (s, cs) => (string s, cs)
  | _ => do
    let (numeral, cs) ← readNumeral? cs
    let n ← numeral.value?
    return (number n, cs)

/-- A value in which at most `depth` arrays and objects are open at once. -/
def readValue? : (depth : Nat) → List Char → Option (Json × List Char)
  | 0, cs => readScalar? cs
  | depth + 1, cs =>
    match cs with
    | '[' :: cs => (readSequence? (readValue? depth) ']' cs).map fun (items, cs) => (array items, cs)
    | '\x7b' :: cs =>
      (readSequence? (readMember? (readValue? depth)) '\x7d' cs).map fun (members, cs) => (ofMembers members, cs)
    | cs => readScalar? cs

/-- What `value` reads from the whole text, blanks around it passed over. -/
def readAll? {α : Type} (value : List Char → Option (α × List Char)) (s : String) : Option α :=
  match value (skipBlanks s.toList) with
  | some (v, rest) => if skipBlanks rest = [] then some v else none
  | none => none

/-- The value that a whole text writes. Of two members with one name the later
    stays, and members come out ascending by name. -/
def parse? (s : String) : Option Json :=
  readAll? (readValue? maxDepth) s

end Brokerage.Json
