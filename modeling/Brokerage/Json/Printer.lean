import Brokerage.Binary64.Text
import Brokerage.Json.Basic

namespace Brokerage.Json

/-- The lower-case hexadecimal digit of a number below 16. -/
def hexDigit (n : Nat) : Char :=
  if n < 10 then Char.ofNat ('0'.toNat + n) else Char.ofNat ('a'.toNat + (n - 10))

/-- A character inside a JSON string: quotes, backslashes and control characters
    below U+0020 are escaped. -/
def escapeChar (c : Char) : List Char :=
  if c = '"' then ['\\', '"']
  else if c = '\\' then ['\\', '\\']
  else if c.toNat = 0x08 then ['\\', 'b']
  else if c.toNat = 0x0C then ['\\', 'f']
  else if c = '\n' then ['\\', 'n']
  else if c = '\r' then ['\\', 'r']
  else if c = '\t' then ['\\', 't']
  else if c.toNat < 0x20 then ['\\', 'u', '0', '0', hexDigit (c.toNat / 16), hexDigit (c.toNat % 16)]
  else [c]

/-- A JSON string with its quotes. -/
def stringChars (s : String) : List Char :=
  '"' :: s.toList.flatMap escapeChar ++ ['"']

/-- The text of a number. -/
def numberChars : Number → List Char
  | .integer n _ _ => Text.integerChars n
  | .real negative m => Binary64.TextForm.json.finite negative m

mutual

/-- The compact text of a value, in front of `rest`. -/
def compactBefore (rest : List Char) : Json → List Char
  | null => 'n' :: 'u' :: 'l' :: 'l' :: rest
  | bool true => 't' :: 'r' :: 'u' :: 'e' :: rest
  | bool false => 'f' :: 'a' :: 'l' :: 's' :: 'e' :: rest
  | number n => numberChars n ++ rest
  | string s => stringChars s ++ rest
  | array [] => '[' :: ']' :: rest
  | array (v :: vs) => '[' :: compactBefore (compactItems rest vs) v
  | object [] => '\x7b' :: '\x7d' :: rest
  | object ((k, v) :: ms) => '\x7b' :: (stringChars k ++ ':' :: compactBefore (compactMembers rest ms) v)

/-- The items after the first, each after a comma, and the closing bracket. -/
def compactItems (rest : List Char) : List Json → List Char
  | [] => ']' :: rest
  | v :: vs => ',' :: compactBefore (compactItems rest vs) v

/-- The members after the first, each after a comma, and the closing brace. -/
def compactMembers (rest : List Char) : List (String × Json) → List Char
  | [] => '\x7d' :: rest
  | (k, v) :: ms => ',' :: (stringChars k ++ ':' :: compactBefore (compactMembers rest ms) v)

end

/-- The compact text of a value, without a blank between its words. -/
def compact (v : Json) : String :=
  String.ofList (compactBefore [] v)

/-- The text of a value in a sentence or as a key: a string without quotes and
    escapes, any other value compact. -/
def unquoted : Json → String
  | string s => s
  | v => v.compact

/-- A line end and the blanks of an indentation level, in front of `rest`. -/
def newLine (level : Nat) (rest : List Char) : List Char :=
  '\n' :: (List.replicate (2 * level) ' ' ++ rest)

mutual

/-- The indented text of a value that begins on a line of the given level, in
    front of `rest`. -/
def indentedBefore (level : Nat) (rest : List Char) : Json → List Char
  | null => 'n' :: 'u' :: 'l' :: 'l' :: rest
  | bool true => 't' :: 'r' :: 'u' :: 'e' :: rest
  | bool false => 'f' :: 'a' :: 'l' :: 's' :: 'e' :: rest
  | number n => numberChars n ++ rest
  | string s => stringChars s ++ rest
  | array [] => '[' :: ']' :: rest
  | array (v :: vs) => '[' :: newLine (level + 1) (indentedBefore (level + 1) (indentedItems level rest vs) v)
  | object [] => '\x7b' :: '\x7d' :: rest
  | object ((k, v) :: ms) =>
    '\x7b' :: newLine (level + 1)
      (stringChars k ++ ':' :: ' ' :: indentedBefore (level + 1) (indentedMembers level rest ms) v)

/-- The items after the first, each on a line of its own, and the closing
    bracket. -/
def indentedItems (level : Nat) (rest : List Char) : List Json → List Char
  | [] => newLine level (']' :: rest)
  | v :: vs => ',' :: newLine (level + 1) (indentedBefore (level + 1) (indentedItems level rest vs) v)

/-- The members after the first, each on a line of its own, and the closing
    brace. -/
def indentedMembers (level : Nat) (rest : List Char) : List (String × Json) → List Char
  | [] => newLine level ('\x7d' :: rest)
  | (k, v) :: ms =>
    ',' :: newLine (level + 1)
      (stringChars k ++ ':' :: ' ' :: indentedBefore (level + 1) (indentedMembers level rest ms) v)

end

/-- The text of a value with every item and member on a line of its own,
    indented by two spaces a level. -/
def indented (v : Json) : String :=
  String.ofList (indentedBefore 0 [] v)

end Brokerage.Json
