import Brokerage.Json.Basic

namespace Brokerage.Json

/-- The blanks allowed between words. -/
def isBlank (c : Char) : Bool :=
  c = ' ' || c = '\n' || c = '\t' || c = '\r'

/-- The characters after any blanks. -/
def skipBlanks (cs : List Char) : List Char :=
  cs.dropWhile isBlank

/-- The value of a hexadecimal digit, in either case. -/
def hexValue? (c : Char) : Option Nat :=
  if '0' ≤ c ∧ c ≤ '9' then some (c.toNat - '0'.toNat)
  else if 'a' ≤ c ∧ c ≤ 'f' then some (c.toNat - 'a'.toNat + 10)
  else if 'A' ≤ c ∧ c ≤ 'F' then some (c.toNat - 'A'.toNat + 10)
  else none

/-- The 16-bit unit that four hexadecimal digits write. -/
def unit? (a b c d : Char) : Option Nat := do
  let a ← hexValue? a
  let b ← hexValue? b
  let c ← hexValue? c
  let d ← hexValue? d
  return ((a * 16 + b) * 16 + c) * 16 + d

/-- The character that an escaped letter stands for, other than the escape of a
    unit. -/
def simpleEscape? (c : Char) : Option Char :=
  if c = '"' ∨ c = '\\' ∨ c = '/' then some c
  else if c = 'b' then some (Char.ofNat 0x08)
  else if c = 'f' then some (Char.ofNat 0x0C)
  else if c = 'n' then some '\n'
  else if c = 'r' then some '\r'
  else if c = 't' then some '\t'
  else none

/-- The unit is the first or the second half of a surrogate pair. -/
def isSurrogate (n : Nat) : Bool :=
  0xD800 ≤ n && n < 0xE000

/-- The character that a high and a low surrogate make, if the units are
    that. -/
def paired? (high low : Nat) : Option Char :=
  if 0xD800 ≤ high ∧ high < 0xDC00 ∧ 0xDC00 ≤ low ∧ low < 0xE000 then
    some (Char.ofNat (0x10000 + (high - 0xD800) * 0x400 + (low - 0xDC00)))
  else none

/-- The characters of a string up to its closing quote, escapes resolved, and
    the characters after it. A control character below U+0020 may stand in a
    string only as an escape, and a surrogate only as one of an escaped pair. -/
def readStringBody? : List Char → Option (List Char × List Char)
  | '"' :: rest => some ([], rest)
  | '\\' :: 'u' :: a :: b :: c :: d :: rest =>
    match unit? a b c d with
    | none => none
    | some n =>
      if isSurrogate n then
        match rest with
        | '\\' :: 'u' :: e :: f :: g :: h :: rest =>
          match (unit? e f g h).bind (paired? n) with
          | none => none
          | some c => (readStringBody? rest).map fun (text, after) => (c :: text, after)
        | _ => none
      else (readStringBody? rest).map fun (text, after) => (Char.ofNat n :: text, after)
  | '\\' :: c :: rest =>
    match simpleEscape? c with
    | none => none
    | some c => (readStringBody? rest).map fun (text, after) => (c :: text, after)
  | c :: rest =>
    if c.toNat < 0x20 ∨ c = '\\' then none
    else (readStringBody? rest).map fun (text, after) => (c :: text, after)
  | [] => none

/-- A string, its opening quote first, and the characters after it; nothing when
    no string begins there. -/
def readString? : List Char → Option (String × List Char)
  | '"' :: rest => (readStringBody? rest).map fun (text, after) => (String.ofList text, after)
  | _ => none

end Brokerage.Json
