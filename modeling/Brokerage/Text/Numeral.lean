namespace Brokerage.Text

/-- The decimal text of an integer, with a minus sign in front of a negative one
    and nothing in front of any other. -/
def integerChars (n : Int) : List Char :=
  if n < 0 then '-' :: Nat.toDigits 10 n.natAbs else Nat.toDigits 10 n.natAbs

/-- The number that a run of decimal digits writes, read on from `acc`. -/
def digitsValue (acc : Nat) (ds : List Char) : Nat :=
  ds.foldl (fun n c => 10 * n + (c.toNat - '0'.toNat)) acc

/-- The number that a text writes that is a run of digits, nonempty, and nothing
    else. -/
def wholeDigits? (cs : List Char) : Option Nat :=
  if cs ≠ [] ∧ cs.all Char.isDigit then some (digitsValue 0 cs) else none

/-- The integer below `bound` that the characters write: a run of digits, behind
    a plus sign or none. -/
def readNatBelow? (bound : Nat) (cs : List Char) : Option Nat :=
  let digits :=
    match cs with
    | '+' :: ds => ds
    | ds => ds
  (wholeDigits? digits).filter fun n => n < bound

/-- The unsigned 16-bit integer that the characters write. -/
def readUInt16? (cs : List Char) : Option UInt16 :=
  (readNatBelow? UInt16.size cs).map UInt16.ofNat

/-- The unsigned 64-bit integer that the characters write. -/
def readUInt64? (cs : List Char) : Option UInt64 :=
  (readNatBelow? UInt64.size cs).map UInt64.ofNat

end Brokerage.Text
