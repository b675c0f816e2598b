import Brokerage.Text.Uppercase.Table

namespace Brokerage.Text

/-- The upper case of the character at code point `n`, as code points. -/
def upperCodes (n : Nat) : List Nat :=
  match caseRuns.findSome? (CaseRun.map? · n) with
  | some m => [m]
  | none => (caseExpansions.lookup n).getD [n]

/-- The upper case of one character. -/
def upperChar (c : Char) : List Char :=
  (upperCodes c.toNat).map Char.ofNat

/-- The upper case of a text, character by character. -/
def upperChars (cs : List Char) : List Char :=
  cs.flatMap upperChar

/-- The upper case of a string by the full Unicode mapping, under which a text
    may grow: `ß` becomes `SS`. -/
def uppercase (s : String) : String :=
  String.ofList (upperChars s.toList)

end Brokerage.Text
