namespace Brokerage.Text

/-- A character with the Unicode property White_Space. -/
def isWhiteSpace (c : Char) : Bool :=
  let n := c.toNat
  (0x09 ≤ n && n ≤ 0x0D) || n == 0x20 || n == 0x85 || n == 0xA0 || n == 0x1680 ||
    (0x2000 ≤ n && n ≤ 0x200A) || n == 0x2028 || n == 0x2029 || n == 0x202F || n == 0x205F || n == 0x3000

/-- The characters from the first one that is not white space on. -/
def trimStart (cs : List Char) : List Char :=
  cs.dropWhile isWhiteSpace

/-- The characters up to the last one that is not white space. -/
def trimEnd (cs : List Char) : List Char :=
  (cs.reverse.dropWhile isWhiteSpace).reverse

/-- The characters between the white space at both ends. Only a run at either
    end goes; white space between other characters stays. -/
def trim (cs : List Char) : List Char :=
  trimEnd (trimStart cs)

/-- A text without the white space at its ends. -/
def trimmed (s : String) : String :=
  String.ofList (trim s.toList)

end Brokerage.Text
