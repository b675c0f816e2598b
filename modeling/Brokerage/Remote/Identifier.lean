namespace Brokerage

namespace Identifier

/-- The hexadecimal digits of a number, filled up with zeros to a width. -/
def hexDigits (width n : Nat) : List Char :=
  let ds := Nat.toDigits 16 (n % Nat.pow 16 width)
  List.replicate (width - ds.length) '0' ++ ds

/-- The identifier for a random number, of which the low 122 bits count: a UUID
    of version 4, with version and variant in their fixed places. -/
def ofRandom (n : Nat) : String :=
  let part (width shift : Nat) : List Char := hexDigits width (n >>> shift)
  String.ofList (part 8 90 ++ '-' :: part 4 74 ++ '-' :: '4' :: part 3 62 ++
    '-' :: hexDigits 1 (8 + (n >>> 60) % 4) ++ part 3 48 ++ '-' :: part 12 0)

end Identifier

end Brokerage
