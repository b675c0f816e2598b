import Brokerage.Binary64.Basic

namespace Brokerage.Binary64

/-- The rank of the magnitude nearest to `num / den` units, a tie going to the
    even rank. It may lie past the last finite rank. Both parts of the sum below
    agree at the end of a binade, so a carry needs no case of its own. -/
def nearestRank (num den : Nat) : Nat :=
  let shift := (num / den).log2 - 52
  let step := den * Nat.pow 2 shift
  let below := num / step
  let rest := num % step
  let nearest := if step < 2 * rest ∨ (step = 2 * rest ∧ below % 2 = 1) then below + 1 else below
  shift * binade + nearest

/-- The number whose magnitude has the given rank, infinite past the last finite
    rank. -/
def ofRank (negative : Bool) (rank : Nat) : Binary64 :=
  if h : rank < rankBound then .finite negative ⟨rank, h⟩ else .infinite negative

/-- The number nearest to `num / den` units. -/
def ofUnits (negative : Bool) (num den : Nat) : Binary64 :=
  ofRank negative (nearestRank num den)

/-- The number nearest to `num / den`. -/
def ofRatio (negative : Bool) (num den : Nat) : Binary64 :=
  ofUnits negative (num * unitsInOne) den

/-- The number nearest to an integer. -/
def ofInt (n : Int) : Binary64 :=
  ofRatio (n < 0) n.natAbs 1

/-- How many decimal digits a natural number has; 1 for zero. -/
def decimalLength (n : Nat) : Nat :=
  (Nat.toDigits 10 n).length

/-- The number nearest to `digits * 10 ^ exponent`, ties to even. A decimal of
    10^310 or more is past the last finite number and one below 10^-330 is
    nearer to zero than to any other, so the exact power is formed only in
    between. -/
def ofDecimal (negative : Bool) (digits : Nat) (exponent : Int) : Binary64 :=
  if digits = 0 then .finite negative .zero
  else
    let top := exponent + decimalLength digits
    if 311 ≤ top then .infinite negative
    else if top ≤ -330 then .finite negative .zero
    else if 0 ≤ exponent then ofRatio negative (digits * Nat.pow 10 exponent.toNat) 1
    else ofRatio negative digits (Nat.pow 10 (-exponent).toNat)

end Brokerage.Binary64
