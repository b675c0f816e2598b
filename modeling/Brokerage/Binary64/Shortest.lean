import Brokerage.Binary64.Rounding

namespace Brokerage.Binary64

/-- Which of two equally near decimals is taken. -/
inductive Tie where
  | toEven
  | up
deriving DecidableEq, Repr

/-- A positive decimal `digits * 10 ^ exponent`. -/
structure Decimal where
  digits : Nat
  exponent : Int
deriving DecidableEq, Repr, Inhabited

/-- The decimal exponent of the leading digit. -/
def Decimal.leading (d : Decimal) : Int :=
  d.exponent + decimalLength d.digits - 1

/-- The same decimal without trailing zeros among its digits. -/
def Decimal.trim (d : Decimal) : Decimal :=
  if _h : d.digits ≠ 0 ∧ d.digits % 10 = 0 then trim ⟨d.digits / 10, d.exponent + 1⟩ else d
termination_by d.digits
decreasing_by exact Nat.div_lt_self (by omega) (by omega)

/-- The fraction `scaled / unit` by which a magnitude of `doubled` half units is
    a multiple of `10 ^ exponent`. -/
def gridFraction (doubled : Nat) (exponent : Int) : Nat × Nat :=
  if 0 ≤ exponent then (doubled, Nat.pow 10 exponent.toNat * (2 * unitsInOne))
  else (doubled * Nat.pow 10 (-exponent).toNat, 2 * unitsInOne)

/-- Whether the decimal lies in the interval that rounds to `rank`: between the
    midpoints to both neighbours, which belong to it when the rank is even. -/
def readsBack (rank : Nat) (d : Decimal) : Bool :=
  let (low, unit) := gridFraction (unitsAt (rank - 1) + unitsAt rank) d.exponent
  let (high, _) := gridFraction (unitsAt rank + unitsAt (rank + 1)) d.exponent
  let value := d.digits * unit
  if rank % 2 = 0 then low ≤ value && value ≤ high else low < value && value < high

/-- The nearest multiple of `10 ^ exponent` that reads back as `rank`, if one of
    the two neighbours of the exact value does. -/
def onGrid? (tie : Tie) (rank : Nat) (exponent : Int) : Option Decimal :=
  let (scaled, unit) := gridFraction (2 * unitsAt rank) exponent
  let below := scaled / unit
  let rest := scaled % unit
  let down : Decimal := ⟨below, exponent⟩
  let up : Decimal := ⟨below + 1, exponent⟩
  let upNearer := unit < 2 * rest ∨ (unit = 2 * rest ∧ (tie = .up ∨ below % 2 = 1))
  match readsBack rank down, readsBack rank up with
  | true, true => some (if upNearer then up else down)
  | true, false => some down
  | false, true => some up
  | false, false => none

/-- The first grid, from `exponent` downward, that holds a decimal reading back
    as `rank`. -/
def searchGrids (tie : Tie) (rank : Nat) : (steps : Nat) → (exponent : Int) → Decimal
  | 0, exponent => ⟨(gridFraction (2 * unitsAt rank) exponent).1 / (2 * unitsInOne), exponent⟩
  | steps + 1, exponent => (onGrid? tie rank exponent).getD (searchGrids tie rank steps (exponent - 1))

/-- The decimal exponent of the leading digit of a positive magnitude. No
    magnitude is below 10^-324. -/
def leadingExponent (rank : Nat) : Int :=
  decimalLength (unitsAt rank * Nat.pow 10 324 / unitsInOne) - 325

/-- The shortest decimal of a positive magnitude: the fewest digits that read
    back as the same number, and of those the nearest to it. Seventeen digits
    are always enough. -/
def shortest (tie : Tie) (m : Magnitude) : Decimal :=
  (searchGrids tie m.rank 17 (leadingExponent m.rank)).trim

end Brokerage.Binary64
