namespace Brokerage

namespace Binary64

/-- How many magnitudes a binade has: 2^52. -/
def binade : Nat := 0x10000000000000

/-- How many finite magnitudes there are: 2047 binades, the subnormal one
    included. -/
def rankBound : Nat := 2047 * binade

/-- How many units make one: a unit is 2^-1074, the smallest positive
    magnitude. -/
def unitsInOne : Nat := Nat.pow 2 1074

/-- The value of the magnitude at `rank`, in units. In the first binade the
    magnitudes are subnormal and one unit apart, as they are in the second; each
    later binade doubles the distance. -/
def unitsAt (rank : Nat) : Nat :=
  if rank < binade then rank else (binade + rank % binade) * Nat.pow 2 (rank / binade - 1)

/-- A finite magnitude, given by its rank: its place in the ascending list of
    all finite magnitudes. It stands for a whole number of units of 2^-1074, so
    that every comparison and every rounding is a statement about natural
    numbers. -/
structure Magnitude where
  rank : Nat
  rank_lt : rank < rankBound
deriving DecidableEq

/-- The magnitude zero, first of all. -/
def Magnitude.zero : Magnitude := ⟨0, by decide⟩

instance : Inhabited Magnitude := ⟨Magnitude.zero⟩

/-- The value in units. -/
def Magnitude.units (m : Magnitude) : Nat :=
  unitsAt m.rank

end Binary64

/-- An IEEE 754 binary64 number as an exact value. The two zeros are different
    numbers here; `Binary64.beq` identifies them. -/
inductive Binary64 where
  | nan
  | infinite (negative : Bool)
  | finite (negative : Bool) (magnitude : Binary64.Magnitude)
deriving DecidableEq, Inhabited

namespace Binary64

/-- Positive zero. -/
def zero : Binary64 := .finite false .zero

/-- The number with the other sign. -/
def neg : Binary64 → Binary64
  | nan => nan
  | infinite s => infinite !s
  | finite s m => finite (!s) m

/-- The value of a finite number in units, `none` for the others. -/
def units? : Binary64 → Option Int
  | finite false m => some m.units
  | finite true m => some (-m.units)
  | _ => none

/-- Strictly less in the order of the extended reals; a NaN is less than
    nothing. -/
def lt : Binary64 → Binary64 → Bool
  | nan, _ => false
  | _, nan => false
  | infinite s, infinite t => s && !t
  | infinite s, finite .. => s
  | finite .., infinite t => !t
  | finite s m, finite t n =>
    match s, t with
    | false, false => m.rank < n.rank
    | true, true => n.rank < m.rank
    | true, false => m.rank != 0 || n.rank != 0
    | false, true => false

end Binary64

end Brokerage
