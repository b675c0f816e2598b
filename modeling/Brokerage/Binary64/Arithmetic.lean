import Brokerage.Binary64.Rounding

namespace Brokerage.Binary64

/-- Sum. Like every operation here it is the exact one followed by one rounding.
    An exact zero is positive unless both operands are negative zeros. -/
def add : Binary64 → Binary64 → Binary64
  | nan, _ => nan
  | _, nan => nan
  | infinite s, infinite t => if s = t then infinite s else nan
  | infinite s, finite .. => infinite s
  | finite .., infinite t => infinite t
  | finite s m, finite t n =>
    if s = t then ofUnits s (m.units + n.units) 1
    else if n.units < m.units then ofUnits s (m.units - n.units) 1
    else if m.units < n.units then ofUnits t (n.units - m.units) 1
    else zero

/-- Difference. -/
def sub (x y : Binary64) : Binary64 :=
  add x (neg y)

/-- Product. Zero times infinity is NaN. -/
def mul : Binary64 → Binary64 → Binary64
  | nan, _ => nan
  | _, nan => nan
  | infinite s, infinite t => infinite (s != t)
  | infinite s, finite t m => if m.rank = 0 then nan else infinite (s != t)
  | finite s m, infinite t => if m.rank = 0 then nan else infinite (s != t)
  | finite s m, finite t n => ofUnits (s != t) (m.units * n.units) unitsInOne

/-- Quotient. Zero by zero and infinity by infinity are NaN. -/
def div : Binary64 → Binary64 → Binary64
  | nan, _ => nan
  | _, nan => nan
  | infinite _, infinite _ => nan
  | infinite s, finite t _ => infinite (s != t)
  | finite s _, infinite t => finite (s != t) .zero
  | finite s m, finite t n =>
    if n.rank = 0 then if m.rank = 0 then nan else infinite (s != t)
    else ofRatio (s != t) m.units n.units

/-- A product of `base` with itself, `exponent` times, by repeated squaring from
    the low bit on. Each product is rounded, so the order of the products
    matters. -/
def squaring (base acc : Binary64) (exponent : Nat) : Binary64 :=
  if _h : exponent ≤ 1 then if exponent = 1 then mul acc base else acc
  else squaring (mul base base) (if exponent % 2 = 1 then mul acc base else acc) (exponent / 2)
termination_by exponent
decreasing_by omega

/-- An integer power: the reciprocal of the positive power when the exponent is
    negative. -/
def powInt (base : Binary64) (exponent : Int) : Binary64 :=
  let power := squaring base (ofInt 1) exponent.natAbs
  if exponent < 0 then div (ofInt 1) power else power

/-- The integer part, clamped to 64-bit signed integers; zero for a NaN. -/
def toInt64 : Binary64 → Int64
  | nan => 0
  | infinite true => Int64.minValue
  | infinite false => Int64.maxValue
  | finite negative m =>
    let whole : Nat := m.units / unitsInOne
    if negative then if 0x8000000000000000 ≤ whole then Int64.minValue else Int64.ofInt (-(whole : Int))
    else if 0x8000000000000000 ≤ whole then Int64.maxValue else Int64.ofInt whole

end Brokerage.Binary64
