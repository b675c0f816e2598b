import Brokerage.Binary64.Arithmetic
import Brokerage.Json.Basic
import Brokerage.Text.Numeral

namespace Brokerage

/-- The integer as a number, if it fits in 64 bits with or without a sign. -/
def Number.ofInt? (n : Int) : Option Number :=
  if h : -0x8000000000000000 ≤ n ∧ n < 0x10000000000000000 then some (.integer n h.1 h.2) else none

namespace Json

/-- A number word: its sign, the digits before the point, those after it, and
    the exponent with its sign. -/
structure Numeral where
  negative : Bool
  whole : List Char
  fraction : Option (List Char)
  exponent : Option (Bool × List Char)
deriving DecidableEq, Repr

/-- A nonempty run of digits and the characters after it. -/
def readDigits? (cs : List Char) : Option (List Char × List Char) :=
  match cs.takeWhile Char.isDigit with
  | [] => none
  | ds => some (ds, cs.dropWhile Char.isDigit)

/-- The digits before the point: a lone zero, or a run that begins with another
    digit. -/
def readWhole? (cs : List Char) : Option (List Char × List Char) :=
  match readDigits? cs with
  | some ('0' :: _ :: _, _) => none
  | found => found

/-- The digits after the point, if a point follows. -/
def readFraction? : List Char → Option (Option (List Char) × List Char)
  | '.' :: rest => (readDigits? rest).map fun (ds, after) => (some ds, after)
  | cs => some (none, cs)

/-- The sign and the digits of the exponent, if one follows. -/
def readExponent? : List Char → Option (Option (Bool × List Char) × List Char)
  | e :: rest =>
    if e = 'e' ∨ e = 'E' then
      match rest with
      | '-' :: ds => (readDigits? ds).map fun (ds, after) => (some (true, ds), after)
      | '+' :: ds => (readDigits? ds).map fun (ds, after) => (some (false, ds), after)
      | ds => (readDigits? ds).map fun (ds, after) => (some (false, ds), after)
    else some (none, e :: rest)
  | [] => some (none, [])

/-- A number word. -/
def readNumeral? (cs : List Char) : Option (Numeral × List Char) := do
  let (negative, cs) :=
    match cs with
    | '-' :: rest => (true, rest)
    | cs => (false, cs)
  let (whole, cs) ← readWhole? cs
  let (fraction, cs) ← readFraction? cs
  let (exponent, cs) ← readExponent? cs
  return (⟨negative, whole, fraction, exponent⟩, cs)

/-- Reads digits on from `acc` as long as the result fits in 64 bits, and gives
    the digits left over. -/
def takeSignificand (acc : Nat) : List Char → Nat × List Char
  | [] => (acc, [])
  | c :: cs =>
    let next := Text.digitsValue acc [c]
    if next < UInt64.size then takeSignificand next cs else (acc, c :: cs)

/-- `value * 10 ^ exponent`, by one multiplication or division with a power of
    ten up to 10^308, after divisions by 10^308 while the exponent is below
    that. -/
def scaleByPower (value : Binary64) (exponent : Int) : Option Binary64 :=
  if exponent.natAbs ≤ 308 then
    let power := Binary64.ofDecimal false 1 exponent.natAbs
    some (if 0 ≤ exponent then value.mul power else value.div power)
  else if value = .zero then some value
  else if _h : 0 ≤ exponent then none
  else scaleByPower (value.div (Binary64.ofDecimal false 1 308)) (exponent + 308)
termination_by exponent.natAbs
decreasing_by omega

/-- The largest signed 32-bit integer, at which exponents stop. -/
def exponentLimit : Int := 0x7fffffff

/-- The number `significand * 10 ^ exponent`, if it is finite. -/
def scaledNumber? (negative : Bool) (significand : Nat) (exponent : Int) : Option Number :=
  match scaleByPower (Binary64.ofInt significand) (max (-exponentLimit - 1) (min exponentLimit exponent)) with
  | some (.finite _ m) => some (.real negative m)
  | _ => none

/-- The number with its exponent part still to be applied. Exponent digits past
    the limit leave only zero. -/
def applyExponent? (negative : Bool) (significand : Nat) (start : Int) : Option (Bool × List Char) → Option Number
  | none => scaledNumber? negative significand start
  | some (down, ds) =>
    let shift : Int := Text.digitsValue 0 ds
    if exponentLimit < shift then
      if significand ≠ 0 ∧ ¬down then none else some (.real negative .zero)
    else scaledNumber? negative significand (if down then start - shift else start + shift)

/-- The number that a word writes: without point and exponent an integer, when
    it fits in 64 bits, and else a binary64 number read from as many leading
    digits as fit in 64 bits and one power of ten. Digits before the point that
    no longer fit count in the exponent; those after it are passed over. Minus
    zero is a float. -/
def Numeral.value? (n : Numeral) : Option Number :=
  let (significand, extra) := takeSignificand 0 n.whole
  match n.fraction, n.exponent with
  | none, none =>
    if extra ≠ [] then scaledNumber? n.negative significand extra.length
    else if ¬n.negative then Number.ofInt? significand
    else if significand = 0 ∨ 0x8000000000000000 < significand then scaledNumber? true significand 0
    else Number.ofInt? (-significand)
  | none, exponent => applyExponent? n.negative significand extra.length exponent
  | some ds, exponent =>
    let (significand, passed) := takeSignificand significand ds
    applyExponent? n.negative significand ((extra.length : Int) - (ds.length - passed.length : Nat)) exponent

end Json

end Brokerage
