import Brokerage.Binary64.Shortest
import Brokerage.Text.Numeral

namespace Brokerage.Binary64

/-- How a finite number is written. -/
structure TextForm where
  /-- Which of two equally near shortest decimals is written. -/
  tie : Tie
  /-- The leading exponents written without an exponent part. -/
  positional : Int → Bool
  /-- Whether a whole number written in positions ends in `.0`. -/
  pointZero : Bool

/-- Plain amounts: positional at every size, no point in a whole number, and of
    two equally near the upper. -/
def TextForm.plain : TextForm := ⟨.up, fun _ => true, false⟩

/-- Numbers inside JSON text: positional from 10^-5 up to below 10^16 and always
    with a point there, a signed exponent elsewhere, and of two equally near the
    even. -/
def TextForm.json : TextForm := ⟨.toEven, fun e => -5 ≤ e && e ≤ 15, true⟩

/-- The digits of a decimal in positions: zeros fill up to the point on either
    side. -/
def positionalText (pointZero : Bool) (d : Decimal) : List Char :=
  let ds := Nat.toDigits 10 d.digits
  if 0 ≤ d.exponent then
    ds ++ List.replicate d.exponent.toNat '0' ++ (if pointZero then ['.', '0'] else [])
  else
    let places := (-d.exponent).toNat
    if places < ds.length then ds.take (ds.length - places) ++ '.' :: ds.drop (ds.length - places)
    else '0' :: '.' :: List.replicate (places - ds.length) '0' ++ ds

/-- The digits of a decimal with a point after the first and the exponent of
    that first digit. -/
def exponentText (d : Decimal) : List Char :=
  let lead := d.leading
  let mantissa :=
    match Nat.toDigits 10 d.digits with
    | [] => []
    | [c] => [c]
    | c :: cs => c :: '.' :: cs
  mantissa ++ 'e' :: (if lead < 0 then '-' else '+') :: Nat.toDigits 10 lead.natAbs

/-- The text of a finite magnitude, without a sign. -/
def TextForm.magnitude (form : TextForm) (m : Magnitude) : List Char :=
  if m.rank = 0 then if form.pointZero then ['0', '.', '0'] else ['0']
  else
    let d := shortest form.tie m
    if form.positional d.leading then positionalText form.pointZero d else exponentText d

/-- The text of a finite number. Negative zero keeps its sign. -/
def TextForm.finite (form : TextForm) (negative : Bool) (m : Magnitude) : List Char :=
  if negative then '-' :: form.magnitude m else form.magnitude m

/-- The plain text of any number. -/
def plainChars : Binary64 → List Char
  | nan => ['N', 'a', 'N']
  | infinite false => ['i', 'n', 'f']
  | infinite true => ['-', 'i', 'n', 'f']
  | .finite negative m => TextForm.plain.finite negative m

/-- The plain text of any number, as a string. -/
def plainText (x : Binary64) : String :=
  String.ofList (plainChars x)

/-- The exponent part at the end of a number text: nothing, or `e` with a signed
    run of digits. -/
def exponentPart? : List Char → Option Int
  | [] => some 0
  | e :: cs =>
    if e = 'e' ∨ e = 'E' then
      match cs with
      | '-' :: ds => (Text.wholeDigits? ds).map fun n => -(n : Int)
      | '+' :: ds => (Text.wholeDigits? ds).map Int.ofNat
      | ds => (Text.wholeDigits? ds).map Int.ofNat
    else none

/-- A decimal without a sign: digits with an optional point among or around
    them, and an optional exponent. -/
def readMagnitude? (negative : Bool) (cs : List Char) : Option Binary64 :=
  let whole := cs.takeWhile Char.isDigit
  let (fraction, rest) :=
    match cs.dropWhile Char.isDigit with
    | '.' :: r => (r.takeWhile Char.isDigit, r.dropWhile Char.isDigit)
    | r => ([], r)
  if whole = [] ∧ fraction = [] then none
  else (exponentPart? rest).map fun e =>
    ofDecimal negative (Text.digitsValue 0 (whole ++ fraction)) (e - fraction.length)

/-- The text is one of the names of infinity or of NaN, in any case. -/
def readName? (negative : Bool) (cs : List Char) : Option Binary64 :=
  let name := String.ofList (cs.map Char.toLower)
  if name = "inf" ∨ name = "infinity" then some (.infinite negative)
  else if name = "nan" then some .nan
  else none

/-- The number that a text writes, correctly rounded. The sign may be either;
    there are no blanks. -/
def readChars? (cs : List Char) : Option Binary64 :=
  let (negative, body) :=
    match cs with
    | '-' :: r => (true, r)
    | '+' :: r => (false, r)
    | r => (false, r)
  (readName? negative body).or (readMagnitude? negative body)

/-- The number that a text writes, as a string. -/
def read? (s : String) : Option Binary64 :=
  readChars? s.toList

end Brokerage.Binary64
