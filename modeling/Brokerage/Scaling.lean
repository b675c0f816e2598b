import Brokerage.Binary64.Arithmetic
import Brokerage.Binary64.Text

namespace Brokerage.Scaling

/-- The integer for `number` at `digits` decimal places, truncated toward zero.
    The server keeps prices, volumes and money as such integers. The point is
    moved in the decimal text, so that 1.1 with two digits is exactly 110; a
    number whose text takes no exponent, an infinity or NaN, is multiplied by
    the power of ten instead, its exponent read as a signed 32-bit one. -/
def toInt (number : Binary64) (digits : UInt32) : Int64 :=
  let text := number.plainChars ++ 'e' :: Nat.toDigits 10 digits.toNat
  let scaled := (Binary64.readChars? text).getD
    (number.mul ((Binary64.ofInt 10).powInt digits.toInt32.toInt))
  scaled.toInt64

/-- The number for the integer `number` at `digits` decimal places. Its text
    always reads. -/
def toFloat (number : Int64) (digits : UInt32) : Binary64 :=
  let text := Text.integerChars number.toInt ++ 'e' :: '-' :: Nat.toDigits 10 digits.toNat
  (Binary64.readChars? text).getD
    ((Binary64.ofInt number.toInt).div ((Binary64.ofInt 10).powInt digits.toInt32.toInt))

end Brokerage.Scaling
