import Reckon.Double.Parts

/-!
# Whole numbers among the doubles

Rounding to a whole number in four directions, and remainders. Infinities, what
is no number and the sign of zero pass through every rounding.
-/

namespace Reckon.Double

/-- The magnitude of a finite double without its fraction. -/
def wholePart (x : Float) : Nat :=
  match exponent x with
  | .ofNat e => mantissa x <<< e
  | .negSucc e => mantissa x >>> (e + 1)

/-- A finite double is not a whole number. -/
def hasFraction (x : Float) : Bool :=
  match exponent x with
  | .ofNat _ => false
  | .negSucc e => mantissa x % twoTo (e + 1) ≠ 0

/-- The whole number next to zero, for the conversion to an integer. What is not finite gives 0. -/
def toInt (x : Float) : Int :=
  if !isFinite x then 0
  else if isNegative x then -Int.ofNat (wholePart x) else Int.ofNat (wholePart x)

/-- Replaces the magnitude of a finite double that has a fraction by a whole number. -/
def roundWith (magnitude : Float → Nat) (x : Float) : Float :=
  if isFinite x && hasFraction x then withSign (isNegative x) (Float.ofNat (magnitude x)) else x

/-- Rounding toward zero. -/
def trunc : Float → Float := roundWith wholePart

/-- Rounding toward negative infinity. -/
def floor : Float → Float :=
  roundWith fun x => if isNegative x then wholePart x + 1 else wholePart x

/-- Rounding toward positive infinity. -/
def ceil : Float → Float :=
  roundWith fun x => if isNegative x then wholePart x else wholePart x + 1

/-- Rounding to the nearest whole number, a half going to the even one. -/
def roundEven : Float → Float :=
  roundWith fun x => shiftRightEven (mantissa x) (-exponent x).toNat

/-- The exact remainder of a division, with the sign of the dividend. There is none of an
    infinity and none by zero. -/
def remainder (x y : Float) : Float :=
  if x.isNaN || y.isNaN || x.isInf || y == 0 then nan
  else if y.isInf then x
  else
    let scale := min (exponent x) (exponent y)
    let dividend := mantissa x <<< (exponent x - scale).toNat
    let divisor := mantissa y <<< (exponent y - scale).toNat
    withSign (isNegative x) (ofScaled (dividend % divisor) scale)

/-- The larger of two: positive infinity first, then what is no number, and positive zero
    over negative zero. -/
def maximum (x y : Float) : Float :=
  if x == inf || y == inf then inf
  else if x.isNaN || y.isNaN then nan
  else if x == 0 && x == y then if isNegative x then y else x
  else if y < x then x else y

/-- The smaller of two: negative infinity first, then what is no number, and negative zero
    over positive zero. -/
def minimum (x y : Float) : Float :=
  if x == -inf || y == -inf then -inf
  else if x.isNaN || y.isNaN then nan
  else if x == 0 && x == y then if isNegative x then x else y
  else if x < y then x else y

end Reckon.Double
