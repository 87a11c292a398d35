import Reckon.Double.Integer

/-!
# Exponentials and logarithms

The exponential, the logarithm and powers are summed as series in fixed point
with `fractionBits` binary places, and the sum is rounded by way of a wide
number. Where the result might leave the range of doubles the machine's own
functions are used instead, and powers are products of squares.
-/

namespace Reckon.Double

/-- Binary places of the fixed-point sums. -/
def fractionBits : Nat := 192

/-- One in fixed point. -/
def fixedOne : Nat := twoTo fractionBits

/-- The product of two magnitudes in fixed point. -/
def fixedMul (x y : Nat) : Nat := (x * y) >>> fractionBits

/-- A magnitude with a sign. -/
def signed (negative : Bool) (magnitude : Nat) : Int :=
  if negative then -Int.ofNat magnitude else magnitude

/-- A finite double in fixed point. -/
def toFixed (x : Float) : Int :=
  signed (isNegative x) <|
    match exponent x + Int.ofNat fractionBits with
    | .ofNat left => mantissa x <<< left
    | .negSucc right => mantissa x >>> (right + 1)

/-- Adds `power / divisor` over the odd powers of a number with the given square, for at most
    `terms` terms. -/
def sumOddPowers (square : Nat) : (terms power divisor sum : Nat) → Nat
  | 0, _, _, sum => sum
  | terms + 1, power, divisor, sum =>
    if power = 0 then sum
    else sumOddPowers square terms (fixedMul power square) (divisor + 2) (sum + power / divisor)

/-- The logarithm of `(1 + z) / (1 - z)` in fixed point, for small `z`. -/
def logRatio (z : Nat) : Nat := 2 * sumOddPowers (fixedMul z z) fractionBits z 1 0

/-- The logarithm of `x / y` in fixed point, for `x` not far above `y`. -/
def logQuotient (x y : Nat) : Nat := logRatio (((x - y) <<< fractionBits) / (x + y))

/-- The logarithm of two in fixed point. -/
def logTwo : Nat := logQuotient 2 1

/-- The logarithms of `1 + i / 64`, for `i` up to 64. -/
def logSteps : Array Nat := (Array.range 65).map fun i => logQuotient (64 + i) 64

/-- The logarithm of a positive finite double in fixed point. A number from one to two is
    a little above some `1 + i / 64`, whose logarithm is known, and twos count by their number. -/
def fixedLog (x : Float) : Int :=
  let size := (mantissa x).log2
  let reduced := mantissa x <<< (fractionBits - size)
  let step := (reduced >>> (fractionBits - 6)) - 64
  let base := (64 + step) <<< (fractionBits - 6)
  (exponent x + Int.ofNat size) * Int.ofNat logTwo +
    Int.ofNat (logSteps.getD step 0 + logQuotient reduced base)

/-- Adds the terms of the exponential series of `r` from `term` on, which is divided by `index`
    next, for at most `terms` terms. -/
def sumExp (r : Nat) : (terms index term sum : Nat) → Nat
  | 0, _, _, sum => sum
  | terms + 1, index, term, sum =>
    if term = 0 then sum
    else sumExp r terms (index + 1) (fixedMul term r / index) (sum + term)

/-- Squares a number in fixed point so many times. -/
def squareTimes : Nat → Nat → Nat
  | 0, x => x
  | times + 1, x => squareTimes times (fixedMul x x)

/-- The exponential of a number in fixed point, as a double. Multiples of the logarithm of
    two become the scale, and a 256th of the rest is summed. -/
def expOfFixed (x : Int) : Float :=
  let power := x / Int.ofNat logTwo
  let rest := (x - power * Int.ofNat logTwo).toNat
  ofWide (squareTimes 8 (sumExp (rest >>> 8) fractionBits 1 fixedOne 0))
    (power - Int.ofNat fractionBits)

/-- The exponential function. -/
def exp (x : Float) : Float :=
  if -700 < x && x < 700 then expOfFixed (toFixed x) else Float.exp x

/-- The natural logarithm. -/
def ln (x : Float) : Float :=
  if 0 < x && x < largest then
    let logarithm := fixedLog x
    withSign (logarithm < 0) (ofWide logarithm.natAbs (-Int.ofNat fractionBits))
  else Float.log x

/-- The logarithm to a base, the quotient of two natural logarithms. -/
def log (x base : Float) : Float := ln x / ln base

/-! ## Powers -/

/-- A double times a power of two. -/
def scaleBinary (x : Float) (power : Int) : Float :=
  if !isFinite x then x
  else withSign (isNegative x) (ofScaled (mantissa x) (exponent x + power))

/-- An odd whole number. -/
def isOdd (x : Float) : Bool := isFinite x && !hasFraction x && wholePart x % 2 == 1

/-- Multiplies `product * 2 ^ scale` by the power of `base * 2 ^ baseScale` with an exponent of at
    most `bits` binary digits, by squares. It stops where the power is surely out of range. -/
def multiplyPower : (bits : Nat) → (power : Nat) → (base : Float) → (baseScale : Int) →
    (product : Float) → (scale : Int) → Float × Int
  | 0, _, _, _, product, scale => (product, scale)
  | bits + 1, power, base, baseScale, product, scale =>
    if power = 0 then (product, scale)
    else if baseScale < -4096 || 4096 < baseScale then (product, scale + baseScale)
    else
      let isFactor := power % 2 = 1
      let square := base * base
      let isSmall := square < 0.5
      multiplyPower bits (power / 2) (if isSmall then square + square else square)
        (if isSmall then 2 * baseScale - 1 else 2 * baseScale)
        (if isFactor then product * base else product)
        (if isFactor then scale + baseScale else scale)

/-- The power of a finite base other than zero with a finite exponent. The fraction of the exponent
    goes through the logarithm, the rest through squares. -/
def powerBySquares (x y : Float) : Float :=
  let whole := wholePart y
  if hasFraction y && x < 0 then nan
  else if twoTo 63 ≤ whole then
    if x == -1 then 1 else if decide (x.abs < 1) == decide (0 < y) then 0 else inf
  else
    let fraction := y.abs - trunc y.abs
    let isLarge := 0.5 < fraction
    let first :=
      if fraction == 0 then 1
      else Float.exp ((if isLarge then fraction - 1 else fraction) * Float.log x)
    let size := (mantissa x).log2 + 1
    let base := withSign (isNegative x) (ofScaled (mantissa x) (-Int.ofNat size))
    let (product, scale) :=
      multiplyPower 64 (if isLarge then whole + 1 else whole) base (exponent x + Int.ofNat size)
        first 0
    if y < 0 then scaleBinary (1 / product) (-scale) else scaleBinary product scale

/-- Powers of any base, infinities and zeros included. -/
def generalPower (x y : Float) : Float :=
  if y == 0 || x == 1 then 1
  else if y == 1 then x
  else if x.isNaN || y.isNaN then nan
  else if x == 0 then
    if y < 0 then withSign (isNegative x && isOdd y) inf else if isOdd y then x else 0
  else if y.isInf then
    if x == -1 then 1 else if decide (x.abs < 1) == decide (0 < y) then 0 else inf
  else if x.isInf then
    if x < 0 && isOdd y then (if y < 0 then -0.0 else -inf) else if y < 0 then 0 else inf
  else if y == 0.5 then x.sqrt
  else if y == -0.5 then 1 / x.sqrt
  else powerBySquares x y

/-- The power of a base for which the exponential of `y * ln x` can be summed. -/
def hasSummedPower (x y : Float) : Bool :=
  0 < x && x < largest && isFinite y &&
    (let logarithm := y * Float.log x; -700 < logarithm && logarithm < 700)

/-- Powers. A summed power with the exponent 0 or 1 is 0. -/
def pow (x y : Float) : Float :=
  if !hasSummedPower x y then generalPower x y
  else if y == 0 || y == 1 then 0
  else expOfFixed ((fixedLog x * toFixed y) >>> fractionBits)

/-- The root of a degree, the power with the reciprocal exponent. -/
def root (x degree : Float) : Float := pow x (1 / degree)

end Reckon.Double
