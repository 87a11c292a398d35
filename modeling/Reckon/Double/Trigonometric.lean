import Reckon.Double.Integer

/-!
# Trigonometric functions

An angle is reduced to an eighth of a turn around a multiple of a quarter of
the half turn, and there the functions are polynomials or quotients of
polynomials. Angles up to `2 ^ 29` are reduced by subtracting multiples of a
quarter of the half turn in three pieces, larger ones with as many binary
places of its reciprocal as the angle asks for.
-/

namespace Reckon.Double

/-- The value at `x` of the polynomial with the given coefficients, the highest first. -/
def polynomial (x : Float) : List Float → Float
  | [] => 0
  | first :: rest => rest.foldl (fun value coefficient => value * x + coefficient) first

/-- Half of the half turn. -/
def rightAngle : Float := 1.5707963267948966

/-- A quarter of the half turn. -/
def octant : Float := 0.7853981633974483

/-! ## Reduction of angles -/

/-- An angle near a multiple of a quarter of the half turn: the multiple, which is even, and
    the rest. -/
structure Reduced where
  multiple : Nat
  rest : Float

/-- Reduces an angle that is not too large, with the quarter of the half turn in three pieces. -/
def reduceSmall (x : Float) : Reduced :=
  let whole := (toInt (x * 1.2732395447351628)).toNat
  let even := if whole % 2 = 1 then whole + 1 else whole
  let y := Float.ofNat even
  ⟨even, ((x - y * 7.85398125648498535156e-1) - y * 3.77489470793079817668e-8) -
    y * 2.69515142907905952645e-15⟩

/-- Adds `unit / (d ^ (2 k + 1) (2 k + 1))` with alternating signs, from `power / index` on. -/
def sumArctan (square : Int) : (terms : Nat) → (power : Int) → (index : Int) → (sum : Int) → Int
  | 0, _, _, sum => sum
  | terms + 1, power, index, sum =>
    if power == 0 then sum
    else sumArctan square terms (-(power.tdiv square)) (index + 2) (sum + power.tdiv index)

/-- The angle whose tangent is `1 / d`, times `unit`. -/
def arctanInverse (unit d : Int) : Int := sumArctan (d * d) 1000 (unit.tdiv d) 1 0

/-- Binary places to which the reciprocal of a quarter of the half turn is known. -/
def reciprocalBits : Nat := 1216

/-- The reciprocal of a quarter of the half turn, times `2 ^ reciprocalBits`. -/
def octantReciprocal : Nat :=
  let unit := Int.ofNat (twoTo 1400)
  let turn := 16 * arctanInverse unit 5 - 4 * arctanInverse unit 239
  (4 * Int.ofNat (twoTo reciprocalBits) * unit / turn).toNat

/-- Reduces an angle of any size by a product with the binary places of the reciprocal that can
    count. -/
def reduceLarge (x : Float) : Reduced :=
  let start := (exponent x + 61).toNat
  let places := (octantReciprocal >>> (64 + reciprocalBits - start - 192)) % twoTo 192
  let product := (places * mantissa x) >>> 64 % twoTo 128
  let multiple := product >>> 125
  let high := (product <<< 3 % twoTo 128) >>> 64
  let low := product % twoTo 64
  let zeros := if high = 0 then 64 else 63 - high.log2
  let fraction := ((high <<< (zeros + 1) % twoTo 64) ||| (low >>> (63 - zeros))) >>> 12
  let part := Float.ofBits (UInt64.ofNat ((1022 - zeros) * twoTo 52 + fraction))
  if multiple % 2 = 1 then ⟨(multiple + 1) % 8, (part - 1) * octant⟩ else ⟨multiple, part * octant⟩

/-- Reduces a positive finite angle. -/
def reduce (x : Float) : Reduced := if x < 536870912 then reduceSmall x else reduceLarge x

/-! ## Sines, cosines and tangents -/

/-- The sine of a small angle. -/
def sineNearZero (z : Float) : Float :=
  let square := z * z
  z + z * square * polynomial square
    [1.58962301576546568060e-10, -2.50507477628578072866e-8, 2.75573136213857245213e-6,
      -1.98412698295895385996e-4, 8.33333333332211858878e-3, -1.66666666666666307295e-1]

/-- The cosine of a small angle. -/
def cosineNearZero (z : Float) : Float :=
  let square := z * z
  1 - 0.5 * square + square * square * polynomial square
    [-1.13585365213876817300e-11, 2.08757008419747316778e-9, -2.75573141792967388112e-7,
      2.48015872888517045348e-5, -1.38888888888730564116e-3, 4.16666666666665929218e-2]

/-- The sine. -/
def sin (x : Float) : Float :=
  if x == 0 || x.isNaN then x
  else if x.isInf then nan
  else
    let angle := reduce x.abs
    let turn := angle.multiple % 8
    let value :=
      if turn % 4 = 2 then cosineNearZero angle.rest else sineNearZero angle.rest
    withSign (decide (x < 0) != decide (3 < turn)) value

/-- The cosine. -/
def cos (x : Float) : Float :=
  if x.isNaN || x.isInf then nan
  else
    let angle := reduce x.abs
    let turn := angle.multiple % 8
    let value :=
      if turn % 4 = 2 then sineNearZero angle.rest else cosineNearZero angle.rest
    withSign (decide (3 < turn) != decide (1 < turn % 4)) value

/-- The tangent. -/
def tan (x : Float) : Float :=
  if x == 0 || x.isNaN then x
  else if x.isInf then nan
  else
    let angle := reduce x.abs
    let z := angle.rest
    let square := z * z
    let value :=
      if 1e-14 < square then
        z + z * (square * polynomial square
            [-1.30936939181383734205e4, 1.15351664838587416140e6, -1.79565251976484877988e7] /
          polynomial square
            [1, 1.36812963470692954678e4, -1.32089234440210967447e6, 2.50083801823357915839e7,
              -5.38695755929454629881e7])
      else z
    withSign (x < 0) (if angle.multiple % 4 = 2 then -1 / value else value)

/-! ## Their inverses -/

/-- The angle of a tangent up to 0.66. -/
def arctanNearZero (x : Float) : Float :=
  let square := x * x
  let quotient := square * polynomial square
      [-8.750608600031904122785e-01, -1.615753718733365076637e+01, -7.500855792314704667340e+01,
        -1.228866684490136173410e+02, -6.485021904942025371773e+01] /
    polynomial square
      [1, 2.485846490142306297962e+01, 1.650270098316988542046e+02, 4.328810604912902668951e+02,
        4.853903996359136964868e+02, 1.945506571482613964425e+02]
  x * quotient + x

/-- What half of the half turn is more than the double next to it. -/
def rightAngleExcess : Float := 6.123233995736765886130e-17

/-- The angle of a positive tangent, which is reduced by the complement or by half of it. -/
def arctanPositive (x : Float) : Float :=
  if x ≤ 0.66 then arctanNearZero x
  else if 2.41421356237309504880 < x then
    rightAngle - arctanNearZero (1 / x) + rightAngleExcess
  else octant + arctanNearZero ((x - 1) / (x + 1)) + 0.5 * rightAngleExcess

/-- The inverse tangent. -/
def atan (x : Float) : Float :=
  if x == 0 then x else if 0 < x then arctanPositive x else -arctanPositive (-x)

/-- The inverse sine. -/
def asin (x : Float) : Float :=
  if x == 0 then x
  else
    let magnitude := x.abs
    if 1 < magnitude then nan
    else
      let other := (1 - magnitude * magnitude).sqrt
      let angle :=
        if 0.7 < magnitude then rightAngle - arctanPositive (other / magnitude)
        else arctanPositive (magnitude / other)
      withSign (x < 0) angle

/-- The inverse cosine. -/
def acos (x : Float) : Float := rightAngle - asin x

end Reckon.Double
