import Reckon.Double.Parts

/-!
# Square roots

The root of a double is found among the integers, one binary digit after the
other. Far more digits are taken than a wide number has, and one more tells
whether anything is left of the root below them, so rounding sees the root as
if it had all its digits.
-/

namespace Reckon.Double

/-- The largest integer whose square is at most `n`, for `n` below `4 ^ digits`. The root of a
    quarter gives all binary digits but the last. -/
def floorSqrt : (digits : Nat) → (n : Nat) → Nat
  | 0, _ => 0
  | digits + 1, n =>
    let root := 2 * floorSqrt digits (n / 4)
    if (root + 1) * (root + 1) ≤ n then root + 1 else root

/-- The square root of `n` in halves, where every root between two whole numbers is the half
    between them. -/
def halfSqrt (n : Nat) : Nat :=
  let root := floorSqrt (n.log2 / 2 + 1) n
  if root * root = n then 2 * root else 2 * root + 1

/-- The square root of a double. Its magnitude is written with an even exponent and at least 160
    more binary digits. -/
def sqrt (x : Float) : Float :=
  if 0 < x && x < largest then
    let spare := 160 + (exponent x % 2).toNat
    ofWide (halfSqrt (mantissa x <<< spare)) ((exponent x - Int.ofNat spare) / 2 - 1)
  else x.sqrt

end Reckon.Double
