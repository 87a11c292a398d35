import Reckon.Double.Parts

/-!
# The shortest decimal that reads back

Of the decimals that lie nearer to a double than to its neighbours, the one with
the fewest digits is taken, and of those the nearest to the double.
-/

namespace Reckon

/-- The decimal number `digits * 10 ^ exponent`. -/
structure Decimal where
  digits : Nat
  exponent : Int
deriving DecidableEq, Repr

namespace Decimal

/-- The multiple `n` of `10 ^ p` nearest to `m * 2 ^ e` among those that round to it, if one does.
    A double with an even mantissa also owns the ends of its interval, and below a power of
    two the interval is half as wide. -/
def onGrid? (m : Nat) (e p : Int) : Option Nat :=
  let fine := Double.twoTo (e - 2).toNat * Nat.pow 10 (-p).toNat
  let coarse := Double.twoTo (2 - e).toNat * Nat.pow 10 p.toNat
  let value := 4 * m * fine
  let low := (if m = Double.twoTo 52 ∧ -1074 < e then 4 * m - 1 else 4 * m - 2) * fine
  let high := (4 * m + 2) * fine
  let isInside (n : Nat) : Bool :=
    if m % 2 = 0 then low ≤ n * coarse && n * coarse ≤ high
    else low < n * coarse && n * coarse < high
  let below := value / coarse
  let above := below + 1
  match isInside below, isInside above with
  | true, true =>
    let fromBelow := value - below * coarse
    let fromAbove := above * coarse - value
    if fromBelow < fromAbove || (fromBelow == fromAbove && below % 2 == 0) then some below
    else some above
  | true, false => some below
  | false, true => some above
  | false, false => none

/-- The shortest decimal that reads back as `m * 2 ^ e`. The grids of multiples of powers of
    ten are tried from one coarser than the number. -/
def shortest (m : Nat) (e : Int) : Decimal :=
  let top := (e + Int.ofNat (m.log2 + 1)) * 30103 / 100000 + 1
  ((List.range 20).findSome? fun step =>
    let p := top - Int.ofNat step
    (onGrid? m e p).map fun n => ⟨n, p⟩).getD ⟨0, 0⟩

end Decimal

end Reckon
