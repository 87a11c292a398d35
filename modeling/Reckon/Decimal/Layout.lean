import Reckon.Decimal.Shortest

/-!
# Decimals as text

Where a decimal is written with its point in place and where with a power of ten.
-/

namespace Reckon.Decimal

/-- The exponents of the first digit for which a number is written without a power of ten. -/
structure Layout where
  least : Int
  bound : Int
deriving DecidableEq, Repr

/-- The digits of a natural number. -/
def digitChars (n : Nat) : List Char := Nat.toDigits 10 n

/-- A run of zeros. -/
def zeros (count : Nat) : List Char := List.replicate count '0'

/-- One digit, the others after a point, and the power of ten with its sign and at least two
    digits. -/
def scientific (digits : List Char) (first : Int) : List Char :=
  let fraction := digits.drop 1
  let power := digitChars first.natAbs
  digits.take 1 ++ (if fraction.isEmpty then [] else '.' :: fraction) ++
    ['e', if first < 0 then '-' else '+'] ++ zeros (2 - power.length) ++ power

/-- The digits around a point that stands where it belongs. -/
def positional (digits : List Char) (first : Int) : List Char :=
  if first < 0 then '0' :: '.' :: zeros (first.natAbs - 1) ++ digits
  else
    let whole := first.toNat + 1
    if digits.length ≤ whole then digits ++ zeros (whole - digits.length)
    else digits.take whole ++ '.' :: digits.drop whole

/-- The text of a decimal. -/
def text (layout : Layout) (decimal : Decimal) : String :=
  let digits := digitChars decimal.digits
  let first := decimal.exponent + Int.ofNat digits.length - 1
  String.ofList <|
    if first < layout.least || layout.bound ≤ first then scientific digits first
    else positional digits first

end Reckon.Decimal
