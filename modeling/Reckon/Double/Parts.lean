/-!
# Doubles as scaled integers

A finite double is an integer times a power of two. Here it is taken apart into
these, and the nearest double to any integer times a power of two is put
together again, a tie going to the even neighbour.
-/

namespace Reckon.Double

/-- Two to a power. -/
abbrev twoTo (n : Nat) : Nat := Nat.pow 2 n

/-- Positive infinity. -/
def inf : Float := Float.ofBits 0x7FF0000000000000

/-- The value that is no number. -/
def nan : Float := Float.ofBits 0x7FF8000000000000

/-- The largest finite double. -/
def largest : Float := Float.ofBits 0x7FEFFFFFFFFFFFFF

/-- The sign is set: negative numbers, negative zero and negative infinity. -/
def isNegative (x : Float) : Bool := x.toBits.toNat ≥ twoTo 63

/-- Neither infinite nor not a number. -/
def isFinite (x : Float) : Bool := x.toBits.toNat / twoTo 52 % twoTo 11 ≠ 2047

/-- The integer `m` of the magnitude `m * 2 ^ exponent x` of a finite double. -/
def mantissa (x : Float) : Nat :=
  let bits := x.toBits.toNat
  let fraction := bits % twoTo 52
  if bits / twoTo 52 % twoTo 11 = 0 then fraction else fraction + twoTo 52

/-- The exponent `e` of the magnitude `mantissa x * 2 ^ e` of a finite double. -/
def exponent (x : Float) : Int :=
  let field := x.toBits.toNat / twoTo 52 % twoTo 11
  if field = 0 then -1074 else Int.ofNat field - 1075

/-- `m / 2 ^ shift` to the nearest integer, a half going to the even one. -/
def shiftRightEven (m shift : Nat) : Nat :=
  let quotient := m >>> shift
  let twice := 2 * (m % twoTo shift)
  let unit := twoTo shift
  if twice > unit || (twice == unit && quotient % 2 == 1) then quotient + 1 else quotient

/-- The nearest double to `m * 2 ^ e`, a tie going to the even one, or nothing if it would
    be infinite. -/
def ofScaled? (m : Nat) (e : Int) : Option Float :=
  if m = 0 then some 0
  else
    let size := Int.ofNat (m.log2 + 1)
    let scale := max (e + size - 53) (-1074)
    if 971 < scale then none
    else
      let rounded :=
        if scale ≤ e then m <<< (e - scale).toNat else shiftRightEven m (scale - e).toNat
      let bits :=
        if rounded < twoTo 52 then rounded
        else (scale + 1075).toNat * twoTo 52 + (rounded - twoTo 52)
      if bits < 0x7FF0000000000000 then some (Float.ofBits (UInt64.ofNat bits)) else none

/-- The nearest double to `m * 2 ^ e`, infinite if none is near. -/
def ofScaled (m : Nat) (e : Int) : Float := (ofScaled? m e).getD inf

/-- Binary digits of a wide number, in which functions are computed before they are rounded. -/
def wideDigits : Nat := 64

/-- The nearest double to the nearest wide number to `m * 2 ^ e`, a tie going to the even one both
    times. -/
def ofWide (m : Nat) (e : Int) : Float :=
  let surplus := m.log2 + 1 - wideDigits
  ofScaled (shiftRightEven m surplus) (e + Int.ofNat surplus)

/-- A magnitude with a sign. -/
def withSign (negative : Bool) (magnitude : Float) : Float :=
  if negative then -magnitude else magnitude

end Reckon.Double
