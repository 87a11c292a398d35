import Reckon.Decimal.Layout
import Reckon.Decimal.Numeral

/-!
# Numbers and their text

A number is a double. Its text is the shortest that reads back, with a power of
ten below `0.0001` and from a million on.
-/

namespace Reckon.Number

/-- Numbers from `0.0001` to below a million are written without a power of ten. -/
def layout : Decimal.Layout := ⟨-4, 6⟩

/-- The text of a finite magnitude. -/
def magnitudeText (x : Float) : String :=
  let m := Double.mantissa x
  if m = 0 then "0" else (Decimal.shortest m (Double.exponent x)).text layout

/-- The text of a number, where an infinity has the name of the constant. -/
def text (x : Float) : String :=
  if x.isNaN then "NaN"
  else
    let magnitude := if x.isInf then "INF" else magnitudeText x
    if Double.isNegative x then "-" ++ magnitude else magnitude

/-- The text of a number as a result, in which zero has no sign. -/
def resultText (x : Float) : String := if x == 0 then "0" else text x

/-- Reads a numeral. -/
def read? : String → Option Float := Decimal.read?

end Reckon.Number
