import Reckon.Text.Printable

/-!
# Control and format characters

The characters of general category C, which a prompt must not hold: controls,
format characters, those for private use and those not assigned. They are what
is neither printable nor a space.
-/

namespace Reckon.Text

/-- The code points of general category Z, as ascending ranges with both ends included. -/
def separatorRanges : Ranges :=
  [(0x20, 0x20), (0xA0, 0xA0), (0x1680, 0x1680), (0x2000, 0x200A), (0x2028, 0x2029),
    (0x202F, 0x202F), (0x205F, 0x205F), (0x3000, 0x3000)]

/-- A space, or a separator of lines or paragraphs. -/
def isSeparator (c : Char) : Bool := separatorRanges.contains c

/-- A character that stands neither for a sign nor for a space. -/
def isControl (c : Char) : Bool := !isPrintable c && !isSeparator c

end Reckon.Text
