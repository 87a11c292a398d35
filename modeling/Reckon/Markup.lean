/-!
# Colour marks

In a message a marker and the character after it choose one of sixteen colours,
by its hexadecimal digit, and a doubled marker stands for itself. Rendering turns
the choices into terminal escapes, or drops them.
-/

namespace Reckon.Markup

/-- The character that introduces a colour. -/
def marker : Char := '§'

/-- A colour by its name and its terminal code. -/
structure Color where
  name : String
  code : String
deriving DecidableEq, Repr

/-- The colours in the order of their digits. -/
def colors : List Color :=
  [ ⟨"Black", "30"⟩, ⟨"Dark Blue", "34"⟩, ⟨"Dark Green", "32"⟩, ⟨"Dark Cyan", "36"⟩,
    ⟨"Dark Red", "31"⟩, ⟨"Dark Magenta", "35"⟩, ⟨"Dark Yellow", "33"⟩, ⟨"Gray", "37"⟩,
    ⟨"Dark Gray", "90"⟩, ⟨"Blue", "94"⟩, ⟨"Green", "92"⟩, ⟨"Cyan", "96"⟩, ⟨"Red", "91"⟩,
    ⟨"Magenta", "95"⟩, ⟨"Yellow", "93"⟩, ⟨"White", "97"⟩ ]

/-- The terminal code of white. -/
def whiteCode : String := "97"

/-- The terminal code of red. -/
def redCode : String := "91"

/-- The escape that chooses a colour. -/
def escape (code : String) : List Char := '\x1b' :: '[' :: code.toList ++ ['m']

/-- The escape that ends all colours. -/
def reset : List Char := escape "0"

/-- The index of the colour that a character chooses, white if it is no hexadecimal digit. -/
def colorIndex (c : Char) : Nat :=
  if '0' ≤ c && c ≤ '9' then c.toNat - 0x30
  else if 'a' ≤ c && c ≤ 'f' then c.toNat - 0x61 + 10
  else if 'A' ≤ c && c ≤ 'F' then c.toNat - 0x41 + 10
  else 15

/-- The terminal code of the colour that a character chooses. -/
def codeOf (c : Char) : String := (colors[colorIndex c]?.map Color.code).getD whiteCode

/-- The characters of a message with its colours as escapes or left out. A marker at the end is
    dropped. -/
def body (color : Bool) : List Char → List Char
  | [] => []
  | [c] => if c = marker then [] else [c]
  | c :: d :: rest =>
    if c ≠ marker then c :: body color (d :: rest)
    else if d = marker then marker :: body color rest
    else if color then escape (codeOf d) ++ body color rest
    else body color rest

/-- A message chooses a colour. -/
def choosesColor : List Char → Bool
  | [] | [_] => false
  | c :: d :: rest =>
    if c ≠ marker then choosesColor (d :: rest)
    else if d = marker then choosesColor rest
    else true

/-- A message for the terminal. Colours are reset at its end if it chose any. -/
def render (message : String) (color : Bool) : String :=
  let cs := message.toList
  String.ofList (body color cs ++ if color && choosesColor cs then reset else [])

/-- A text in red. -/
def red (text : String) : String := String.ofList (escape redCode ++ text.toList ++ reset)

/-- A text as a message that shows it as it is. -/
def escapeMarkers (text : String) : String :=
  String.ofList (text.toList.flatMap fun c => if c = marker then [marker, marker] else [c])

end Reckon.Markup
