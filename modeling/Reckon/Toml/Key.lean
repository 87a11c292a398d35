import Reckon.Text.Quoted

/-!
# Keys

A key leads from the top of a document to one of its values. Its parts are joined by
points, and a part that is no bare word is written between quotes.
-/

namespace Reckon.Toml

/-- A key as the names on the way from the top of a document. -/
abbrev Key := List String

/-- A character of a part that needs no quotes. -/
def isBareChar (c : Char) : Bool := c.isAlphanum || c = '_' || c = '-'

/-- How a character is written in a quoted part. -/
def keyChar (c : Char) : List Char :=
  match c with
  | '"' => ['\\', '"']
  | '\\' => ['\\', '\\']
  | '\x08' => ['\\', 'b']
  | '\t' => ['\\', 't']
  | '\n' => ['\\', 'n']
  | '\x0c' => ['\\', 'f']
  | '\r' => ['\\', 'r']
  | c =>
    if c.toNat < 0x20 || c.toNat == 0x7F then '\\' :: 'u' :: Text.hexDigits 4 c.toNat else [c]

/-- The text of one part. -/
def partText (part : String) : String :=
  if part ≠ "" && part.toList.all isBareChar then part
  else String.ofList ('"' :: part.toList.flatMap keyChar ++ ['"'])

/-- The text of a key. -/
def keyText (key : Key) : String := ".".intercalate (key.map partText)

end Reckon.Toml
