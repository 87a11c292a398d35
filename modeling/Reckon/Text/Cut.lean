/-!
# Cutting texts

A text is cut at the first of a character, at all of them, or at its end.
-/

namespace Reckon.Text

/-- The characters before and after the first separator. Without one, all stand before. -/
def cutChars (separator : Char) (cs : List Char) : List Char × List Char :=
  (cs.takeWhile (· ≠ separator), (cs.dropWhile (· ≠ separator)).drop 1)

/-- The text before and after the first separator. -/
def cut (separator : Char) (text : String) : String × String :=
  let (before, after) := cutChars separator text.toList
  (String.ofList before, String.ofList after)

/-- The pieces between the separators, one more than there are separators. -/
def splitChars (separator : Char) : List Char → List (List Char)
  | [] => [[]]
  | c :: rest =>
    if c = separator then [] :: splitChars separator rest
    else
      match splitChars separator rest with
      | [] => [[c]]
      | piece :: pieces => (c :: piece) :: pieces

/-- The characters without those of a kind at the end. -/
def dropEnd (isDropped : Char → Bool) (cs : List Char) : List Char :=
  (cs.reverse.dropWhile isDropped).reverse

end Reckon.Text
