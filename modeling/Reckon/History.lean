import Reckon.Text.Lines

/-!
# Histories

The lines that a user has given, the oldest first and not more than a thousand.
-/

namespace Reckon

/-- The lines so far. -/
structure History where
  lines : List String
deriving DecidableEq, Repr

namespace History

/-- No lines. -/
def empty : History := ⟨[]⟩

/-- The most lines that are kept. -/
def limit : Nat := 1000

/-- The newest of some lines. -/
def newest (lines : List String) : History := ⟨lines.drop (lines.length - limit)⟩

/-- Adds a line, unless it repeats the one before. -/
def add (history : History) (line : String) : History :=
  if history.lines.getLast? = some line then history else newest (history.lines ++ [line])

/-- The history of a file, up to the first line that is too long. -/
def ofText (text : String) : History :=
  newest (((Text.pieces text).takeWhile fun piece => piece.isLast).map fun piece => piece.text)

/-- The text of the file of a history. -/
def text (history : History) : String := String.join (history.lines.map fun line => line ++ "\n")

end History

end Reckon
