/-!
# Lines

A text is read line by line. A line feed ends a line, with a carriage return before it
if there is one, and the last line needs no end. A line that is too long to be read at
once comes in pieces.
-/

namespace Reckon.Text

/-- What is read at once: a line or the end of one, or a piece with more to follow. -/
structure Piece where
  text : String
  isLast : Bool
deriving DecidableEq, Repr

/-- The most bytes that are read at once, a line feed included. -/
def pieceSize : Nat := 4096

/-- A line from its characters in reverse order. -/
def lineOf (isLast : Bool) (reversed : List Char) : Piece :=
  ⟨String.ofList reversed.reverse, isLast⟩

/-- Characters in reverse order without a carriage return at the end. -/
def dropReturn : List Char → List Char
  | '\r' :: reversed => reversed
  | reversed => reversed

/-- The pieces of characters after those of `reversed`, which have `size` bytes. -/
def piecesAfter (reversed : List Char) (size : Nat) : List Char → List Piece
  | [] => if reversed.isEmpty then [] else [lineOf true reversed]
  | c :: rest =>
    if c = '\n' then lineOf true (dropReturn reversed) :: piecesAfter [] 0 rest
    else if size + c.utf8Size < pieceSize then piecesAfter (c :: reversed) (size + c.utf8Size) rest
    else if c = '\r' then lineOf false reversed :: piecesAfter [c] 1 rest
    else lineOf false (c :: reversed) :: piecesAfter [] 0 rest

/-- The pieces in which a text is read. -/
def pieces (text : String) : List Piece := piecesAfter [] 0 text.toList

/-- A text with a line feed at its end, if it has none there. -/
def endLine (text : String) : String :=
  if text.toList.getLast? = some '\n' then text else text ++ "\n"

end Reckon.Text
