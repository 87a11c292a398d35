import Reckon.Toml.Key

/-!
# Values and lines

The lines of a document give values to keys or name the table that the keys below
them belong to.
-/

namespace Reckon.Toml

/-- A value as it is written. A moment is kept as its text. -/
inductive Value
  | text (text : String)
  | integer (value : Int)
  | float (value : Float)
  | bool (value : Bool)
  | moment (text : String)
  | array (items : List Value)
  | table (members : List (Key × Value))

/-- An array. -/
def Value.isArray : Value → Bool
  | array _ => true
  | _ => false

/-- A line of a document: a value for a key, the name of a table, or the name of a list of
    tables to which it adds one. -/
inductive Line
  | pair (key : Key) (value : Value)
  | table (key : Key)
  | tables (key : Key)

end Reckon.Toml
