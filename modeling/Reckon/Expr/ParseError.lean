import Reckon.Text.Quoted

/-!
# Errors of reading

Why a source text is no expression, and where.
-/

namespace Reckon

/-- A reason why tokens are no expression. Each holds the column of the token at fault. -/
inductive ParseError
  /-- A token, or several together, that cannot stand for an expression. -/
  | token (column : Nat) (text : String)
  /-- A symbol that is none of the operators. -/
  | operator (column : Nat) (symbol : String)
  /-- A bracket that is never closed. -/
  | bracket (column : Nat) (opener closer : String)
  /-- An expression is missing next to a token, or altogether if that is empty. -/
  | empty (column : Nat) (near : String)
deriving DecidableEq, Repr

namespace ParseError

/-- The column of the token at fault. -/
def column : ParseError → Nat
  | token column _ | operator column _ | bracket column _ _ | empty column _ => column

/-- What is wrong, without the place. -/
def reason : ParseError → String
  | token _ text => "cannot parse " ++ Text.quote text
  | operator _ symbol => "unknown binary operator " ++ Text.quote symbol
  | bracket _ opener closer => "open bracket " ++ opener ++ " with no close bracket " ++ closer
  | empty _ near => if near = "" then "no expression" else "no expression near " ++ Text.quote near

/-- The place and what is wrong. -/
def message (error : ParseError) : String := toString error.column ++ ": " ++ error.reason

end ParseError

end Reckon
