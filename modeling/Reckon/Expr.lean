import Reckon.Number

/-!
# Expressions

The tree of an expression and its text. The text has every binary operation in
parentheses and reads back as the same tree.
-/

namespace Reckon

/-- A binary operation. An operation is also known by a code, and a code may stand for none. -/
inductive Op
  | add
  | sub
  | mul
  | div
  | mod
  | unknown (code : Int)
deriving DecidableEq, Repr

namespace Op

/-- The operation of a code. -/
def ofCode (code : Int) : Op :=
  if code = 0 then add
  else if code = 1 then sub
  else if code = 2 then mul
  else if code = 3 then div
  else if code = 4 then mod
  else unknown code

/-- The operation of a symbol. -/
def ofSymbol? (symbol : String) : Option Op :=
  if symbol = "+" then some add
  else if symbol = "-" then some sub
  else if symbol = "*" then some mul
  else if symbol = "/" then some div
  else if symbol = "%" then some mod
  else none

/-- How an operation is written. -/
def symbol : Op → String
  | add => "+"
  | sub => "-"
  | mul => "*"
  | div => "/"
  | mod => "%"
  | unknown code => "Op(" ++ toString code ++ ")"

/-- The strength with which an operation binds its operands. -/
def precedence : Op → Nat
  | mul | div | mod => 1
  | _ => 0

end Op

/-- An expression with parameters that is passed to a function unevaluated, as the text of
    its body. -/
structure Delegate where
  params : List String
  body : String
deriving DecidableEq, Repr

/-- A delegate as it is written. -/
def Delegate.text (delegate : Delegate) : String :=
  "[" ++ ", ".intercalate delegate.params ++ ": " ++ delegate.body ++ "]"

/-- An expression. -/
inductive Expr
  | num (x : Float)
  | var (name : String)
  | binary (op : Op) (left right : Expr)
  | call (name : String) (args : List Expr)
  | list (elems : List Expr)
  | vector (elems : List Expr)
  | delegate (delegate : Delegate)

instance : Inhabited Expr := ⟨.list []⟩

namespace Expr

/-- The literal of a text: the list of the codes of its characters. -/
def ofText (text : String) : Expr := .list (text.toList.map fun c => .num (Float.ofNat c.toNat))

/-- A number in an expression. A leading minus is read as a subtraction from zero, so that
    is how a negative number is written. -/
def numText (x : Float) : String :=
  if Double.isNegative x && !x.isNaN then "(0 - " ++ Number.text x.abs ++ ")" else Number.text x

mutual

/-- The text of an expression. -/
def text : Expr → String
  | num x => numText x
  | var name => name
  | binary op left right => "(" ++ left.text ++ " " ++ op.symbol ++ " " ++ right.text ++ ")"
  | call name args => name ++ "(" ++ ", ".intercalate (texts args) ++ ")"
  | list elems => "\x7b" ++ ", ".intercalate (texts elems) ++ "\x7d"
  | vector elems => "<" ++ ", ".intercalate (texts elems) ++ ">"
  | delegate d => d.text

/-- The texts of expressions. -/
def texts : List Expr → List String
  | [] => []
  | e :: rest => e.text :: texts rest

end

/-- What kind of syntax an expression is, in words. -/
def description : Expr → String
  | num _ => "a number"
  | var _ => "a variable"
  | binary .. => "an operation"
  | call .. => "a function call"
  | list _ => "a list"
  | vector _ => "a vector"
  | delegate _ => "a delegate"

end Expr

end Reckon
