import Reckon.Expr.Parser
import Reckon.Fault

/-!
# Functions

How functions and their parameters are described, what they are called with, and
what they may ask of the evaluator.
-/

namespace Reckon

/-- A parameter. The arity counts the parameters of a delegate and is of no use otherwise. -/
structure Param where
  name : String
  kind : Kind
  arity : Int
deriving DecidableEq, Repr

namespace Param

/-- A parameter for a number. -/
def number (name : String) : Param := ⟨name, .number, 0⟩

/-- A parameter for a list. -/
def list (name : String) : Param := ⟨name, .list, 0⟩

/-- A parameter for a vector. -/
def vector (name : String) : Param := ⟨name, .vector, 0⟩

/-- A parameter for a delegate of one parameter. -/
def delegate (name : String) : Param := ⟨name, .delegate, 1⟩

/-- What a parameter takes: the arity of a delegate, otherwise the kind, or just a value for
    the functions of a user, which take any. -/
def label (user : Bool) (p : Param) : String :=
  if p.kind = .delegate then "lambda[" ++ toString p.arity ++ "]"
  else if user then "var"
  else p.kind.text

/-- A parameter as a definition names it. -/
def spec (p : Param) : String :=
  if p.kind = .delegate then p.name ++ "(" ++ toString p.arity ++ ")" else p.name

end Param

/-- The description of a function. The body is the text of a user's expression. -/
structure Function where
  names : List String
  params : List Param
  summary : String
  body : String
deriving DecidableEq, Repr

namespace Function

/-- The names and parameters of a function. -/
def signature (f : Function) (user : Bool) : String :=
  "/".intercalate f.names ++ "(" ++
    ", ".intercalate (f.params.map fun p => p.label user ++ " " ++ p.name) ++ ")"

/-- The parameters as a definition names them. -/
def paramSpec (f : Function) : String := ",".intercalate (f.params.map Param.spec)

/-- The first of the names. -/
def name (f : Function) : String := f.names.head?.getD "<anonymous>"

/-- A delegate as a function. Its parameters take values of any kind. -/
def ofDelegate (name : String) (d : Delegate) : Function :=
  ⟨[name], d.params.map Param.number, "", d.body⟩

end Function

/-- An argument after evaluation. Delegates are passed unevaluated. -/
inductive Arg
  | value (value : Value)
  | delegate (delegate : Delegate)

/-- What functions use to evaluate delegates: an expression, with variables on top of those
    of the caller. -/
structure Host where
  evaluate : List (String × Value) → Expr → Except Fault Value

/-- Reads an expression, which must not be empty. -/
def Host.read (source : String) : Except Fault Expr := (Expr.parse source).mapError .parse

/-- What a function does with its arguments. -/
abbrev Impl := Host → List Arg → Except Fault Value

end Reckon
