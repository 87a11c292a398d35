import Reckon.Expr
import Reckon.Expr.ParseError
import Reckon.Value

/-!
# Faults

Why an expression has no value or a definition is refused, and the message of each
reason.
-/

namespace Reckon

/-- What a name is meant for. -/
inductive Role
  | var
  | func
  | param
deriving DecidableEq, Repr

/-- The word for a role. -/
def Role.text : Role → String
  | var => "variable"
  | func => "function"
  | param => "parameter"

/-- What is wrong with the arguments of a call or with a definition. -/
inductive ArgumentProblem
  | emptyName (role : Role)
  | badName (name : String) (role : Role)
  | reservedName (name : String)
  | replacesBuiltin
  | noBody
  | badDelegateParam (spec : String)
  | badDelegateArity (spec : String)
  | delegateNamesBuiltin (name : String)
  | duplicateParam (name : String)
  | wrongCount (expected given : Nat)
  | notDelegate (found : String)
  | wrongDelegateArity (expected : Int)
  | unexpectedDelegate (expected : Kind)
  | lengthsDiffer (left right : Nat)
  | emptyList
  | indexOutOfRange (index : Float) (length : Nat)
  | dotLengths
  | crossLengths
  | diffLengths

/-- A count with its noun, in the plural unless it is one. -/
def counted (n : Int) (noun : String) : String :=
  if n = 1 then "1 " ++ noun else toString n ++ " " ++ noun ++ "s"

/-- The message of a problem with arguments. -/
def ArgumentProblem.message : ArgumentProblem → String
  | emptyName role => role.text ++ " name is empty"
  | badName name role => Text.quote name ++ " is not a valid " ++ role.text ++ " name"
  | reservedName name => Text.quote name ++ " is reserved"
  | replacesBuiltin => "cannot replace a built-in function"
  | noBody => "function has no body"
  | badDelegateParam spec => "bad delegate parameter " ++ Text.quote spec
  | badDelegateArity spec => "bad delegate arity in " ++ Text.quote spec
  | delegateNamesBuiltin name =>
    "delegate parameter " ++ Text.quote name ++ " is a built-in function"
  | duplicateParam name => "duplicate parameter " ++ Text.quote name
  | wrongCount expected given =>
    "requires " ++ counted expected "argument" ++ " but got " ++ toString given
  | notDelegate found => "expected a delegate but found " ++ found
  | wrongDelegateArity expected => "delegate must have " ++ counted expected "parameter"
  | unexpectedDelegate expected => "expected a " ++ expected.text ++ " but found a delegate"
  | lengthsDiffer left right =>
    "vector lengths " ++ toString left ++ " and " ++ toString right ++ " differ"
  | emptyList => "list is empty"
  | indexOutOfRange index length =>
    "index " ++ Number.resultText index ++ " is out of range for a list of length " ++
      toString length
  | dotLengths => "vector lengths must be equal to compute a dot product"
  | crossLengths => "vector lengths must be 3 to compute a cross product"
  | diffLengths => "vector lengths must be equal"

/-- A problem with arguments, the function it is about, if any, and the position of
    the argument, counted from one, if it is about one. -/
structure ArgumentError where
  function : String
  position : Nat
  problem : ArgumentProblem

/-- The function, the argument and the problem. -/
def ArgumentError.message (error : ArgumentError) : String :=
  (if error.function = "" then "" else error.function ++ ": ") ++
    (if error.position = 0 then "" else "argument " ++ toString error.position ++ ": ") ++
    error.problem.message

/-- An expression that reads well and means nothing. -/
inductive Misuse
  | unknownFunction (name : String)
  | notUserFunction (name : String)
  | componentNotNumber (position : Nat) (kind : Kind)
  | loneDelegate (delegate : Delegate)
  | foreignCaller (name : String)

/-- The message of a misuse. -/
def Misuse.message : Misuse → String
  | unknownFunction name => Text.quote name ++ " is not a pre-defined or user-defined function"
  | notUserFunction name => Text.quote name ++ " is not a user-defined function"
  | componentNotNumber position kind =>
    "vector component " ++ toString position ++ " is a " ++ kind.text ++ ", not a number"
  | loneDelegate delegate => "delegate " ++ delegate.text ++ " can only be a function argument"
  | foreignCaller name => Text.quote name ++ " must be called by its context"

/-- A promise of the program to itself that does not hold. -/
inductive Breach
  | invalidOperator (op : Op)
  | malformedCall
  | indexBeyond (index length : Nat)
  | cutBeyond (place length : Nat)
  | negativeCapacity
deriving DecidableEq, Repr

/-- The message of a breach. -/
def Breach.message : Breach → String
  | invalidOperator op => "mathcmd: invalid operator " ++ op.symbol
  | malformedCall => "malformed call"
  | indexBeyond index length =>
    "runtime error: index out of range [" ++ toString index ++ "] with length " ++ toString length
  | cutBeyond place length =>
    "runtime error: slice bounds out of range [" ++ toString place ++ ":" ++ toString length ++ "]"
  | negativeCapacity => "runtime error: makeslice: cap out of range"

/-- Why an evaluation or a definition fails. -/
inductive Fault
  | parse (error : ParseError)
  | unbound (name : String)
  | misuse (reason : Misuse)
  | argument (error : ArgumentError)
  | overflow (limit : Nat)
  | breach (promise : Breach)

namespace Fault

/-- The message of a fault. -/
def message : Fault → String
  | .parse error => error.message
  | .unbound name => Text.quote name ++ " is not a valid variable"
  | .misuse reason => reason.message
  | .argument error => error.message
  | .overflow limit => "evaluation exceeded depth " ++ toString limit
  | .breach promise => promise.message

/-- A problem with one argument of a function. -/
def ofArgument (function : String) (position : Nat) (problem : ArgumentProblem) : Fault :=
  argument ⟨function, position, problem⟩

end Fault

end Reckon
