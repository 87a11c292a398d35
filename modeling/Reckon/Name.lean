import Reckon.Builtin
import Reckon.Text.Blank
import Reckon.Text.Cut
import Reckon.Text.Integer

/-!
# Names and parameter lists

Which names variables, functions and parameters may have, and how the parameters
of a definition are read.
-/

namespace Reckon

namespace Name

/-- The names of the constants, which nothing else may have. -/
def reserved : List String := ["PI", "E", "INF", "MILLIS"]

/-- A character of a name. Only the names of functions and delegates have no underscores. -/
def isNameChar (lettersOnly : Bool) (c : Char) : Bool :=
  Token.isAsciiLetter c || (c = '_' && !lettersOnly)

/-- What is wrong with a name, if anything. -/
def problem? (name : String) (role : Role) (lettersOnly : Bool) : Option ArgumentProblem :=
  if name = "" then some (.emptyName role)
  else if !name.toList.all (isNameChar lettersOnly) then some (.badName name role)
  else if reserved.contains name then some (.reservedName name)
  else none

end Name

namespace Param

/-- Reads a parameter, `x` or, for a delegate of one parameter, `f(1)`. -/
def ofChars (spec : List Char) : Except ArgumentProblem Param :=
  match spec.dropWhile (· ≠ '(') with
  | [] => .ok (.number (String.ofList spec))
  | _ :: arity =>
    if arity.getLast? ≠ some ')' then .error (.badDelegateParam (String.ofList spec))
    else
      match Text.readDecimal (Text.trimChars arity.dropLast) with
      | .error _ => .error (.badDelegateArity (String.ofList spec))
      | .ok n =>
        if n < 0 then .error (.badDelegateArity (String.ofList spec))
        else
          let name := String.ofList (Text.trimChars (spec.takeWhile (· ≠ '(')))
          if Builtin.isName name then .error (.delegateNamesBuiltin name)
          else .ok ⟨name, .delegate, n⟩

/-- What is wrong with a parameter after others, if anything. -/
def problem? (seen : List String) (p : Param) : Option ArgumentProblem :=
  match Name.problem? p.name .param (p.kind = .delegate) with
  | some problem => some problem
  | none => if seen.contains p.name then some (.duplicateParam p.name) else none

/-- Reads the parameters of a function from their specifications, of which `seen` holds the
    names before and `position` is the place of the first. -/
def readAll (function : String) : (position : Nat) → (seen : List String) →
    List (List Char) → Except Fault (List Param)
  | _, _, [] => .ok []
  | position, seen, spec :: specs =>
    match ofChars (Text.trimChars spec) with
    | .error problem => .error (.ofArgument function position problem)
    | .ok p =>
      match p.problem? seen with
      | some problem => .error (.ofArgument function position problem)
      | none => (readAll function (position + 1) (p.name :: seen) specs).map (p :: ·)

/-- Reads a list of parameters between commas. A blank list has none. -/
def parse (function spec : String) : Except Fault (List Param) :=
  let cs := Text.trimChars spec.toList
  if cs.isEmpty then .ok [] else readAll function 1 [] (Text.splitChars ',' cs)

end Param

end Reckon
