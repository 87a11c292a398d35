import Reckon.Name
import Reckon.Table

/-!
# Contexts

A context holds the variables and functions that a user has defined, the time that
the clock shows, and the depth to which an evaluation may nest.
-/

namespace Reckon

/-- What an evaluation depends on. The clock counts milliseconds. -/
structure Context where
  vars : Table Value
  functions : Table Function
  clock : Int
  limit : Nat
deriving Inhabited

namespace Context

/-- The depth to which an evaluation may nest unless a context says otherwise. -/
def defaultLimit : Nat := 512

/-- A context without definitions. -/
def new (clock : Int) : Context := ⟨.empty, .empty, clock, defaultLimit⟩

/-- A context with another limit. One that is not positive stands for the usual one. -/
def withLimit (ctx : Context) (depth : Int) : Context :=
  { ctx with limit := if depth ≤ 0 then defaultLimit else depth.toNat }

/-- A context with a variable whose name is not checked. -/
def setVariable (ctx : Context) (name : String) (value : Value) : Context :=
  { ctx with vars := ctx.vars.insert name value }

/-! ## Constants -/

/-- The ratio of a circle's circumference to its diameter. -/
def pi : Float := 3.141592653589793

/-- The base of the natural logarithm. -/
def euler : Float := 2.718281828459045

/-- The value of a constant. -/
def constant? (ctx : Context) (name : String) : Option Value :=
  if name = "PI" then some (.number pi)
  else if name = "E" then some (.number euler)
  else if name = "INF" then some (.number Double.inf)
  else if name = "MILLIS" then some (.number (Float.ofInt ctx.clock))
  else none

/-- The constants with their values. -/
def constants (ctx : Context) : List (String × Value) :=
  Name.reserved.filterMap fun name => (ctx.constant? name).map fun value => (name, value)

/-! ## Definitions -/

/-- Sets a variable, instead of one of the same name. -/
def defineVariable (ctx : Context) (name : String) (value : Value) : Except Fault Context :=
  match Name.problem? name .var false with
  | some problem => .error (.ofArgument "" 0 problem)
  | none => .ok (ctx.setVariable name value)

/-- Removes a variable. -/
def deleteVariable (ctx : Context) (name : String) : Except Fault Context :=
  if ctx.vars.contains name then .ok { ctx with vars := ctx.vars.erase name }
  else .error (.unbound name)

/-- Removes all variables. -/
def clearVariables (ctx : Context) : Context := { ctx with vars := .empty }

/-- Defines a function, instead of one of the same name. The body is read to check it and again
    at each call. -/
def defineFunction (ctx : Context) (name params body : String) : Except Fault Context :=
  match Name.problem? name .func true with
  | some problem => .error (.ofArgument "" 0 problem)
  | none =>
    if Builtin.isName name then .error (.ofArgument name 0 .replacesBuiltin)
    else
      match Param.parse name params with
      | .error e => .error e
      | .ok params =>
        match Expr.parse? body with
        | .error e => .error (.parse e)
        | .ok none => .error (.ofArgument name 0 .noBody)
        | .ok (some _) =>
          .ok { ctx with functions := ctx.functions.insert name ⟨[name], params, "", body⟩ }

/-- Removes a function. -/
def deleteFunction (ctx : Context) (name : String) : Except Fault Context :=
  if ctx.functions.contains name then .ok { ctx with functions := ctx.functions.erase name }
  else .error (.misuse (.notUserFunction name))

/-- Removes all functions. -/
def clearFunctions (ctx : Context) : Context := { ctx with functions := .empty }

/-- The functions of the user in order of their names. -/
def userFunctions (ctx : Context) : List Function := ctx.functions.entries.map Prod.snd

end Context

end Reckon
