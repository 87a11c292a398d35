import Reckon.Context

/-!
# Scopes

Each call of a function adds a frame with its parameters on top of the frames of the
caller. A name is looked up from the innermost frame outward, so that it means what it
means where the function is called.
-/

namespace Reckon

/-- The variables and functions of one call. Of two entries of a name the first counts. -/
structure Frame where
  vars : List (String × Value)
  functions : List (String × Function)

/-- Frames, the innermost first. -/
abbrev Scope := List Frame

namespace Scope

/-- The outermost frame, with the definitions of a context. -/
def root (ctx : Context) : Scope := [⟨ctx.vars.entries, ctx.functions.entries⟩]

/-- The value of a variable. -/
def value? (scope : Scope) (name : String) : Option Value :=
  scope.findSome? fun frame => frame.vars.lookup name

/-- The function of a name. -/
def function? (scope : Scope) (name : String) : Option Function :=
  scope.findSome? fun frame => frame.functions.lookup name

end Scope

/-- The frame of a call: values become variables and delegates functions. Of two parameters
    of a name the last counts. There is none if the arguments do not fit the parameters. -/
def Frame.ofCall? : List Param → List Arg → Option Frame
  | [], [] => some ⟨[], []⟩
  | p :: params, arg :: args =>
    match ofCall? params args with
    | none => none
    | some frame =>
      match arg with
      | .value v =>
        if p.kind = .delegate then none
        else some { frame with vars := frame.vars ++ [(p.name, v)] }
      | .delegate d =>
        if p.kind = .delegate then
          some { frame with functions := frame.functions ++ [(p.name, .ofDelegate p.name d)] }
        else none
  | _, _ => none

end Reckon
