import Reckon.Scope

/-!
# Evaluation

An expression is evaluated by recursion on the depth that is left: every part of an
expression, every body of a function and every expression that a built-in function
evaluates is one level deeper. At depth zero the evaluation is given up.
-/

namespace Reckon

/-- Evaluates an expression in a scope. -/
abbrev Evaluator := Scope → Expr → Except Fault Value

namespace Op

/-- A number from two numbers. -/
def onNumbers (op : Op) (x y : Float) : Except Fault Value :=
  match op with
  | add => .ok (.number (x + y))
  | sub => .ok (.number (x - y))
  | mul => .ok (.number (x * y))
  | div => .ok (.number (x / y))
  | mod => .ok (.number (Double.remainder x y))
  | unknown _ => .error (.breach (.invalidOperator op))

/-- Adds or subtracts vectors of the same length. -/
def onVectors (op : Op) (f : Float → Float → Float) (v w : List Float) : Except Fault Value :=
  if v.length = w.length then .ok (.vector (List.zipWith f v w))
  else .error (.ofArgument op.symbol 0 (.lengthsDiffer v.length w.length))

/-- Multiplies a vector by a number. -/
def scale (v : List Float) (x : Float) : Value := .vector (v.map (· * x))

/-- Applies an operation. Vectors are added, subtracted and scaled by numbers, and everything
    else is done with numbers. A vector on either side of a division is divided by the other. -/
def apply (op : Op) (left right : Value) : Except Fault Value :=
  match op, left, right with
  | add, .vector v, .vector w => op.onVectors (· + ·) v w
  | sub, .vector v, .vector w => op.onVectors (· - ·) v w
  | mul, .vector _, .vector _ => op.onNumbers left.num right.num
  | div, .vector _, .vector _ => op.onNumbers left.num right.num
  | mul, .vector v, _ => .ok (scale v right.num)
  | mul, _, .vector w => .ok (scale w left.num)
  | div, .vector v, _ => .ok (scale v (1 / right.num))
  | div, _, .vector w => .ok (scale w (1 / left.num))
  | _, _, _ => op.onNumbers left.num right.num

end Op

namespace Eval

/-- Evaluates expressions from left to right. -/
def list (deeper : Expr → Except Fault Value) : List Expr → Except Fault (List Value)
  | [] => .ok []
  | e :: rest =>
    match deeper e with
    | .error fault => .error fault
    | .ok v =>
      match list deeper rest with
      | .error fault => .error fault
      | .ok vs => .ok (v :: vs)

/-- Evaluates the components of a vector, which must be numbers, from a position on. -/
def components (deeper : Expr → Except Fault Value) :
    (position : Nat) → List Expr → Except Fault (List Float)
  | _, [] => .ok []
  | position, e :: rest =>
    match deeper e with
    | .error fault => .error fault
    | .ok (.number x) =>
      match components deeper (position + 1) rest with
      | .error fault => .error fault
      | .ok xs => .ok (x :: xs)
    | .ok v => .error (.misuse (.componentNotNumber position v.kind))

/-- What is wrong with a delegate as an argument, if anything. -/
def delegateProblem? (p : Param) (d : Delegate) : Option ArgumentProblem :=
  if Int.ofNat d.params.length ≠ p.arity then some (.wrongDelegateArity p.arity)
  else d.params.findSome? fun name => Name.problem? name .param false

/-- Evaluates an argument, or checks it if it is a delegate. -/
def argument (deeper : Expr → Except Fault Value) (function : String) (position : Nat) (p : Param) :
    Expr → Except Fault Arg
  | .delegate d =>
    if p.kind = .delegate then
      match delegateProblem? p d with
      | some problem => .error (.ofArgument function position problem)
      | none => .ok (.delegate d)
    else .error (.ofArgument function position (.unexpectedDelegate p.kind))
  | e =>
    if p.kind = .delegate then
      .error (.ofArgument function position (.notDelegate e.description))
    else (deeper e).map .value

/-- Evaluates the arguments for parameters from left to right. -/
def arguments (deeper : Expr → Except Fault Value) (function : String) :
    (position : Nat) → List Param → List Expr → Except Fault (List Arg)
  | position, p :: params, e :: exprs =>
    match argument deeper function position p e with
    | .error fault => .error fault
    | .ok arg =>
      match arguments deeper function (position + 1) params exprs with
      | .error fault => .error fault
      | .ok args => .ok (arg :: args)
  | _, _, _ => .ok []

/-- Evaluates the body of a function in the scope of the caller with the parameters on top. -/
def body (deeper : Evaluator) (scope : Scope) (f : Function) (args : List Arg) :
    Except Fault Value :=
  match Frame.ofCall? f.params args with
  | none => .error (.breach .malformedCall)
  | some frame =>
    match Host.read f.body with
    | .error fault => .error fault
    | .ok e => deeper (frame :: scope) e

/-- What built-in functions evaluate with: the scope of the caller. -/
def host (deeper : Evaluator) (scope : Scope) : Host where
  evaluate := fun vars e => deeper (⟨vars, []⟩ :: scope) e

/-- A function that a call can mean. -/
inductive Callee
  | builtin (f : Builtin)
  | user (f : Function)

/-- The parameters of a function. -/
def Callee.params : Callee → List Param
  | builtin f => f.params
  | user f => f.params

/-- The function of a name, first among the built-in ones. -/
def callee? (scope : Scope) (name : String) : Option Callee :=
  match Builtin.find? name with
  | some f => some (.builtin f)
  | none => (scope.function? name).map .user

/-- Evaluates a call. -/
def call (deeper : Evaluator) (scope : Scope) (name : String) (exprs : List Expr) :
    Except Fault Value :=
  match callee? scope name with
  | none => .error (.misuse (.unknownFunction name))
  | some callee =>
    if exprs.length ≠ callee.params.length then
      .error (.ofArgument name 0 (.wrongCount callee.params.length exprs.length))
    else
      match arguments (deeper scope) name 1 callee.params exprs with
      | .error fault => .error fault
      | .ok args =>
        match callee with
        | .builtin f => f.run (host deeper scope) args
        | .user f => body deeper scope f args

/-- Evaluates an expression whose parts are evaluated by `deeper`. -/
def step (ctx : Context) (deeper : Evaluator) (scope : Scope) : Expr → Except Fault Value
  | .num x => .ok (.number x)
  | .var name =>
    match scope.value? name with
    | some v => .ok v
    | none =>
      match ctx.constant? name with
      | some v => .ok v
      | none => .error (.unbound name)
  | .binary op l r =>
    match deeper scope l with
    | .error fault => .error fault
    | .ok left =>
      match deeper scope r with
      | .error fault => .error fault
      | .ok right => op.apply left right
  | .list elems => (list (deeper scope) elems).map .list
  | .vector elems => (components (deeper scope) 1 elems).map .vector
  | .call name args => call deeper scope name args
  | .delegate d => .error (.misuse (.loneDelegate d))

/-- Evaluates an expression with a depth that is left. -/
def run (ctx : Context) : (depth : Nat) → Evaluator
  | 0, _, _ => .error (.overflow ctx.limit)
  | depth + 1, scope, e => step ctx (run ctx depth) scope e

end Eval

namespace Context

/-- Evaluates an expression. -/
def eval (ctx : Context) (e : Expr) : Except Fault Value :=
  Eval.run ctx ctx.limit (Scope.root ctx) e

/-- Evaluates a source text. -/
def evalText (ctx : Context) (source : String) : Except Fault Value :=
  match Expr.parse source with
  | .error e => .error (.parse e)
  | .ok e => ctx.eval e

/-- Calls a function of a context for a host of another. Only built-in functions allow it. -/
def callFor (ctx : Context) (host : Host) (name : String) (args : List Arg) :
    Except Fault Value :=
  match Eval.callee? (Scope.root ctx) name with
  | none => .error (.misuse (.unknownFunction name))
  | some (.builtin f) => f.run host args
  | some (.user f) => .error (.misuse (.foreignCaller f.name))

/-- A host with the given variables and no other definitions. -/
def detachedHost (clock : Int) : Host where
  evaluate := fun vars e =>
    (vars.foldl (fun ctx (name, value) => ctx.setVariable name value) (new clock)).eval e

end Context

end Reckon
