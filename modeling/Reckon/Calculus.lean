import Reckon.Double.Integer
import Reckon.Function

/-!
# Calculus

Sums, integrals, derivatives and zeros of delegates, found by evaluating them. All
but sums are rounded to five places, which hides the error of the approximation.
-/

namespace Reckon.Calculus

/-- Subintervals of an integral. -/
def integrationSteps : Nat := 100000

/-- Iterations after which a search for a zero is given up. -/
def newtonLimit : Nat := 1000

/-- How near to zero a solution must bring its expression. -/
def tolerance : Float := 0.001

/-- The steps of the difference quotients whose mean is the derivative. -/
def diffSteps : List Float := [1e-5, 1e-6, 1e-7, 1e-9]

/-- A number to five places, a half going to the even digit. Large numbers, infinities and what
    is no number stay as they are, and zero loses its sign. -/
def round5 (x : Float) : Float :=
  if !Double.isFinite x || 1e15 ≤ x.abs then x
  else
    let rounded := Double.roundEven (x * 1e5) / 1e5
    if rounded == 0 then 0 else rounded

/-- A delegate of one parameter whose body has been read. -/
structure Unary where
  host : Host
  param : String
  body : Expr

namespace Unary

/-- Reads the body of a delegate. -/
def ofDelegate (host : Host) (d : Delegate) : Except Fault Unary :=
  match d.params with
  | [param] => (Host.read d.body).map fun body => ⟨host, param, body⟩
  | _ => .error (.breach .malformedCall)

/-- The value of the body with a value for the parameter. -/
def apply (f : Unary) (v : Value) : Except Fault Value := f.host.evaluate [(f.param, v)] f.body

/-- The value at a number. -/
def value (f : Unary) (x : Float) : Except Fault Value := f.apply (.number x)

/-- The value at a number as a number. -/
def num (f : Unary) (x : Float) : Except Fault Float := (f.value x).map Value.num

end Unary

/-- Adds the values at `count` whole numbers from `i` on. -/
def sumFrom (f : Unary) : (count : Nat) → (i : Int) → (sum : Float) → Except Fault Float
  | 0, _, sum => .ok sum
  | count + 1, i, sum =>
    match f.num (Float.ofInt i) with
    | .error e => .error e
    | .ok y => sumFrom f count (i + 1) (sum + y)

/-- The sum of the values at the whole numbers from `start` to `stop`. -/
def summation (host : Host) (d : Delegate) (start stop : Int) : Except Fault Value :=
  match Unary.ofDelegate host d with
  | .error e => .error e
  | .ok f => (sumFrom f (stop + 1 - start).toNat start 0).map .number

/-- Adds twice the values at `count` inner points, from the `i`th on. -/
def addInner (f : Unary) (lo dx : Float) : (count i : Nat) → (sum : Float) → Except Fault Float
  | 0, _, sum => .ok sum
  | count + 1, i, sum =>
    match f.num (lo + Float.ofNat i * dx) with
    | .error e => .error e
    | .ok y => addInner f lo dx count (i + 1) (sum + 2 * y)

/-- The integral by the trapezoid rule. -/
def integral (host : Host) (d : Delegate) (lo hi : Float) : Except Fault Value :=
  match Unary.ofDelegate host d with
  | .error e => .error e
  | .ok f =>
    let dx := (hi - lo) / Float.ofNat integrationSteps
    match f.num lo with
    | .error e => .error e
    | .ok first =>
      match f.num hi with
      | .error e => .error e
      | .ok last =>
        (addInner f lo dx (integrationSteps - 1) 1 (first + last)).map fun sum =>
          .number (round5 (sum * dx / 2))

/-- Adds the difference quotients for the given steps. -/
def addQuotients (f : Unary) (x y : Float) : List Float → (sum : Float) → Except Fault Float
  | [], sum => .ok sum
  | dx :: steps, sum =>
    match f.num (x + dx) with
    | .error e => .error e
    | .ok moved => addQuotients f x y steps (sum + (moved - y) / dx)

/-- The derivative, not rounded. -/
def slope (f : Unary) (x : Float) : Except Fault Float :=
  match f.num x with
  | .error e => .error e
  | .ok y => (addQuotients f x y diffSteps 0).map (· / Float.ofNat diffSteps.length)

/-- Adds the difference quotients of each component for the given steps. -/
def addVectorQuotients (f : Unary) (x : Float) (base : List Float) :
    List Float → (sums : List Float) → Except Fault (List Float)
  | [], sums => .ok sums
  | dx :: steps, sums =>
    match f.value (x + dx) with
    | .error e => .error e
    | .ok moved =>
      if moved.comps.length ≠ base.length then .error (.ofArgument "diff" 1 .diffLengths)
      else
        let quotients := List.zipWith (fun c b => (c - b) / dx) moved.comps base
        addVectorQuotients f x base steps (List.zipWith (· + ·) sums quotients)

/-- The derivative of each component. -/
def vectorSlope (f : Unary) (x : Float) (base : List Float) : Except Fault Value :=
  (addVectorQuotients f x base diffSteps (base.map fun _ => 0)).map fun sums =>
    .vector (sums.map fun sum => round5 (sum / Float.ofNat diffSteps.length))

/-- An expression is written as a vector. -/
def isVectorLiteral : Expr → Bool
  | .vector _ => true
  | _ => false

/-- The derivative of a delegate at a number, taken of each component if it is a vector. -/
def derivative (host : Host) (d : Delegate) (x : Float) : Except Fault Value :=
  match Unary.ofDelegate host d with
  | .error e => .error e
  | .ok f =>
    match f.value x with
    | .error e => .error e
    | .ok base =>
      if isVectorLiteral f.body || base.kind = .vector then vectorSlope f x base.comps
      else (slope f x).map fun s => .number (round5 s)

/-- Newton's iteration from `x`, where the delegate is `y`, for at most `left` steps. Where
    the derivative is zero it moves on by one. -/
def newton (f : Unary) : (left : Nat) → (x y : Float) → Except Fault Float
  | left, x, y =>
    if !(tolerance < y.abs) then .ok (round5 x)
    else
      match left with
      | 0 => .ok Double.nan
      | left + 1 =>
        match slope f x with
        | .error e => .error e
        | .ok s =>
          let s := round5 s
          let next := if s == 0 then x + 1 else x - y / s
          match f.num next with
          | .error e => .error e
          | .ok y => newton f left next y

/-- A number at which a delegate is zero, searched for from a guess. -/
def zero (host : Host) (d : Delegate) (guess : Float) : Except Fault Value :=
  match Unary.ofDelegate host d with
  | .error e => .error e
  | .ok f =>
    match f.num guess with
    | .error e => .error e
    | .ok y => (newton f newtonLimit guess y).map .number

end Reckon.Calculus
