import Reckon.Calculus
import Reckon.Double.SquareRoot
import Reckon.Double.Transcendental
import Reckon.Double.Trigonometric

/-!
# Built-in functions

The functions that every context has, in the order in which they are listed.
-/

namespace Reckon

/-- A built-in function. -/
structure Builtin extends Function where
  run : Impl

namespace Builtin

/-! ## Shapes of functions -/

/-- A call with arguments that are not those the function declares. -/
def malformed : Except Fault Value := .error (.breach .malformedCall)

/-- A function of one value. -/
def ofValue (f : Value → Except Fault Value) : Impl
  | _, [.value v] => f v
  | _, _ => malformed

/-- A function of two values. -/
def ofValues (f : Value → Value → Except Fault Value) : Impl
  | _, [.value v, .value w] => f v w
  | _, _ => malformed

/-- A function of one number. -/
def ofNumber (f : Float → Float) : Impl := ofValue fun v => .ok (.number (f v.num))

/-- A function of two numbers. -/
def ofNumbers (f : Float → Float → Float) : Impl :=
  ofValues fun v w => .ok (.number (f v.num w.num))

/-! ## Numbers -/

/-- One with the sign of a number, and the number itself if it has none. -/
def sign (x : Float) : Float := if 0 < x then 1 else if x < 0 then -1 else x

/-- The product of the whole numbers from two up to a number, infinite above 170. -/
def factorial (x : Float) : Float :=
  if 170 < x then Double.inf
  else
    let last := (Double.toInt (Double.trunc x)).toNat
    (List.range (last - 1)).foldl (fun product i => product * Float.ofNat (i + 2)) 1

/-- The character code of the first hexadecimal digit of the whole part of a number, which
    for a negative one is that of F. -/
def firstDigitCode (x : Float) : Float :=
  let n := Double.toInt x
  if n < 0 then 70
  else
    let first := (Nat.toDigits 16 n.toNat).head?.getD '0'
    Float.ofNat first.toUpper.toNat

/-! ## Lists -/

/-- Folds the numbers of a list that must not be empty. -/
def reduce (name : String) (f : Float → Float → Float) (v : Value) : Except Fault Value :=
  match v.elems with
  | [] => .error (.ofArgument name 1 .emptyList)
  | first :: rest => .ok (.number (rest.foldl (fun x e => f x e.num) first.num))

/-- The mean of the numbers of a list that must not be empty. -/
def average (v : Value) : Except Fault Value :=
  if v.elems.isEmpty then .error (.ofArgument "avg" 1 .emptyList)
  else
    let sum := v.elems.foldl (fun x e => x + e.num) 0
    .ok (.number (sum / Float.ofNat v.elems.length))

/-- A number as an index into a list, if it lies above -1 and below the length. Its fraction is
    dropped. -/
def index (name : String) (position : Nat) (x : Float) (length : Nat) : Except Fault Nat :=
  if -1 < x && x < Float.ofNat length then .ok (Double.toInt x).toNat
  else .error (.ofArgument name position (.indexOutOfRange x length))

/-- The element at an index. -/
def get (list place : Value) : Except Fault Value :=
  match index "get" 2 place.num list.elems.length with
  | .error e => .error e
  | .ok i =>
    match list.elems[i]? with
    | some v => .ok v
    | none => .error (.breach (.indexBeyond i list.elems.length))

/-- The elements before a place and those from it on. A list can be cut up to its end. -/
def cutAt (elems : List Value) (place : Nat) : Except Fault (List Value × List Value) :=
  if place ≤ elems.length then .ok (elems.take place, elems.drop place)
  else .error (.breach (.cutBeyond place elems.length))

/-- A list without the element at an index. -/
def remove (list place : Value) : Except Fault Value :=
  match index "remove" 2 place.num list.elems.length with
  | .error e => .error e
  | .ok i =>
    if list.elems.isEmpty then .error (.breach .negativeCapacity)
    else
      match cutAt list.elems i, cutAt list.elems (i + 1) with
      | .error e, _ => .error e
      | _, .error e => .error e
      | .ok (before, _), .ok (_, after) => .ok (.list (before ++ after))

/-- A list with one more element before an index. -/
def insert (list element place : Value) : Except Fault Value :=
  match index "insert" 3 place.num list.elems.length with
  | .error e => .error e
  | .ok i =>
    match cutAt list.elems i with
    | .error e => .error e
    | .ok (before, after) => .ok (.list (before ++ element :: after))

/-- The index of the first element equal to a value. -/
def indexOf? (list : List Value) (v : Value) : Option Nat := list.findIdx? fun e => e.equal v

/-- The elements of the first list that are in the second, or those that are not. -/
def select (keep : Bool) (list others : Value) : Except Fault Value :=
  .ok (.list (list.elems.filter fun e => (indexOf? others.elems e).isSome == keep))

/-- The values of a delegate at the elements of a list. -/
def foreach (host : Host) (d : Delegate) : List Value → Except Fault (List Value)
  | [] => .ok []
  | v :: rest =>
    match (Calculus.Unary.ofDelegate host d).bind fun f => f.apply v with
    | .error e => .error e
    | .ok w =>
      match foreach host d rest with
      | .error e => .error e
      | .ok ws => .ok (w :: ws)

/-! ## Vectors -/

/-- The sum of the products of components. -/
def dot (v w : Value) : Except Fault Value :=
  if v.comps.length ≠ w.comps.length then .error (.ofArgument "dot" 0 .dotLengths)
  else .ok (.number ((List.zipWith (· * ·) v.comps w.comps).foldl (· + ·) 0))

/-- The vector product. A component that is zero has no sign. -/
def cross (v w : Value) : Except Fault Value :=
  match v.comps, w.comps with
  | [a, b, c], [d, e, f] =>
    let comps := [b * f - e * c, d * c - a * f, a * e - d * b]
    .ok (.vector (comps.map fun x => if x == 0 then 0 else x))
  | _, _ => .error (.ofArgument "cross" 0 .crossLengths)

/-- The length of a vector. -/
def magnitude (v : Value) : Float :=
  Double.sqrt (v.comps.foldl (fun sum x => sum + x * x) 0)

/-! ## The table -/

open Param (number list vector delegate)

/-- A function of one number without a summary. -/
def numeric (name : String) (f : Float → Float) : Builtin :=
  ⟨⟨[name], [number "value"], "", ""⟩, ofNumber f⟩

/-- The functions of numbers. -/
def numbers : List Builtin :=
  [ numeric "sin" Double.sin,
    numeric "cos" Double.cos,
    numeric "tan" Double.tan,
    numeric "csc" fun x => 1 / Double.sin x,
    numeric "sec" fun x => 1 / Double.cos x,
    numeric "cot" fun x => 1 / Double.tan x,
    numeric "asin" Double.asin,
    numeric "acos" Double.acos,
    numeric "atan" Double.atan,
    numeric "abs" Float.abs,
    ⟨⟨["sign"], [number "value"],
      "Returns 1 if the argument is positive and -1 if it is negative", ""⟩, ofNumber sign⟩,
    numeric "round" Double.roundEven,
    numeric "floor" Double.floor,
    numeric "ceil" Double.ceil,
    numeric "exp" Double.exp,
    numeric "ln" Double.ln,
    ⟨⟨["log"], [number "argument", number "base"], "", ""⟩, ofNumbers Double.log⟩,
    ⟨⟨["pow"], [number "base", number "power"], "", ""⟩, ofNumbers Double.pow⟩,
    ⟨⟨["root", "rt"], [number "argument", number "root"], "", ""⟩, ofNumbers Double.root⟩,
    numeric "sqrt" Double.sqrt,
    numeric "fact" factorial ]

/-- The functions that summarise a list. -/
def summaries : List Builtin :=
  [ ⟨⟨["max"], [list "list"], "", ""⟩, ofValue (reduce "max" Double.maximum)⟩,
    ⟨⟨["min"], [list "list"], "", ""⟩, ofValue (reduce "min" Double.minimum)⟩,
    ⟨⟨["avg", "amean"], [list "list"], "", ""⟩, ofValue average⟩ ]

/-- The functions of calculus. -/
def calculus : List Builtin :=
  [ ⟨⟨["sum"], [delegate "expression", number "start", number "max"], "Performs a summation", ""⟩,
      fun host args =>
        match args with
        | [.delegate d, .value start, .value stop] =>
          Calculus.summation host d (Double.toInt start.num) (Double.toInt stop.num)
        | _ => malformed⟩,
    ⟨⟨["int"], [delegate "expression", number "lower_bound", number "upper_bound"],
      "Returns the integral of the expression between lower_bound and upper_bound", ""⟩,
      fun host args =>
        match args with
        | [.delegate d, .value lo, .value hi] => Calculus.integral host d lo.num hi.num
        | _ => malformed⟩,
    ⟨⟨["diff"], [delegate "expression", number "variable_value"],
      "Takes the derivative of the expression at the given value", ""⟩,
      fun host args =>
        match args with
        | [.delegate d, .value x] => Calculus.derivative host d x.num
        | _ => malformed⟩,
    ⟨⟨["solve"], [delegate "expression"],
      "Solves for where the expression is equal to 0 using an initial guess of 0", ""⟩,
      fun host args =>
        match args with
        | [.delegate d] => Calculus.zero host d 0
        | _ => malformed⟩,
    ⟨⟨["solves"], [delegate "expression", number "start_value"],
      "Solves for where the expression is equal to 0 from an initial guess", ""⟩,
      fun host args =>
        match args with
        | [.delegate d, .value guess] => Calculus.zero host d guess.num
        | _ => malformed⟩ ]

/-- The functions of lists. -/
def lists : List Builtin :=
  [ ⟨⟨["add"], [list "list", number "element"],
      "Adds a value to the end of a list and returns the new list", ""⟩,
      ofValues fun l v => .ok (.list (l.elems ++ [v]))⟩,
    ⟨⟨["len", "length"], [list "list"], "Returns the length of the list", ""⟩,
      ofValue fun l => .ok (.number (Float.ofNat l.elems.length))⟩,
    ⟨⟨["remove"], [list "list", number "index"],
      "Removes the value at the index from the list and returns the new list", ""⟩,
      ofValues remove⟩,
    ⟨⟨["get"], [list "list", number "index"], "Returns the value at the index in the list", ""⟩,
      ofValues get⟩,
    ⟨⟨["insert"], [list "list", number "element", number "index"],
      "Inserts the value at the index in the list and returns the new list", ""⟩,
      fun _ args =>
        match args with
        | [.value l, .value v, .value i] => insert l v i
        | _ => malformed⟩,
    ⟨⟨["concat", "union"], [list "list1", list "list2"],
      "Returns a list of all values in list1 followed by all values in list2", ""⟩,
      ofValues fun l m => .ok (.list (l.elems ++ m.elems))⟩,
    ⟨⟨["intersect"], [list "list1", list "list2"],
      "Returns a list of the values in list1 that are also in list2", ""⟩,
      ofValues (select true)⟩,
    ⟨⟨["less"], [list "list1", list "list2"],
      "Returns a list of the values in list1 that are not in list2", ""⟩,
      ofValues (select false)⟩,
    ⟨⟨["indexof"], [list "list", number "element"],
      "Returns the first index of the value in the list, or -1 if it does not appear", ""⟩,
      ofValues fun l v =>
        .ok (.number (match indexOf? l.elems v with
          | some i => Float.ofNat i
          | none => -1))⟩,
    ⟨⟨["foreach"], [list "list", delegate "delegate"],
      "Evaluates the delegate with each value of the list and returns the list of results", ""⟩,
      fun host args =>
        match args with
        | [.value l, .delegate d] => (foreach host d l.elems).map .list
        | _ => malformed⟩,
    ⟨⟨["join"], [list "list"], "Combines a list of lists into one list", ""⟩,
      ofValue fun l => .ok (.list (l.elems.flatMap Value.elems))⟩,
    ⟨⟨["toascii"], [number "value"],
      "Returns the character code of the first hexadecimal digit of an integer, e.g. 15 gives 70 for F",
      ""⟩, ofNumber firstDigitCode⟩ ]

/-- The functions of vectors. -/
def vectors : List Builtin :=
  [ ⟨⟨["dotproduct", "dot"], [vector "vector1", vector "vector2"], "", ""⟩, ofValues dot⟩,
    ⟨⟨["crossproduct", "cross"], [vector "vector1", vector "vector2"], "", ""⟩, ofValues cross⟩,
    ⟨⟨["magnitude", "mag"], [vector "vector"], "", ""⟩,
      ofValue fun v => .ok (.number (magnitude v))⟩ ]

/-- The built-in functions. -/
def all : List Builtin := numbers ++ summaries ++ calculus ++ lists ++ vectors

/-- The built-in function of a name. -/
def find? (name : String) : Option Builtin := all.find? fun f => f.names.contains name

/-- A name of a built-in function. -/
def isName (name : String) : Bool := all.any fun f => f.names.contains name

end Builtin

end Reckon
