import Reckon.Number

/-!
# Values

A value is a number, a list or a vector, and can be viewed as any of them: a
number is a collection of one, and a collection is the number of its elements.
-/

namespace Reckon

/-- The kind of a value or of a parameter. Only a parameter is a delegate or of no kind. -/
inductive Kind
  | number
  | list
  | vector
  | delegate
  | invalid
deriving DecidableEq, Repr

namespace Kind

/-- The kind of a code. -/
def ofCode (code : Int) : Kind :=
  if code = 0 then number
  else if code = 1 then list
  else if code = 2 then vector
  else if code = 3 then delegate
  else invalid

/-- The word for a kind. -/
def text : Kind → String
  | number => "number"
  | list => "list"
  | vector => "vector"
  | delegate => "delegate"
  | invalid => "invalid"

end Kind

/-- The result of an evaluation. -/
inductive Value
  | number (x : Float)
  | list (elems : List Value)
  | vector (comps : List Float)

instance : Inhabited Value := ⟨.list []⟩

namespace Value

/-- The kind of a value. -/
def kind : Value → Kind
  | number _ => .number
  | list _ => .list
  | vector _ => .vector

/-- A value as a number. -/
def num : Value → Float
  | number x => x
  | list elems => Float.ofNat elems.length
  | vector comps => Float.ofNat comps.length

/-- A value as the elements of a list. -/
def elems : Value → List Value
  | number x => [number x]
  | list elems => elems
  | vector comps => comps.map number

/-- A value as the components of a vector. -/
def comps : Value → List Float
  | number x => [x]
  | list elems => elems.map num
  | vector comps => comps

/-- A value viewed as a kind. Where no value has that kind it stays as it is. -/
def as (value : Value) : Kind → Value
  | .number => number value.num
  | .list => list value.elems
  | .vector => vector value.comps
  | .delegate | .invalid => value

/-- The components of vectors are equal as numbers. -/
def sameComps : List Float → List Float → Bool
  | [], [] => true
  | a :: as, b :: bs => a == b && sameComps as bs
  | _, _ => false

mutual

/-- Two values have the same kind and contents. Numbers are compared as numbers, so that what
    is no number equals nothing. -/
def equal : Value → Value → Bool
  | number a, number b => a == b
  | list as, list bs => equalAll as bs
  | vector as, vector bs => sameComps as bs
  | _, _ => false

/-- Two lists have equal elements in the same order. -/
def equalAll : List Value → List Value → Bool
  | [], [] => true
  | a :: as, b :: bs => equal a b && equalAll as bs
  | _, _ => false

end

mutual

/-- The text of a value, which evaluates to it again. -/
def text : Value → String
  | number x => Number.resultText x
  | list elems => "\x7b" ++ ",".intercalate (texts elems) ++ "\x7d"
  | vector comps => "<" ++ ",".intercalate (comps.map Number.resultText) ++ ">"

/-- The texts of values. -/
def texts : List Value → List String
  | [] => []
  | v :: rest => v.text :: texts rest

end

end Value

end Reckon
