import Reckon.Decimal.Numeral

/-!
# Reading integers

Integers of 64 bits, in base ten or in a base that they name themselves: `0b101`,
`0o17` or `017`, `0xff`, with single underscores between digits.
-/

namespace Reckon.Text

/-- Why a text is no integer. -/
inductive IntegerFault
  | malformed
  | outOfRange
deriving DecidableEq, Repr

/-- The value of a digit or of a letter as a digit. -/
def digitOf? (c : Char) : Option Nat :=
  if c.isDigit then some (c.toNat - 0x30)
  else if c.isAlpha then some (c.toLower.toNat - 0x61 + 10)
  else none

/-- Reads digits after those of `value`, up to 64 bits. The first fault from left to right
    counts. -/
def readDigits (base : Nat) (underscores : Bool) : List Char → (value : Nat) →
    Except IntegerFault Nat
  | [], value => .ok value
  | c :: rest, value =>
    if c = '_' && underscores then readDigits base underscores rest value
    else
      match digitOf? c with
      | none => .error .malformed
      | some digit =>
        if base ≤ digit then .error .malformed
        else if Double.twoTo 64 ≤ value * base + digit then .error .outOfRange
        else readDigits base underscores rest (value * base + digit)

/-- The sign of a text and what follows it. -/
def splitSign : List Char → Bool × List Char
  | '-' :: rest => (true, rest)
  | '+' :: rest => (false, rest)
  | cs => (false, cs)

/-- A magnitude with its sign, if 64 bits hold it. -/
def signedInteger (negative : Bool) (magnitude : Nat) : Except IntegerFault Int :=
  if negative then
    if Double.twoTo 63 < magnitude then .error .outOfRange else .ok (-Int.ofNat magnitude)
  else if Double.twoTo 63 ≤ magnitude then .error .outOfRange else .ok magnitude

/-- Reads an integer in base ten. -/
def readDecimal (cs : List Char) : Except IntegerFault Int :=
  let (negative, digits) := splitSign cs
  if digits.isEmpty then .error .malformed
  else (readDigits 10 false digits 0).bind (signedInteger negative)

/-- The base that digits name and the digits after the name. -/
def splitBase : List Char → Nat × List Char
  | '0' :: mark :: digit :: rest =>
    if mark.toLower = 'b' then (2, digit :: rest)
    else if mark.toLower = 'o' then (8, digit :: rest)
    else if mark.toLower = 'x' then (16, digit :: rest)
    else (8, mark :: digit :: rest)
  | '0' :: rest => (8, rest)
  | cs => (10, cs)

/-- Underscores stand between digits, the name of the base counting as one. -/
def underscoresFit : List Char → Bool
  | '0' :: mark :: rest =>
    if mark.toLower = 'b' || mark.toLower = 'o' then Decimal.underscoresFit false .digit rest
    else if mark.toLower = 'x' then Decimal.underscoresFit true .digit rest
    else Decimal.underscoresFit false .other ('0' :: mark :: rest)
  | cs => Decimal.underscoresFit false .other cs

/-- Reads an integer in the base that it names. -/
def readInteger (text : String) : Except IntegerFault Int :=
  let (negative, cs) := splitSign text.toList
  if cs.isEmpty then .error .malformed
  else
    let (base, digits) := splitBase cs
    match readDigits base true digits 0 with
    | .error e => .error e
    | .ok magnitude =>
      if underscoresFit cs then signedInteger negative magnitude else .error .malformed

end Reckon.Text
