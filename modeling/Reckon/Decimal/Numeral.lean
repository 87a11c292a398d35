import Reckon.Double.Parts

/-!
# Reading numerals

A numeral is a decimal one, `12.5e-3`, a hexadecimal one with a binary exponent,
`0x1.8p4`, or a word for an infinity or for what is no number. Digits may be
separated by single underscores. A numeral too large for a double is refused,
one too small is read as zero.
-/

namespace Reckon.Decimal

/-- A character in lower case, for the ASCII letters. -/
def lower (c : Char) : Char := c.toLower

/-- The value of a digit of base ten or sixteen. -/
def digitValue (c : Char) : Nat :=
  if c.isDigit then c.toNat - 0x30 else (lower c).toNat - 0x61 + 10

/-- A digit of base ten, or of base sixteen. -/
def isDigitOf (hexadecimal : Bool) (c : Char) : Bool :=
  c.isDigit || (hexadecimal && ('a' ≤ lower c && lower c ≤ 'f'))

/-- What the check of underscores last saw. -/
inductive Seen
  | digit
  | underscore
  | other
deriving DecidableEq, Repr

/-- Every underscore stands between two digits. -/
def underscoresFit (hexadecimal : Bool) : Seen → List Char → Bool
  | last, [] => last ≠ .underscore
  | last, c :: rest =>
    if isDigitOf hexadecimal c then underscoresFit hexadecimal .digit rest
    else if c = '_' then last = .digit && underscoresFit hexadecimal .underscore rest
    else last ≠ .underscore && underscoresFit hexadecimal .other rest

/-- The exponent written by digits, which stops growing once it is past any use. -/
def exponentValue (cs : List Char) : Nat :=
  (cs.filter Char.isDigit).foldl
    (fun value c => if value < 10000 then value * 10 + digitValue c else value) 0

/-- The exponent after a mantissa: absent, or the marker, a sign and digits. -/
def readExponent? (hexadecimal : Bool) : List Char → Option Int
  | [] => if hexadecimal then none else some 0
  | marker :: rest =>
    if lower marker ≠ (if hexadecimal then 'p' else 'e') then none
    else
      let (negative, digits) : Bool × List Char :=
        match rest with
        | '-' :: digits => (true, digits)
        | '+' :: digits => (false, digits)
        | digits => (false, digits)
      if (digits.head?.any Char.isDigit) && digits.all (fun c => c.isDigit || c = '_') then
        some (if negative then -Int.ofNat (exponentValue digits) else exponentValue digits)
      else none

/-- The nearest double to `m * 10 ^ e`, or nothing if it would be infinite. -/
def ofDecimal? (m : Nat) (e : Int) : Option Float :=
  let size := Int.ofNat (Nat.toDigits 10 m).length + e
  if m = 0 || size < -400 then some 0
  else if 400 < size then none
  else
    let x := Float.ofScientific m (e < 0) e.natAbs
    if x.isInf then none else some x

/-- An unsigned numeral after the mark of its base. -/
def readUnsigned? (hexadecimal : Bool) (cs : List Char) : Option Float :=
  let isMantissaChar c := isDigitOf hexadecimal c || c = '_' || c = '.'
  let mantissa := cs.takeWhile isMantissaChar
  let digits := mantissa.filter (isDigitOf hexadecimal)
  let fraction := ((mantissa.dropWhile (· ≠ '.')).filter (isDigitOf hexadecimal)).length
  if digits.isEmpty || mantissa.count '.' > 1 then none
  else
    let base := if hexadecimal then 16 else 10
    let value := digits.foldl (fun value c => value * base + digitValue c) 0
    match readExponent? hexadecimal (cs.dropWhile isMantissaChar) with
    | none => none
    | some e =>
      if !underscoresFit hexadecimal (if hexadecimal then .digit else .other) cs then none
      else if hexadecimal then Double.ofScaled? value (e - 4 * Int.ofNat fraction)
      else ofDecimal? value (e - Int.ofNat fraction)

/-- The magnitude of a numeral or of an infinity. -/
def readMagnitude? (cs : List Char) : Option Float :=
  let word := String.ofList (cs.map lower)
  if word = "inf" || word = "infinity" then some Double.inf
  else
    match cs with
    | '0' :: mark :: c :: rest =>
      if lower mark = 'x' then readUnsigned? true (c :: rest) else readUnsigned? false cs
    | _ => readUnsigned? false cs

/-- Reads a numeral. -/
def read? (text : String) : Option Float :=
  match text.toList with
  | '-' :: cs => (readMagnitude? cs).map (Double.withSign true)
  | '+' :: cs => readMagnitude? cs
  | cs => if String.ofList (cs.map lower) = "nan" then some Double.nan else readMagnitude? cs

end Reckon.Decimal
