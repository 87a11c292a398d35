import Reckon.Text.Cut
import Reckon.Text.Integer
import Reckon.Toml.Moment
import Reckon.Toml.Value

/-!
# Texts and numbers

Texts stand between double quotes, with escapes, or between single quotes, without.
Three quotes begin a text of several lines. Numbers have a base, single underscores
between digits and no leading zeros.
-/

namespace Reckon.Toml

/-- Puts a character before those that are read, ahead of what follows them. -/
def readAfter (c : Char) (result : Option (List Char × List Char)) :
    Option (List Char × List Char) :=
  result.map fun (cs, rest) => (c :: cs, rest)

/-- A space or a tab. -/
def isSpace (c : Char) : Bool := c = ' ' || c = '\t'

/-- A character that ends a line. -/
def isLineEnd (c : Char) : Bool := c = '\n' || c = '\r'

/-! ## Texts -/

/-- The characters up to a closing quote on the same line. With escapes, the character after a
    backslash closes nothing. -/
def quoted (quote : Char) (escapes : Bool) : List Char → Option (List Char × List Char)
  | [] => none
  | c :: rest =>
    if c = quote then some ([], rest)
    else if isLineEnd c then none
    else if escapes && c = '\\' then
      match rest with
      | [] => none
      | escaped :: rest =>
        if isLineEnd escaped then none
        else readAfter c (readAfter escaped (quoted quote escapes rest))
    else readAfter c (quoted quote escapes rest)

/-- So many quotes stand at the beginning and no more. -/
def hasQuotes (quote : Char) (count : Nat) (cs : List Char) : Bool :=
  (cs.takeWhile (· = quote)).length = count

/-- The characters after a backslash make an escape, or end a line after it. -/
def escapeFits (escaped : Char) (rest : List Char) : Bool :=
  let codeFits (places : Nat) :=
    places ≤ rest.length && (rest.take places).all (Decimal.isDigitOf true)
  if escaped = 'u' then codeFits 4
  else if escaped = 'U' then codeFits 8
  else ['b', 't', 'n', 'f', 'r', '"', '\\', ' ', '\t', '\n', '\r'].contains escaped

/-- The characters up to three closing quotes. Up to two quotes right before those belong to
    the text, and three after a backslash that is escaped. -/
def block (quote : Char) (escapes : Bool) : List Char → Option (List Char × List Char)
  | [] => none
  | c :: rest =>
    if c = quote && rest.take 5 = List.replicate 5 quote then none
    else if c = quote && hasQuotes quote 2 rest then some ([], rest.drop 2)
    else if escapes && c = '\\' then
      match rest with
      | [] => none
      | escaped :: rest =>
        if !escapeFits escaped rest then none
        else if escaped = '\\' && hasQuotes quote 6 rest then
          some ([c, escaped, quote, quote, quote], rest.drop 6)
        else readAfter c (readAfter escaped (block quote escapes rest))
    else readAfter c (block quote escapes rest)

/-- A blank or a line end. -/
def isLayout (c : Char) : Bool := isSpace c || isLineEnd c

/-- A character that does not count at the end of a line. -/
def isMargin (c : Char) : Bool := isSpace c || c = '\r'

/-- Joins the lines of a text. A backslash at the end of a line goes, with the line end and the
    blanks around it, and so do the line ends after it, up to a line that ends with a backslash that
    is escaped. Such a line keeps its end, and gets one if it is the last. -/
def joinLines (joined afterBackslash : Bool) : List (List Char) → Option (List Char)
  | [] => some []
  | line :: lines =>
    let line := if afterBackslash then line.dropWhile isMargin else line
    let core := Text.dropEnd isMargin line
    let backslashes := (core.reverse.takeWhile (· = '\\')).length
    if backslashes = 0 then
      let text := Text.dropEnd (· = '\r') line
      let lineEnd := if joined || lines.isEmpty then [] else ['\n']
      (joinLines joined false lines).map (text ++ lineEnd ++ ·)
    else if backslashes % 2 = 0 then
      (joinLines false false lines).map (line ++ ['\n'] ++ ·)
    else if lines.isEmpty then none
    else
      let text := if joined then core.dropWhile isMargin else core
      (joinLines true true lines).map (text.dropLast ++ ·)

/-- The character that a letter stands for after a backslash. -/
def escape? (c : Char) : Option Char :=
  match c with
  | 'b' => some '\x08'
  | 't' => some '\t'
  | 'n' => some '\n'
  | 'f' => some '\x0c'
  | 'r' => some '\r'
  | '"' => some '"'
  | '\\' => some '\\'
  | _ => none

/-- The character of a code of so many digits in base sixteen. -/
def codePoint? (places : Nat) (cs : List Char) : Option Char :=
  let word := cs.take places
  let code := word.foldl (fun value c => value * 16 + Decimal.digitValue c) 0
  if word.length = places && word.all (Decimal.isDigitOf true) && code.isValidChar then
    some (Char.ofNat code)
  else none

/-- Resolves the escapes of a text. -/
def unescape (cs : List Char) : Option (List Char) :=
  match cs with
  | [] => some []
  | '\\' :: 'u' :: rest =>
    (codePoint? 4 rest).bind fun c => (unescape (rest.drop 4)).map (c :: ·)
  | '\\' :: 'U' :: rest =>
    (codePoint? 8 rest).bind fun c => (unescape (rest.drop 8)).map (c :: ·)
  | '\\' :: letter :: rest => (escape? letter).bind fun c => (unescape rest).map (c :: ·)
  | '\\' :: [] => none
  | c :: rest => (unescape rest).map (c :: ·)
termination_by cs.length
decreasing_by
  all_goals
    simp only [List.length_cons, List.length_drop]
    omega

/-- A text of several lines without a line end right after the quotes. -/
def dropFirstLineEnd : List Char → List Char
  | '\n' :: rest => rest
  | '\r' :: '\n' :: rest => rest
  | cs => cs

/-- Reads a text on one line. -/
def readQuoted : List Char → Option (String × List Char)
  | '"' :: rest => do
    let (raw, rest) ← quoted '"' true rest
    return (String.ofList (← unescape raw), rest)
  | '\'' :: rest => do
    let (raw, rest) ← quoted '\'' false rest
    return (String.ofList raw, rest)
  | _ => none

/-- Reads a text. -/
def readText : List Char → Option (String × List Char)
  | '"' :: '"' :: '"' :: rest => do
    let (raw, rest) ← block '"' true rest
    let joined ← joinLines false false (Text.splitChars '\n' raw)
    return (String.ofList (← unescape (dropFirstLineEnd joined)), rest)
  | '\'' :: '\'' :: '\'' :: rest => do
    let (raw, rest) ← block '\'' false rest
    return (String.ofList (dropFirstLineEnd raw), rest)
  | cs => readQuoted cs

/-! ## Numbers and moments -/

/-- Digits that begin with a needless zero. -/
def hasLeadingZero (cs : List Char) : Bool := cs.head? = some '0' && 1 < cs.length

/-- The value of an integer that names its base, or of one in base ten without leading zeros. -/
def integer? (cs : List Char) : Option Value :=
  (Text.readInteger (String.ofList cs)).toOption.map .integer

/-- Every point stands before a digit. -/
def pointsFit : List Char → Bool
  | '.' :: rest => rest.head?.any Char.isDigit && pointsFit rest
  | _ :: rest => pointsFit rest
  | [] => true

/-- A character that ends the whole part of a number. -/
def isFloatMark (c : Char) : Bool := c = '.' || c = 'e' || c = 'E'

/-- A character of a number with a fraction or a power of ten. -/
def isFloatChar (c : Char) : Bool := c.isDigit || isFloatMark c || c = '_' || c = '-' || c = '+'

/-- The value of a number with a fraction or a power of ten. -/
def float? (sign cs : List Char) : Option Value :=
  if hasLeadingZero (cs.takeWhile fun c => !isFloatMark c) || !pointsFit cs then none
  else (Decimal.read? (String.ofList (sign ++ cs))).map .float

/-- Reads a number in base ten after its sign. -/
def readDecimal (sign cs : List Char) : Option (Value × List Char) :=
  let whole := cs.takeWhile fun c => c.isDigit || c = '_'
  let rest := cs.dropWhile fun c => c.isDigit || c = '_'
  if !cs.head?.any Char.isDigit then none
  else if rest.head?.any isFloatMark then
    (float? sign (cs.takeWhile isFloatChar)).map fun v => (v, cs.dropWhile isFloatChar)
  else if hasLeadingZero whole then none
  else (integer? (sign ++ whole)).map fun v => (v, rest)

/-- Reads an integer after the mark of its base. -/
def readBased (mark : Char) (isDigit : Char → Bool) (cs : List Char) : Option (Value × List Char) :=
  if cs.head?.any isDigit then
    (integer? ('0' :: mark :: cs.takeWhile fun c => isDigit c || c = '_')).map fun v =>
      (v, cs.dropWhile fun c => isDigit c || c = '_')
  else none

/-- A character of a moment. -/
def isMomentChar (c : Char) : Bool :=
  c.isDigit || ['-', ':', 'T', 't', ' ', '.', 'Z', 'z', '+'].contains c

/-- Reads a moment. The blanks after it do not belong to it. -/
def readMoment (cs : List Char) : Option (Value × List Char) :=
  let word := Text.dropEnd isSpace (cs.takeWhile isMomentChar)
  if Moment.isMoment word then some (.moment (String.ofList word), cs.dropWhile isMomentChar)
  else none

/-- The word of a number that is infinite or none at all. -/
def readSpecial (sign : List Char) : List Char → Option (Value × List Char)
  | 'i' :: 'n' :: 'f' :: rest => some (.float (Double.withSign (sign = ['-']) Double.inf), rest)
  | 'n' :: 'a' :: 'n' :: rest => some (.float Double.nan, rest)
  | _ => none

/-- Reads a number after a sign, which has no base of its own. -/
def readSigned (sign : Char) (cs : List Char) : Option (Value × List Char) :=
  (readSpecial [sign] cs).orElse fun _ => readDecimal [sign] cs

/-- Reads a number or a moment. -/
def readNumber (cs : List Char) : Option (Value × List Char) :=
  match cs with
  | '+' :: rest => readSigned '+' rest
  | '-' :: rest => readSigned '-' rest
  | '0' :: 'b' :: rest => readBased 'b' (fun c => c = '0' || c = '1') rest
  | '0' :: 'o' :: rest => readBased 'o' (fun c => '0' ≤ c && c ≤ '7') rest
  | '0' :: 'x' :: rest => readBased 'x' (Decimal.isDigitOf true) rest
  | _ =>
    let digits := cs.takeWhile Char.isDigit
    let next := (cs.dropWhile Char.isDigit).head?
    if digits ≠ ['0'] && (next = some '-' || next = some ':') then readMoment cs
    else readDecimal [] cs

/-- Reads the word of a truth value. -/
def readBool : List Char → Option (Value × List Char)
  | 't' :: 'r' :: 'u' :: 'e' :: rest => some (.bool true, rest)
  | 'f' :: 'a' :: 'l' :: 's' :: 'e' :: rest => some (.bool false, rest)
  | _ => none

end Reckon.Toml
