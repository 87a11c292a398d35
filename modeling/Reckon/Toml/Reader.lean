import Reckon.Toml.Literal

/-!
# Reading lines

The grammar of a document, from its characters to its lines. Values nest, so that the
readers take a depth, which the length of the text bounds.
-/

namespace Reckon.Toml

/-! ## Characters -/

/-- A character that a document must not hold anywhere. -/
def isForbidden (c : Char) : Bool :=
  (c.toNat < 0x20 && !isLayout c) || c.toNat == 0x7F || c == '\uFFFD'

/-- No forbidden character, and every carriage return before a line feed. -/
def charactersFit : List Char → Bool
  | [] => true
  | c :: rest =>
    !isForbidden c && (c ≠ '\r' || rest.head? = some '\n') && charactersFit rest

/-- Skips spaces and tabs. -/
def skipSpaces (cs : List Char) : List Char := cs.dropWhile isSpace

/-- Skips blanks, line ends and comments, the first comment being open if `inComment` is set. -/
def skipLayout (inComment : Bool) : List Char → List Char
  | [] => []
  | c :: rest =>
    if inComment then skipLayout (!isLineEnd c) rest
    else if c = '#' then skipLayout true rest
    else if isLayout c then skipLayout false rest
    else c :: rest

/-! ## Keys -/

/-- Reads a part of a key: a bare word or a text on one line. -/
def readPart (cs : List Char) : Option (String × List Char) :=
  if cs.head? = some '"' || cs.head? = some '\'' then readQuoted cs
  else
    let word := cs.takeWhile isBareChar
    if word.isEmpty then none else some (String.ofList word, cs.dropWhile isBareChar)

/-- Reads the parts of a key, of which there are no more than `fuel`, and the blanks after it. -/
def readParts : (fuel : Nat) → List Char → Option (Key × List Char)
  | 0, _ => none
  | fuel + 1, cs => do
    let (part, rest) ← readPart (skipSpaces cs)
    match skipSpaces rest with
    | '.' :: rest =>
      let (parts, rest) ← readParts fuel rest
      return (part :: parts, rest)
    | rest => return ([part], rest)

/-- Reads a key up to the character that ends it. -/
def readKey (ending : Char) (cs : List Char) : Option (Key × List Char) := do
  let (key, rest) ← readParts (cs.length + 1) cs
  match rest with
  | c :: rest => if c = ending then some (key, rest) else none
  | [] => none

/-! ## Values -/

/-- Reads a value that holds no others. -/
def readScalar (cs : List Char) : Option (Value × List Char) :=
  match cs with
  | [] => none
  | c :: _ =>
    if c = '"' || c = '\'' then (readText cs).map fun (text, rest) => (.text text, rest)
    else if c.isDigit || c = '+' || c = '-' then readNumber cs
    else (readSpecial [] cs).orElse fun _ => readBool cs

mutual

/-- Reads a value. -/
def readValue : (fuel : Nat) → List Char → Option (Value × List Char)
  | 0, _ => none
  | fuel + 1, cs =>
    match skipSpaces cs with
    | '[' :: rest => do
      let (items, rest) ← readItems fuel rest
      return (.array items, rest)
    | '\x7b' :: rest =>
      match skipSpaces rest with
      | '\x7d' :: rest => some (.table [], rest)
      | rest => do
        let (members, rest) ← readMembers fuel rest
        return (.table members, rest)
    | rest => readScalar rest

/-- Reads the items of an array and its end. A comma may follow the last of them. -/
def readItems : (fuel : Nat) → List Char → Option (List Value × List Char)
  | 0, _ => none
  | fuel + 1, cs =>
    match skipLayout false cs with
    | ']' :: rest => some ([], rest)
    | rest => do
      let (item, rest) ← readValue fuel rest
      match skipLayout false rest with
      | ',' :: rest =>
        let (items, rest) ← readItems fuel rest
        return (item :: items, rest)
      | ']' :: rest => return ([item], rest)
      | _ => none

/-- Reads the members of a table on one line and its end. -/
def readMembers : (fuel : Nat) → List Char → Option (List (Key × Value) × List Char)
  | 0, _ => none
  | fuel + 1, cs => do
    let (key, rest) ← readKey '=' cs
    let (value, rest) ← readValue fuel rest
    match skipSpaces rest with
    | ',' :: rest =>
      let (members, rest) ← readMembers fuel rest
      return ((key, value) :: members, rest)
    | '\x7d' :: rest => return ([(key, value)], rest)
    | _ => none

end

/-! ## Lines -/

/-- Reads a line without what may follow it. -/
def readLine (cs : List Char) : Option (Line × List Char) :=
  match cs with
  | '[' :: '[' :: rest => do
    let (key, rest) ← readKey ']' rest
    match rest with
    | ']' :: rest => return (.tables key, rest)
    | _ => none
  | '[' :: rest => do
    let (key, rest) ← readKey ']' rest
    return (.table key, rest)
  | cs => do
    let (key, rest) ← readKey '=' cs
    let (value, rest) ← readValue (cs.length + 1) rest
    return (.pair key value, rest)

/-- Nothing but blanks or a comment stands before the end of the line. -/
def endsLine (cs : List Char) : Bool :=
  match skipSpaces cs with
  | [] => true
  | c :: _ => isLineEnd c || c = '#'

/-- Reads lines, of which there are fewer than `fuel`. -/
def readLines : (fuel : Nat) → List Char → Option (List Line)
  | 0, _ => none
  | fuel + 1, cs =>
    match skipLayout false cs with
    | [] => some []
    | cs => do
      let (line, rest) ← readLine cs
      if endsLine rest then
        let lines ← readLines fuel rest
        return line :: lines
      else none

/-- Reads the lines of a document. -/
def read? (text : String) : Option (List Line) :=
  let cs := text.toList
  if charactersFit cs then readLines (cs.length + 1) cs else none

end Reckon.Toml
