import Reckon.Text.Blank
import Reckon.Text.Symbolic

/-!
# Tokens

A source text is cut into tokens. Punctuation marks and signs stand alone, a
text between quotes is one token between two quote tokens, and every other run of
characters without blanks is a word. A sign after the exponent mark of a decimal
mantissa belongs to the word, so that `1E-5` is one token.
-/

namespace Reckon

/-- A piece of source text and the column, counted from one, of its first character. -/
structure Token where
  text : String
  column : Nat
deriving DecidableEq, Repr, Inhabited

namespace Token

/-- The mark at both ends of a text literal. -/
def quoteMark : String := "\""

/-- The characters that are always tokens of their own, the quote aside. -/
def punctuation : List Char :=
  ['*', '(', ')', '/', ',', '%', '[', ']', ':', '\x7b', '\x7d', '<', '>']

/-- A mark that is a token of its own. -/
def isPunctuation (c : Char) : Bool := punctuation.contains c

/-- The signs, which are tokens of their own outside an exponent. -/
def isSign (c : Char) : Bool := c = '+' || c = '-'

/-- A word, in reverse, that is a decimal mantissa followed by an exponent mark, so that a sign
    continues it. -/
def awaitsExponent : (reversed : List Char) → Bool
  | mark :: mantissa =>
    (mark = 'e' || mark = 'E') && mantissa.all (fun c => c.isDigit || c = '.') &&
      mantissa.any Char.isDigit
  | [] => false

/-- What the characters before a column belong to: a word, or a text literal whose opening
    quote has been read. The characters are held in reverse. -/
inductive Pending
  | word (reversed : List Char)
  | literal (reversed : List Char)
deriving DecidableEq, Repr

/-- The token of characters held in reverse that end before a column, if there are any. -/
def flush (column : Nat) (reversed : List Char) : List Token :=
  if reversed.isEmpty then []
  else [⟨String.ofList reversed.reverse, column - reversed.length⟩]

/-- The tokens of the characters from a column on. -/
def scan : (column : Nat) → Pending → List Char → List Token
  | column, .word w, [] => flush column w
  | column, .literal t, [] => flush column t
  | column, .literal t, c :: rest =>
    if c = '"' then flush column t ++ ⟨quoteMark, column⟩ :: scan (column + 1) (.word []) rest
    else scan (column + 1) (.literal (c :: t)) rest
  | column, .word w, c :: rest =>
    if c = '"' then flush column w ++ ⟨quoteMark, column⟩ :: scan (column + 1) (.literal []) rest
    else if Text.isBlank c then flush column w ++ scan (column + 1) (.word []) rest
    else if isPunctuation c || (isSign c && !awaitsExponent w) then
      flush column w ++ ⟨String.singleton c, column⟩ :: scan (column + 1) (.word []) rest
    else scan (column + 1) (.word (c :: w)) rest

/-- The tokens of a source text. -/
def lex (source : String) : List Token := scan 1 (.word []) source.toList

/-- The texts of tokens. -/
def texts (tokens : List Token) : List String := tokens.map Token.text

/-- The texts of tokens one after another, without the blanks that stood between them. -/
def joined (tokens : List Token) : String := String.join (texts tokens)

/-- A token with its column. -/
def located (token : Token) : String := token.text ++ "@" ++ toString token.column

/-! ## Classes of token texts -/

/-- One of the binary operators. -/
def isOperator (text : String) : Bool :=
  text = "+" || text = "-" || text = "*" || text = "/" || text = "%"

/-- An ASCII letter. -/
def isAsciiLetter (c : Char) : Bool := ('a' ≤ c && c ≤ 'z') || ('A' ≤ c && c ≤ 'Z')

/-- A word of ASCII letters, which can name a function. -/
def isLetters (text : String) : Bool := text.toList ≠ [] && text.toList.all isAsciiLetter

/-- A mark that cannot stand for a value: punctuation, a sign or a quote. -/
def isMark (text : String) : Bool :=
  match text.toList with
  | [c] => isPunctuation c || isSign c || c = '"'
  | _ => false

/-- A text made of punctuation and symbols only, which reads as an operator. -/
def isSymbols (text : String) : Bool := text.toList ≠ [] && text.toList.all Text.isSymbolic

end Token

end Reckon
