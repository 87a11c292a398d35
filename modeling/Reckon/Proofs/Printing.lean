import Reckon.Expr.Weight
import Reckon.Proofs.Numbers

/-!
The tokens of printed expressions. The text of an expression is cut into the words of its parts
with the marks between them (`Expr.words`), if every leaf of it is spelled as it would be read
(`Expr.Spelled.texts_lex`).
-/

namespace Reckon
open Token

/-- The words between the brackets of a delegate. -/
def Delegate.inside (delegate : Delegate) : List String :=
  [","].intercalate (delegate.params.map fun param => [param]) ++ ":" :: Token.texts (lex delegate.body)

/-- The words of a delegate. -/
def Delegate.words (delegate : Delegate) : List String := "[" :: delegate.inside ++ ["]"]

/-- What a delegate needs to be read back. Each parameter is a token that does not end it, only the
    last may open a bracket, which then nothing in the body closes, and the body is the text of its own
    tokens. -/
structure Delegate.Sound (delegate : Delegate) : Prop where
  lone : ∀ param ∈ delegate.params, IsWord param ∨ isMark param = true
  plain : ∀ param ∈ delegate.params, param ≠ quoteMark ∧ param ≠ "," ∧ param ≠ ":"
  single : ∀ param ∈ delegate.params.dropLast, closerOf? param = none
  unclosed : ∀ kind : Bracket, delegate.params.getLast? = some kind.opener →
    ∃ after, climb? kind 0 (outside false (Token.texts (lex delegate.body))) = some after
  filled : delegate.body ≠ ""
  closed : inLiteral false (Token.texts (lex delegate.body)) = false
  joined : joined (lex delegate.body) = delegate.body
  balanced : Balanced .square delegate.inside

namespace Expr

/-- The number whose text is written for a number: its magnitude, if it has a sign. -/
def written (x : Float) : Float := if Double.isNegative x && !x.isNaN then x.abs else x

/-- What is not finite reads back. -/
theorem read?_written {x : Float} (infinite : x.isFinite = false) :
    Number.read? (Number.text (written x)) = some (written x) := by
  cases none : x.isNaN with
  | true =>
    rw [Double.eq_nan none]
    decide
  | false =>
    have unbounded := Double.isInf_of_not_finite infinite none
    have value : written x = Double.inf := by
      simp only [written]
      cases negative : Double.isNegative x with
      | true =>
        rw [none]
        exact Double.abs_eq_inf unbounded
      | false => exact Double.eq_inf unbounded negative
    rw [value]
    decide

/-- The words of a number. -/
def numWords (x : Float) : List String :=
  if Double.isNegative x && !x.isNaN then ["(", "0", "-", Number.text x.abs, ")"] else [Number.text x]

mutual

/-- The words of an expression. -/
def words : Expr → List String
  | num x => numWords x
  | var name => [name]
  | binary op left right => "(" :: (left.words ++ op.symbol :: right.words) ++ [")"]
  | call name args => name :: "(" :: [","].intercalate (allWords args) ++ [")"]
  | list elems => "\x7b" :: [","].intercalate (allWords elems) ++ ["\x7d"]
  | vector elems => "<" :: [","].intercalate (allWords elems) ++ [">"]
  | delegate d => d.words

/-- The words of expressions. -/
def allWords : List Expr → List (List String)
  | [] => []
  | e :: rest => e.words :: allWords rest

end

/-- An expression whose leaves are spelled as they would be read: finite numbers read back, a name is a
    word and no number, a called name has letters only, and delegates are sound. -/
inductive Spelled : Expr → Prop
  | num {x : Float}
      (reads : x.isFinite = true → Number.read? (Number.text (written x)) = some (written x)) :
      Spelled (.num x)
  | var {name : String} (word : IsWord name) (wordless : Number.read? name = none) : Spelled (.var name)
  | binary {op : Op} {left right : Expr} (known : Op.ofSymbol? op.symbol = some op) (first : Spelled left)
      (second : Spelled right) : Spelled (.binary op left right)
  | call {name : String} {args : List Expr} (letters : isLetters name = true)
      (each : ∀ arg ∈ args, Spelled arg) : Spelled (.call name args)
  | list {elems : List Expr} (each : ∀ elem ∈ elems, Spelled elem) : Spelled (.list elems)
  | vector {elems : List Expr} (filled : elems ≠ []) (each : ∀ elem ∈ elems, Spelled elem) :
      Spelled (.vector elems)
  | delegate {d : Delegate} (sound : d.Sound) : Spelled (.delegate d)

theorem allWords_eq (exprs : List Expr) : allWords exprs = exprs.map words := by
  induction exprs with
  | nil => rfl
  | cons e rest ih => rw [allWords, ih, List.map_cons]

theorem words_call (name : String) (args : List Expr) :
    words (.call name args) = [name] ++ ("(" :: [","].intercalate (allWords args) ++ [")"]) := by
  rw [words]
  rfl

theorem texts_eq (exprs : List Expr) : texts exprs = exprs.map text := by
  induction exprs with
  | nil => rfl
  | cons e rest ih => rw [texts, ih, List.map_cons]

/-! ### Texts of expressions -/

/-- The text of a number is cut into its words. -/
theorem lexes_numText (x : Float) : Lexes (numText x) (numWords x) := by
  simp only [numText, numWords]
  split
  · have front : LexesFreely "(0 - " ["(", "0", "-"] := fun rest => rfl
    exact (front.append_lexes (Number.isWord_text (Double.isNegative_abs x)).lexes).bracket
      (c := ')') (by decide) |>.lexes
  · rename_i unsigned
    cases negative : Double.isNegative x with
    | false => exact (Number.isWord_text negative).lexes
    | true =>
      have none : x.isNaN = true := by simpa [negative] using unsigned
      rw [Number.text, if_pos none]
      exact IsWord.lexes (by decide)

theorem lexesFreely_symbol {op : Op} (known : Op.ofSymbol? op.symbol = some op) :
    LexesFreely (" " ++ op.symbol ++ " ") [op.symbol] := by
  have symbol := Form.isOperator_of_ofSymbol? known
  simp only [isOperator, Bool.or_eq_true, decide_eq_true_eq] at symbol
  rcases symbol with (((same | same) | same) | same) | same <;> rw [same] <;> exact fun rest => rfl

/-- The text of an operation between its parentheses is cut into its words. -/
theorem lexes_operation {op : Op} {left right : Expr} (known : Op.ofSymbol? op.symbol = some op)
    (first : Lexes left.text left.words) (second : Lexes right.text right.words) :
    Lexes (left.text ++ " " ++ op.symbol ++ " " ++ right.text) (left.words ++ op.symbol :: right.words) := by
  have stop : ∃ c tail, (" " ++ op.symbol ++ " " : String).toList = c :: tail ∧ Stops c :=
    ⟨' ', (op.symbol ++ " ").toList, by simp, stops_blank (by decide)⟩
  have inner := (first.append_freely stop (lexesFreely_symbol known)).append_lexes second
  simpa [String.append_assoc] using inner

theorem lexes_delegate {d : Delegate} (sound : d.Sound) : Lexes d.text d.words := by
  have params : Lexes (", ".intercalate d.params) ([","].intercalate (d.params.map fun param => [param])) := by
    refine lexes_intercalate (List.forall₂_map_right_iff.mpr (List.forall₂_same.mpr fun param member => ?_))
    exact lexes_lone (sound.lone param member) (sound.plain param member).1
  have colon : LexesFreely ": " [":"] := (lexesFreely_punctuation (c := ':') (by decide)).append lexesFreely_blank
  have stop : ∃ c tail, (": " : String).toList = c :: tail ∧ Stops c :=
    ⟨':', [' '], rfl, stops_punctuation (by decide)⟩
  have inner := (params.append_freely stop colon).append_lexes (lexes_of_closed sound.closed)
  have whole := lexesFreely_enclosed inner '[' ']' (by decide) (by decide)
  have same : d.text = "[" ++ (", ".intercalate d.params ++ ": " ++ d.body) ++ "]" := by
    simp [Delegate.text, String.append_assoc]
  have sameWords : d.words = "[" :: ([","].intercalate (d.params.map fun param => [param]) ++ [":"] ++
      Token.texts (lex d.body)) ++ ["]"] := by
    simp [Delegate.words, Delegate.inside]
  rw [same, sameWords]
  exact whole.lexes

/-- The text of a spelled expression is cut into its words. -/
theorem Spelled.lexes {expr : Expr} (spelled : expr.Spelled) : Lexes expr.text expr.words := by
  have parts {exprs : List Expr} (each : ∀ e ∈ exprs, Lexes e.text e.words) :
      Lexes (", ".intercalate (texts exprs)) ([","].intercalate (allWords exprs)) := by
    rw [texts_eq, allWords_eq]
    exact lexes_intercalate (List.forall₂_map_left_iff.mpr
      (List.forall₂_map_right_iff.mpr (List.forall₂_same.mpr each)))
  induction spelled with
  | num => exact lexes_numText _
  | var word => exact word.lexes
  | @binary op left right known _ _ first second =>
    have whole := lexesFreely_enclosed (lexes_operation known first second) '(' ')' (by decide)
      (by decide)
    have same : text (.binary op left right) = "(" ++ (left.text ++ " " ++ op.symbol ++ " " ++ right.text) ++ ")" := by
      simp [text, String.append_assoc]
    rw [same]
    exact whole.lexes
  | @call name args letters _ each =>
    have opened := (isWord_letters letters).lexes.bracket (c := '(') (by decide)
    have whole := (opened.append_lexes (parts each)).bracket (c := ')') (by decide)
    simpa [text, words] using whole.lexes
  | list _ each =>
    exact (lexesFreely_enclosed (parts each) '\x7b' '\x7d' (by decide) (by decide)).lexes
  | vector _ _ each =>
    exact (lexesFreely_enclosed (parts each) '<' '>' (by decide) (by decide)).lexes
  | delegate sound => exact lexes_delegate sound

theorem Spelled.texts_lex {expr : Expr} (spelled : expr.Spelled) : Token.texts (lex expr.text) = expr.words :=
  spelled.lexes.texts_lex

end Expr

end Reckon
