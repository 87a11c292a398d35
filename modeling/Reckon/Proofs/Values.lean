import Mathlib
import Reckon.Eval
import Reckon.Proofs.Numerals
import Reckon.Proofs.Precedence
import Reckon.Proofs.RoundTrip

/-!
Values and their texts. The text of a value without empty vectors evaluates to the value, in which
zero has lost its sign, if the depth is at least the height of the value, and otherwise the depth
is exceeded (`Context.evalText_text`). What is evaluated holds no names, so that no variable and no
function of the context takes part.
-/

namespace Reckon
open Token

/-! ### Numbers -/

namespace Number

/-- The words of the text of a number as a result. -/
def resultWords (x : Float) : List String :=
  if x == 0 then ["0"] else if x < 0 then ["-", text x.abs] else [text x]

/-- The expression that the text of a number as a result is read as. -/
def resultExpr (x : Float) : Expr :=
  if x == 0 then .num 0 else if x < 0 then .binary .sub (.num 0) (.num x.abs) else .num x

/-- A number in which zero has no sign. -/
def plain (x : Float) : Float := if x == 0 then 0 else x

/-- The depth that the evaluation of a number takes. One that is negative is a subtraction. -/
def height (x : Float) : Nat := if x < 0 then 2 else 1

theorem read?_unsigned {x : Float} (positive : Double.isNegative x = false) : read? (text x) = some x := by
  cases finite : x.isFinite with
  | true => exact read?_text positive finite
  | false =>
    have reads := Expr.read?_written finite
    rwa [Expr.written, positive, if_neg (by simp)] at reads

/-- The text of a number that is not negative is a word that is read as the number. -/
theorem isWord_resultText {x : Float} (least : ¬x < 0) :
    IsWord (resultText x) ∧ read? (resultText x) = some (plain x) := by
  by_cases zero : (x == 0) = true
  · rw [resultText, plain, if_pos zero, if_pos zero]
    decide
  · rw [resultText, plain, if_neg zero, if_neg zero]
    cases none : x.isNaN with
    | true =>
      rw [Double.eq_nan none]
      decide
    | false =>
      have positive : Double.isNegative x = false := by
        by_contra negative
        exact least (Double.lt_zero_iff.mpr ⟨by simpa using negative, none, by simpa using zero⟩)
      exact ⟨isWord_text positive, read?_unsigned positive⟩

theorem resultWords_of_not_lt {x : Float} (least : ¬x < 0) : resultWords x = [resultText x] := by
  rw [resultWords, resultText, if_neg least]
  split <;> rfl

theorem resultExpr_of_not_lt {x : Float} (least : ¬x < 0) : resultExpr x = .num (plain x) := by
  rw [resultExpr, plain, if_neg least]
  split <;> rfl

/-- The text of a number as a result is cut into its words. -/
theorem lexes_resultText (x : Float) : Lexes (resultText x) (resultWords x) := by
  by_cases below : x < 0
  · obtain ⟨negative, number, filled⟩ := Double.lt_zero_iff.mp below
    have minus : LexesFreely "-" ["-"] := fun rest => rfl
    have words := minus.append_lexes (isWord_text (Double.isNegative_abs x)).lexes
    simp only [resultText, resultWords, filled, below, text_eq_abs negative number]
    exact words
  · rw [resultWords_of_not_lt below]
    exact (isWord_resultText below).1.lexes

/-- Tokens with the words of a number as a result are read as it. -/
theorem readsWhole_resultWords (x : Float) {tokens : List Token} (same : Token.texts tokens = resultWords x) :
    Expr.ReadsWhole tokens (resultExpr x) := by
  by_cases below : x < 0
  · obtain ⟨negative, number, filled⟩ := Double.lt_zero_iff.mp below
    simp only [resultWords, filled, below] at same
    simp only [resultExpr, filled, below]
    obtain ⟨minus, rest, rfl, sign, tail⟩ := List.map_eq_cons_iff.mp same
    obtain ⟨t, rfl, word⟩ := List.map_eq_singleton_iff.mp tail
    have value : read? t.text = some x.abs := by
      rw [word]
      exact read?_unsigned (Double.isNegative_abs x)
    have number : Operand [t] := .word (isMark_number value)
    have zero : read? "0" = some 0 := by decide
    have operator : Op.ofSymbol? minus.text = some .sub := by
      rw [sign]
      decide
    have nought : Operand [(⟨"0", minus.column⟩ : Token)] := .word (isMark_number zero)
    have balanced : Balanced .round (texts [t]) := balanced_unmarked (isMark_number value) .round
    have form : Form.ofTokens [minus, t] = .ok (.binary .sub [⟨"0", minus.column⟩] [t]) := by
      rw [Form.ofTokens_negation sign (by simp) balanced, ← Form.ofTokens_operation nought number operator]
      exact (Form.ofTokens_operand nought operator [t]).symm
    refine ⟨Expr.ofTokens_binary form (Expr.ofTokens_number zero) (Expr.ofTokens_number value), by simp, fun rest => ?_⟩
    have other : minus.text ≠ "," := by
      rw [sign]
      decide
    rw [List.cons_append, split_single (Form.closerOf?_operator operator) other, split_operand number (by decide),
      intoFirst_intoFirst (split_ne_nil "," rest)]
    rfl
  · rw [resultWords_of_not_lt below] at same
    rw [resultExpr_of_not_lt below]
    obtain ⟨t, rfl, word⟩ := List.map_eq_singleton_iff.mp same
    have value : read? t.text = some (plain x) := by
      rw [word]
      exact (isWord_resultText below).2
    exact (Expr.readsAs_number value).whole

theorem balanced_resultWords (x : Float) (kind : Bracket) : Balanced kind (resultWords x) := by
  by_cases below : x < 0
  · obtain ⟨-, -, filled⟩ := Double.lt_zero_iff.mp below
    have minus : Balanced kind ["-"] := by cases kind <;> decide
    simp only [resultWords, filled, below]
    exact minus.append (balanced_unmarked (isWord_text (Double.isNegative_abs x)).2 kind)
  · rw [resultWords_of_not_lt below]
    exact balanced_unmarked (isWord_resultText below).1.2 kind

end Number

/-! ### Values -/

namespace Value

/-- No vector in a value is empty. -/
inductive Filled : Value → Prop
  | number (x : Float) : Filled (.number x)
  | list {elems : List Value} (each : ∀ elem ∈ elems, Filled elem) : Filled (.list elems)
  | vector {comps : List Float} (filled : comps ≠ []) : Filled (.vector comps)

mutual

/-- The words of the text of a value. -/
def words : Value → List String
  | number x => Number.resultWords x
  | list elems => "\x7b" :: [","].intercalate (allWords elems) ++ ["\x7d"]
  | vector comps => "<" :: [","].intercalate (comps.map Number.resultWords) ++ [">"]

/-- The words of the texts of values. -/
def allWords : List Value → List (List String)
  | [] => []
  | v :: rest => v.words :: allWords rest

end

mutual

/-- The expression that the text of a value is read as. -/
def expr : Value → Expr
  | number x => Number.resultExpr x
  | list elems => .list (exprs elems)
  | vector comps => .vector (comps.map Number.resultExpr)

/-- The expressions that the texts of values are read as. -/
def exprs : List Value → List Expr
  | [] => []
  | v :: rest => v.expr :: exprs rest

end

mutual

/-- A value in which zero has no sign. -/
def plain : Value → Value
  | number x => .number (Number.plain x)
  | list elems => .list (allPlain elems)
  | vector comps => .vector (comps.map Number.plain)

/-- Values in which zero has no sign. -/
def allPlain : List Value → List Value
  | [] => []
  | v :: rest => v.plain :: allPlain rest

end

mutual

/-- The depth that the evaluation of a value takes: one level for each list or vector, one for a number, and one
    more for a number that is negative. -/
def height : Value → Nat
  | number x => Number.height x
  | list elems => 1 + greatest elems
  | vector comps => 1 + (comps.map Number.height).foldr max 0

/-- The greatest height of values. -/
def greatest : List Value → Nat
  | [] => 0
  | v :: rest => max v.height (greatest rest)

end

theorem texts_eq (values : List Value) : texts values = values.map text := by
  induction values with
  | nil => rfl
  | cons v rest ih => rw [texts, ih, List.map_cons]

theorem allWords_eq (values : List Value) : allWords values = values.map words := by
  induction values with
  | nil => rfl
  | cons v rest ih => rw [allWords, ih, List.map_cons]

theorem exprs_eq (values : List Value) : exprs values = values.map expr := by
  induction values with
  | nil => rfl
  | cons v rest ih => rw [exprs, ih, List.map_cons]

theorem allPlain_eq (values : List Value) : allPlain values = values.map plain := by
  induction values with
  | nil => rfl
  | cons v rest ih => rw [allPlain, ih, List.map_cons]

/-- The text of a value is cut into its words. -/
theorem Filled.lexes {v : Value} (filled : v.Filled) : Lexes v.text v.words := by
  induction filled with
  | number x => exact Number.lexes_resultText x
  | @list elems _ ih =>
    have parts : Lexes (",".intercalate (texts elems)) ([","].intercalate (allWords elems)) := by
      rw [texts_eq, allWords_eq]
      exact lexes_commas (List.forall₂_map_left_iff.mpr
        (List.forall₂_map_right_iff.mpr (List.forall₂_same.mpr ih)))
    exact (lexesFreely_enclosed parts '\x7b' '\x7d' (by decide) (by decide)).lexes
  | @vector comps _ =>
    have parts : Lexes (",".intercalate (comps.map Number.resultText))
        ([","].intercalate (comps.map Number.resultWords)) :=
      lexes_commas (List.forall₂_map_left_iff.mpr
        (List.forall₂_map_right_iff.mpr (List.forall₂_same.mpr fun x _ => Number.lexes_resultText x)))
    exact (lexesFreely_enclosed parts '<' '>' (by decide) (by decide)).lexes

theorem Filled.balanced {v : Value} (filled : v.Filled) (kind : Bracket) : Balanced kind v.words := by
  induction filled with
  | number x => exact Number.balanced_resultWords x kind
  | @list elems _ ih =>
    rw [words, allWords_eq]
    refine Balanced.enclosed (balanced_intercalate fun words member => ?_) .curly
    obtain ⟨elem, inside, rfl⟩ := List.mem_map.mp member
    exact ih elem inside
  | @vector comps _ =>
    rw [words]
    refine Balanced.enclosed (balanced_intercalate fun words member => ?_) .angle
    obtain ⟨x, -, rfl⟩ := List.mem_map.mp member
    exact Number.balanced_resultWords x kind

/-- Tokens with the words of a value are read as its expression. -/
theorem Filled.readsWhole {v : Value} (filled : v.Filled) {tokens : List Token}
    (same : Token.texts tokens = v.words) : Expr.ReadsWhole tokens v.expr := by
  induction filled generalizing tokens with
  | number x => exact Number.readsWhole_resultWords x same
  | @list elems each ih =>
    obtain ⟨opener, inner, closer, rfl, opens, words, closes⟩ := Expr.exists_enclosed same
    have parts : Expr.ReadEach (allWords elems) (exprs elems) := by
      rw [allWords_eq, exprs_eq]
      exact List.forall₂_map_left_iff.mpr (List.forall₂_map_right_iff.mpr
        (List.forall₂_same.mpr fun elem member _ same => ih elem member same))
    have balanced : Balanced .curly (Token.texts inner) := by
      rw [words, allWords_eq]
      refine balanced_intercalate fun words member => ?_
      obtain ⟨elem, inside, rfl⟩ := List.mem_map.mp member
      exact (each elem inside).balanced .curly
    exact (Expr.readsAs_list ⟨opens, closes, balanced⟩ parts words).whole
  | @vector comps filled =>
    obtain ⟨opener, inner, closer, rfl, opens, words, closes⟩ := Expr.exists_enclosed same
    have parts : Expr.ReadEach (comps.map Number.resultWords) (comps.map Number.resultExpr) :=
      List.forall₂_map_left_iff.mpr (List.forall₂_map_right_iff.mpr
        (List.forall₂_same.mpr fun x _ _ same => Number.readsWhole_resultWords x same))
    have balanced : Balanced .angle (Token.texts inner) := by
      rw [words]
      refine balanced_intercalate fun words member => ?_
      obtain ⟨x, -, rfl⟩ := List.mem_map.mp member
      exact Number.balanced_resultWords x .angle
    exact (Expr.readsAs_vector ⟨opens, closes, balanced⟩ (by simpa using filled) parts words).whole

/-- The text of a value is read as its expression. -/
theorem Filled.parse {v : Value} (filled : v.Filled) : Expr.parse v.text = .ok v.expr :=
  Expr.parse_eq_ok_iff.mpr (filled.readsWhole filled.lexes.texts_lex).reads

end Value

/-! ### Evaluation -/

namespace Eval

variable (ctx : Context) (depth : Nat) (scope : Scope)

theorem run_resultExpr (x : Float) : run ctx depth scope (Number.resultExpr x) =
    if Number.height x ≤ depth then .ok (.number (Number.plain x)) else .error (.overflow ctx.limit) := by
  by_cases below : x < 0
  · obtain ⟨negative, number, filled⟩ := Double.lt_zero_iff.mp below
    have difference := Double.zero_sub_abs negative number filled
    simp only [Number.resultExpr, Number.height, Number.plain, filled, below, Bool.false_eq_true, if_false, if_true]
    -- The subtraction takes one level, its operands the next.
    match depth with
    | 0 => rfl
    | 1 => rfl
    | depth + 2 =>
      rw [if_pos (by omega)]
      exact congrArg (Except.ok ∘ Value.number) difference
  · rw [Number.resultExpr_of_not_lt below, Number.height, if_neg below]
    cases depth with
    | zero => rfl
    | succ depth => rw [if_pos (by omega)]; rfl

/-- The elements of a list are evaluated one by one, and the first that is too high ends it. -/
theorem list_exprs {values : List Value} (each : ∀ v ∈ values, run ctx depth scope v.expr =
      if v.height ≤ depth then .ok v.plain else .error (.overflow ctx.limit)) :
    list (run ctx depth scope) (Value.exprs values) =
      if Value.greatest values ≤ depth then .ok (Value.allPlain values) else .error (.overflow ctx.limit) := by
  induction values with
  | nil => rfl
  | cons v rest ih =>
    have first := each v (List.mem_cons_self ..)
    have others := ih fun w member => each w (List.mem_cons_of_mem v member)
    rw [Value.exprs, list, first, others, Value.greatest, Value.allPlain]
    by_cases low : v.height ≤ depth
    · by_cases lower : Value.greatest rest ≤ depth
      · simp [low, lower]
      · simp [low, lower]
    · simp [low]

theorem components_exprs (position : Nat) (comps : List Float) :
    components (run ctx depth scope) position (comps.map Number.resultExpr) =
      if (comps.map Number.height).foldr max 0 ≤ depth then .ok (comps.map Number.plain)
      else .error (.overflow ctx.limit) := by
  induction comps generalizing position with
  | nil => rfl
  | cons x rest ih =>
    rw [List.map_cons, components, run_resultExpr, ih, List.map_cons, List.foldr_cons, List.map_cons]
    by_cases low : Number.height x ≤ depth
    · by_cases lower : (rest.map Number.height).foldr max 0 ≤ depth
      · simp [low, lower]
      · simp [low, lower]
    · simp [low]

/-- The expression of a value evaluates to the value, if the depth is not less than its height. -/
theorem run_expr {v : Value} (filled : v.Filled) :
    run ctx depth scope v.expr = if v.height ≤ depth then .ok v.plain else .error (.overflow ctx.limit) := by
  induction filled generalizing depth with
  | number x => exact run_resultExpr ctx depth scope x
  | @list elems each ih =>
    cases depth with
    | zero => rw [if_neg (by rw [Value.height]; omega), run]
    | succ depth =>
      rw [Value.expr, run, step, list_exprs ctx depth scope fun v member => ih v member depth, Value.height, Value.plain]
      by_cases low : Value.greatest elems ≤ depth
      · rw [if_pos low, if_pos (by omega)]
        rfl
      · rw [if_neg low, if_neg (by omega)]
        rfl
  | @vector comps filled =>
    cases depth with
    | zero => rw [if_neg (by rw [Value.height]; omega), run]
    | succ depth =>
      rw [Value.expr, run, step, components_exprs, Value.height, Value.plain]
      by_cases low : (comps.map Number.height).foldr max 0 ≤ depth
      · rw [if_pos low, if_pos (by omega)]
        rfl
      · rw [if_neg low, if_neg (by omega)]
        rfl

end Eval

/-- The text of a value without empty vectors evaluates to the value, in which zero has no sign, in every context
    whose limit is at least the height of the value. In any other the limit is exceeded. -/
theorem Context.evalText_text (ctx : Context) {v : Value} (filled : v.Filled) :
    ctx.evalText v.text = if v.height ≤ ctx.limit then .ok v.plain else .error (.overflow ctx.limit) := by
  rw [evalText, filled.parse]
  exact Eval.run_expr ctx ctx.limit (Scope.root ctx) filled

/-- A list with a negative infinity, what is no number and zero with a sign takes four levels, whatever a variable
    of the name of an infinity holds. -/
theorem Context.evalText_text_nested :
    (Value.list [.vector [-Double.inf, Double.nan], .number (-0)]).Filled ∧
      Context.evalText ⟨Table.empty.insert "INF" (.number 1), .empty, 0, 4⟩ "\x7b<-INF,NaN>,0\x7d" =
        .ok (.list [.vector [-Double.inf, Double.nan], .number 0]) ∧
      Context.evalText ⟨Table.empty.insert "INF" (.number 1), .empty, 0, 3⟩ "\x7b<-INF,NaN>,0\x7d" =
        .error (.overflow 3) := by
  have filled : (Value.list [.vector [-Double.inf, Double.nan], .number (-0)]).Filled := by
    refine .list fun elem member => ?_
    rcases List.mem_cons.mp member with rfl | member
    · exact .vector (by simp)
    · rw [List.mem_singleton.mp member]
      exact .number _
  exact ⟨filled, evalText_text _ filled, evalText_text _ filled⟩

end Reckon
