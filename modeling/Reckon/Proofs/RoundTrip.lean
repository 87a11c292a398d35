import Reckon.Proofs.Printing
import Reckon.Proofs.Reading

/-!
Printed expressions read back. What is read from the text of an expression is the expression itself
with each number that has a sign as a subtraction from zero (`Expr.unsigned`), if its leaves are
spelled as they would be read and each of its brackets encloses balanced words (`Expr.Matched`).
Balanced delegates and words for names suffice for that (`Expr.Proper`).
-/

namespace Reckon
open Token

/-! ### Delegates -/

namespace Form

/-- The first colon is found after tokens that enclose nothing. -/
theorem cutAtColon?_append {before body : List Token} {colon : Token} (marks : colon.text = ":")
    (plain : ∀ front t back, before = front ++ t :: back → t.text ≠ ":" ∧ ∀ closer,
      closerOf? t.text = some closer → enclosed? t.text closer 0 false (back ++ colon :: body) = none) :
    cutAtColon? (before ++ colon :: body) = some (before, body) := by
  induction before with
  | nil => simp [cutAtColon?, marks]
  | cons t before ih =>
    obtain ⟨other, open'⟩ := plain [] t before rfl
    have rest := ih fun front t back same => plain (_ :: front) t back (by rw [same]; rfl)
    rw [List.cons_append, cutAtColon?, if_neg other]
    split
    · rename_i found
      obtain ⟨closer, closes, search⟩ := Option.bind_eq_some_iff.mp found
      rw [open' closer closes] at search
      cases search
    · rw [rest]
      rfl

theorem paramNames?_eq_some_iff {before : List Token} {params : List String} (filled : before ≠ []) :
    paramNames? before = some params ↔
      List.Forall₂ (fun group param => ∃ t : Token, group = [t] ∧ t.text = param) (split "," before) params := by
  rw [paramNames?, if_neg (by simpa using filled)]
  generalize split "," before = groups
  induction groups generalizing params with
  | nil => simp [eq_comm]
  | cons group groups ih =>
    cases params with
    | nil =>
      cases group with
      | nil => simp
      | cons t rest => cases rest <;> simp [Option.bind_eq_some_iff]
    | cons param params =>
      rw [List.forall₂_cons, ← ih]
      cases group with
      | nil => simp
      | cons t rest => cases rest <;> simp [Option.bind_eq_some_iff, and_comm]

end Form

private theorem forall₂_of_map_eq {α β γ : Type} {f : α → γ} {g : β → γ} {xs : List α} {ys : List β}
    (same : xs.map f = ys.map g) : List.Forall₂ (fun x y => f x = g y) xs ys := by
  rw [← List.forall₂_map_right_iff (f := g) (R := fun x z => f x = z), ← same, List.forall₂_map_right_iff]
  exact List.forall₂_same.mpr fun _ _ => rfl

namespace Delegate

private theorem mem_intercalate_params {params front back : List String} {text : String}
    (same : [","].intercalate (params.map fun param => [param]) = front ++ text :: back) :
    text = "," ∨ text ∈ params.dropLast ∨ (params.getLast? = some text ∧ back = []) := by
  induction params generalizing front with
  | nil => simp at same
  | cons param params ih =>
    cases params with
    | nil =>
      cases front with
      | nil =>
        obtain ⟨rfl, rfl⟩ : param = text ∧ [] = back := by simpa using same
        exact .inr (.inr ⟨rfl, rfl⟩)
      | cons => simp at same
    | cons next params =>
      simp only [List.map_cons, List.intercalate_cons_cons] at same ih
      cases front with
      | nil =>
        obtain ⟨rfl, -⟩ : param = text ∧ _ := by simpa using same
        exact .inr (.inl (by simp))
      | cons first front =>
        cases front with
        | nil =>
          obtain ⟨-, rfl, -⟩ : param = first ∧ "," = text ∧ _ := by simpa using same
          exact .inl rfl
        | cons second front =>
          have tail : [","].intercalate ([next] :: params.map fun param => [param]) = front ++ text :: back := by
            simp only [List.cons_append, List.nil_append, List.cons.injEq] at same
            exact same.2.2
          rcases ih tail with comma | inner | ⟨last, empty⟩
          · exact .inl comma
          · exact .inr (.inl (by simp [inner]))
          · exact .inr (.inr ⟨by simpa using last, empty⟩)

/-- Tokens with the words of a sound delegate are cut at its colon. -/
theorem Sound.cutAtColon? {d : Delegate} (sound : d.Sound) {before body : List Token} {colon : Token}
    (params : Token.texts before = [","].intercalate (d.params.map fun param => [param])) (marks : colon.text = ":")
    (rest : Token.texts body = Token.texts (lex d.body)) :
    Form.cutAtColon? (before ++ colon :: body) = some (before, body) := by
  refine Form.cutAtColon?_append marks fun front t back same => ?_
  rw [same, texts_append, texts_cons] at params
  rcases mem_intercalate_params params.symm with comma | inner | ⟨last, empty⟩
  · rw [comma]
    exact ⟨by decide, by simp [closerOf?, quoteMark]⟩
  · refine ⟨(sound.plain _ ((List.dropLast_sublist _).subset inner)).2.2, fun closer closes => ?_⟩
    rw [sound.single _ inner] at closes
    cases closes
  · obtain ⟨unquoted, -, other⟩ := sound.plain _ (List.mem_of_getLast? last)
    refine ⟨other, fun closer closes => ?_⟩
    obtain rfl : back = [] := by simpa [Token.texts] using empty
    rcases closerOf?_eq_some closes with ⟨kind, opens, rfl⟩ | ⟨quote, -⟩
    · obtain ⟨after, count⟩ := sound.unclosed kind (by rw [last, opens])
      rw [opens, List.nil_append]
      refine enclosed?_eq_none_iff.mpr ⟨after, ?_⟩
      rw [texts_cons, marks, outside_cons (by decide), rest]
      rw [climb?_other (by cases kind <;> decide) (by cases kind <;> decide)]
      exact count
    · exact absurd quote unquoted

private theorem split_last {t : Token} (other : t.text ≠ ",") : split "," [t] = [[t]] := by
  rw [split]
  split
  · split
    · rename_i found
      simp [enclosed?] at found
    · rfl
  · rw [if_neg other, split]
    rfl

/-- Tokens with the words of the parameters of a sound delegate name these. -/
theorem Sound.paramNames? {d : Delegate} (sound : d.Sound) {before : List Token}
    (params : Token.texts before = [","].intercalate (d.params.map fun param => [param])) :
    Form.paramNames? before = some d.params := by
  by_cases none : d.params = []
  · rw [none] at params ⊢
    obtain rfl : before = [] := by simpa [Token.texts] using params
    rfl
  · obtain ⟨groups, parted, same⟩ := exists_parted (by simpa using none) params
    have filled : before ≠ [] := by
      rintro rfl
      cases ps : d.params with
      | nil => exact none ps
      | cons param rest =>
        rw [ps] at params
        cases rest <;> simp at params
    have member {group : List Token} {params : List String} {groups : List (List Token)}
        (same : groups.map Token.texts = params.map fun param => [param]) (inside : group ∈ groups) :
        ∃ t, group = [t] ∧ t.text ∈ params := by
      have mapped : Token.texts group ∈ params.map fun param => [param] := same ▸ List.mem_map_of_mem inside
      obtain ⟨param, isParam, text⟩ := List.mem_map.mp mapped
      obtain ⟨t, rfl, rfl⟩ : ∃ t : Token, group = [t] ∧ t.text = param := by
        simpa [Token.texts, List.map_eq_singleton_iff] using text.symm
      exact ⟨t, rfl, isParam⟩
    have split : split "," before = groups := by
      refine parted.split_eq (by decide) (fun group inside => ?_) (fun group last => ?_)
      · have dropped : groups.dropLast.map Token.texts = d.params.dropLast.map fun param => [param] := by
          rw [List.map_dropLast, same, List.map_dropLast]
        obtain ⟨t, rfl, isParam⟩ := member dropped inside
        exact split_single (sound.single _ isParam) (sound.plain _ ((List.dropLast_sublist _).subset isParam)).2.1
      · obtain ⟨t, rfl, isParam⟩ := member same (List.mem_of_getLast? last)
        exact split_last (sound.plain _ isParam).2.1
    rw [Form.paramNames?_eq_some_iff filled, split]
    refine (forall₂_of_map_eq same).imp fun group param text => ?_
    simpa [Token.texts, List.map_eq_singleton_iff] using text

end Delegate

namespace Expr

/-! ### Reading words -/

mutual

/-- An expression in which each number that has a sign is a subtraction from zero. -/
def unsigned : Expr → Expr
  | num x => if Double.isNegative x && !x.isNaN then .binary .sub (.num 0) (.num x.abs) else .num x
  | var name => var name
  | binary op left right => binary op left.unsigned right.unsigned
  | call name args => call name (allUnsigned args)
  | list elems => list (allUnsigned elems)
  | vector elems => vector (allUnsigned elems)
  | delegate d => delegate d

/-- Expressions in which each number that has a sign is a subtraction from zero. -/
def allUnsigned : List Expr → List Expr
  | [] => []
  | e :: rest => e.unsigned :: allUnsigned rest

end

theorem allUnsigned_eq (exprs : List Expr) : allUnsigned exprs = exprs.map unsigned := by
  induction exprs with
  | nil => rfl
  | cons e rest ih => rw [allUnsigned, ih, List.map_cons]

/-- An expression in which each pair of brackets encloses words that are balanced in its kind. -/
inductive Matched : Expr → Prop
  | num (x : Float) : Matched (.num x)
  | var (name : String) : Matched (.var name)
  | binary {op : Op} {left right : Expr} (first : Matched left) (second : Matched right)
      (balanced : Balanced .round (left.words ++ op.symbol :: right.words)) : Matched (.binary op left right)
  | call {name : String} {args : List Expr} (each : ∀ arg ∈ args, Matched arg)
      (balanced : Balanced .round ([","].intercalate (allWords args))) : Matched (.call name args)
  | list {elems : List Expr} (each : ∀ elem ∈ elems, Matched elem)
      (balanced : Balanced .curly ([","].intercalate (allWords elems))) : Matched (.list elems)
  | vector {elems : List Expr} (each : ∀ elem ∈ elems, Matched elem)
      (balanced : Balanced .angle ([","].intercalate (allWords elems))) : Matched (.vector elems)
  | delegate (d : Delegate) : Matched (.delegate d)

/-- Tokens that are read as an expression and stand for one operand. -/
def ReadsAs (tokens : List Token) (expr : Expr) : Prop := ofTokens tokens = .ok expr ∧ Operand tokens

/-- Texts between two others are those of tokens between two others. -/
theorem exists_enclosed {tokens : List Token} {opener closer : String} {words : List String}
    (same : Token.texts tokens = opener :: words ++ [closer]) :
    ∃ first inner last, tokens = first :: inner ++ [last] ∧ first.text = opener ∧ Token.texts inner = words ∧
      last.text = closer := by
  obtain ⟨front, back, rfl, frontTexts, backTexts⟩ := List.map_eq_append_iff.mp same
  obtain ⟨first, inner, rfl, opens, innerTexts⟩ := List.map_eq_cons_iff.mp frontTexts
  obtain ⟨last, rfl, closes⟩ := List.map_eq_singleton_iff.mp backTexts
  exact ⟨first, inner, last, rfl, opens, innerTexts, closes⟩

/-- A word for a number is read as it. -/
theorem readsAs_number {t : Token} {x : Float} (value : Number.read? t.text = some x) : ReadsAs [t] (.num x) :=
  ⟨ofTokens_number value, .word (isMark_number value)⟩

/-- An operation in parentheses around balanced words. -/
theorem readsAs_operation {opener closer t : Token} {left right : List Token} {op : Op} {l r : Expr}
    (span : Span .round opener (left ++ t :: right) closer) (operator : Op.ofSymbol? t.text = some op)
    (first : ReadsAs left l) (second : ReadsAs right r) :
    ReadsAs (opener :: (left ++ t :: right) ++ [closer]) (.binary op l r) := by
  refine ⟨?_, .span span⟩
  rw [ofTokens_parens span (by simp)]
  exact ofTokens_binary (Form.ofTokens_operation first.2 second.2 operator) first.1 second.1

/-- The words of a number are read as it is without its sign. -/
theorem readsAs_numWords {x : Float} {tokens : List Token}
    (reads : x.isFinite = true → Number.read? (Number.text (written x)) = some (written x))
    (same : Token.texts tokens = numWords x) : ReadsAs tokens (unsigned (.num x)) := by
  have value : Number.read? (Number.text (written x)) = some (written x) := by
    cases finite : x.isFinite with
    | true => exact reads finite
    | false => exact read?_written finite
  cases signed : Double.isNegative x && !x.isNaN with
  | false =>
    rw [numWords, signed] at same
    rw [written, signed] at value
    obtain ⟨t, rfl, text⟩ := List.map_eq_singleton_iff.mp same
    rw [unsigned, signed]
    exact readsAs_number (by rw [text]; exact value)
  | true =>
    rw [numWords, signed] at same
    rw [written, signed] at value
    obtain ⟨opener, inner, closer, rfl, opens, words, closes⟩ :=
      exists_enclosed (show Token.texts tokens = "(" :: ["0", "-", Number.text x.abs] ++ [")"] from same)
    obtain ⟨zero, rest, rfl, nought, tail⟩ := List.map_eq_cons_iff.mp words
    obtain ⟨minus, rest, rfl, sign, last⟩ := List.map_eq_cons_iff.mp tail
    obtain ⟨t, rfl, text⟩ := List.map_eq_singleton_iff.mp last
    have magnitude : Number.read? t.text = some x.abs := by
      rw [text]
      exact value
    have balanced : Balanced .round (Token.texts [zero, minus, t]) := by
      have front : Balanced .round ["0", "-"] := by decide
      rw [words]
      exact front.append (balanced_unmarked (text ▸ isMark_number magnitude) .round)
    rw [unsigned, signed]
    have span : Span .round opener ([zero] ++ minus :: [t]) closer := ⟨opens, closes, balanced⟩
    exact readsAs_operation span (by rw [sign]; decide)
      (readsAs_number (by rw [nought]; decide)) (readsAs_number magnitude)

/-- Tokens that are read as an expression and are never split at a comma. -/
structure ReadsWhole (tokens : List Token) (expr : Expr) : Prop where
  reads : ofTokens tokens = .ok expr
  filled : tokens ≠ []
  whole : ∀ rest, split "," (tokens ++ rest) = intoFirst tokens (split "," rest)

theorem ReadsAs.whole {tokens : List Token} {expr : Expr} (reads : ReadsAs tokens expr) : ReadsWhole tokens expr :=
  ⟨reads.1, reads.2.ne_nil, split_operand reads.2 (by decide)⟩

/-- Words that are read as expressions, whatever tokens have them. -/
def ReadEach : List (List String) → List Expr → Prop :=
  List.Forall₂ fun words expr => ∀ tokens, Token.texts tokens = words → ReadsWhole tokens expr

/-- Parts with commas between them are split into tokens that are read as they are. -/
theorem exists_groups {words : List (List String)} {exprs : List Expr} {inner : List Token} (filled : words ≠ [])
    (each : ReadEach words exprs) (same : Token.texts inner = [","].intercalate words) :
    (∀ group ∈ split "," inner, group ≠ []) ∧ Slot.readEach ((split "," inner).map .ok) = .ok exprs := by
  obtain ⟨groups, parted, rfl⟩ := exists_parted filled same
  have reads : List.Forall₂ ReadsWhole groups exprs :=
    (List.forall₂_map_left_iff.mp each).imp fun group e read => read group rfl
  have wholes : ∀ group ∈ groups, ∃ e, ReadsWhole group e := by
    clear parted same filled each
    induction reads with
    | nil => simp
    | cons first _ ih => simpa using ⟨⟨_, first⟩, ih⟩
  have again : split "," inner = groups := by
    refine parted.split_eq (by decide) (fun group member => ?_) (fun group last => ?_)
    · obtain ⟨e, read⟩ := wholes group ((List.dropLast_sublist groups).subset member)
      exact read.whole
    · obtain ⟨e, read⟩ := wholes group (List.mem_of_getLast? last)
      have bare := read.whole []
      rw [List.append_nil] at bare
      rw [bare, split]
      simp [intoFirst]
  rw [again]
  refine ⟨fun group member => ?_, Slot.readEach_eq_ok_iff.mpr ⟨groups, rfl, reads.imp fun _ _ read => read.reads⟩⟩
  obtain ⟨e, read⟩ := wholes group member
  exact read.filled

private theorem inner_eq_nil {inner : List Token} (same : Token.texts inner = [","].intercalate []) :
    inner = [] := by
  simpa [Token.texts] using same

/-- The parts of a call or a vector are read one by one. -/
theorem readEach_parts {words : List (List String)} {exprs : List Expr} {inner : List Token} (closer : Token)
    (each : ReadEach words exprs) (same : Token.texts inner = [","].intercalate words) :
    Slot.readEach (Form.parts inner closer) = .ok exprs := by
  by_cases none : words = []
  · subst none
    cases each
    rw [inner_eq_nil same]
    rfl
  · obtain ⟨filled, reads⟩ := exists_groups none each same
    have inside : inner ≠ [] := by
      rintro rfl
      exact filled [] (by rw [split]; simp) rfl
    rw [Form.parts, if_neg (by simpa using inside), Form.slots_of_filled filled]
    exact reads

/-- The elements of a list are read one by one. -/
theorem readEach_items {words : List (List String)} {exprs : List Expr} {inner : List Token}
    (each : ReadEach words exprs) (same : Token.texts inner = [","].intercalate words) :
    Slot.readEach (Form.items inner) = .ok exprs := by
  by_cases none : words = []
  · subst none
    cases each
    rw [inner_eq_nil same, Form.items, split]
    rfl
  · obtain ⟨filled, reads⟩ := exists_groups none each same
    have kept : (split "," inner).filter (fun group => !group.isEmpty) = split "," inner :=
      List.filter_eq_self.mpr fun group member => by simpa using filled group member
    rw [Form.items, kept]
    exact reads

/-- Balanced words between the brackets of a list are read as its elements. -/
theorem readsAs_list {opener closer : Token} {inner : List Token} {words : List (List String)} {exprs : List Expr}
    (span : Span .curly opener inner closer) (each : ReadEach words exprs)
    (same : Token.texts inner = [","].intercalate words) : ReadsAs (opener :: inner ++ [closer]) (.list exprs) := by
  refine ⟨?_, .span span⟩
  rw [ofTokens_eq, Form.ofTokens_list span]
  simp only [Except.bind, Form.read, readEach_items each same]
  rfl

/-- Balanced words between the brackets of a vector are read as its components. -/
theorem readsAs_vector {opener closer : Token} {inner : List Token} {words : List (List String)} {exprs : List Expr}
    (span : Span .angle opener inner closer) (filled : exprs ≠ []) (each : ReadEach words exprs)
    (same : Token.texts inner = [","].intercalate words) : ReadsAs (opener :: inner ++ [closer]) (.vector exprs) := by
  have parts := readEach_parts closer each same
  have inside : inner ≠ [] := by
    rintro rfl
    cases parts
    exact filled rfl
  refine ⟨?_, .span span⟩
  rw [ofTokens_eq, Form.ofTokens_vector span inside]
  simp only [Except.bind, Form.read, parts]
  rfl

theorem readEach_words {exprs : List Expr}
    (each : ∀ e ∈ exprs, ∀ tokens, Token.texts tokens = e.words → ReadsAs tokens e.unsigned) :
    ReadEach (allWords exprs) (allUnsigned exprs) := by
  rw [allWords_eq, allUnsigned_eq]
  refine List.forall₂_map_left_iff.mpr (List.forall₂_map_right_iff.mpr (List.forall₂_same.mpr fun e member => ?_))
  exact fun tokens same => (each e member tokens same).whole

/-- Tokens with the words of an expression are read as it is without signs. -/
theorem readsAs_words {expr : Expr} (spelled : expr.Spelled) (matched : expr.Matched) {tokens : List Token}
    (same : Token.texts tokens = expr.words) : ReadsAs tokens expr.unsigned := by
  induction spelled generalizing tokens with
  | num reads => exact readsAs_numWords reads same
  | @var name word wordless =>
    obtain ⟨t, rfl, rfl⟩ := List.map_eq_singleton_iff.mp same
    exact ⟨ofTokens_name wordless word.2, .word word.2⟩
  | @binary op left right known _ _ ihLeft ihRight =>
    cases matched with
    | binary first second balanced =>
      obtain ⟨opener, inner, closer, rfl, opens, words, closes⟩ := exists_enclosed same
      obtain ⟨leftTokens, rest, rfl, leftWords, tail⟩ := List.map_eq_append_iff.mp words
      obtain ⟨t, rightTokens, rfl, symbol, rightWords⟩ := List.map_eq_cons_iff.mp tail
      rw [← words] at balanced
      exact readsAs_operation ⟨opens, closes, balanced⟩ (by rw [symbol]; exact known) (ihLeft first leftWords)
        (ihRight second rightWords)
  | @call name args letters _ ih =>
    cases matched with
    | call each balanced =>
      obtain ⟨nameToken, rest, rfl, rfl, tail⟩ := List.map_eq_cons_iff.mp same
      obtain ⟨opener, inner, closer, rfl, opens, words, closes⟩ := exists_enclosed tail
      rw [← words] at balanced
      have span : Span .round opener inner closer := ⟨opens, closes, balanced⟩
      refine ⟨?_, .call letters span⟩
      have args := readEach_parts closer (readEach_words fun arg member _ => ih arg member (each arg member)) words
      rw [ofTokens_eq, ← List.cons_append, Form.ofTokens_call letters span]
      simp only [Except.bind, Form.read, args]
      rfl
  | @list elems _ ih =>
    cases matched with
    | list each balanced =>
      obtain ⟨opener, inner, closer, rfl, opens, words, closes⟩ := exists_enclosed same
      rw [← words] at balanced
      exact readsAs_list ⟨opens, closes, balanced⟩
        (readEach_words fun elem member _ => ih elem member (each elem member)) words
  | @vector elems filled _ ih =>
    cases matched with
    | vector each balanced =>
      obtain ⟨opener, inner, closer, rfl, opens, words, closes⟩ := exists_enclosed same
      rw [← words] at balanced
      have some : allUnsigned elems ≠ [] := by
        rw [allUnsigned_eq]
        simpa using filled
      exact readsAs_vector ⟨opens, closes, balanced⟩ some
        (readEach_words fun elem member _ => ih elem member (each elem member)) words
  | @delegate d sound =>
    obtain ⟨opener, inner, closer, rfl, opens, words, closes⟩ := exists_enclosed same
    obtain ⟨before, rest, rfl, params, tail⟩ := List.map_eq_append_iff.mp words
    obtain ⟨colon, body, rfl, marks, bodyWords⟩ := List.map_eq_cons_iff.mp tail
    have span : Span .square opener (before ++ colon :: body) closer := by
      refine ⟨opens, closes, ?_⟩
      rw [show Token.texts (before ++ colon :: body) = d.inside from words]
      exact sound.balanced
    refine ⟨?_, .span span⟩
    have filled : body ≠ [] := by
      rintro rfl
      have empty : joined (lex d.body) = "" := by
        rw [joined, ← bodyWords]
        rfl
      exact sound.filled (sound.joined ▸ empty)
    have text : joined body = d.body := by
      rw [joined, show Token.texts body = Token.texts (lex d.body) from bodyWords]
      exact sound.joined
    rw [ofTokens_eq, Form.ofTokens_delegate span, Form.ofDelegate, sound.cutAtColon? params marks bodyWords]
    simp only [sound.paramNames? params, text]
    simp [filled]
    rfl

end Expr

/-! ### Proper expressions -/

/-- A delegate whose parameters are words and whose body is the text of its own balanced tokens. -/
structure Delegate.Proper (delegate : Delegate) : Prop where
  params : ∀ param ∈ delegate.params, IsWord param
  filled : delegate.body ≠ ""
  joined : joined (lex delegate.body) = delegate.body
  balanced : ∀ kind, Balanced kind (Token.texts (lex delegate.body))

namespace Expr

/-- An expression with any numbers, whose names are words and no numbers, whose operations are known, whose
    called names have letters only, whose vectors are not empty, and whose delegates are proper. -/
inductive Proper : Expr → Prop
  | num (x : Float) : Proper (.num x)
  | var {name : String} (word : IsWord name) (wordless : Number.read? name = none) : Proper (.var name)
  | binary {op : Op} {left right : Expr} (known : ∀ code, op ≠ .unknown code) (first : Proper left)
      (second : Proper right) : Proper (.binary op left right)
  | call {name : String} {args : List Expr} (letters : isLetters name = true) (each : ∀ arg ∈ args, Proper arg) :
      Proper (.call name args)
  | list {elems : List Expr} (each : ∀ elem ∈ elems, Proper elem) : Proper (.list elems)
  | vector {elems : List Expr} (filled : elems ≠ []) (each : ∀ elem ∈ elems, Proper elem) : Proper (.vector elems)
  | delegate {d : Delegate} (proper : d.Proper) : Proper (.delegate d)

mutual

/-- The numbers in an expression. -/
def numbers : Expr → List Float
  | num x => [x]
  | var _ => []
  | binary _ left right => left.numbers ++ right.numbers
  | call _ args => allNumbers args
  | list elems => allNumbers elems
  | vector elems => allNumbers elems
  | delegate _ => []

/-- The numbers in expressions. -/
def allNumbers : List Expr → List Float
  | [] => []
  | e :: rest => e.numbers ++ allNumbers rest

end

theorem mem_allNumbers {x : Float} {e : Expr} {exprs : List Expr} (member : e ∈ exprs) (inside : x ∈ e.numbers) :
    x ∈ allNumbers exprs := by
  induction exprs with
  | nil => cases member
  | cons first rest ih =>
    rw [allNumbers, List.mem_append]
    rcases List.mem_cons.mp member with rfl | member
    · exact .inl inside
    · exact .inr (ih member)

end Expr

theorem Op.balanced_symbol {op : Op} (known : ∀ code, op ≠ .unknown code) (kind : Bracket) :
    Balanced kind [op.symbol] := by
  cases op with
  | unknown code => exact absurd rfl (known code)
  | _ => cases kind <;> decide

theorem Delegate.Proper.inside_balanced {d : Delegate} (proper : d.Proper) (kind : Bracket) :
    Balanced kind d.inside := by
  have params : Balanced kind ([","].intercalate (d.params.map fun param => [param])) := by
    refine balanced_intercalate fun words member => ?_
    obtain ⟨param, isParam, rfl⟩ := List.mem_map.mp member
    exact balanced_unmarked (proper.params param isParam).2 kind
  have colon : Balanced kind [":"] := by cases kind <;> decide
  exact params.append (colon.append (proper.balanced kind))

theorem Delegate.Proper.sound {d : Delegate} (proper : d.Proper) : d.Sound where
  lone param member := .inl (proper.params param member)
  plain param member := by
    have unmarked := (proper.params param member).2
    exact ⟨ne_of_unmarked unmarked (by decide), ne_of_unmarked unmarked (by decide),
      ne_of_unmarked unmarked (by decide)⟩
  single param member := closerOf?_unmarked (proper.params param ((List.dropLast_sublist _).subset member)).2
  unclosed kind _ := ⟨0, (proper.balanced kind).2⟩
  filled := proper.filled
  closed := (proper.balanced .square).1
  joined := proper.joined
  balanced := proper.inside_balanced .square

namespace Expr

theorem balanced_numWords (x : Float) (kind : Bracket) : Balanced kind (numWords x) := by
  simp only [numWords]
  split
  · have front : Balanced kind ["0", "-"] := by cases kind <;> decide
    have magnitude := balanced_unmarked (Number.isWord_text (Double.isNegative_abs x)).2 kind
    exact (front.append magnitude).enclosed .round
  · rename_i unsigned
    cases negative : Double.isNegative x with
    | false => exact balanced_unmarked (Number.isWord_text negative).2 kind
    | true =>
      have none : x.isNaN = true := by simpa [negative] using unsigned
      rw [Number.text, if_pos none]
      exact balanced_unmarked (by decide) kind

/-- The words of a proper expression are balanced in every kind, and so is what its brackets enclose. -/
theorem Proper.balanced {expr : Expr} (proper : expr.Proper) : expr.Matched ∧ ∀ kind, Balanced kind expr.words := by
  have parts {exprs : List Expr} (each : ∀ e ∈ exprs, e.Matched ∧ ∀ kind, Balanced kind e.words) (kind : Bracket) :
      Balanced kind ([","].intercalate (allWords exprs)) := by
    rw [allWords_eq]
    refine balanced_intercalate fun words member => ?_
    obtain ⟨e, isPart, rfl⟩ := List.mem_map.mp member
    exact (each e isPart).2 kind
  induction proper with
  | num x => exact ⟨.num x, balanced_numWords x⟩
  | var word => exact ⟨.var _, balanced_unmarked word.2⟩
  | binary known _ _ first second =>
    have inside (kind : Bracket) :=
      (first.2 kind).append ((Op.balanced_symbol known kind).append (second.2 kind))
    exact ⟨.binary first.1 second.1 (inside .round), fun kind => (inside kind).enclosed .round⟩
  | call letters _ each =>
    refine ⟨.call (fun arg member => (each arg member).1) (parts each .round), fun kind => ?_⟩
    exact (balanced_unmarked (isMark_letters letters) kind).append ((parts each kind).enclosed .round)
  | list _ each =>
    exact ⟨.list (fun elem member => (each elem member).1) (parts each .curly),
      fun kind => (parts each kind).enclosed .curly⟩
  | vector _ _ each =>
    exact ⟨.vector (fun elem member => (each elem member).1) (parts each .angle),
      fun kind => (parts each kind).enclosed .angle⟩
  | delegate proper => exact ⟨.delegate _, fun kind => (proper.inside_balanced kind).enclosed .square⟩

theorem Proper.spelled {expr : Expr} (proper : expr.Proper)
    (reads : ∀ x ∈ expr.numbers, x.isFinite = true → Number.read? (Number.text (written x)) = some (written x)) :
    expr.Spelled := by
  induction proper with
  | num x => exact .num (reads x (by simp [numbers]))
  | var word wordless => exact .var word wordless
  | @binary op left right known _ _ first second =>
    have symbol : Op.ofSymbol? op.symbol = some op := by
      cases op with
      | unknown code => exact absurd rfl (known code)
      | _ => rfl
    exact .binary symbol (first fun x member => reads x (by simp [numbers, member]))
      (second fun x member => reads x (by simp [numbers, member]))
  | call letters _ each =>
    exact .call letters fun arg member => each arg member fun x inside => reads x (mem_allNumbers member inside)
  | list _ each =>
    exact .list fun elem member => each elem member fun x inside => reads x (mem_allNumbers member inside)
  | vector filled _ each =>
    exact .vector filled fun elem member => each elem member fun x inside => reads x (mem_allNumbers member inside)
  | delegate proper => exact .delegate proper.sound

/-- The text of a proper expression whose finite numbers read back is read as the expression, with each number
    that has a sign as a subtraction from zero. -/
theorem parse?_text {expr : Expr} (proper : expr.Proper)
    (reads : ∀ x ∈ expr.numbers, x.isFinite = true → Number.read? (Number.text (written x)) = some (written x)) :
    parse? expr.text = .ok (some expr.unsigned) := by
  have spelled := proper.spelled reads
  exact parse?_eq_some_iff.mpr (readsAs_words spelled proper.balanced.1 spelled.texts_lex).1

/-- A number with a sign, a power of ten with one, and a delegate with parentheses in its body. -/
theorem parse?_text_signed :
    Proper (.binary .mul (.num (-2)) (.call "f" [.var "x", .vector [.num 1e6], .delegate ⟨["x"], "x*(1)"⟩])) ∧
      parse? (text
        (.binary .mul (.num (-2)) (.call "f" [.var "x", .vector [.num 1e6], .delegate ⟨["x"], "x*(1)"⟩]))) =
        .ok (some (.binary .mul (.binary .sub (.num 0) (.num 2))
          (.call "f" [.var "x", .vector [.num 1e6], .delegate ⟨["x"], "x*(1)"⟩]))) := by
  have proper :
      Proper (.binary .mul (.num (-2)) (.call "f" [.var "x", .vector [.num 1e6], .delegate ⟨["x"], "x*(1)"⟩])) := by
    refine .binary (by simp) (.num _) (.call (by decide) ?_)
    simp only [List.mem_cons, List.not_mem_nil, or_false, forall_eq_or_imp, forall_eq]
    refine ⟨.var (by decide) (by decide), .vector (by simp) (by simpa using .num _),
      .delegate ⟨by decide, by decide, by decide, fun kind => ?_⟩⟩
    cases kind <;> decide
  refine ⟨proper, ?_⟩
  rw [parse?_text proper (by decide)]
  rfl

end Expr

end Reckon
