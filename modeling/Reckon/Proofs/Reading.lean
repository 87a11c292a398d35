import Mathlib.Data.List.Forall2
import Reckon.Expr.Parser
import Reckon.Proofs.Operands

/-!
What reading tokens gives. An expression is read by its form (`Expr.ofTokens_eq`), and a
form holds what its shape says (`Form.Shape`). Whatever the shapes keep holds of every
expression that is read (`Expr.reads_induction`).
-/

namespace Reckon
open Token

/-- Reads parts in order up to the first fault. -/
def Slot.readEach : List Slot → Except ParseError (List Expr)
  | [] => .ok []
  | .error e :: _ => .error e
  | .ok tokens :: rest =>
    match Expr.ofTokens tokens with
    | .error e => .error e
    | .ok expr =>
      match readEach rest with
      | .error e => .error e
      | .ok exprs => .ok (expr :: exprs)

/-- Reads the parts of a form. -/
def Form.read : Form → Except ParseError Expr
  | .leaf expr => .ok expr
  | .list items => (Slot.readEach items).map .list
  | .vector items => (Slot.readEach items).map .vector
  | .call name args => (Slot.readEach args).map (.call name)
  | .binary op left right =>
    match Expr.ofTokens left with
    | .error e => .error e
    | .ok l =>
      match Expr.ofTokens right with
      | .error e => .error e
      | .ok r => .ok (.binary op l r)

private theorem readAll_eq {bound : Nat} (slots : List Slot)
    (light : ∀ tokens, .ok tokens ∈ slots → weight tokens < bound) :
    Slot.readAll (fun part _ => Expr.ofTokens part) slots light = Slot.readEach slots := by
  induction slots with
  | nil => rfl
  | cons slot rest ih =>
    cases slot with
    | error e => rfl
    | ok tokens =>
      cases first : Expr.ofTokens tokens with
      | error e => simp only [Slot.readAll, Slot.readEach, first]
      | ok expr =>
        cases others : Slot.readEach rest with
        | error e => simp only [Slot.readAll, Slot.readEach, first, ih, others]
        | ok exprs => simp only [Slot.readAll, Slot.readEach, first, ih, others]

/-- Tokens are read by their form. -/
theorem Expr.ofTokens_eq (tokens : List Token) :
    Expr.ofTokens tokens = (Form.ofTokens tokens).bind Form.read := by
  rw [Expr.ofTokens]
  split
  · rename_i e found
    rw [found]; rfl
  · rename_i expr found
    rw [found]; rfl
  · rename_i items found
    rw [readAll_eq, found]; rfl
  · rename_i items found
    rw [readAll_eq, found]; rfl
  · rename_i name args found
    rw [readAll_eq, found]; rfl
  · rename_i op left right found
    rw [found]; rfl

/-- Parts are read one by one. -/
theorem Slot.readEach_eq_ok_iff {slots : List Slot} {exprs : List Expr} :
    Slot.readEach slots = .ok exprs ↔ ∃ groups : List (List Token), slots = groups.map .ok ∧
      List.Forall₂ (fun group expr => Expr.ofTokens group = .ok expr) groups exprs := by
  induction slots generalizing exprs with
  | nil =>
    constructor
    · intro read
      cases read
      exact ⟨[], rfl, .nil⟩
    · rintro ⟨groups, same, each⟩
      obtain rfl : groups = [] := by simpa using same.symm
      cases each
      rfl
  | cons slot rest ih =>
    constructor
    · intro read
      cases slot with
      | error e => cases read
      | ok tokens =>
        simp only [readEach] at read
        split at read
        · cases read
        · rename_i expr first
          split at read
          · cases read
          · rename_i others tail
            cases read
            obtain ⟨groups, rfl, each⟩ := ih.mp tail
            exact ⟨tokens :: groups, rfl, .cons first each⟩
    · rintro ⟨groups, same, each⟩
      cases each with
      | nil => cases same
      | cons first others =>
        obtain ⟨rfl, rfl⟩ := List.cons.inj same
        simp only [readEach, first]
        rw [ih.mpr ⟨_, rfl, others⟩]

theorem Except.map_eq_ok_iff {ε α β : Type} {f : α → β} {x : Except ε α} {b : β} :
    x.map f = .ok b ↔ ∃ a, x = .ok a ∧ f a = b := by
  cases x <;> simp [Except.map]

theorem Except.bind_eq_ok_iff {ε α β : Type} {f : α → Except ε β} {x : Except ε α} {b : β} :
    x.bind f = .ok b ↔ ∃ a, x = .ok a ∧ f a = .ok b := by
  cases x <;> simp [Except.bind]

theorem Expr.ofTokens_nil : Expr.ofTokens [] = .error (.empty 0 "") := by
  rw [Expr.ofTokens_eq, Form.ofTokens, Form.unwrap_of_none rfl]
  rfl

/-- A source text is read as its tokens are. -/
theorem Expr.parse?_eq_some_iff {source : String} {expr : Expr} :
    Expr.parse? source = .ok (some expr) ↔ Expr.ofTokens (lex source) = .ok expr := by
  rw [Expr.parse?]
  cases tokens : lex source with
  | nil => simp [ofTokens_nil]
  | cons t rest => simp [Except.map_eq_ok_iff]

theorem Expr.parse_eq_ok_iff {source : String} {expr : Expr} :
    Expr.parse source = .ok expr ↔ Expr.ofTokens (lex source) = .ok expr := by
  rw [← Expr.parse?_eq_some_iff, Expr.parse]
  split
  · rename_i found
    simp [found]
  · rename_i found
    simp [found]
  · rename_i found
    simp [found]

theorem Expr.ofTokens_number {t : Token} {x : Float} (value : Number.read? t.text = some x) :
    Expr.ofTokens [t] = .ok (.num x) := by
  have form : Form.ofToken t = .ok (.leaf (.num x)) := by rw [Form.ofToken, value]
  rw [Expr.ofTokens_eq, Form.ofTokens, Form.unwrap_of_none (Form.wrapped?_single t _ _)]
  simp only [form]
  rfl

theorem Expr.ofTokens_name {t : Token} (wordless : Number.read? t.text = none) (unmarked : isMark t.text = false) :
    Expr.ofTokens [t] = .ok (.var t.text) := by
  have form : Form.ofToken t = .ok (.leaf (.var t.text)) := by simp [Form.ofToken, wordless, unmarked]
  rw [Expr.ofTokens_eq, Form.ofTokens, Form.unwrap_of_none (Form.wrapped?_single t _ _)]
  simp only [form]
  rfl

/-- Parentheses around the whole do not matter. -/
theorem Expr.ofTokens_parens {opener closer : Token} {inner : List Token} (span : Span .round opener inner closer)
    (filled : inner ≠ []) : Expr.ofTokens (opener :: inner ++ [closer]) = Expr.ofTokens inner := by
  have wrapped : wrapped? "(" ")" (opener :: inner ++ [closer]) = some (inner, closer) :=
    (wrapped?_eq_some_iff .round).mpr ⟨opener, rfl, span⟩
  rw [Expr.ofTokens_eq, Expr.ofTokens_eq, Form.ofTokens, Form.unwrap_of_some filled wrapped, ← Form.ofTokens]

theorem Expr.ofTokens_binary {tokens left right : List Token} {op : Op} {l r : Expr}
    (form : Form.ofTokens tokens = .ok (.binary op left right)) (first : Expr.ofTokens left = .ok l)
    (second : Expr.ofTokens right = .ok r) : Expr.ofTokens tokens = .ok (.binary op l r) := by
  rw [Expr.ofTokens_eq, form]
  simp only [Except.bind, Form.read, first, second]

namespace Form

/-! ### Shapes -/

/-- The tokens that are split at an operator: the tokens themselves, or, after a minus, the
    subtraction from zero, bare or in the parentheses that a stray one has torn apart. -/
inductive Operation : List Token → List Token → Prop
  | plain (tokens : List Token) : Operation tokens tokens
  | negated {minus zero : Token} (operand : List Token) (sign : minus.text = "-") (nought : zero.text = "0") :
      Operation (minus :: operand) (zero :: minus :: operand)
  | captured {minus zero opener closer : Token} (operand : List Token) (sign : minus.text = "-")
      (nought : zero.text = "0") (opens : opener.text = "(") (closes : closer.text = ")") :
      Operation (minus :: operand) (opener :: zero :: minus :: operand ++ [closer])

theorem texts_captured {minus zero opener closer : Token} {operand : List Token} (nought : zero.text = "0")
    (opens : opener.text = "(") (closes : closer.text = ")") :
    texts (opener :: zero :: minus :: operand ++ [closer]) = "(" :: ("0" :: texts (minus :: operand)) ++ [")"] := by
  simp [nought, opens, closes]

/-- The groups of the arguments of a call, which may have none. -/
def argGroups (inner : List Token) : List (List Token) := if inner.isEmpty then [] else split "," inner

/-- What tokens without parentheses around them can be. -/
inductive Shape : List Token → Form → Prop
  | number {t : Token} {x : Float} (value : Number.read? t.text = some x) : Shape [t] (.leaf (.num x))
  | name {t : Token} (word : Number.read? t.text = none) (unmarked : isMark t.text = false) :
      Shape [t] (.leaf (.var t.text))
  | literal {opener closer : Token} {inner : List Token} (literal : Literal opener inner closer) :
      Shape (opener :: inner ++ [closer]) (.leaf (.ofText (joined inner)))
  | list {opener closer : Token} {inner : List Token} (span : Span .curly opener inner closer) :
      Shape (opener :: inner ++ [closer]) (.list (items inner))
  | vector {opener closer : Token} {inner : List Token} (span : Span .angle opener inner closer)
      (filled : inner ≠ []) : Shape (opener :: inner ++ [closer]) (.vector (parts inner closer))
  | call {name opener closer : Token} {inner : List Token} (letters : isLetters name.text = true)
      (span : Span .round opener inner closer) :
      Shape (name :: opener :: inner ++ [closer]) (.call name.text (parts inner closer))
  | delegate {opener closer : Token} {inner before body : List Token} {params : List String}
      (span : Span .square opener inner closer) (cut : cutAtColon? inner = some (before, body))
      (names : paramNames? before = some params) (filled : body ≠ []) :
      Shape (opener :: inner ++ [closer]) (.leaf (.delegate ⟨params, joined body⟩))
  | binary {tokens whole left right : List Token} {t : Token} {op : Op} (operation : Operation tokens whole)
      (parted : whole = left ++ t :: right) (operator : Op.ofSymbol? t.text = some op) :
      Shape tokens (.binary op left right)

theorem ofBinary_eq_ok {tokens : List Token} {form : Form} (found : ofBinary tokens = .ok form) :
    ∃ op t left right, tokens = left ++ t :: right ∧ Op.ofSymbol? t.text = some op ∧
      form = .binary op left right := by
  simp only [ofBinary] at found
  split at found
  · cases found
  rename_i entries outlined
  split at found
  · split at found <;> cases found
  rename_i index op weakest
  obtain ⟨t, member, operator⟩ := mem_binaryOperators (weakest?_mem weakest)
  obtain ⟨skip, same, rest, here⟩ := outline_index outlined member
  obtain rfl : index = skip := by omega
  rw [here] at found
  simp only at found
  split at found
  · cases found
  · cases found
    refine ⟨op, t, tokens.take index, rest, ?_, operator, rfl⟩
    rw [← here, List.take_append_drop]

private theorem ofNegation_shape {minus : Token} {operand : List Token} {form : Form}
    (sign : minus.text = "-") (found : ofNegation minus operand = .ok form) :
    Shape (minus :: operand) form := by
  simp only [ofNegation] at found
  split at found
  · rename_i inner last wrapped
    obtain ⟨first, same, -⟩ := (wrapped?_eq_some_iff .round).mp wrapped
    obtain ⟨-, same⟩ := List.cons.inj same
    obtain ⟨rfl, -⟩ := List.append_inj' same rfl
    obtain ⟨op, t, left, right, parted, operator, rfl⟩ := ofBinary_eq_ok found
    exact .binary (.negated operand sign rfl) parted operator
  · obtain ⟨op, t, left, right, parted, operator, rfl⟩ := ofBinary_eq_ok found
    exact .binary (.captured operand sign rfl rfl rfl) parted operator

private theorem ofDelegate_shape {opener closer : Token} {inner : List Token} {form : Form}
    (span : Span .square opener inner closer) (found : ofDelegate opener inner closer = .ok form) :
    Shape (opener :: inner ++ [closer]) form := by
  simp only [ofDelegate] at found
  split at found
  · cases found
  rename_i before body cut
  split at found
  · cases found
  rename_i params names
  split at found
  · cases found
  · rename_i filled
    cases found
    exact .delegate span cut names (by simpa using filled)

theorem ofCompound_shape {first second : Token} {rest : List Token} {form : Form}
    (found : ofCompound first second rest = .ok form) : Shape (first :: second :: rest) form := by
  have binary {form : Form} (found : ofBinary (first :: second :: rest) = .ok form) :
      Shape (first :: second :: rest) form := by
    obtain ⟨op, t, left, right, parted, operator, rfl⟩ := ofBinary_eq_ok found
    exact .binary (.plain _) parted operator
  simp only [ofCompound] at found
  split at found
  · rename_i wrapped
    cases found
    obtain ⟨opener, same, span⟩ := (wrapped?_eq_some_iff .curly).mp wrapped
    rw [same]
    exact .list span
  split at found
  · rename_i wrapped
    split at found
    · cases found
    · rename_i filled
      cases found
      obtain ⟨opener, same, span⟩ := (wrapped?_eq_some_iff .angle).mp wrapped
      rw [same]
      exact .vector span (by simpa using filled)
  split at found
  · rename_i wrapped
    cases found
    obtain ⟨opener, same, literal⟩ := wrapped?_literal_iff.mp wrapped
    rw [same]
    exact .literal literal
  split at found
  · rename_i sign
    exact ofNegation_shape sign found
  split at found
  · rename_i opens
    split at found
    · cases found
    · rename_i inner closer search
      obtain ⟨same, closes, balanced⟩ := (enclosed?_eq_some_iff .square).mp search
      rw [same]
      exact ofDelegate_shape ⟨opens, closes, balanced⟩ found
    · exact binary found
  split at found
  · rename_i named
    simp only [Bool.and_eq_true, decide_eq_true_eq] at named
    split at found
    · cases found
    · rename_i inner closer search
      cases found
      obtain ⟨same, closes, balanced⟩ := (enclosed?_eq_some_iff .round).mp search
      rw [same]
      exact .call named.1 ⟨named.2, closes, balanced⟩
    · exact binary found
  · exact binary found

/-- Tokens that have a form either stand in parentheses or have the shape of the form. -/
theorem ofTokens_shape {tokens : List Token} {form : Form} (found : ofTokens tokens = .ok form) :
    (∃ opener closer inner, tokens = opener :: inner ++ [closer] ∧ Span .round opener inner closer ∧
      inner ≠ [] ∧ ofTokens inner = .ok form) ∨ Shape tokens form := by
  cases wrapped : wrapped? "(" ")" tokens with
  | some pair =>
    obtain ⟨inner, closer⟩ := pair
    obtain ⟨opener, same, span⟩ := (wrapped?_eq_some_iff .round).mp wrapped
    have filled : inner ≠ [] := by
      rintro rfl
      rw [ofTokens, unwrap_of_empty wrapped] at found
      cases found
    refine .inl ⟨opener, closer, inner, same, span, filled, ?_⟩
    rw [ofTokens, unwrap_of_some filled wrapped] at found
    exact found
  | none =>
    right
    rw [ofTokens, unwrap_of_none wrapped] at found
    split at found
    · cases found
    · cases found
    · rename_i t same
      cases same
      simp only [ofToken] at found
      split at found
      · rename_i value
        cases found
        exact .number value
      · rename_i word
        split at found
        · cases found
        · rename_i unmarked
          cases found
          exact .name word (by simpa using unmarked)
    · rename_i same
      cases same
      exact ofCompound_shape found

theorem slots_eq_map_ok {closer : Token} {groups found : List (List Token)}
    (same : slots closer groups = found.map .ok) : found = groups := by
  induction groups generalizing found with
  | nil => simpa [slots] using same.symm
  | cons group groups ih =>
    cases found with
    | nil => simp [slots] at same
    | cons first found =>
      simp only [slots, List.map_cons, List.cons.injEq] at same
      obtain ⟨head, tail⟩ := same
      split at head
      · cases head
      · cases head
        rw [ih tail]

theorem parts_eq_map_ok {inner : List Token} {closer : Token} {found : List (List Token)}
    (same : parts inner closer = found.map .ok) : found = argGroups inner := by
  simp only [parts] at same
  unfold argGroups
  split
  · rename_i empty
    simpa [empty] using same.symm
  · rename_i filled
    rw [if_neg filled] at same
    exact slots_eq_map_ok same

theorem items_eq_map_ok {inner : List Token} {found : List (List Token)}
    (same : items inner = found.map .ok) : found = (split "," inner).filter fun group => !group.isEmpty := by
  have injective : Function.Injective (Except.ok : List Token → Slot) := fun a b equal => by cases equal; rfl
  exact (List.map_injective_iff.mpr injective same).symm

/-! ### From the shape to the form -/

private theorem ofTokens_compound {first second : Token} {rest : List Token} (other : first.text ≠ "(") :
    ofTokens (first :: second :: rest) = ofCompound first second rest := by
  rw [ofTokens, unwrap_of_none (wrapped?_other other)]

theorem ofTokens_list {opener closer : Token} {inner : List Token} (span : Span .curly opener inner closer) :
    ofTokens (opener :: inner ++ [closer]) = .ok (.list (items inner)) := by
  have opens : opener.text = "\x7b" := span.opens
  have wrapped : wrapped? "\x7b" "\x7d" (opener :: inner ++ [closer]) = some (inner, closer) :=
    (wrapped?_eq_some_iff .curly).mpr ⟨opener, rfl, span⟩
  obtain ⟨second, rest, same⟩ := List.exists_cons_of_ne_nil (l := inner ++ [closer]) (by simp)
  rw [List.cons_append, same] at wrapped ⊢
  rw [ofTokens_compound (by rw [opens]; decide), ofCompound]
  simp only [wrapped]

theorem ofTokens_vector {opener closer : Token} {inner : List Token} (span : Span .angle opener inner closer)
    (filled : inner ≠ []) : ofTokens (opener :: inner ++ [closer]) = .ok (.vector (parts inner closer)) := by
  have opens : opener.text = "<" := span.opens
  have wrapped : wrapped? "<" ">" (opener :: inner ++ [closer]) = some (inner, closer) :=
    (wrapped?_eq_some_iff .angle).mpr ⟨opener, rfl, span⟩
  obtain ⟨second, rest, same⟩ := List.exists_cons_of_ne_nil (l := inner ++ [closer]) (by simp)
  rw [List.cons_append, same] at wrapped ⊢
  rw [ofTokens_compound (by rw [opens]; decide), ofCompound]
  simp only [wrapped?_other (show opener.text ≠ "\x7b" by rw [opens]; decide), wrapped]
  simp [filled]

theorem ofTokens_literal {opener closer : Token} {inner : List Token} (literal : Literal opener inner closer) :
    ofTokens (opener :: inner ++ [closer]) = .ok (.leaf (.ofText (joined inner))) := by
  have opens : opener.text = quoteMark := literal.opens
  have wrapped : wrapped? quoteMark quoteMark (opener :: inner ++ [closer]) = some (inner, closer) :=
    wrapped?_literal_iff.mpr ⟨opener, rfl, literal⟩
  obtain ⟨second, rest, same⟩ := List.exists_cons_of_ne_nil (l := inner ++ [closer]) (by simp)
  rw [List.cons_append, same] at wrapped ⊢
  rw [ofTokens_compound (by rw [opens]; decide), ofCompound]
  simp only [wrapped?_other (show opener.text ≠ "\x7b" by rw [opens]; decide),
    wrapped?_other (show opener.text ≠ "<" by rw [opens]; decide), wrapped]

theorem ofTokens_delegate {opener closer : Token} {inner : List Token} (span : Span .square opener inner closer) :
    ofTokens (opener :: inner ++ [closer]) = ofDelegate opener inner closer := by
  have opens : opener.text = "[" := span.opens
  have search : enclosed? "[" "]" 0 false (inner ++ [closer]) = some ⟨inner, closer, []⟩ :=
    (enclosed?_eq_some_iff .square).mpr ⟨rfl, span.closes, span.balanced⟩
  have other {left right : String} {rest : List Token} (plain : left ≠ "[") :
      wrapped? left right (opener :: rest) = none :=
    wrapped?_other (by rw [opens]; exact Ne.symm plain)
  obtain ⟨second, rest, same⟩ := List.exists_cons_of_ne_nil (l := inner ++ [closer]) (by simp)
  rw [same] at search
  rw [List.cons_append, same, ofTokens_compound (by rw [opens]; decide), ofCompound]
  simp only [other (show "\x7b" ≠ "[" by decide), other (show "<" ≠ "[" by decide),
    other (show quoteMark ≠ "[" by decide), opens, search]
  rfl

theorem ofTokens_call {name opener closer : Token} {inner : List Token} (letters : isLetters name.text = true)
    (span : Span .round opener inner closer) :
    ofTokens (name :: opener :: inner ++ [closer]) = .ok (.call name.text (parts inner closer)) := by
  have unmarked := isMark_letters letters
  have opens : opener.text = "(" := span.opens
  have search : enclosed? "(" ")" 0 false (inner ++ [closer]) = some ⟨inner, closer, []⟩ :=
    (enclosed?_eq_some_iff .round).mpr ⟨rfl, span.closes, span.balanced⟩
  have other {left right : String} {rest : List Token} (marked : isMark left = true) :
      wrapped? left right (name :: rest) = none := wrapped?_other (ne_of_unmarked unmarked marked)
  rw [List.cons_append, List.cons_append, ofTokens_compound (ne_of_unmarked unmarked (by decide)), ofCompound]
  simp only [other (show isMark "\x7b" = true by decide), other (show isMark "<" = true by decide),
    other (show isMark quoteMark = true by decide), if_neg (ne_of_unmarked unmarked (show isMark "-" = true by decide)),
    if_neg (ne_of_unmarked unmarked (show isMark "[" = true by decide)), letters, opens, search]
  rfl

/-- Two operands with an operator between them. -/
theorem ofTokens_operation {left right : List Token} {t : Token} {op : Op} (first : Operand left)
    (second : Operand right) (operator : Op.ofSymbol? t.text = some op) :
    ofTokens (left ++ t :: right) = .ok (.binary op left right) := by
  obtain ⟨before, filled, silent, seen⟩ := outline_operand first 0
  obtain ⟨after, _, silentAfter, seenAfter⟩ := outline_operand second (0 + left.length + 1)
  have entries : outline 0 (left ++ t :: right) = .ok (before ++ (left.length, t) :: after) := by
    have rest := seenAfter []
    rw [List.append_nil, outline] at rest
    rw [seen, outline_single (closerOf?_operator operator), rest]
    simp [Except.map]
  have operators : binaryOperators false (before ++ (left.length, t) :: after) = [(left.length, op)] := by
    have none : binaryOperators true after = [] := by
      cases after with
      | nil => rfl
      | cons entry others =>
        have passed := binaryOperators_silent (by simp) silentAfter true []
        rw [List.append_nil] at passed
        rw [passed]
        rfl
    rw [binaryOperators_silent filled silent, binaryOperators, operator]
    simp [none]
  rw [ofTokens_operand first operator, ofBinary, entries]
  simp [operators, weakest?, first.ne_nil, second.ne_nil]

theorem slots_of_filled {closer : Token} {groups : List (List Token)} (filled : ∀ group ∈ groups, group ≠ []) :
    slots closer groups = groups.map .ok := by
  induction groups with
  | nil => rfl
  | cons group groups ih =>
    have first : group.isEmpty = false := by simpa using filled group (by simp)
    have others := ih fun other member => filled other (by simp [member])
    simp [slots, first, others]

end Form

/-! ### Induction over what is read -/

/-- What holds of the second of two related elements each holds of all elements of the second list. -/
theorem forall_of_forall₂ {α β : Type} {R : α → β → Prop} {holds : β → Prop} {first : List α} {second : List β}
    (each : List.Forall₂ (fun a b => R a b ∧ holds b) first second) : ∀ b ∈ second, holds b :=
  ((List.forall₂_and_left second first).mp (each.flip.imp fun _ _ both => both.symm)).1

namespace Expr

/-- How tokens are read as an expression, if `part` says how its parts are. -/
inductive Reading (part : List Token → Expr → Prop) : List Token → Expr → Prop
  | number {t : Token} {x : Float} (value : Number.read? t.text = some x) : Reading part [t] (.num x)
  | name {t : Token} (word : Number.read? t.text = none) (unmarked : isMark t.text = false) :
      Reading part [t] (.var t.text)
  | parens {opener closer : Token} {inner : List Token} {expr : Expr} (span : Span .round opener inner closer)
      (inside : part inner expr) : Reading part (opener :: inner ++ [closer]) expr
  | literal {opener closer : Token} {inner : List Token} (literal : Literal opener inner closer) :
      Reading part (opener :: inner ++ [closer]) (.ofText (joined inner))
  | list {opener closer : Token} {inner : List Token} {elems : List Expr} (span : Span .curly opener inner closer)
      (each : List.Forall₂ part ((split "," inner).filter fun group => !group.isEmpty) elems) :
      Reading part (opener :: inner ++ [closer]) (.list elems)
  | vector {opener closer : Token} {inner : List Token} {elems : List Expr} (span : Span .angle opener inner closer)
      (each : List.Forall₂ part (split "," inner) elems) : Reading part (opener :: inner ++ [closer]) (.vector elems)
  | call {name opener closer : Token} {inner : List Token} {args : List Expr} (letters : isLetters name.text = true)
      (span : Span .round opener inner closer) (each : List.Forall₂ part (Form.argGroups inner) args) :
      Reading part (name :: opener :: inner ++ [closer]) (.call name.text args)
  | delegate {opener closer : Token} {inner before body : List Token} {params : List String}
      (span : Span .square opener inner closer) (cut : Form.cutAtColon? inner = some (before, body))
      (names : Form.paramNames? before = some params) (filled : body ≠ []) :
      Reading part (opener :: inner ++ [closer]) (.delegate ⟨params, joined body⟩)
  | binary {tokens whole left right : List Token} {t : Token} {op : Op} {l r : Expr}
      (operation : Form.Operation tokens whole) (parted : whole = left ++ t :: right)
      (operator : Op.ofSymbol? t.text = some op) (first : part left l) (second : part right r) :
      Reading part tokens (.binary op l r)

theorem Reading.imp {part other : List Token → Expr → Prop} {tokens : List Token} {expr : Expr}
    (reading : Reading part tokens expr) (each : ∀ {tokens expr}, part tokens expr → other tokens expr) :
    Reading other tokens expr := by
  cases reading with
  | number value => exact .number value
  | name word unmarked => exact .name word unmarked
  | parens span inside => exact .parens span (each inside)
  | literal literal => exact .literal literal
  | list span parts => exact .list span (parts.imp fun _ _ => each)
  | vector span parts => exact .vector span (parts.imp fun _ _ => each)
  | call letters span parts => exact .call letters span (parts.imp fun _ _ => each)
  | delegate span cut names filled => exact .delegate span cut names filled
  | binary operation parted operator first second => exact .binary operation parted operator (each first) (each second)

/-- Tokens that are read have lighter parts that are read. -/
theorem reading_light {tokens : List Token} {expr : Expr} (read : ofTokens tokens = .ok expr) :
    Reading (fun part e => weight part < weight tokens ∧ ofTokens part = .ok e) tokens expr := by
  have each {slots : List Slot} {groups : List (List Token)} {exprs : List Expr}
      (light : ∀ part, .ok part ∈ slots → weight part < weight tokens) (same : slots = groups.map .ok)
      (reads : List.Forall₂ (fun group expr => ofTokens group = .ok expr) groups exprs) :
      List.Forall₂ (fun part e => weight part < weight tokens ∧ ofTokens part = .ok e) groups exprs := by
    subst same
    induction reads with
    | nil => exact .nil
    | cons first _ others =>
      refine .cons ⟨light _ (by simp), first⟩ (others fun part member => light part ?_)
      exact List.mem_cons_of_mem _ member
  rw [ofTokens_eq] at read
  cases found : Form.ofTokens tokens with
  | error e => rw [found] at read; cases read
  | ok form =>
    rw [found] at read
    replace read : form.read = .ok expr := read
    rcases Form.ofTokens_shape found with ⟨opener, closer, inner, rfl, span, filled, same⟩ | shape
    · have lighter : weight inner < weight (opener :: inner ++ [closer]) :=
        weight_wrapped ((wrapped?_eq_some_iff .round).mpr ⟨opener, rfl, span⟩)
      refine .parens span ⟨lighter, ?_⟩
      rw [ofTokens_eq, same]
      exact read
    · cases shape with
      | number value => cases read; exact .number value
      | name word unmarked => cases read; exact .name word unmarked
      | literal isLiteral => cases read; exact .literal isLiteral
      | delegate span cut names filled => cases read; exact .delegate span cut names filled
      | list span =>
        obtain ⟨elems, reads, rfl⟩ := Except.map_eq_ok_iff.mp read
        obtain ⟨groups, same, reads⟩ := Slot.readEach_eq_ok_iff.mp reads
        obtain rfl := Form.items_eq_map_ok same
        exact .list span (each (Form.slot_light found rfl) same reads)
      | vector span filled =>
        obtain ⟨elems, reads, rfl⟩ := Except.map_eq_ok_iff.mp read
        obtain ⟨groups, same, reads⟩ := Slot.readEach_eq_ok_iff.mp reads
        have groupsEq := Form.parts_eq_map_ok same
        rw [Form.argGroups, if_neg (by simpa using filled)] at groupsEq
        subst groupsEq
        exact .vector span (each (Form.slot_light found rfl) same reads)
      | call letters span =>
        obtain ⟨args, reads, rfl⟩ := Except.map_eq_ok_iff.mp read
        obtain ⟨groups, same, reads⟩ := Slot.readEach_eq_ok_iff.mp reads
        obtain rfl := Form.parts_eq_map_ok same
        exact .call letters span (each (Form.slot_light found rfl) same reads)
      | binary operation parted operator =>
        have light := Form.weight_ofTokens found
        simp only [Form.read] at read
        split at read
        · cases read
        · rename_i l left
          split at read
          · cases read
          · rename_i r right
            cases read
            exact .binary operation parted operator ⟨light _ (by simp [Form.operands]), left⟩
              ⟨light _ (by simp [Form.operands]), right⟩

/-- How tokens that are read are read. -/
theorem reading_of_ofTokens {tokens : List Token} {expr : Expr} (read : ofTokens tokens = .ok expr) :
    Reading (fun part e => ofTokens part = .ok e) tokens expr :=
  (reading_light read).imp fun part => part.2

/-- What is handed on from the parts, which are read themselves, holds of all tokens that are read. -/
theorem reads_induction {motive : List Token → Expr → Prop}
    (step : ∀ {tokens : List Token} {expr : Expr},
      Reading (fun part e => ofTokens part = .ok e ∧ motive part e) tokens expr → motive tokens expr)
    {tokens : List Token} {expr : Expr} (read : ofTokens tokens = .ok expr) : motive tokens expr := by
  induction size : weight tokens using Nat.strongRecOn generalizing tokens expr with
  | _ size ih =>
  subst size
  exact step ((reading_light read).imp fun part => ⟨part.2, ih _ part.1 part.2 rfl⟩)

end Expr

end Reckon
