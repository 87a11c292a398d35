import Reckon.Proofs.Delegates

/-!
Columns do not matter. Each step of reading commutes with taking the columns off the tokens, as it looks at their texts
only and hands the columns on to its errors (`Form.ofTokens_bare`). So tokens with the same texts are read as the same
expression, or fail alike but for the column (`Expr.bared_of_texts`), and so are sources that differ in the blanks
between their tokens only (`Expr.parse?_spacing`).
-/

namespace Reckon

/-! ### Tokens without columns -/

namespace Token

/-- A token without its column. -/
def bare (t : Token) : Token := ⟨t.text, 0⟩

@[simp]
theorem text_bare (t : Token) : t.bare.text = t.text := rfl

theorem bare_mk (text : String) (column : Nat) : bare ⟨text, column⟩ = ⟨text, 0⟩ := rfl

theorem texts_bare (tokens : List Token) : texts (tokens.map bare) = texts tokens := by
  simp [texts]

theorem joined_bare (tokens : List Token) : joined (tokens.map bare) = joined tokens := by
  rw [joined, texts_bare, joined]

/-- Tokens with the same texts are the same without their columns. -/
theorem map_bare_of_texts {tokens tokens' : List Token} (same : texts tokens = texts tokens') :
    tokens.map bare = tokens'.map bare := by
  have whole (tokens : List Token) : tokens.map bare = (texts tokens).map fun text => ⟨text, 0⟩ := by
    simp [texts, bare]
  rw [whole, whole, same]

/-- What is enclosed, without columns. -/
def Enclosed.bare (found : Enclosed) : Enclosed := ⟨found.inner.map Token.bare, found.closer.bare, found.rest.map Token.bare⟩

theorem enclosed?_bare (opener closer : String) (nesting : Nat) (quoted : Bool) (tokens : List Token) :
    enclosed? opener closer nesting quoted (tokens.map bare) =
      (enclosed? opener closer nesting quoted tokens).map Enclosed.bare := by
  have push (t : Token) (found : Option Enclosed) :
      (found.map Enclosed.bare).map (.push t.bare) = (found.map (.push t)).map Enclosed.bare := by
    cases found <;> rfl
  induction tokens generalizing nesting quoted with
  | nil => cases quoted <;> rfl
  | cons t rest ih =>
    obtain ⟨text, column⟩ := t
    rw [List.map_cons, bare_mk]
    cases quoted with
    | true =>
      rw [enclosed?, enclosed?, ih]
      exact push ⟨text, column⟩ _
    | false =>
      simp only [enclosed?, ih]
      split
      · cases nesting with
        | zero => rfl
        | succ outer => exact push ⟨text, column⟩ _
      · split
        · exact push ⟨text, column⟩ _
        · exact push ⟨text, column⟩ _

theorem wrapped?_bare (opener closer : String) (tokens : List Token) : wrapped? opener closer (tokens.map bare) =
    (wrapped? opener closer tokens).map fun (inner, last) => (inner.map bare, last.bare) := by
  cases tokens with
  | nil => rfl
  | cons t rest =>
    simp only [List.map_cons, wrapped?, text_bare, enclosed?_bare]
    split
    · cases enclosed? opener closer 0 false rest with
      | none => rfl
      | some found =>
        obtain ⟨inner, last, after⟩ := found
        cases after <;> rfl
    · rfl

theorem intoFirst_bare (tokens : List Token) (groups : List (List Token)) :
    intoFirst (tokens.map bare) (groups.map (List.map bare)) = (intoFirst tokens groups).map (List.map bare) := by
  cases groups <;> simp [intoFirst]

/-- What is found to be enclosed is enclosed without its columns too. -/
theorem encloses_bare {t : Token} {closer : String} {rest inner after : List Token} {last : Token}
    (closes : closerOf? t.text = some closer) (found : enclosed? t.text closer 0 false rest = some ⟨inner, last, after⟩) :
    Encloses t.bare (inner.map bare) last.bare ∧ rest.map bare = inner.map bare ++ last.bare :: after.map bare := by
  have search : enclosed? t.bare.text closer 0 false (rest.map bare) =
      some ⟨inner.map bare, last.bare, after.map bare⟩ := by
    rw [enclosed?_bare, text_bare, found]
    rfl
  exact ⟨encloses_of_search closes search, by rw [enclosed?_eq_some found]; simp⟩

theorem split_bare (separator : String) (tokens : List Token) :
    split separator (tokens.map bare) = (split separator tokens).map (List.map bare) := by
  fun_induction split separator tokens with
  | case1 =>
    rw [List.map_nil, split]
    rfl
  | case2 t rest closer closes inner last after found ih =>
    obtain ⟨encloses, same⟩ := encloses_bare closes found
    have whole := split_encloses encloses separator (after.map bare)
    rw [List.cons_append, ← same] at whole
    rw [List.map_cons, whole, ih, ← intoFirst_bare]
    simp
  | case3 t rest closer closes missing =>
    have search : enclosed? t.bare.text closer 0 false (rest.map bare) = none := by
      rw [enclosed?_bare, text_bare, missing]
      rfl
    exact split_unclosed separator closes search
  | case4 t rest single same ih =>
    rw [List.map_cons, split]
    split
    · rename_i closer closes
      rw [text_bare, single] at closes
      cases closes
    · rw [if_pos (show t.bare.text = separator from same), ih]
      rfl
  | case5 t rest single other ih =>
    have whole := split_single (t := t.bare) single other (rest.map bare)
    rw [List.map_cons, whole, ih, ← intoFirst_bare]
    rfl

end Token

/-! ### Results without columns -/

/-- An error without its column. -/
def ParseError.bare : ParseError → ParseError
  | token _ text => .token 0 text
  | operator _ symbol => .operator 0 symbol
  | bracket _ opener closer => .bracket 0 opener closer
  | empty _ near => .empty 0 near

/-- What is made of a result, or the error without its column. -/
def bared {α β : Type} (f : α → β) : Except ParseError α → Except ParseError β
  | .ok a => .ok (f a)
  | .error e => .error e.bare

/-- A part without columns. -/
def Slot.bare : Slot → Slot := bared (List.map Token.bare)

namespace Form
open Token

/-- A form whose parts have no columns. -/
def bare : Form → Form
  | leaf expr => .leaf expr
  | list items => .list (items.map Slot.bare)
  | vector items => .vector (items.map Slot.bare)
  | call name args => .call name (args.map Slot.bare)
  | binary op left right => .binary op (left.map Token.bare) (right.map Token.bare)

theorem unwrap_bare (tokens : List Token) :
    unwrap (tokens.map Token.bare) = bared (List.map Token.bare) (unwrap tokens) := by
  have wrapped (tokens : List Token) := wrapped?_bare "(" ")" tokens
  fun_induction unwrap tokens with
  | case1 tokens none =>
    refine unwrap_of_none ?_
    rw [wrapped, none]
    rfl
  | case2 tokens closer found =>
    have empty : wrapped? "(" ")" (tokens.map Token.bare) = some ([], closer.bare) := by
      rw [wrapped, found]
      rfl
    exact unwrap_of_empty empty
  | case3 tokens t inner closer found ih =>
    rw [← ih]
    have inside : wrapped? "(" ")" (tokens.map Token.bare) = some ((t :: inner).map Token.bare, closer.bare) := by
      rw [wrapped, found]
      rfl
    exact unwrap_of_some (by simp) inside

theorem ofToken_bare (t : Token) : ofToken t.bare = bared bare (ofToken t) := by
  rw [ofToken, ofToken, text_bare]
  cases Number.read? t.text with
  | some x => rfl
  | none =>
    cases marked : isMark t.text with
    | true => simp [bared, ParseError.bare, Token.bare]
    | false => simp [bared, bare]

theorem slots_bare (closer : Token) (groups : List (List Token)) :
    slots closer.bare (groups.map (List.map Token.bare)) = (slots closer groups).map Slot.bare := by
  induction groups with
  | nil => rfl
  | cons group groups ih =>
    have near : ((groups.map (List.map Token.bare)).head?.bind List.head?).getD closer.bare =
        ((groups.head?.bind List.head?).getD closer).bare := by
      cases groups with
      | nil => rfl
      | cons next groups => cases next <;> rfl
    simp only [List.map_cons, slots, ih, near, List.isEmpty_map]
    congr 1
    split <;> rfl

theorem parts_bare (inner : List Token) (closer : Token) :
    parts (inner.map Token.bare) closer.bare = (parts inner closer).map Slot.bare := by
  simp only [parts, List.isEmpty_map, split_bare, slots_bare]
  split <;> rfl

theorem items_bare (inner : List Token) : items (inner.map Token.bare) = (items inner).map Slot.bare := by
  have filled : ((fun group : List Token => !group.isEmpty) ∘ List.map Token.bare) = fun group => !group.isEmpty := by
    funext group
    simp
  simp only [items, split_bare, List.filter_map, List.map_map, filled]
  rfl

theorem cutAtColon?_bare (tokens : List Token) : cutAtColon? (tokens.map Token.bare) =
    (cutAtColon? tokens).map fun (before, body) => (before.map Token.bare, body.map Token.bare) := by
  have search (t : Token) (rest : List Token) :
      ((closerOf? t.bare.text).bind fun closer => enclosed? t.bare.text closer 0 false (rest.map Token.bare)) =
        ((closerOf? t.text).bind fun closer => enclosed? t.text closer 0 false rest).map Enclosed.bare := by
    cases closes : closerOf? t.text with
    | none => simp [closes]
    | some closer => simp [closes, enclosed?_bare]
  fun_induction cutAtColon? tokens with
  | case1 =>
    rw [List.map_nil, cutAtColon?]
    rfl
  | case2 t rest marks =>
    rw [List.map_cons, cutAtColon?, if_pos (show t.bare.text = ":" from marks)]
    rfl
  | case3 t rest other inner last after found ih =>
    rw [List.map_cons, cutAtColon?, if_neg (show t.bare.text ≠ ":" from other)]
    split
    · rename_i found'
      rw [search, found] at found'
      cases found'
      rw [ih]
      cases cutAtColon? after <;> simp
    · rename_i missing
      rw [search, found] at missing
      cases missing
  | case4 t rest other missing ih =>
    rw [List.map_cons, cutAtColon?, if_neg (show t.bare.text ≠ ":" from other)]
    split
    · rename_i found
      rw [search, missing] at found
      cases found
    · rw [ih]
      cases cutAtColon? rest <;> rfl

theorem paramNames?_bare (tokens : List Token) : paramNames? (tokens.map Token.bare) = paramNames? tokens := by
  simp only [paramNames?, List.isEmpty_map, split_bare, List.mapM_map]
  congr 2
  funext group
  cases group with
  | nil => rfl
  | cons t rest => cases rest <;> rfl

theorem ofDelegate_bare (opener : Token) (inner : List Token) (closer : Token) :
    ofDelegate opener.bare (inner.map Token.bare) closer.bare = bared bare (ofDelegate opener inner closer) := by
  have whole : joined (opener.bare :: inner.map Token.bare ++ [closer.bare]) = joined (opener :: inner ++ [closer]) := by
    simpa using joined_bare (opener :: inner ++ [closer])
  simp only [ofDelegate, cutAtColon?_bare, whole]
  cases cutAtColon? inner with
  | none => rfl
  | some parts =>
    obtain ⟨before, body⟩ := parts
    simp only [Option.map_some, paramNames?_bare, joined_bare, List.isEmpty_map]
    cases paramNames? before with
    | none => rfl
    | some params =>
      simp only
      split <;> rfl

/-- Tokens with their indices, without their columns. -/
def bareEntry (entry : Nat × Token) : Nat × Token := (entry.1, entry.2.bare)

theorem outline_unclosed {t : Token} {text : String} {rest : List Token} (closes : closerOf? t.text = some text)
    (missing : enclosed? t.text text 0 false rest = none) (index : Nat) :
    outline index (t :: rest) = .error (.bracket t.column t.text text) := by
  rw [outline]
  split
  · rename_i other same
    obtain rfl : text = other := Option.some.inj (closes.symm.trans same)
    split
    · rename_i found
      rw [missing] at found
      cases found
    · rfl
  · rename_i none
    rw [closes] at none
    cases none

theorem outline_bare (index : Nat) (tokens : List Token) :
    outline index (tokens.map Token.bare) = bared (List.map bareEntry) (outline index tokens) := by
  have step (entry : Nat × Token) (rest : Except ParseError (List (Nat × Token))) :
      (bared (List.map bareEntry) rest).map (bareEntry entry :: ·) =
        bared (List.map bareEntry) (rest.map (entry :: ·)) := by
    cases rest <;> rfl
  fun_induction outline index tokens with
  | case1 index =>
    rw [List.map_nil, outline]
    rfl
  | case2 index t rest closer closes inner last after found ih =>
    obtain ⟨encloses, same⟩ := encloses_bare closes found
    have whole := outline_encloses encloses index (after.map Token.bare)
    rw [List.cons_append, ← same, List.length_map] at whole
    rw [List.map_cons, whole, ih]
    exact step (index, t) _
  | case3 index t rest closer closes missing =>
    have search : enclosed? t.bare.text closer 0 false (rest.map Token.bare) = none := by
      rw [enclosed?_bare, text_bare, missing]
      rfl
    exact outline_unclosed (t := t.bare) closes search index
  | case4 index t rest single ih =>
    have whole := outline_single (t := t.bare) single index (rest.map Token.bare)
    rw [List.map_cons, whole, ih]
    exact step (index, t) _

theorem binaryOperators_bare (after : Bool) (entries : List (Nat × Token)) :
    binaryOperators after (entries.map bareEntry) = binaryOperators after entries := by
  induction entries generalizing after with
  | nil => rfl
  | cons entry entries ih =>
    obtain ⟨index, text, column⟩ := entry
    simp only [List.map_cons, bareEntry, bare_mk, binaryOperators, ih]

theorem ofBinary_bare (tokens : List Token) : ofBinary (tokens.map Token.bare) = bared bare (ofBinary tokens) := by
  have strange : ((fun entry : Nat × Token => isStranger entry.2) ∘ bareEntry) = fun entry => isStranger entry.2 := rfl
  simp only [ofBinary, outline_bare]
  cases outline 0 tokens with
  | error e => rfl
  | ok entries =>
    simp only [bared, binaryOperators_bare, List.find?_map, strange, joined_bare, ← List.map_drop, ← List.map_take,
      List.isEmpty_map]
    cases weakest? (binaryOperators false entries) with
    | none =>
      simp only
      cases entries.find? fun entry => isStranger entry.2 with
      | none =>
        cases tokens <;> rfl
      | some entry => rfl
    | some operator =>
      obtain ⟨index, op⟩ := operator
      simp only
      cases tokens.drop index with
      | nil => rfl
      | cons t right =>
        simp only [List.map_cons, List.isEmpty_map]
        split <;> rfl

theorem ofNegation_bare (minus : Token) (operand : List Token) :
    ofNegation minus.bare (operand.map Token.bare) = bared bare (ofNegation minus operand) := by
  have lastColumn : ((operand.map Token.bare).getLast?.map column).getD minus.bare.column = 0 := by
    rw [List.getLast?_map]
    cases operand.getLast? <;> rfl
  have subtraction (last : Nat) :
      Token.mk "(" minus.bare.column :: Token.mk "0" minus.bare.column :: minus.bare :: operand.map Token.bare ++
          [Token.mk ")" 0] =
        (Token.mk "(" minus.column :: Token.mk "0" minus.column :: minus :: operand ++ [Token.mk ")" last]).map
          Token.bare := by
    simp [Token.bare]
  simp only [ofNegation, lastColumn]
  rw [subtraction ((operand.getLast?.map column).getD minus.column), wrapped?_bare]
  cases wrapped? "(" ")" _ with
  | none => exact ofBinary_bare _
  | some pair => exact ofBinary_bare pair.1

theorem ofCompound_bare (first second : Token) (rest : List Token) :
    ofCompound first.bare second.bare (rest.map Token.bare) = bared bare (ofCompound first second rest) := by
  have whole : first.bare :: second.bare :: rest.map Token.bare = (first :: second :: rest).map Token.bare := rfl
  have binary := ofBinary_bare (first :: second :: rest)
  simp only [ofCompound, whole, wrapped?_bare]
  cases wrapped? "\x7b" "\x7d" (first :: second :: rest) with
  | some pair => simp [bared, bare, items_bare]
  | none =>
    cases wrapped? "<" ">" (first :: second :: rest) with
    | some pair =>
      simp only [Option.map_none, Option.map_some, List.isEmpty_map, parts_bare]
      split <;> rfl
    | none =>
      cases wrapped? quoteMark quoteMark (first :: second :: rest) with
      | some pair => simp [bared, bare, joined_bare]
      | none =>
        have square := enclosed?_bare "[" "]" 0 false (second :: rest)
        have round := enclosed?_bare "(" ")" 0 false rest
        have named : (isLetters first.bare.text && decide (second.bare.text = "(")) =
            (isLetters first.text && decide (second.text = "(")) := rfl
        rw [List.map_cons] at square
        simp only [Option.map_none]
        rw [named]
        simp only [text_bare, square, round, binary]
        by_cases sign : first.text = "-"
        · rw [if_pos sign, if_pos sign]
          exact ofNegation_bare first (second :: rest)
        · rw [if_neg sign, if_neg sign]
          by_cases opens : first.text = "["
          · rw [if_pos opens, if_pos opens]
            cases enclosed? "[" "]" 0 false (second :: rest) with
            | none => rfl
            | some found =>
              obtain ⟨inner, closer, after⟩ := found
              cases after with
              | nil => exact ofDelegate_bare first inner closer
              | cons t after => rfl
          · rw [if_neg opens, if_neg opens]
            by_cases called : (isLetters first.text && decide (second.text = "(")) = true
            · rw [if_pos called, if_pos called]
              cases enclosed? "(" ")" 0 false rest with
              | none => rfl
              | some found =>
                obtain ⟨inner, closer, after⟩ := found
                cases after with
                | nil => simp [Enclosed.bare, bared, bare, parts_bare]
                | cons t after => rfl
            · rw [if_neg called, if_neg called]

/-- The form of tokens does not depend on their columns. -/
theorem ofTokens_bare (tokens : List Token) : ofTokens (tokens.map Token.bare) = bared bare (ofTokens tokens) := by
  rw [ofTokens, ofTokens, unwrap_bare]
  cases unwrap tokens with
  | error e => rfl
  | ok tokens =>
    cases tokens with
    | nil => rfl
    | cons first rest =>
      cases rest with
      | nil => exact ofToken_bare first
      | cons second rest => exact ofCompound_bare first second rest

end Form

/-! ### Expressions -/

theorem bared_map {α β : Type} (f : α → β) (result : Except ParseError α) :
    (bared id result).map f = bared id (result.map f) := by
  cases result <;> rfl

/-- Results are the same without columns if both are the same, or both are errors that differ in the column only. -/
theorem bared_eq_iff {α : Type} {first second : Except ParseError α} : bared id first = bared id second ↔
    (∃ result, first = .ok result ∧ second = .ok result) ∨
      ∃ error error', first = .error error ∧ second = .error error' ∧ error.bare = error'.bare := by
  cases first with
  | ok result => cases second <;> simp [bared, eq_comm]
  | error error => cases second <;> simp [bared]

/-- Parts without columns are read as the parts are, if each of them is. -/
theorem Slot.readEach_bare {slots : List Slot}
    (each : ∀ tokens, .ok tokens ∈ slots → Expr.ofTokens (tokens.map Token.bare) = bared id (Expr.ofTokens tokens)) :
    Slot.readEach (slots.map Slot.bare) = bared id (Slot.readEach slots) := by
  induction slots with
  | nil => rfl
  | cons slot rest ih =>
    have others := ih fun tokens member => each tokens (List.mem_cons_of_mem _ member)
    cases slot with
    | error e => rfl
    | ok tokens =>
      have first := each tokens List.mem_cons_self
      rw [List.map_cons, show Slot.bare (.ok tokens) = .ok (tokens.map Token.bare) from rfl]
      simp only [readEach, first, others]
      cases Expr.ofTokens tokens with
      | error e => rfl
      | ok expr => cases readEach rest <;> rfl

/-- A form without columns is read as the form is, if its parts are. -/
theorem Form.read_bare {form : Form} (each : ∀ part ∈ form.operands,
    Expr.ofTokens (part.map Token.bare) = bared id (Expr.ofTokens part)) : form.bare.read = bared id form.read := by
  have slots {slots : List Slot} (same : form.operands = slots.filterMap Except.toOption) :
      Slot.readEach (slots.map Slot.bare) = bared id (Slot.readEach slots) :=
    Slot.readEach_bare fun tokens member => each tokens (same ▸ List.mem_filterMap.mpr ⟨_, member, rfl⟩)
  cases form with
  | leaf expr => rfl
  | list items => simp only [bare, read, slots rfl, bared_map]
  | vector items => simp only [bare, read, slots rfl, bared_map]
  | call name args => simp only [bare, read, slots rfl, bared_map]
  | binary op left right =>
    have first := each left (by simp [operands])
    have second := each right (by simp [operands])
    simp only [bare, read, first, second]
    cases Expr.ofTokens left with
    | error e => rfl
    | ok l => cases Expr.ofTokens right <;> rfl

namespace Expr
open Token

theorem ofTokens_bare (tokens : List Token) : ofTokens (tokens.map Token.bare) = bared id (ofTokens tokens) := by
  induction size : weight tokens using Nat.strongRecOn generalizing tokens with
  | _ size ih =>
  subst size
  rw [ofTokens_eq, ofTokens_eq, Form.ofTokens_bare]
  cases found : Form.ofTokens tokens with
  | error e => rfl
  | ok form => exact Form.read_bare fun part member => ih _ (Form.weight_ofTokens found part member) part rfl

/-- Tokens with the same texts are read as the same expression, or fail alike but for the column. -/
theorem bared_of_texts {tokens tokens' : List Token} (same : Token.texts tokens = Token.texts tokens') :
    bared id (ofTokens tokens) = bared id (ofTokens tokens') := by
  rw [← ofTokens_bare, ← ofTokens_bare, map_bare_of_texts same]

theorem eq_ok_iff_of_texts {tokens tokens' : List Token} (same : Token.texts tokens = Token.texts tokens') (e : Expr) :
    ofTokens tokens = .ok e ↔ ofTokens tokens' = .ok e := by
  have kept (result : Except ParseError Expr) : bared id result = .ok e ↔ result = .ok e := by
    cases result <;> simp [bared]
  rw [← kept, bared_of_texts same, kept]

theorem bared_parse? {source source' : String} (same : Token.texts (lex source) = Token.texts (lex source')) :
    bared id (parse? source) = bared id (parse? source') := by
  have empty : (lex source).isEmpty = (lex source').isEmpty := by
    have texts := congrArg List.isEmpty same
    simpa [Token.texts] using texts
  simp only [parse?, empty]
  split
  · rfl
  · rw [← bared_map, bared_of_texts same, bared_map]

/-- Sources with the same tokens, wherever these stand, are read as the same expression, or fail alike but for the
    column. -/
theorem parse?_spacing {source source' : String} (same : Token.texts (lex source) = Token.texts (lex source')) :
    (∃ result, parse? source = .ok result ∧ parse? source' = .ok result) ∨
      ∃ error error', parse? source = .error error ∧ parse? source' = .error error' ∧ error.bare = error'.bare :=
  bared_eq_iff.mp (bared_parse? same)

/-- Blanks move the bracket that is not closed, and nothing else. -/
theorem parse?_spacing_unclosed :
    let source := "1+(2"
    let source' := " 1 + (\n2 "
    Token.texts (lex source) = Token.texts (lex source') ∧
      ∃ error error', parse? source = .error error ∧ parse? source' = .error error' ∧ error.bare = error'.bare ∧
        error.column = 3 ∧ error'.column = 6 := by
  intro source source'
  have same : Token.texts (lex source) = Token.texts (lex source') := by decide +kernel
  have columns : (match parse? source, parse? source' with
      | .error error, .error error' => (error.column, error'.column)
      | _, _ => (0, 0)) = (3, 6) := by decide +kernel
  rcases parse?_spacing same with ⟨result, first, second⟩ | ⟨error, error', first, second, alike⟩
  · rw [first, second] at columns
    cases columns
  · rw [first, second] at columns
    exact ⟨same, error, error', first, second, alike, (Prod.mk.inj columns).1, (Prod.mk.inj columns).2⟩

end Expr

end Reckon
