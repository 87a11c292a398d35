import Reckon.Proofs.Brackets
import Reckon.Expr.Form

/-!
How tokens are cut into parts. The groups of a split are what stands between the
separators (`parted_split`). A span in brackets or quotes is passed over as a whole, by
the split as by the search for operators, and so is every operand: a word, a span, or a
word of letters before a span in parentheses (`Operand`). An operand followed by an
operator is read as a binary operation (`Form.ofTokens_operand`).
-/

namespace Reckon.Token

/-! ### Groups -/

/-- Tokens are groups with a separator between each two. -/
inductive Parted (separator : String) : List Token → List (List Token) → Prop
  | last (group : List Token) : Parted separator group [group]
  | more {t : Token} {rest : List Token} {groups : List (List Token)} (group : List Token)
      (separates : t.text = separator) (others : Parted separator rest groups) :
      Parted separator (group ++ t :: rest) (group :: groups)

theorem parted_intoFirst {separator : String} {rest : List Token} {groups : List (List Token)}
    (parted : Parted separator rest groups) (tokens : List Token) :
    Parted separator (tokens ++ rest) (intoFirst tokens groups) := by
  cases parted with
  | last group => exact .last _
  | more group separates others =>
    rw [← List.append_assoc]
    exact .more _ separates others

theorem Parted.ne_nil {separator : String} {tokens : List Token} {groups : List (List Token)}
    (parted : Parted separator tokens groups) : groups ≠ [] := by
  cases parted <;> simp

/-- The groups of a split, with the separators between them, are the tokens. -/
theorem parted_split (separator : String) (tokens : List Token) :
    Parted separator tokens (split separator tokens) := by
  fun_induction split separator tokens with
  | case1 => exact .last []
  | case2 t rest closer _ inner last after found ih =>
    have whole : t :: rest = (t :: inner ++ [last]) ++ after := by
      rw [enclosed?_eq_some found]
      simp
    rw [whole]
    exact parted_intoFirst ih _
  | case3 t rest => exact .last _
  | case4 t rest _ same ih => exact .more [] same ih
  | case5 t rest _ _ ih => exact parted_intoFirst ih [t]

/-- What holds of all groups and of a separator, and of texts one after another, holds of all. -/
theorem Parted.texts {separator : String} {tokens : List Token} {groups : List (List Token)}
    (parted : Parted separator tokens groups) {P : List String → Prop}
    (append : ∀ {left right}, P left → P right → P (left ++ right)) (single : P [separator])
    (each : ∀ group ∈ groups, P (Token.texts group)) : P (Token.texts tokens) := by
  induction parted with
  | last group => exact each group (by simp)
  | @more t rest groups group separates _ ih =>
    have first : P (Token.texts group) := each group (by simp)
    have others : P (Token.texts rest) := ih fun group member => each group (by simp [member])
    rw [texts_append, texts_cons, separates]
    exact append first (append single others)

theorem Parted.infix_of_mem {separator : String} {tokens : List Token} {groups : List (List Token)}
    (parted : Parted separator tokens groups) {group : List Token} (member : group ∈ groups) : group <:+: tokens := by
  induction parted with
  | last whole => exact List.mem_singleton.mp member ▸ List.infix_rfl
  | more first _ _ ih =>
    rcases List.mem_cons.mp member with rfl | member
    · exact (List.prefix_append _ _).isInfix
    · exact (ih member).trans (((List.suffix_cons _ _).trans (List.suffix_append _ _)).isInfix)

theorem Parted.texts_intercalate {separator : String} {tokens : List Token} {groups : List (List Token)}
    (parted : Parted separator tokens groups) :
    Token.texts tokens = [separator].intercalate (groups.map Token.texts) := by
  induction parted with
  | last group => simp
  | @more t rest groups group separates others ih =>
    obtain ⟨next, more, rfl⟩ := List.exists_cons_of_ne_nil others.ne_nil
    rw [texts_append, texts_cons, separates, ih]
    simp only [List.map_cons, List.intercalate_cons_cons, List.append_assoc, List.singleton_append]

/-! ### Spans -/

/-- An opening bracket or quote whose closing one is found in front of anything that follows. -/
def Encloses (opener : Token) (inner : List Token) (closer : Token) : Prop :=
  ∃ text, closerOf? opener.text = some text ∧
    ∀ rest, enclosed? opener.text text 0 false (inner ++ closer :: rest) = some ⟨inner, closer, rest⟩

theorem Span.encloses {kind : Bracket} {opener closer : Token} {inner : List Token}
    (span : Span kind opener inner closer) : Encloses opener inner closer := by
  refine ⟨kind.closer, by rw [span.opens, closerOf?_opener], fun rest => ?_⟩
  rw [span.opens]
  exact (enclosed?_eq_some_iff kind).mpr ⟨rfl, span.closes, span.balanced⟩

theorem Literal.encloses {opener closer : Token} {inner : List Token}
    (literal : Literal opener inner closer) : Encloses opener inner closer := by
  refine ⟨quoteMark, by rw [literal.opens]; decide, fun rest => ?_⟩
  rw [literal.opens]
  exact enclosed?_literal_iff.mpr ⟨rfl, literal.closes, literal.unquoted⟩

/-- What is enclosed is so in front of anything that follows. -/
theorem encloses_of_search {opener : Token} {text : String} {rest : List Token} {found : Enclosed}
    (closes : closerOf? opener.text = some text) (search : enclosed? opener.text text 0 false rest = some found) :
    Encloses opener found.inner found.closer := by
  rcases closerOf?_eq_some closes with ⟨kind, opens, rfl⟩ | ⟨opens, rfl⟩
  · rw [opens] at search
    obtain ⟨-, closing, balanced⟩ := (enclosed?_eq_some_iff kind).mp search
    exact Span.encloses ⟨opens, closing, balanced⟩
  · rw [opens] at search
    obtain ⟨-, closing, unquoted⟩ := enclosed?_literal_iff.mp search
    exact Literal.encloses ⟨opens, closing, unquoted⟩

/-- Nothing is enclosed in front if nothing is with more tokens behind. -/
theorem enclosed?_none_of_append {opener : Token} {text : String} {front : List Token}
    (closes : closerOf? opener.text = some text) (back : List Token)
    (missing : enclosed? opener.text text 0 false (front ++ back) = none) :
    enclosed? opener.text text 0 false front = none := by
  cases search : enclosed? opener.text text 0 false front with
  | none => rfl
  | some found =>
    obtain ⟨other, same, always⟩ := encloses_of_search closes search
    obtain rfl : text = other := Option.some.inj (closes.symm.trans same)
    have more := always (found.rest ++ back)
    rw [enclosed?_eq_some search, List.append_assoc, List.cons_append, more] at missing
    cases missing

theorem split_encloses {opener closer : Token} {inner : List Token}
    (encloses : Encloses opener inner closer) (separator : String) (rest : List Token) :
    split separator (opener :: inner ++ closer :: rest) =
      intoFirst (opener :: inner ++ [closer]) (split separator rest) := by
  obtain ⟨text, closes, search⟩ := encloses
  rw [List.cons_append, split]
  split
  · rename_i other same
    obtain rfl : text = other := Option.some.inj (closes.symm.trans same)
    split
    · rename_i found
      rw [search] at found
      cases found
      rfl
    · rename_i missing
      rw [search] at missing
      cases missing
  · rename_i none
    rw [closes] at none
    cases none

/-- A bracket that nothing closes keeps all that follows. -/
theorem split_unclosed (separator : String) {t : Token} {text : String} {rest : List Token}
    (closes : closerOf? t.text = some text) (missing : enclosed? t.text text 0 false rest = none) :
    split separator (t :: rest) = [t :: rest] := by
  rw [split]
  split
  · rename_i other same
    obtain rfl : text = other := Option.some.inj (closes.symm.trans same)
    split
    · rename_i found
      rw [missing] at found
      cases found
    · rfl
  · rename_i none
    rw [closes] at none
    cases none

theorem split_ne_nil (separator : String) (tokens : List Token) : split separator tokens ≠ [] :=
  (parted_split separator tokens).ne_nil

theorem intoFirst_intoFirst {groups : List (List Token)} (filled : groups ≠ []) (first second : List Token) :
    intoFirst first (intoFirst second groups) = intoFirst (first ++ second) groups := by
  cases groups with
  | nil => exact absurd rfl filled
  | cons group groups => simp [intoFirst]

/-! ### Operands -/

/-- Tokens that stand for one operand: a word, a span, or a word of letters and a span in
    parentheses. -/
inductive Operand : List Token → Prop
  | word {t : Token} (unmarked : isMark t.text = false) : Operand [t]
  | span {kind : Bracket} {opener closer : Token} {inner : List Token}
      (span : Span kind opener inner closer) : Operand (opener :: inner ++ [closer])
  | literal {opener closer : Token} {inner : List Token} (literal : Literal opener inner closer) :
      Operand (opener :: inner ++ [closer])
  | call {name opener closer : Token} {inner : List Token} (letters : isLetters name.text = true)
      (span : Span .round opener inner closer) : Operand (name :: opener :: inner ++ [closer])

theorem Operand.ne_nil {tokens : List Token} (isOperand : Operand tokens) : tokens ≠ [] := by
  cases isOperand <;> simp

/-- A text of one mark is not a word. -/
theorem ne_of_unmarked {text mark : String} (unmarked : isMark text = false) (isMarked : isMark mark = true) :
    text ≠ mark := by
  rintro rfl
  rw [isMarked] at unmarked
  cases unmarked

theorem closerOf?_unmarked {text : String} (unmarked : isMark text = false) : closerOf? text = none := by
  cases closes : closerOf? text with
  | none => rfl
  | some closer =>
    exfalso
    rcases closerOf?_eq_some closes with ⟨kind, rfl, -⟩ | ⟨rfl, -⟩
    · cases kind <;> exact absurd unmarked (by decide)
    · exact absurd unmarked (by decide)

theorem ofSymbol?_unmarked {text : String} (unmarked : isMark text = false) : Op.ofSymbol? text = none := by
  simp only [Op.ofSymbol?]
  repeat rw [if_neg (ne_of_unmarked unmarked (by decide))]

/-- The texts of one mark. -/
def marks : List String :=
  ["*", "(", ")", "/", ",", "%", "[", "]", ":", "\x7b", "\x7d", "<", ">", "+", "-", "\""]

theorem mem_marks {text : String} (marked : isMark text = true) : text ∈ marks := by
  simp only [isMark] at marked
  split at marked
  · rename_i c same
    obtain rfl : text = String.singleton c := by
      rw [← String.toList_inj, same]
      simp
    simp only [isPunctuation, punctuation, isSign, Bool.or_eq_true, List.contains_iff_mem, List.mem_cons,
      List.not_mem_nil, or_false, decide_eq_true_eq] at marked
    rcases marked with (marked | marked) | rfl
    · rcases marked with rfl | rfl | rfl | rfl | rfl | rfl | rfl | rfl | rfl | rfl | rfl | rfl | rfl <;> decide
    · rcases marked with rfl | rfl <;> decide
    · decide
  · cases marked

/-- A text with a property that no mark has is no mark. -/
theorem unmarked_of {P : String → Bool} (none : ∀ mark ∈ marks, P mark = false) {text : String}
    (holds : P text = true) : isMark text = false := by
  cases marked : isMark text with
  | false => rfl
  | true => rw [none text (mem_marks marked)] at holds; cases holds

theorem isMark_letters {text : String} (letters : isLetters text = true) : isMark text = false :=
  unmarked_of (by decide) letters

theorem isMark_number {text : String} {x : Float} (value : Number.read? text = some x) : isMark text = false :=
  unmarked_of (P := fun text => (Number.read? text).isSome) (by decide) (by rw [value]; rfl)

theorem balanced_unmarked {text : String} (unmarked : isMark text = false) (kind : Bracket) :
    Balanced kind [text] := by
  refine climbs_other (ne_of_unmarked unmarked (by decide)) ?_ ?_ 0
  · exact ne_of_unmarked unmarked (by cases kind <;> decide)
  · exact ne_of_unmarked unmarked (by cases kind <;> decide)

theorem split_single {t : Token} {separator : String} (single : closerOf? t.text = none) (other : t.text ≠ separator)
    (rest : List Token) : split separator (t :: rest) = intoFirst [t] (split separator rest) := by
  rw [split]
  split
  · rename_i closes
    rw [single] at closes
    cases closes
  · rw [if_neg other]

theorem split_unmarked {t : Token} {separator : String} (unmarked : isMark t.text = false)
    (marked : isMark separator = true) (rest : List Token) :
    split separator (t :: rest) = intoFirst [t] (split separator rest) :=
  split_single (closerOf?_unmarked unmarked) (ne_of_unmarked unmarked marked) rest

/-- An operand is never split. -/
theorem split_operand {operand : List Token} (isOperand : Operand operand) {separator : String}
    (marked : isMark separator = true) (rest : List Token) :
    split separator (operand ++ rest) = intoFirst operand (split separator rest) := by
  cases isOperand with
  | word unmarked => exact split_unmarked unmarked marked rest
  | span span => simpa using split_encloses span.encloses separator rest
  | literal literal => simpa using split_encloses literal.encloses separator rest
  | call letters span =>
    have inner := split_encloses span.encloses separator rest
    rw [List.cons_append, List.cons_append, split_unmarked (isMark_letters letters) marked]
    simp only [List.cons_append, List.append_assoc, List.nil_append] at inner ⊢
    rw [inner, intoFirst_intoFirst (split_ne_nil separator rest)]
    rfl

/-- Groups that are never split, the last of which need not go on, are found again by a split. -/
theorem Parted.split_eq {separator : String} (marked : closerOf? separator = none) {tokens : List Token}
    {groups : List (List Token)} (parted : Parted separator tokens groups)
    (whole : ∀ group ∈ groups.dropLast, ∀ rest,
      split separator (group ++ rest) = intoFirst group (split separator rest))
    (last : ∀ group, groups.getLast? = some group → split separator group = [group]) :
    split separator tokens = groups := by
  induction parted with
  | last group => exact last group rfl
  | @more t rest groups group separates others ih =>
    obtain ⟨next, more, rfl⟩ := List.exists_cons_of_ne_nil others.ne_nil
    have tail := ih (fun other member => whole other (by simp [member]))
      (fun other same => last other (by simpa using same))
    have here : split separator (t :: rest) = [] :: split separator rest := by
      rw [split]
      split
      · rename_i closes
        rw [separates, marked] at closes
        cases closes
      · rw [if_pos separates]
    rw [whole group (by simp), here, tail]
    simp [intoFirst]

/-- Texts with separators between them are those of groups. -/
theorem exists_parted {separator : String} {tokens : List Token} {words : List (List String)} (filled : words ≠ [])
    (same : texts tokens = [separator].intercalate words) :
    ∃ groups, Parted separator tokens groups ∧ groups.map texts = words := by
  induction words generalizing tokens with
  | nil => exact absurd rfl filled
  | cons first rest ih =>
    cases rest with
    | nil => exact ⟨[tokens], .last tokens, by simpa using same⟩
    | cons second rest =>
      rw [List.intercalate_cons_cons, texts, List.append_assoc, List.singleton_append] at same
      obtain ⟨group, others, rfl, firstTexts, otherTexts⟩ := List.map_eq_append_iff.mp same
      obtain ⟨t, others, rfl, separates, restTexts⟩ := List.map_eq_cons_iff.mp otherTexts
      obtain ⟨groups, parted, groupTexts⟩ := ih (by simp) restTexts
      exact ⟨group :: groups, .more group separates parted, by simp [groupTexts, texts, firstTexts]⟩

end Reckon.Token

namespace Reckon.Form
open Token

/-! ### Operators between operands -/

theorem outline_encloses {opener closer : Token} {inner : List Token}
    (encloses : Encloses opener inner closer) (index : Nat) (rest : List Token) :
    outline index (opener :: inner ++ closer :: rest) =
      (outline (index + inner.length + 2) rest).map ((index, opener) :: ·) := by
  obtain ⟨text, closes, search⟩ := encloses
  rw [List.cons_append, outline]
  split
  · rename_i other same
    obtain rfl : text = other := Option.some.inj (closes.symm.trans same)
    split
    · rename_i found
      rw [search] at found
      cases found
      rfl
    · rename_i missing
      rw [search] at missing
      cases missing
  · rename_i none
    rw [closes] at none
    cases none

theorem outline_single {t : Token} (single : closerOf? t.text = none) (index : Nat) (rest : List Token) :
    outline index (t :: rest) = (outline (index + 1) rest).map ((index, t) :: ·) := by
  rw [outline]
  split
  · rename_i closes
    rw [single] at closes
    cases closes
  · rfl

theorem ofSymbol?_opens {text closer : String} (closes : closerOf? text = some closer) :
    Op.ofSymbol? text = none := by
  rcases closerOf?_eq_some closes with ⟨kind, rfl, -⟩ | ⟨rfl, -⟩
  · cases kind <;> decide
  · decide

theorem closerOf?_operator {text : String} {op : Op} (symbol : Op.ofSymbol? text = some op) :
    closerOf? text = none := by
  cases closes : closerOf? text with
  | none => rfl
  | some closer =>
    rw [ofSymbol?_opens closes] at symbol
    cases symbol

/-- What the search for operators sees of an operand holds no operator. -/
theorem outline_operand {operand : List Token} (isOperand : Operand operand) (index : Nat) :
    ∃ entries, entries ≠ [] ∧ (∀ entry ∈ entries, Op.ofSymbol? entry.2.text = none) ∧
      ∀ rest, outline index (operand ++ rest) =
        (outline (index + operand.length) rest).map (entries ++ ·) := by
  have enclosed {opener closer : Token} {inner : List Token} (encloses : Encloses opener inner closer)
      (index : Nat) :
      Op.ofSymbol? opener.text = none ∧ ∀ rest, outline index (opener :: inner ++ [closer] ++ rest) =
        (outline (index + (opener :: inner ++ [closer]).length) rest).map ([(index, opener)] ++ ·) := by
    obtain ⟨text, closes, -⟩ := id encloses
    refine ⟨ofSymbol?_opens closes, fun rest => ?_⟩
    have length : index + (opener :: inner ++ [closer]).length = index + inner.length + 2 := by
      simp
      omega
    rw [length, List.append_assoc]
    exact outline_encloses encloses index rest
  cases isOperand with
  | @word t unmarked =>
    refine ⟨[(index, t)], by simp, by simp [ofSymbol?_unmarked unmarked], fun rest => ?_⟩
    exact outline_single (closerOf?_unmarked unmarked) index rest
  | @span kind opener closer inner span =>
    obtain ⟨silent, seen⟩ := enclosed span.encloses index
    exact ⟨[(index, opener)], by simp, by simp [silent], seen⟩
  | @literal opener closer inner literal =>
    obtain ⟨silent, seen⟩ := enclosed literal.encloses index
    exact ⟨[(index, opener)], by simp, by simp [silent], seen⟩
  | @call name opener closer inner letters span =>
    obtain ⟨silent, seen⟩ := enclosed span.encloses (index + 1)
    refine ⟨[(index, name), (index + 1, opener)], by simp,
      by simp [silent, ofSymbol?_unmarked (isMark_letters letters)], fun rest => ?_⟩
    have first := outline_single (closerOf?_unmarked (isMark_letters letters)) index
      (opener :: inner ++ [closer] ++ rest)
    rw [seen rest] at first
    have length : index + (name :: opener :: inner ++ [closer]).length =
        index + 1 + (opener :: inner ++ [closer]).length := by
      simp
      omega
    rw [length]
    refine first.trans ?_
    cases outline (index + 1 + (opener :: inner ++ [closer]).length) rest <;> rfl

theorem binaryOperators_silent {entries : List (Nat × Token)} (filled : entries ≠ [])
    (silent : ∀ entry ∈ entries, Op.ofSymbol? entry.2.text = none) (after : Bool)
    (rest : List (Nat × Token)) : binaryOperators after (entries ++ rest) = binaryOperators false rest := by
  induction entries generalizing after with
  | nil => exact absurd rfl filled
  | cons entry entries ih =>
    have first : Op.ofSymbol? entry.2.text = none := silent entry (by simp)
    rw [List.cons_append, binaryOperators, first]
    cases entries with
    | nil => rfl
    | cons next entries => exact ih (by simp) (fun e member => silent e (by simp [member])) false

/-- No bracket around an operand closes at the end of what follows it. -/
theorem wrapped?_encloses {opener closer : Token} {inner rest : List Token}
    (encloses : Encloses opener inner closer) (filled : rest ≠ []) {left right : String}
    (closes : closerOf? left = some right) :
    wrapped? left right (opener :: inner ++ closer :: rest) = none := by
  obtain ⟨text, same, search⟩ := encloses
  rw [List.cons_append, wrapped?]
  by_cases opens : opener.text = left
  · subst opens
    obtain rfl : text = right := Option.some.inj (same.symm.trans closes)
    cases rest with
    | nil => exact absurd rfl filled
    | cons next rest => simp [search]
  · rw [if_neg opens]

theorem wrapped?_other {t : Token} {rest : List Token} {left right : String} (other : t.text ≠ left) :
    wrapped? left right (t :: rest) = none := by
  rw [wrapped?, if_neg other]

theorem wrapped?_single (t : Token) (opener closer : String) : wrapped? opener closer [t] = none := by
  simp [wrapped?, enclosed?]

theorem unwrap_of_none {tokens : List Token} (bare : wrapped? "(" ")" tokens = none) :
    unwrap tokens = .ok tokens := by
  rw [unwrap]
  split
  · rfl
  · rename_i wrapped
    rw [bare] at wrapped
    cases wrapped
  · rename_i wrapped
    rw [bare] at wrapped
    cases wrapped

theorem unwrap_of_empty {tokens : List Token} {closer : Token}
    (wrapped : wrapped? "(" ")" tokens = some ([], closer)) :
    unwrap tokens = .error (.empty closer.column closer.text) := by
  rw [unwrap]
  split
  · rename_i bare
    rw [wrapped] at bare
    cases bare
  · rename_i empty
    rw [wrapped] at empty
    cases empty
    rfl
  · rename_i same
    rw [wrapped] at same
    cases same

theorem unwrap_of_some {tokens inner : List Token} {closer : Token} (filled : inner ≠ [])
    (wrapped : wrapped? "(" ")" tokens = some (inner, closer)) : unwrap tokens = unwrap inner := by
  rw [unwrap]
  split
  · rename_i bare
    rw [wrapped] at bare
    cases bare
  · rename_i empty
    rw [wrapped] at empty
    cases empty
    exact absurd rfl filled
  · rename_i same
    rw [wrapped] at same
    cases same
    rfl

/-- Tokens that no bracket encloses and that are no negation are a binary operation. -/
theorem ofTokens_eq_ofBinary {first : Token} {rest : List Token} (filled : rest ≠ [])
    (bare : ∀ left right, closerOf? left = some right → wrapped? left right (first :: rest) = none)
    (unsigned : first.text ≠ "-")
    (square : first.text = "[" → ∃ inner closer next after,
      enclosed? "[" "]" 0 false rest = some ⟨inner, closer, next :: after⟩)
    (call : isLetters first.text = true → ∀ second tail, rest = second :: tail → second.text = "(" →
      ∃ inner closer next after, enclosed? "(" ")" 0 false tail = some ⟨inner, closer, next :: after⟩) :
    ofTokens (first :: rest) = ofBinary (first :: rest) := by
  obtain ⟨second, tail, rfl⟩ := List.exists_cons_of_ne_nil filled
  rw [ofTokens, unwrap_of_none (bare _ _ (by decide))]
  simp only [ofCompound]
  rw [bare "\x7b" "\x7d" (by decide), bare "<" ">" (by decide), bare quoteMark quoteMark (by decide)]
  simp only [unsigned, if_false]
  by_cases opens : first.text = "["
  · obtain ⟨inner, closer, next, after, search⟩ := square opens
    simp [opens, search]
  · rw [if_neg opens]
    by_cases named : isLetters first.text = true ∧ second.text = "("
    · obtain ⟨inner, closer, next, after, search⟩ := call named.1 second tail rfl named.2
      simp [named.1, named.2, search]
    · rw [if_neg (by simpa using named)]

private theorem isLetters_opens {text closer : String} (closes : closerOf? text = some closer) :
    isLetters text = false := by
  cases letters : isLetters text with
  | false => rfl
  | true =>
    rw [closerOf?_unmarked (isMark_letters letters)] at closes
    cases closes

private theorem ofTokens_encloses {opener closer : Token} {inner : List Token}
    (encloses : Encloses opener inner closer) (t : Token) (rest : List Token) :
    ofTokens (opener :: inner ++ closer :: t :: rest) = ofBinary (opener :: inner ++ closer :: t :: rest) := by
  obtain ⟨text, closes, search⟩ := id encloses
  refine ofTokens_eq_ofBinary (by simp) (fun left right same => ?_) ?_ ?_ ?_
  · exact wrapped?_encloses encloses (by simp) same
  · rintro same
    simp [same, closerOf?, quoteMark] at closes
  · intro same
    rw [same] at closes search
    obtain rfl : "]" = text := Option.some.inj closes
    exact ⟨inner, closer, t, rest, search _⟩
  · intro letters
    rw [isLetters_opens closes] at letters
    cases letters

/-- An operand with an operator after it begins a binary operation. -/
theorem ofTokens_operand {operand : List Token} (isOperand : Operand operand) {t : Token} {op : Op}
    (operator : Op.ofSymbol? t.text = some op) (rest : List Token) :
    ofTokens (operand ++ t :: rest) = ofBinary (operand ++ t :: rest) := by
  have other {text left right : String} (unmarked : isMark text = false)
      (closes : closerOf? left = some right) : text ≠ left := by
    rintro rfl
    rw [closerOf?_unmarked unmarked] at closes
    cases closes
  cases isOperand with
  | @word word unmarked =>
    refine ofTokens_eq_ofBinary (by simp) (fun left right closes => wrapped?_other (other unmarked closes)) ?_ ?_ ?_
    · exact ne_of_unmarked unmarked (by decide)
    · intro opens
      exact absurd opens (ne_of_unmarked unmarked (by decide))
    · rintro - second tail same opens
      obtain ⟨rfl, rfl⟩ := List.cons.inj same
      simp [opens, Op.ofSymbol?] at operator
  | span span => simpa using ofTokens_encloses span.encloses t rest
  | literal literal => simpa using ofTokens_encloses literal.encloses t rest
  | @call name opener closer inner letters span =>
    have unmarked := isMark_letters letters
    refine ofTokens_eq_ofBinary (by simp) (fun left right closes => wrapped?_other (other unmarked closes)) ?_ ?_ ?_
    · exact ne_of_unmarked unmarked (by decide)
    · intro opens
      exact absurd opens (ne_of_unmarked unmarked (by decide))
    · rintro - second tail same -
      obtain ⟨rfl, rfl⟩ := List.cons.inj same
      obtain ⟨text, closes, search⟩ := span.encloses
      rw [span.opens] at closes search
      obtain rfl : ")" = text := Option.some.inj closes
      exact ⟨inner, closer, t, rest, by simpa [Bracket.opener] using search (t :: rest)⟩

end Reckon.Form
