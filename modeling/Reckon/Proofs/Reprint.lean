import Reckon.Proofs.Delegates
import Reckon.Proofs.Enclosure

/-!
What is read from any source is spelled as it would be read, its numbers have no signs, and its words have the
brackets of the tokens it was read from (`Expr.Reprinted`). So it reads back from its own text exactly if
the parentheses that are printed around its operations enclose balanced ones (`Expr.parse?_reprint_iff`).
-/

namespace Reckon.Token

/-! ### Counts that go on -/

/-- Where the count of a kind goes through the first texts, it goes through the second ones. -/
def Follows (kind : Bracket) (first second : List String) : Prop :=
  ∀ depth after, Climbs kind depth first after → Climbs kind depth second after

theorem follows_refl (kind : Bracket) (texts : List String) : Follows kind texts texts := fun _ _ count => count

theorem Follows.append {kind : Bracket} {left right otherLeft otherRight : List String}
    (closed : inLiteral false left = false) (first : Follows kind left otherLeft)
    (second : Follows kind right otherRight) : Follows kind (left ++ right) (otherLeft ++ otherRight) := by
  intro depth after count
  obtain ⟨middle, leftCount, rightCount⟩ := count.cut closed
  exact (first _ _ leftCount).append (second _ _ rightCount)

theorem follows_balanced {kind : Bracket} {first second : List String} (balanced : Balanced kind first)
    (other : Balanced kind second) : Follows kind first second := by
  intro depth after count
  have same := count.unique balanced
  obtain rfl : after = depth := by omega
  exact other.climbs after

/-- Brackets around balanced texts do not matter. -/
theorem Climbs.inside {kind other : Bracket} {depth after : Nat} {inner : List String} (balanced : Balanced other inner)
    (count : Climbs kind depth (other.opener :: inner ++ [other.closer]) after) : Climbs kind depth inner after := by
  by_cases same : other = kind
  · subst same
    exact follows_balanced (balanced.enclosed other) balanced _ _ count
  · have opener := climbs_other (opener_ne_quote other) (opener_ne_opener same) (opener_ne_closer other kind)
    have closer := climbs_other (closer_ne_quote other) (Ne.symm (opener_ne_closer kind other)) (closer_ne_closer same)
    exact count.between balanced.1 opener closer

theorem Climbs.enclose {kind : Bracket} {depth after : Nat} {inner : List String}
    (count : Climbs kind depth inner after) (other : Bracket) (balanced : kind = other → Balanced kind inner) :
    Climbs kind depth (other.opener :: inner ++ [other.closer]) after := by
  by_cases same : kind = other
  · exact follows_balanced (balanced same) ((balanced same).enclosed other) _ _ count
  · have opener := climbs_other (opener_ne_quote other) (opener_ne_opener (Ne.symm same))
      (opener_ne_closer other kind) depth
    have closer := climbs_other (closer_ne_quote other) (Ne.symm (opener_ne_closer kind other))
      (closer_ne_closer (Ne.symm same)) after
    exact (opener.append count).append closer

/-- Brackets around texts of which the first are balanced. -/
theorem Follows.enclosed {kind : Bracket} {inner words : List String} (follows : Follows kind inner words)
    (other : Bracket) (balanced : Balanced other inner) :
    Follows kind (other.opener :: inner ++ [other.closer]) (other.opener :: words ++ [other.closer]) := by
  intro depth after count
  refine (follows _ _ (count.inside balanced)).enclose other ?_
  rintro rfl
  exact follows 0 0 balanced

/-! ### Counts in groups -/

private theorem climbs_comma (kind : Bracket) (depth : Nat) : Climbs kind depth [","] depth :=
  climbs_other (by decide) (by cases kind <;> decide) (by cases kind <;> decide) depth

theorem Parted.climbs_flatten {tokens : List Token} {groups : List (List Token)} (parted : Parted "," tokens groups)
    (closed : ∀ group ∈ groups, inLiteral false (Token.texts group) = false) (kind : Bracket) :
    Follows kind (Token.texts tokens) (groups.map Token.texts).flatten := by
  induction parted with
  | last group => simpa using follows_refl kind (Token.texts group)
  | @more t rest groups group separates _ ih =>
    have others := ih fun other member => closed other (by simp [member])
    rw [texts_append, texts_cons, separates, List.map_cons, List.flatten_cons]
    refine Follows.append (closed group (by simp)) (follows_refl _ _) fun depth after count => ?_
    exact others _ _ ((climbs_comma kind depth).tail count)

theorem flatten_filled (groups : List (List Token)) :
    ((groups.filter fun group => !group.isEmpty).map Token.texts).flatten = (groups.map Token.texts).flatten := by
  induction groups with
  | nil => rfl
  | cons group groups ih =>
    cases group with
    | nil => simpa using ih
    | cons t rest => simpa using ih

theorem follows_intercalate {words : List (List String)} (closed : ∀ w ∈ words, inLiteral false w = false)
    (kind : Bracket) : Follows kind words.flatten ([","].intercalate words) := by
  induction words with
  | nil => exact follows_refl kind []
  | cons first rest ih =>
    have others := ih fun w member => closed w (by simp [member])
    cases rest with
    | nil => simpa using follows_refl kind first
    | cons second rest =>
      rw [List.flatten_cons, List.intercalate_cons_cons, List.append_assoc]
      refine Follows.append (closed first (by simp)) (follows_refl _ _) fun depth after count => ?_
      exact (climbs_comma kind depth).append (others _ _ count)

/-! ### Texts of parts -/

theorem lexical_enclosed {opener closer : String} {inner : List String} (opens : opener ≠ quoteMark)
    (lexical : Lexical false (opener :: inner ++ [closer])) : Lexical false inner := by
  rw [List.cons_append, lexical_cons opens, lexical_append] at lexical
  exact lexical.2.1

theorem Parted.lexical {tokens : List Token} {groups : List (List Token)} (parted : Parted "," tokens groups)
    (closed : ∀ group ∈ groups, inLiteral false (Token.texts group) = false)
    (lexical : Lexical false (Token.texts tokens)) : ∀ group ∈ groups, Lexical false (Token.texts group) := by
  induction parted with
  | last group => simpa using lexical
  | @more t rest groups group separates _ ih =>
    rw [texts_append, texts_cons, separates, lexical_append, closed group (by simp), lexical_cons (by decide)]
      at lexical
    have others := ih (fun other member => closed other (by simp [member])) lexical.2.2
    simpa using ⟨lexical.1, others⟩

end Reckon.Token

namespace Reckon

theorem Op.symbol_of_ofSymbol? {text : String} {op : Op} (operator : Op.ofSymbol? text = some op) :
    op.symbol = text := by
  have symbol := Form.isOperator_of_ofSymbol? operator
  simp only [Token.isOperator, Bool.or_eq_true, decide_eq_true_eq] at symbol
  rcases symbol with (((rfl | rfl) | rfl) | rfl) | rfl
  all_goals
    cases operator
    rfl

end Reckon

namespace Reckon.Form
open Token

/-- The tokens that are split at an operator are words and marks. -/
theorem Operation.lexical {tokens whole : List Token} (operation : Operation tokens whole)
    (lexical : Lexical false (texts tokens)) : Lexical false (texts whole) := by
  have zero : Lexical false ("0" :: texts tokens) := (lexical_cons (by decide) _).mpr ⟨.inl (by decide), lexical⟩
  cases operation with
  | plain => exact lexical
  | negated operand sign nought =>
    rw [texts_cons, nought]
    exact zero
  | captured operand sign nought opens closes =>
    have last (quoted : Bool) : Lexical quoted [")"] := by
      cases quoted with
      | false => exact (lexical_cons (by decide) []).mpr ⟨.inr (by decide), trivial⟩
      | true => exact ⟨by decide, trivial⟩
    rw [texts_captured nought opens closes, List.cons_append, lexical_cons (by decide), lexical_append]
    exact ⟨.inr (by decide), zero, last _⟩

/-- The tokens that are split at an operator count as the tokens do. -/
theorem Operation.follows {tokens whole : List Token} (operation : Operation tokens whole) (kind : Bracket) :
    Follows kind (texts tokens) (texts whole) := by
  have zero (depth : Nat) : Climbs kind depth ["0"] depth := (balanced_unmarked (by decide) kind).climbs depth
  cases operation with
  | plain => exact follows_refl kind _
  | negated operand sign nought =>
    intro depth after count
    rw [texts_cons, nought]
    exact (zero depth).append count
  | captured operand sign nought opens closes =>
    intro depth after count
    rw [texts_captured nought opens closes]
    by_cases round : kind = .round
    · subst round
      have inside := (zero (depth + 1)).append (count.add 1)
      exact ((climbs_opener .round depth).append inside).append (climbs_closer .round after)
    · exact ((zero depth).append count).enclose .round fun equal => absurd equal round

end Reckon.Form

namespace Reckon.Expr
open Token

/-! ### What is read -/

/-- What holds of an expression that is read from tokens: it is spelled as it would be read, no number in it has a sign,
    and brackets count in its words as in the tokens, parentheses if those of its operations are enclosed. -/
structure Reprinted (tokens : List Token) (expr : Expr) : Prop where
  spelled : expr.Spelled
  unsigned : expr.unsigned = expr
  matched : expr.Enclosed → expr.Matched
  follows : ∀ kind, (kind = .round → expr.Enclosed) → Follows kind (Token.texts tokens) expr.words

/-- Numbers without a sign that read back. -/
private theorem reprinted_num {x : Float} (positive : Double.isNegative x = false)
    (reads : x.isFinite = true → Number.read? (Number.text x) = some x) :
    (num x).Spelled ∧ unsigned (.num x) = .num x := by
  refine ⟨.num ?_, by simp [unsigned, positive]⟩
  simpa [written, positive] using reads

/-- What holds of expressions that are read one after another. -/
private structure AllReprinted (texts : List String) (words : List (List String) → List String) (exprs : List Expr) :
    Prop where
  spelled : ∀ e ∈ exprs, e.Spelled
  unsigned : allUnsigned exprs = exprs
  matched : ∀ e ∈ exprs, e.Enclosed → e.Matched
  follows : ∀ kind, (kind = .round → ∀ e ∈ exprs, e.Enclosed) → Follows kind texts (words (exprs.map Expr.words))

private theorem AllReprinted.flatten {groups : List (List Token)} {exprs : List Expr}
    (each : List.Forall₂ Reprinted groups exprs)
    (closed : ∀ group ∈ groups, inLiteral false (Token.texts group) = false) :
    AllReprinted (groups.map Token.texts).flatten List.flatten exprs := by
  induction each with
  | nil => exact ⟨by simp, rfl, by simp, fun kind _ => follows_refl kind []⟩
  | @cons group e groups exprs first _ ih =>
    have others := ih fun other member => closed other (by simp [member])
    refine ⟨by simpa using ⟨first.spelled, others.spelled⟩, by rw [allUnsigned, first.unsigned, others.unsigned],
      by simpa using ⟨first.matched, others.matched⟩, fun kind enclosed => ?_⟩
    exact Follows.append (closed group (by simp)) (first.follows kind fun round => enclosed round e (by simp))
      (others.follows kind fun round other member => enclosed round other (by simp [member]))

/-- What stands between brackets. -/
private theorem AllReprinted.inside {inner : List Token} {groups : List (List Token)} {exprs : List Expr}
    (parted : Parted "," inner groups) (closed : ∀ group ∈ groups, inLiteral false (Token.texts group) = false)
    (each : List.Forall₂ Reprinted (groups.filter fun group => !group.isEmpty) exprs) :
    AllReprinted (Token.texts inner) [","].intercalate exprs := by
  have flat := AllReprinted.flatten each fun group member => closed group (List.mem_of_mem_filter member)
  refine { flat with follows := fun kind enclosed depth after count => ?_ }
  have through := parted.climbs_flatten closed kind depth after count
  rw [← flatten_filled] at through
  refine follows_intercalate (fun w member => ?_) kind depth after (flat.follows kind enclosed depth after through)
  obtain ⟨e, isPart, rfl⟩ := List.mem_map.mp member
  exact (flat.spelled e isPart).even.squares.1

/-- A number whose text is read as it, if it is finite. -/
private def ReadsBack (x : Float) : Prop := x.isFinite = true → Number.read? (Number.text x) = some x

private theorem forall₂_reprinted {groups : List (List Token)} {exprs : List Expr}
    (each : List.Forall₂ (fun part e => ofTokens part = .ok e ∧
      (Lexical false (Token.texts part) → (∀ x ∈ e.numbers, ReadsBack x) → Reprinted part e)) groups exprs)
    (lexical : ∀ group ∈ groups, Lexical false (Token.texts group)) (reads : ∀ x ∈ allNumbers exprs, ReadsBack x) :
    List.Forall₂ Reprinted groups exprs := by
  induction each with
  | nil => exact .nil
  | @cons group e groups exprs first _ ih =>
    refine .cons (first.2 (lexical group (by simp)) fun x member => reads x (mem_allNumbers (by simp) member)) ?_
    exact ih (fun other member => lexical other (by simp [member]))
      fun x member => reads x (by simp [allNumbers, member])

private theorem AllReprinted.of_reads {inner : List Token} {exprs : List Expr}
    (each : List.Forall₂ (fun part e => ofTokens part = .ok e ∧
        (Lexical false (Token.texts part) → (∀ x ∈ e.numbers, ReadsBack x) → Reprinted part e))
      ((split "," inner).filter fun group => !group.isEmpty) exprs)
    (lexical : Lexical false (Token.texts inner)) (reads : ∀ x ∈ allNumbers exprs, ReadsBack x) :
    AllReprinted (Token.texts inner) [","].intercalate exprs := by
  have parted := parted_split "," inner
  have even := Measured.even_groups (each.imp fun _ _ part => (measured_of_reads part.1).2)
  have closed : ∀ group ∈ split "," inner, inLiteral false (Token.texts group) = false :=
    fun group member => (even group member).squares.1
  refine AllReprinted.inside parted closed (forall₂_reprinted each (fun group member => ?_) reads)
  exact parted.lexical closed lexical group (List.mem_of_mem_filter member)

private theorem AllReprinted.list {opener closer : Token} {inner : List Token} {elems : List Expr}
    (all : AllReprinted (Token.texts inner) [","].intercalate elems) (span : Span .curly opener inner closer) :
    Reprinted (opener :: inner ++ [closer]) (.list elems) := by
  refine ⟨.list all.spelled, by rw [Expr.unsigned, all.unsigned], fun enclosed => ?_, fun kind enclosed => ?_⟩
  · cases enclosed with
    | list enclosed =>
      refine .list (fun elem member => all.matched elem member (enclosed elem member)) ?_
      rw [allWords_eq]
      exact all.follows .curly (fun equal => absurd equal (by decide)) 0 0 span.balanced
  · rw [span.texts_eq, words, allWords_eq]
    refine Follows.enclosed (all.follows kind fun round => ?_) .curly span.balanced
    cases enclosed round with
    | list each => exact each

private theorem AllReprinted.vector {opener closer : Token} {inner : List Token} {elems : List Expr}
    (all : AllReprinted (Token.texts inner) [","].intercalate elems) (span : Span .angle opener inner closer)
    (filled : elems ≠ []) : Reprinted (opener :: inner ++ [closer]) (.vector elems) := by
  refine ⟨.vector filled all.spelled, by rw [Expr.unsigned, all.unsigned], fun enclosed => ?_, fun kind enclosed => ?_⟩
  · cases enclosed with
    | vector enclosed =>
      refine .vector (fun elem member => all.matched elem member (enclosed elem member)) ?_
      rw [allWords_eq]
      exact all.follows .angle (fun equal => absurd equal (by decide)) 0 0 span.balanced
  · rw [span.texts_eq, words, allWords_eq]
    refine Follows.enclosed (all.follows kind fun round => ?_) .angle span.balanced
    cases enclosed round with
    | vector each => exact each

private theorem AllReprinted.call {name opener closer : Token} {inner : List Token} {args : List Expr}
    (all : AllReprinted (Token.texts inner) [","].intercalate args) (letters : isLetters name.text = true)
    (span : Span .round opener inner closer) : Reprinted (name :: opener :: inner ++ [closer]) (.call name.text args) := by
  refine ⟨.call letters all.spelled, by rw [Expr.unsigned, all.unsigned], fun enclosed => ?_, fun kind enclosed => ?_⟩
  · cases enclosed with
    | call enclosed =>
      refine .call (fun arg member => all.matched arg member (enclosed arg member)) ?_
      rw [allWords_eq]
      exact all.follows .round (fun _ => enclosed) 0 0 span.balanced
  · rw [span.texts_call, words_call, allWords_eq]
    refine Follows.append (balanced_unmarked (isMark_letters letters) kind).1 (follows_refl kind [name.text]) ?_
    refine Follows.enclosed (all.follows kind fun round => ?_) .round span.balanced
    cases enclosed round with
    | call each => exact each

private theorem isWord_of_lexical {text : String} (lexical : Lexical false [text]) (unmarked : isMark text = false) :
    IsWord text := by
  have lone := ((lexical_cons (ne_of_unmarked unmarked (by decide)) []).mp lexical).1
  exact lone.resolve_right (by simp [unmarked])

/-- A text literal is a list of numbers. -/
private theorem reprinted_literal {opener closer : Token} {inner : List Token} (literal : Literal opener inner closer)
    (reads : ∀ x ∈ (ofText (joined inner)).numbers, ReadsBack x) :
    Reprinted (opener :: inner ++ [closer]) (.ofText (joined inner)) := by
  have each {elem : Expr} (member : elem ∈ (joined inner).toList.map fun c => num (Float.ofNat c.toNat)) :
      elem.Proper ∧ elem.Spelled ∧ elem.unsigned = elem := by
    obtain ⟨c, isPart, rfl⟩ := List.mem_map.mp member
    have readsBack := reads _ (mem_allNumbers member (List.mem_singleton.mpr rfl))
    exact ⟨.num _, reprinted_num (Double.isNegative_ofScientific _ _ _) readsBack⟩
  have proper : (ofText (joined inner)).Proper := .list fun elem member => (each member).1
  refine ⟨.list fun elem member => (each member).2.1, ?_, fun _ => proper.balanced.1, fun kind _ => ?_⟩
  · rw [ofText, unsigned, allUnsigned_eq]
    rw [List.map_congr_left (g := id) fun elem member => (each member).2.2, List.map_id]
  · exact follows_balanced (literal.balanced kind) (proper.balanced.2 kind)

private theorem Reprinted.operation {tokens whole left right : List Token} {t : Token} {op : Op} {l r : Expr}
    (operation : Form.Operation tokens whole) (parted : whole = left ++ t :: right)
    (operator : Op.ofSymbol? t.text = some op) (closed : inLiteral false (Token.texts left) = false)
    (first : Reprinted left l) (second : Reprinted right r) : Reprinted tokens (.binary op l r) := by
  have symbol := Op.symbol_of_ofSymbol? operator
  have known : Op.ofSymbol? op.symbol = some op := by rw [symbol, operator]
  have lexed := (lexes_operation known first.spelled.lexes second.spelled.lexes).texts_lex
  refine ⟨.binary known first.spelled second.spelled, by rw [Expr.unsigned, first.unsigned, second.unsigned],
    fun enclosed => ?_, fun kind enclosed depth after count => ?_⟩
  · cases enclosed with
    | binary enclosedLeft enclosedRight balanced =>
      rw [lexed] at balanced
      exact .binary (first.matched enclosedLeft) (second.matched enclosedRight) balanced
  · have split := operation.follows kind depth after count
    rw [parted, texts_append, texts_cons, ← symbol] at split
    have parts (round : kind = .round) : l.Enclosed ∧ r.Enclosed ∧ Balanced kind (l.words ++ op.symbol :: r.words) := by
      subst round
      cases enclosed rfl with
      | binary enclosedLeft enclosedRight balanced => exact ⟨enclosedLeft, enclosedRight, lexed ▸ balanced⟩
    have rest := Follows.append (apart_operator known).even.squares.1 (follows_refl kind [op.symbol])
      (second.follows kind fun round => (parts round).2.1)
    have inside := Follows.append closed (first.follows kind fun round => (parts round).1) rest depth after split
    exact inside.enclose .round fun round => (parts round).2.2

/-- What is read is spelled as it would be read. -/
theorem reprinted_of_reads {tokens : List Token} {expr : Expr} (read : ofTokens tokens = .ok expr)
    (lexical : Lexical false (Token.texts tokens))
    (reads : ∀ x ∈ expr.numbers, x.isFinite = true → Number.read? (Number.text x) = some x) :
    Reprinted tokens expr := by
  refine reads_induction (motive := fun tokens expr => Lexical false (Token.texts tokens) →
    (∀ x ∈ expr.numbers, ReadsBack x) → Reprinted tokens expr) (fun reading lexical reads => ?_) read lexical reads
  cases reading with
  | @number t x value =>
    have unmarked := isMark_number value
    have positive := Number.unsigned_of_read? (isWord_of_lexical lexical unmarked) value
    obtain ⟨spelled, unsigned⟩ := reprinted_num positive (reads x (by simp [numbers]))
    refine ⟨spelled, unsigned, fun _ => .num x, fun kind _ => ?_⟩
    exact follows_balanced (balanced_unmarked unmarked kind) (balanced_numWords x kind)
  | name wordless unmarked =>
    exact ⟨.var (isWord_of_lexical lexical unmarked) wordless, rfl, fun _ => .var _, fun kind _ => follows_refl kind _⟩
  | parens span inside =>
    rw [span.texts_eq] at lexical
    have inner := inside.2 (lexical_enclosed (opener_ne_quote .round) lexical) reads
    refine { inner with follows := fun kind enclosed depth after count => ?_ }
    rw [span.texts_eq] at count
    exact inner.follows kind enclosed depth after (count.inside span.balanced)
  | literal literal => exact reprinted_literal literal reads
  | list span each =>
    rw [span.texts_eq] at lexical
    exact (AllReprinted.of_reads each (lexical_enclosed (opener_ne_quote .curly) lexical) reads).list span
  | @vector _ _ inner elems span each =>
    have filled : elems ≠ [] := by
      rintro rfl
      exact split_ne_nil "," inner (List.forall₂_nil_right_iff.mp each)
    rw [← filter_filled each fun _ _ part => (measured_of_reads part.1).1] at each
    rw [span.texts_eq] at lexical
    exact (AllReprinted.of_reads each (lexical_enclosed (opener_ne_quote .angle) lexical) reads).vector span filled
  | call letters span each =>
    rw [← filter_argGroups each fun _ _ part => (measured_of_reads part.1).1] at each
    rw [span.texts_call, List.singleton_append, lexical_cons (ne_of_unmarked (isMark_letters letters) (by decide))]
      at lexical
    exact (AllReprinted.of_reads each (lexical_enclosed (opener_ne_quote .round) lexical.2) reads).call letters span
  | delegate span cut names filled =>
    rw [span.texts_eq] at lexical
    obtain ⟨sound, same⟩ := Delegate.sound_of_read span.balanced cut names filled
      (lexical_enclosed (opener_ne_quote .square) lexical)
    refine ⟨.delegate sound, rfl, fun _ => .delegate _, fun kind _ => ?_⟩
    rw [span.texts_eq]
    exact Follows.enclosed (fun depth after count => same.climbs count) .square span.balanced
  | @binary _ _ left right t op l r operation parted operator first second =>
    have closed := (measured_of_reads first.1).2.even.squares.1
    have whole := operation.lexical lexical
    rw [parted, texts_append, texts_cons, lexical_append, closed, lexical_cons (apart_operator operator).unquoted]
      at whole
    exact .operation operation parted operator closed
      (first.2 whole.1 fun x member => reads x (by simp [numbers, member]))
      (second.2 whole.2.2 fun x member => reads x (by simp [numbers, member]))

/-- What is read from a source, with finite numbers that read back, is read again from its own text exactly if the
    parentheses printed around each of its operations enclose balanced ones. -/
theorem parse?_reprint_iff {source : String} {expr : Expr} (read : parse? source = .ok (some expr))
    (reads : ∀ x ∈ expr.numbers, x.isFinite = true → Number.read? (Number.text x) = some x) :
    parse? expr.text = .ok (some expr) ↔ expr.Enclosed := by
  have reprinted := reprinted_of_reads (parse?_eq_some_iff.mp read) (lexical_lex source) reads
  have words := reprinted.spelled.texts_lex
  rw [parse?_eq_some_iff]
  constructor
  · intro again
    exact reprinted.spelled.enclosed words again
  · intro enclosed
    have again := (readsAs_words reprinted.spelled (reprinted.matched enclosed) words).1
    rwa [reprinted.unsigned] at again

/-- Parentheses in the body of a delegate that are balanced. -/
theorem parse?_reprint_delegate :
    parse? "1 + [x: (x)]" = .ok (some (.binary .add (.num 1) (.delegate ⟨["x"], "(x)"⟩))) ∧
      Enclosed (.binary .add (.num 1) (.delegate ⟨["x"], "(x)"⟩)) ∧
      parse? (text (.binary .add (.num 1) (.delegate ⟨["x"], "(x)"⟩))) =
        .ok (some (.binary .add (.num 1) (.delegate ⟨["x"], "(x)"⟩))) := by
  have read : parse? "1 + [x: (x)]" = .ok (some (.binary .add (.num 1) (.delegate ⟨["x"], "(x)"⟩))) := by
    have tokens : lex "1 + [x: (x)]" =
        [⟨"1", 1⟩, ⟨"+", 3⟩, ⟨"[", 5⟩, ⟨"x", 6⟩, ⟨":", 7⟩, ⟨"(", 9⟩, ⟨"x", 10⟩, ⟨")", 11⟩, ⟨"]", 12⟩] := by decide
    have whole : Form.ofTokens
        [⟨"1", 1⟩, ⟨"+", 3⟩, ⟨"[", 5⟩, ⟨"x", 6⟩, ⟨":", 7⟩, ⟨"(", 9⟩, ⟨"x", 10⟩, ⟨")", 11⟩, ⟨"]", 12⟩] =
        .ok (.binary .add [⟨"1", 1⟩] [⟨"[", 5⟩, ⟨"x", 6⟩, ⟨":", 7⟩, ⟨"(", 9⟩, ⟨"x", 10⟩, ⟨")", 11⟩, ⟨"]", 12⟩]) := by
      cbv
    have right : Form.ofTokens [⟨"[", 5⟩, ⟨"x", 6⟩, ⟨":", 7⟩, ⟨"(", 9⟩, ⟨"x", 10⟩, ⟨")", 11⟩, ⟨"]", 12⟩] =
        .ok (.leaf (.delegate ⟨["x"], "(x)"⟩)) := by
      cbv
    rw [parse?_eq_some_iff, tokens]
    refine ofTokens_binary whole (ofTokens_number (by decide)) ?_
    rw [ofTokens_eq, right]
    rfl
  have enclosed : Enclosed (.binary .add (.num 1) (.delegate ⟨["x"], "(x)"⟩)) :=
    .binary (.num 1) (.delegate _) (by decide)
  exact ⟨read, enclosed, (parse?_reprint_iff read (by decide)).mpr enclosed⟩

/-- A parenthesis in the body of a delegate closes the one that is printed before the operation. -/
theorem parse?_reprint_torn :
    parse? "[: )] + 1" = .ok (some (.binary .add (.delegate ⟨[], ")"⟩) (.num 1))) ∧
      Number.read? (Number.text 1) = some 1 ∧
      parse? (text (.binary .add (.delegate ⟨[], ")"⟩) (.num 1))) = .error (.token 1 "([:)]") := by
  refine ⟨?_, by decide, ?_⟩
  · have tokens : lex "[: )] + 1" = [⟨"[", 1⟩, ⟨":", 2⟩, ⟨")", 4⟩, ⟨"]", 5⟩, ⟨"+", 7⟩, ⟨"1", 9⟩] := by decide
    have whole : Form.ofTokens [⟨"[", 1⟩, ⟨":", 2⟩, ⟨")", 4⟩, ⟨"]", 5⟩, ⟨"+", 7⟩, ⟨"1", 9⟩] =
        .ok (.binary .add [⟨"[", 1⟩, ⟨":", 2⟩, ⟨")", 4⟩, ⟨"]", 5⟩] [⟨"1", 9⟩]) := by
      cbv
    have left : Form.ofTokens [⟨"[", 1⟩, ⟨":", 2⟩, ⟨")", 4⟩, ⟨"]", 5⟩] = .ok (.leaf (.delegate ⟨[], ")"⟩)) := by
      cbv
    rw [parse?_eq_some_iff, tokens]
    refine ofTokens_binary whole ?_ (ofTokens_number (by decide))
    rw [ofTokens_eq, left]
    rfl
  · have tokens : lex (text (.binary .add (.delegate ⟨[], ")"⟩) (.num 1))) =
        [⟨"(", 1⟩, ⟨"[", 2⟩, ⟨":", 3⟩, ⟨")", 5⟩, ⟨"]", 6⟩, ⟨"+", 8⟩, ⟨"1", 10⟩, ⟨")", 11⟩] := by decide
    have whole : Form.ofTokens [⟨"(", 1⟩, ⟨"[", 2⟩, ⟨":", 3⟩, ⟨")", 5⟩, ⟨"]", 6⟩, ⟨"+", 8⟩, ⟨"1", 10⟩, ⟨")", 11⟩] =
        .ok (.binary .add [⟨"(", 1⟩, ⟨"[", 2⟩, ⟨":", 3⟩, ⟨")", 5⟩, ⟨"]", 6⟩] [⟨"1", 10⟩, ⟨")", 11⟩]) := by
      cbv
    have left : Form.ofTokens [⟨"(", 1⟩, ⟨"[", 2⟩, ⟨":", 3⟩, ⟨")", 5⟩, ⟨"]", 6⟩] = .error (.token 1 "([:)]") := by
      set_option maxRecDepth 1024 in cbv
    have leftRead : ofTokens [⟨"(", 1⟩, ⟨"[", 2⟩, ⟨":", 3⟩, ⟨")", 5⟩, ⟨"]", 6⟩] = .error (.token 1 "([:)]") := by
      rw [ofTokens_eq, left]
      rfl
    rw [parse?, tokens, ofTokens_eq, whole]
    simp only [Except.bind, Form.read, leftRead]
    rfl

end Reckon.Expr
