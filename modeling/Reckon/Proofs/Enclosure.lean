import Reckon.Proofs.Surface

/-!
Operations whose parentheses enclose balanced ones (`Expr.Enclosed`). An expression that is read from its own
words is read part by part from the words of its parts, since no more texts count in the tokens of a part than in
its words: the operator is found again (`cut_unique`), and so are the commas (`Parted.texts_eq`). So the
parentheses around each operation of it are taken off as a pair, and enclose balanced ones
(`Expr.Spelled.enclosed`).
-/

namespace Reckon.Token

/-! ### Cuts -/

private theorem size_lt {left right : List String} {text : String} {op : Op} (balanced : Balanced .square left)
    (operator : Op.ofSymbol? text = some op) : size left < size (left ++ text :: right) := by
  rw [size_append balanced, size_cons (apart_operator operator), counts_operator operator]
  simp

/-- Texts are cut at one operator only, if as many texts count before it. -/
theorem cut_unique {left right otherLeft otherRight : List String} {text otherText : String} {op otherOp : Op}
    (same : left ++ text :: right = otherLeft ++ otherText :: otherRight)
    (first : Balanced .square left) (second : Balanced .square otherLeft)
    (operator : Op.ofSymbol? text = some op) (otherOperator : Op.ofSymbol? otherText = some otherOp)
    (sizes : size left = size otherLeft) : left = otherLeft ∧ text = otherText ∧ right = otherRight := by
  rcases List.append_eq_append_iff.mp same with ⟨middle, rfl, rest⟩ | ⟨middle, rfl, rest⟩
  · cases middle with
    | nil => simpa using rest
    | cons t middle =>
      obtain ⟨rfl, -⟩ := List.cons.inj rest
      exact absurd sizes (Nat.ne_of_lt (size_lt first operator))
  · cases middle with
    | nil => simpa [eq_comm] using rest
    | cons t middle =>
      obtain ⟨rfl, -⟩ := List.cons.inj rest
      exact absurd sizes.symm (Nat.ne_of_lt (size_lt second otherOperator))

/-- A comma has a text that counts after it. -/
private theorem comma_last {left right : List String} (balanced : Balanced .square left)
    (woven : Woven false (left ++ "," :: right)) : size (left ++ "," :: right) ≠ size left := by
  intro sizes
  rw [size_append balanced, size_cons apart_comma] at sizes
  have none : size right = 0 := by simpa [counts] using sizes
  have commas := woven.commas
  rw [face_append balanced, apart_comma.face_cons, spaced_last none] at commas
  cases commas

/-- A comma has a text that counts before it. -/
private theorem comma_first {left right : List String} (balanced : Balanced .square left)
    (woven : Woven false (left ++ "," :: right)) : size left ≠ 0 := by
  intro none
  have commas := woven.commas
  rw [face_append balanced, apart_comma.face_cons, spaced_first none] at commas
  cases commas

/-- What follows a comma in even texts, of which the front is even. -/
private theorem Even.after_comma {left right : List String} (even : Even (left ++ "," :: right)) (first : Even left) :
    Balanced .square right := by
  obtain ⟨middle, count, rest⟩ := Climbs.cut even.squares first.squares.1
  have same := count.unique first.squares
  obtain rfl : middle = 0 := by omega
  exact apart_comma.even.squares.tail rest

/-- Texts are cut at one comma only, if as many texts count before it. -/
private theorem comma_unique {left right otherLeft otherRight : List String}
    (same : left ++ "," :: right = otherLeft ++ "," :: otherRight) (first : Even left) (second : Woven false otherLeft)
    (others : Woven false otherRight) (sizes : size left = size otherLeft) : left = otherLeft ∧ right = otherRight := by
  rcases List.append_eq_append_iff.mp same with ⟨middle, rfl, rest⟩ | ⟨middle, rfl, rest⟩
  · cases middle with
    | nil => simpa using rest
    | cons t middle =>
      obtain ⟨rfl, -⟩ := List.cons.inj rest
      exact absurd sizes.symm (comma_last first.squares second)
  · cases middle with
    | nil => simpa [eq_comm] using rest
    | cons t middle =>
      obtain ⟨rfl, rfl⟩ := List.cons.inj rest
      have none : size middle = 0 := by
        rw [size_append second.squares, size_cons apart_comma] at sizes
        simpa [counts] using sizes
      exact absurd none (comma_first (first.after_comma second.toEven) others)

/-- Groups in which as many texts count as in the words between commas have these words. -/
theorem Parted.texts_eq {inner : List Token} {groups : List (List Token)} {words : List (List String)}
    (parted : Parted "," inner groups) (filled : words ≠ []) (same : Token.texts inner = [","].intercalate words)
    (each : ∀ w ∈ words, Woven false w) (even : ∀ group ∈ groups, Even (Token.texts group))
    (sizes : List.Forall₂ (fun group w => size (Token.texts group) = size w)
      (groups.filter fun group => !group.isEmpty) words) :
    groups.map Token.texts = words := by
  induction parted generalizing words with
  | last group =>
    cases group with
    | nil =>
      cases sizes
      exact absurd rfl filled
    | cons t rest =>
      cases sizes with
      | cons _ none =>
        cases none
        simpa using same
  | @more t rest groups group separates _ ih =>
    have whole := woven_intercalate filled each
    have first := even group (by simp)
    rw [texts_append, texts_cons, separates] at same
    rw [← same] at whole
    by_cases empty : group = []
    · subst empty
      exact absurd rfl (comma_first first.squares whole)
    · rw [List.filter_cons_of_pos (by simpa using empty)] at sizes
      cases sizes with
      | @cons _ w _ words head tail =>
        cases words with
        | nil =>
          rw [List.intercalate_singleton] at same
          rw [← same] at head
          exact absurd head.symm (comma_last first.squares whole)
        | cons next words =>
          have others := woven_intercalate (by simp) fun other member => each other (List.mem_cons_of_mem w member)
          rw [List.intercalate_cons_cons, List.append_assoc, List.singleton_append] at same
          obtain ⟨here, there⟩ := comma_unique same first (each w (by simp)) others head
          have rest := ih (by simp) there (fun other member => each other (List.mem_cons_of_mem w member))
            (fun other member => even other (by simp [member])) tail
          rw [List.map_cons, here, rest]

end Reckon.Token

namespace Reckon.Expr
open Token

/-! ### Operations in parentheses -/

/-- An expression in which the parentheses of each operation enclose a text with balanced parentheses. -/
inductive Enclosed : Expr → Prop
  | num (x : Float) : Enclosed (.num x)
  | var (name : String) : Enclosed (.var name)
  | binary {op : Op} {left right : Expr} (first : Enclosed left) (second : Enclosed right)
      (balanced : Balanced .round (Token.texts (lex (left.text ++ " " ++ op.symbol ++ " " ++ right.text)))) :
      Enclosed (.binary op left right)
  | call {name : String} {args : List Expr} (each : ∀ arg ∈ args, Enclosed arg) : Enclosed (.call name args)
  | list {elems : List Expr} (each : ∀ elem ∈ elems, Enclosed elem) : Enclosed (.list elems)
  | vector {elems : List Expr} (each : ∀ elem ∈ elems, Enclosed elem) : Enclosed (.vector elems)
  | delegate (d : Delegate) : Enclosed (.delegate d)

private theorem balanced_replicate (count : Nat) : Balanced .square (List.replicate count "(") := by
  induction count with
  | zero => exact climbs_nil .square 0
  | succ count ih => exact (climbs_other (by decide) (by decide) (by decide) 0).append ih

private theorem face_replicate (count : Nat) : face (List.replicate count "(") = List.replicate count "(" := by
  induction count with
  | zero => rfl
  | succ count ih => rw [List.replicate_succ, face_cons (by decide) (by decide) (by decide), ih]

/-- Even texts after parentheses that open are even only without these. -/
private theorem eq_zero_of_even {count : Nat} {texts : List String} (inner : Even texts)
    (outer : Even (List.replicate count "(" ++ texts)) : count = 0 := by
  have parens := outer.parens
  rw [face_append (balanced_replicate count), face_replicate, List.count_append, List.count_append, inner.parens]
    at parens
  simpa [List.count_replicate] using parens

private theorem size_replicate (count : Nat) (texts : List String) :
    size (List.replicate count "(" ++ texts) = size texts := by
  rw [size_append (balanced_replicate count), size, face_replicate]
  simp [counts]

/-- A side of an operation: tokens that are read as it and in which as many texts count as in its words. -/
structure Side (tokens : List Token) (expr : Expr) : Prop where
  reads : ofTokens tokens = .ok expr
  even : Even (Token.texts tokens)
  size_eq : size (Token.texts tokens) = size expr.words

/-- The sides of an operation, if as many texts count as in its words. -/
theorem exists_sides {tokens whole left right : List Token} {t : Token} {op : Op} {l r : Expr}
    (operation : Form.Operation tokens whole) (parted : whole = left ++ t :: right)
    (operator : Op.ofSymbol? t.text = some op) (first : ofTokens left = .ok l) (second : ofTokens right = .ok r)
    (spelledLeft : l.Spelled) (spelledRight : r.Spelled)
    (sizes : size (Token.texts tokens) = size l.words + 1 + size r.words) :
    tokens = left ++ t :: right ∧ Side left l ∧ Side right r := by
  have leftMeasured := (measured_of_reads first).2
  have rightMeasured := (measured_of_reads second).2
  have leftSize := leftMeasured.size_le spelledLeft
  have rightSize := rightMeasured.size_le spelledRight
  obtain ⟨-, ⟨plain, total⟩ | total⟩ := Measured.operation operation parted operator leftMeasured rightMeasured
  · exact ⟨plain.trans parted, ⟨first, leftMeasured.even, by omega⟩, ⟨second, rightMeasured.even, by omega⟩⟩
  · omega

/-- An operation is read from its two sides, maybe in parentheses, if as many texts count as in its words. -/
theorem exists_operation {op : Op} {l r : Expr} (spelledLeft : l.Spelled) (spelledRight : r.Spelled)
    {tokens : List Token} (read : ofTokens tokens = .ok (.binary op l r))
    (sizes : size (Token.texts tokens) = size l.words + 1 + size r.words) :
    ∃ count left t right, Token.texts tokens =
        List.replicate count "(" ++ Token.texts left ++ t :: (Token.texts right ++ List.replicate count ")") ∧
      Op.ofSymbol? t = some op ∧ Side left l ∧ Side right r := by
  induction length : tokens.length using Nat.strongRecOn generalizing tokens with
  | _ length ih =>
  subst length
  cases reading_of_ofTokens read with
  | @parens opener closer inner _ span inside =>
    have even := (measured_of_reads inside).2.even
    rw [span.texts_eq] at sizes ⊢
    replace sizes := (size_round even.squares).symm.trans sizes
    have shorter : inner.length < (opener :: inner ++ [closer]).length := by
      simp only [List.length_append, List.length_cons, List.length_nil]
      omega
    obtain ⟨count, left, t, right, same, operator, sides⟩ := ih _ shorter inside sizes rfl
    refine ⟨count + 1, left, t, right, ?_, operator, sides⟩
    rw [same]
    simp [List.replicate_succ, Bracket.opener, Bracket.closer, ← List.replicate_succ']
  | @binary _ _ left right t _ _ _ operation parted operator first second =>
    obtain ⟨plain, sides⟩ := exists_sides operation parted operator first second spelledLeft spelledRight sizes
    exact ⟨0, left, t.text, right, by simp [plain], operator, sides⟩

/-- The words of the two sides of an operation are read as they are. -/
theorem sides_of_words {op : Op} {l r : Expr} (known : Op.ofSymbol? op.symbol = some op) (spelledLeft : l.Spelled)
    (spelledRight : r.Spelled) {tokens : List Token} (same : Token.texts tokens = l.words ++ op.symbol :: r.words)
    (read : ofTokens tokens = .ok (.binary op l r)) :
    (∃ left, Token.texts left = l.words ∧ ofTokens left = .ok l) ∧
      ∃ right, Token.texts right = r.words ∧ ofTokens right = .ok r := by
  have sizes : size (Token.texts tokens) = size l.words + 1 + size r.words := by
    rw [same, size_operation spelledLeft.even known]
  obtain ⟨count, left, t, right, parted, operator, first, second⟩ :=
    exists_operation spelledLeft spelledRight read sizes
  rw [same] at parted
  obtain ⟨leftWords, -, rightWords⟩ := cut_unique parted spelledLeft.even.squares
    ((balanced_replicate count).append first.even.squares) known operator
    (by rw [size_replicate, first.size_eq])
  -- the words of the left side are even, so no parenthesis stands in front of it
  obtain rfl := eq_zero_of_even first.even (leftWords ▸ spelledLeft.even)
  exact ⟨⟨left, by simpa using leftWords.symm, first.reads⟩, ⟨right, by simpa using rightWords.symm, second.reads⟩⟩

/-- The words of an operation are read between its parentheses, which enclose balanced words. -/
theorem inside_of_words {op : Op} {l r : Expr} (known : Op.ofSymbol? op.symbol = some op) (spelledLeft : l.Spelled)
    (spelledRight : r.Spelled) {tokens : List Token} (same : Token.texts tokens = words (.binary op l r))
    (read : ofTokens tokens = .ok (.binary op l r)) :
    Balanced .round (l.words ++ op.symbol :: r.words) ∧
      ∃ inner, Token.texts inner = l.words ++ op.symbol :: r.words ∧ ofTokens inner = .ok (.binary op l r) := by
  cases reading_of_ofTokens read with
  | @parens opener closer inner _ span inside =>
    rw [words] at same
    have innerWords := span.inner_eq same
    have balanced := span.balanced
    rw [innerWords] at balanced
    exact ⟨balanced, inner, innerWords, inside⟩
  | @binary _ _ left right t _ _ _ operation parted operator first second =>
    -- the left side would begin with the parenthesis, and the words after it are even
    exfalso
    have inner := spelledLeft.even.append (spelledRight.even.cons (apart_operator known))
    have sizes : size (Token.texts tokens) = size l.words + 1 + size r.words := by
      rw [same, words, size_round inner.squares, size_operation spelledLeft.even known]
    obtain ⟨plain, first, second⟩ := exists_sides operation parted operator first second spelledLeft spelledRight sizes
    have whole : "(" :: l.words ++ op.symbol :: (r.words ++ [")"]) =
        Token.texts left ++ t.text :: Token.texts right := by
      rw [← texts_cons, ← texts_append, ← plain, same, words]
      simp
    have outer : Balanced .square ("(" :: l.words) := (balanced_replicate 1).append spelledLeft.even.squares
    obtain ⟨leftWords, -, -⟩ := cut_unique whole outer first.even.squares known operator
      (by rw [first.size_eq]; exact size_replicate 1 l.words)
    have even : Even (List.replicate 1 "(" ++ l.words) := by
      change Even ("(" :: l.words)
      rw [leftWords]
      exact first.even
    exact absurd (eq_zero_of_even spelledLeft.even even) (by decide)

private theorem sizes_eq {groups : List (List Token)} {exprs : List Expr}
    (measured : List.Forall₂ Measured groups exprs) (spelled : ∀ e ∈ exprs, e.Spelled)
    (sum_le : (exprs.map fun e => size e.words).sum ≤ (groups.map fun group => size (Token.texts group)).sum) :
    List.Forall₂ (fun group w => size (Token.texts group) = size w) groups (exprs.map words) := by
  induction measured with
  | nil => exact .nil
  | @cons group e groups exprs first others ih =>
    have head := first.size_le (spelled e (by simp))
    have tail := (Measured.each others).2 fun other member => spelled other (by simp [member])
    simp only [List.map_cons, List.sum_cons] at sum_le
    exact .cons (by omega) (ih (fun other member => spelled other (by simp [member])) (by omega))

private theorem exists_tokens {groups : List (List Token)} {exprs : List Expr}
    (reads : List.Forall₂ (fun group e => ofTokens group = .ok e) groups exprs)
    (same : groups.map Token.texts = exprs.map words) :
    ∀ e ∈ exprs, ∃ tokens, Token.texts tokens = e.words ∧ ofTokens tokens = .ok e := by
  induction reads with
  | nil => simp
  | @cons group e groups exprs first _ ih =>
    obtain ⟨head, tail⟩ := List.cons.inj same
    intro other member
    rcases List.mem_cons.mp member with rfl | member
    · exact ⟨group, head, first⟩
    · exact ih tail other member

/-- The words of the parts between commas are read as they are. -/
theorem parts_of_words {exprs : List Expr} {inner : List Token} (spelled : ∀ e ∈ exprs, e.Spelled)
    (same : Token.texts inner = [","].intercalate (allWords exprs))
    (reads : List.Forall₂ (fun group e => ofTokens group = .ok e)
      ((split "," inner).filter fun group => !group.isEmpty) exprs) :
    ∀ e ∈ exprs, ∃ tokens, Token.texts tokens = e.words ∧ ofTokens tokens = .ok e := by
  by_cases none : exprs = []
  · simp [none]
  have parted := parted_split "," inner
  generalize split "," inner = groups at parted reads
  have measured := reads.imp fun _ _ read => (measured_of_reads read).2
  have even := Measured.even_groups measured
  have total : (exprs.map fun e => size e.words).sum =
      ((groups.filter fun group => !group.isEmpty).map fun group => size (Token.texts group)).sum := by
    rw [← size_filled, ← parted.size_eq even, same,
      size_intercalate (even_allWords fun e member => (spelled e member).even), allWords_eq, List.map_map]
    rfl
  rw [allWords_eq] at same
  have texts := parted.texts_eq (by simpa using none) same
    (by simpa using fun e member => (spelled e member).woven) even (sizes_eq measured spelled (Nat.le_of_eq total))
  have filled : groups.filter (fun group => !group.isEmpty) = groups := by
    refine List.filter_sublist.eq_of_length ?_
    rw [reads.length_eq, ← List.length_map words, ← texts, List.length_map]
  rw [filled] at reads
  exact exists_tokens reads texts

/-- An expression that is read from its own words has its operations enclosed. -/
theorem Spelled.enclosed {expr : Expr} (spelled : expr.Spelled) {tokens : List Token}
    (same : Token.texts tokens = expr.words) (read : ofTokens tokens = .ok expr) : expr.Enclosed := by
  induction spelled generalizing tokens with
  | num => exact .num _
  | var => exact .var _
  | delegate => exact .delegate _
  | binary known spelledLeft spelledRight ihLeft ihRight =>
    obtain ⟨balanced, inner, innerWords, inside⟩ := inside_of_words known spelledLeft spelledRight same read
    obtain ⟨⟨left, leftWords, first⟩, right, rightWords, second⟩ :=
      sides_of_words known spelledLeft spelledRight innerWords inside
    refine .binary (ihLeft leftWords first) (ihRight rightWords second) ?_
    rw [(lexes_operation known spelledLeft.lexes spelledRight.lexes).texts_lex]
    exact balanced
  | @call name args letters spelled ih =>
    cases reading_of_ofTokens read with
    | parens span =>
      rw [span.texts_eq] at same
      have paren : "(" = name := (List.cons.inj same).1
      rw [← paren] at letters
      cases letters
    | @call _ opener closer inner _ _ span each =>
      have tail : Token.texts (opener :: inner ++ [closer]) = "(" :: [","].intercalate (allWords args) ++ [")"] :=
        (List.cons.inj same).2
      rw [← filter_argGroups each fun _ _ read => (measured_of_reads read).1] at each
      refine .call fun arg member => ?_
      obtain ⟨tokens, argWords, argRead⟩ := parts_of_words spelled (span.inner_eq tail) each arg member
      exact ih arg member argWords argRead
  | @list elems spelled ih =>
    cases reading_of_ofTokens read with
    | parens span =>
      rw [span.texts_eq] at same
      exact absurd (List.cons.inj same).1 (by decide)
    | literal literal =>
      rw [List.cons_append, texts_cons, literal.opens] at same
      exact absurd (List.cons.inj same).1 (by decide)
    | @list opener closer inner _ span each =>
      refine .list fun elem member => ?_
      obtain ⟨tokens, elemWords, elemRead⟩ := parts_of_words spelled (span.inner_eq same) each elem member
      exact ih elem member elemWords elemRead
  | @vector elems _ spelled ih =>
    cases reading_of_ofTokens read with
    | parens span =>
      rw [span.texts_eq] at same
      exact absurd (List.cons.inj same).1 (by decide)
    | @vector opener closer inner _ span each =>
      rw [← filter_filled each fun _ _ read => (measured_of_reads read).1] at each
      refine .vector fun elem member => ?_
      obtain ⟨tokens, elemWords, elemRead⟩ := parts_of_words spelled (span.inner_eq same) each elem member
      exact ih elem member elemWords elemRead

end Reckon.Expr
