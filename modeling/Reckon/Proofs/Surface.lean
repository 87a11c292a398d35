import Reckon.Proofs.RoundTrip

/-!
What stands outside of square brackets in tokens that are read. As many parentheses open there as close
(`Even`), and no more texts count there than in the words of the expression (`Expr.measured_of_reads`),
where parentheses and commas do not count.
-/

namespace Reckon.Token

/-- The texts outside of square brackets, with the brackets that open the outermost of these. -/
def surface : (depth : Nat) → List String → List String
  | _, [] => []
  | depth, t :: rest =>
    if t = "]" then surface (depth - 1) rest
    else
      let below := surface (if t = "[" then depth + 1 else depth) rest
      if depth = 0 then t :: below else below

/-- The texts outside of literals and of square brackets. -/
def face (texts : List String) : List String := surface 0 (outside false texts)

/-- A text that counts: no parenthesis and no comma. -/
def counts (text : String) : Bool := text ≠ "(" && text ≠ ")" && text ≠ ","

/-- How many texts count. -/
def size (texts : List String) : Nat := (face texts).countP counts

theorem surface_append {depth after : Nat} {left : List String} (count : climb? .square depth left = some after)
    (right : List String) : surface depth (left ++ right) = surface depth left ++ surface after right := by
  induction left generalizing depth with
  | nil =>
    obtain rfl : depth = after := by simpa using count
    rfl
  | cons t rest ih =>
    by_cases closes : t = "]"
    · subst closes
      cases depth with
      | zero => exact absurd count (by simp [climb?, Bracket.closer])
      | succ depth =>
        have tail : climb? .square depth rest = some after := by simpa [climb?, Bracket.closer] using count
        simp [surface, ih tail]
    · by_cases opens : t = "["
      · subst opens
        have tail : climb? .square (depth + 1) rest = some after := by
          simpa [climb?, Bracket.closer, Bracket.opener] using count
        simp only [List.cons_append, surface, closes, if_false, if_true, ih tail]
        split <;> rfl
      · have tail : climb? .square depth rest = some after := by
          simpa [climb?, Bracket.closer, Bracket.opener, closes, opens] using count
        simp only [List.cons_append, surface, closes, opens, if_false, ih tail]
        split <;> rfl

/-- Below a square bracket nothing is on the surface. -/
theorem surface_below {depth after : Nat} {texts : List String} (count : climb? .square depth texts = some after) :
    surface (depth + 1) texts = [] := by
  induction texts generalizing depth with
  | nil => rfl
  | cons t rest ih =>
    by_cases closes : t = "]"
    · subst closes
      cases depth with
      | zero => exact absurd count (by simp [climb?, Bracket.closer])
      | succ depth =>
        have tail : climb? .square depth rest = some after := by simpa [climb?, Bracket.closer] using count
        simpa [surface] using ih tail
    · by_cases opens : t = "["
      · subst opens
        have tail : climb? .square (depth + 1) rest = some after := by
          simpa [climb?, Bracket.closer, Bracket.opener] using count
        simpa [surface] using ih tail
      · have tail : climb? .square depth rest = some after := by
          simpa [climb?, Bracket.closer, Bracket.opener, closes, opens] using count
        simpa [surface, closes, opens] using ih tail

theorem face_append {left : List String} (balanced : Balanced .square left) (right : List String) :
    face (left ++ right) = face left ++ face right := by
  rw [face, outside_closed balanced.1, surface_append balanced.2]
  rfl

theorem face_cons {t : String} (unquoted : t ≠ quoteMark) (opens : t ≠ "[") (closes : t ≠ "]") (rest : List String) :
    face (t :: rest) = t :: face rest := by
  simp [face, outside_cons unquoted, surface, opens, closes]

theorem face_square {inner : List String} (balanced : Balanced .square inner) :
    face ("[" :: inner ++ ["]"]) = ["["] := by
  have inside : climb? .square 1 (outside false inner) = some 1 := by
    simpa using climb?_add balanced.2 1
  rw [face, List.cons_append, outside_cons (by decide), outside_closed balanced.1, outside_cons (by decide)]
  simp only [surface, if_neg (show ("[" : String) ≠ "]" by decide), if_true]
  rw [surface_append inside, surface_below balanced.2]
  rfl

theorem size_append {left : List String} (balanced : Balanced .square left) (right : List String) :
    size (left ++ right) = size left + size right := by
  rw [size, face_append balanced, List.countP_append]
  rfl

/-- Square brackets are balanced, and on the surface as many parentheses open as close. -/
structure Even (texts : List String) : Prop where
  squares : Balanced .square texts
  parens : (face texts).count "(" = (face texts).count ")"

theorem even_nil : Even [] := ⟨climbs_nil .square 0, rfl⟩

theorem Even.append {left right : List String} (first : Even left) (second : Even right) : Even (left ++ right) := by
  refine ⟨first.squares.append second.squares, ?_⟩
  rw [face_append first.squares, List.count_append, List.count_append, first.parens, second.parens]

/-- A text that is no parenthesis, no square bracket and no quote. -/
structure Apart (text : String) : Prop where
  unquoted : text ≠ quoteMark
  opens : text ≠ "["
  closes : text ≠ "]"
  left : text ≠ "("
  right : text ≠ ")"

instance (text : String) : Decidable (Apart text) :=
  decidable_of_iff (text ≠ quoteMark ∧ text ≠ "[" ∧ text ≠ "]" ∧ text ≠ "(" ∧ text ≠ ")")
    ⟨fun ⟨unquoted, opens, closes, left, right⟩ => ⟨unquoted, opens, closes, left, right⟩,
      fun apart => ⟨apart.unquoted, apart.opens, apart.closes, apart.left, apart.right⟩⟩

theorem apart_comma : Apart "," := by decide

theorem apart_curly : Apart "\x7b" ∧ Apart "\x7d" := by decide

theorem apart_angle : Apart "<" ∧ Apart ">" := by decide

theorem apart_unmarked {text : String} (unmarked : isMark text = false) : Apart text :=
  ⟨ne_of_unmarked unmarked (by decide), ne_of_unmarked unmarked (by decide), ne_of_unmarked unmarked (by decide),
    ne_of_unmarked unmarked (by decide), ne_of_unmarked unmarked (by decide)⟩

theorem Apart.face_cons {text : String} (apart : Apart text) (rest : List String) :
    face (text :: rest) = text :: face rest :=
  Token.face_cons apart.unquoted apart.opens apart.closes rest

theorem Apart.even {text : String} (apart : Apart text) : Even [text] := by
  refine ⟨@climbs_other .square text apart.unquoted apart.opens apart.closes 0, ?_⟩
  rw [apart.face_cons]
  simp [face, surface, apart.left, apart.right]

theorem Even.cons {text : String} {rest : List String} (apart : Apart text) (even : Even rest) : Even (text :: rest) :=
  apart.even.append even

/-- A text apart in front can be left out. -/
theorem Even.tail {text : String} {rest : List String} (apart : Apart text) (even : Even (text :: rest)) :
    Even rest := by
  refine ⟨?_, ?_⟩
  · exact apart.even.squares.tail even.squares
  · have parens := even.parens
    rw [apart.face_cons] at parens
    simpa [List.count_cons, apart.left, apart.right] using parens

private theorem square_opener (depth : Nat) : Climbs .square depth ["("] depth :=
  climbs_other (by decide) (by decide) (by decide) depth

private theorem square_closer (depth : Nat) : Climbs .square depth [")"] depth :=
  climbs_other (by decide) (by decide) (by decide) depth

theorem face_round {inner : List String} (balanced : Balanced .square inner) :
    face ("(" :: inner ++ [")"]) = "(" :: face inner ++ [")"] := by
  rw [List.cons_append, face_cons (by decide) (by decide) (by decide), face_append balanced,
    face_cons (by decide) (by decide) (by decide)]
  rfl

theorem Even.round {inner : List String} (even : Even inner) : Even ("(" :: inner ++ [")"]) := by
  refine ⟨((square_opener 0).append even.squares).append (square_closer 0), ?_⟩
  rw [face_round even.squares]
  simp [even.parens]

/-- Parentheses around the whole can be left out. -/
theorem Even.of_round {inner : List String} (even : Even ("(" :: inner ++ [")"])) : Even inner := by
  have closed : inLiteral false inner = false :=
    (inLiteral_enclosed (by decide) (by decide) inner).symm.trans even.squares.1
  have inside : Balanced .square inner := even.squares.between closed square_opener square_closer
  refine ⟨inside, ?_⟩
  have parens := even.parens
  rw [face_round inside] at parens
  simpa using parens

theorem even_literal {opener closer : Token} {inner : List Token} (literal : Literal opener inner closer) :
    Even (Token.texts (opener :: inner ++ [closer])) ∧ size (Token.texts (opener :: inner ++ [closer])) = 0 := by
  have none : face (Token.texts (opener :: inner ++ [closer])) = [] := by
    rw [face, literal.outside_eq]
    rfl
  exact ⟨⟨literal.balanced .square, by rw [none]; rfl⟩, by rw [size, none]; rfl⟩

theorem even_square {inner : List String} (balanced : Balanced .square inner) : Even ("[" :: inner ++ ["]"]) := by
  refine ⟨balanced.enclosed .square, ?_⟩
  rw [face_square balanced]
  decide

theorem Even.enclosed {opener closer : String} {inner : List String} (opens : Apart opener) (closes : Apart closer)
    (even : Even inner) : Even (opener :: inner ++ [closer]) :=
  (even.cons opens).append closes.even

theorem apart_operator {text : String} {op : Op} (operator : Op.ofSymbol? text = some op) : Apart text := by
  have symbol := Form.isOperator_of_ofSymbol? operator
  simp only [isOperator, Bool.or_eq_true, decide_eq_true_eq] at symbol
  rcases symbol with (((rfl | rfl) | rfl) | rfl) | rfl <;> decide

theorem even_intercalate {words : List (List String)} (each : ∀ w ∈ words, Even w) :
    Even ([","].intercalate words) :=
  intercalate_induction even_nil Even.append apart_comma.even each

/-! ### Sizes -/

theorem size_cons {text : String} (apart : Apart text) (rest : List String) :
    size (text :: rest) = size rest + if counts text then 1 else 0 := by
  rw [size, apart.face_cons, List.countP_cons]
  rfl

theorem size_round {inner : List String} (balanced : Balanced .square inner) :
    size ("(" :: inner ++ [")"]) = size inner := by
  rw [size, face_round balanced]
  simp [size, counts]

theorem size_square {inner : List String} (balanced : Balanced .square inner) : size ("[" :: inner ++ ["]"]) = 1 := by
  rw [size, face_square balanced]
  decide

theorem counts_unmarked {text : String} (unmarked : isMark text = false) : counts text = true := by
  simp [counts, ne_of_unmarked unmarked (show isMark "(" = true by decide),
    ne_of_unmarked unmarked (show isMark ")" = true by decide),
    ne_of_unmarked unmarked (show isMark "," = true by decide)]

theorem counts_operator {text : String} {op : Op} (operator : Op.ofSymbol? text = some op) : counts text = true := by
  have symbol := Form.isOperator_of_ofSymbol? operator
  simp only [isOperator, Bool.or_eq_true, decide_eq_true_eq] at symbol
  rcases symbol with (((rfl | rfl) | rfl) | rfl) | rfl <;> decide

theorem size_operation {left right : List String} {text : String} {op : Op} (even : Even left)
    (operator : Op.ofSymbol? text = some op) : size (left ++ text :: right) = size left + 1 + size right := by
  rw [size_append even.squares, size_cons (apart_operator operator), counts_operator operator]
  simp
  omega

theorem size_enclosed {opener closer : String} {inner : List String} (opens : Apart opener) (closes : Apart closer)
    (firstCounts : counts opener = true) (lastCounts : counts closer = true) (even : Even inner) :
    size (opener :: inner ++ [closer]) = size inner + 2 := by
  rw [List.cons_append, size_cons opens, size_append even.squares, size_cons closes, firstCounts, lastCounts]
  simp [size, face, surface]

/-- Commas do not count. -/
theorem size_intercalate {words : List (List String)} (each : ∀ w ∈ words, Even w) :
    size ([","].intercalate words) = (words.map size).sum := by
  induction words with
  | nil => rfl
  | cons first rest ih =>
    have others := ih fun w member => each w (by simp [member])
    cases rest with
    | nil => simp
    | cons second rest =>
      rw [List.intercalate_cons_cons, List.append_assoc, size_append (each first (by simp)).squares,
        List.singleton_append, size_cons apart_comma, others]
      simp [counts]

theorem Parted.size_eq {tokens : List Token} {groups : List (List Token)} (parted : Parted "," tokens groups)
    (each : ∀ group ∈ groups, Even (Token.texts group)) :
    size (Token.texts tokens) = (groups.map fun group => size (Token.texts group)).sum := by
  induction parted with
  | last => simp
  | @more t rest groups group separates _ ih =>
    have others := ih fun g member => each g (by simp [member])
    rw [texts_append, texts_cons, separates, size_append (each group (by simp)).squares, size_cons apart_comma, others]
    simp [counts]

theorem Parted.even {tokens : List Token} {groups : List (List Token)} (parted : Parted "," tokens groups)
    (each : ∀ group ∈ groups, Even (Token.texts group)) : Even (Token.texts tokens) :=
  parted.texts Even.append apart_comma.even each

/-! ### Commas -/

/-- Whether some text counts before each comma, after the last and between each two. That one counts in front is
    said by `seen`. -/
def spaced : (seen : Bool) → List String → Bool
  | seen, [] => seen
  | seen, t :: rest => if t = "," then seen && spaced false rest else spaced (seen || counts t) rest

theorem spaced_append {seen : Bool} {left : List String} (first : spaced seen left = true) (right : List String) :
    spaced seen (left ++ right) = spaced true right := by
  induction left generalizing seen with
  | nil =>
    obtain rfl : seen = true := first
    rfl
  | cons t rest ih =>
    simp only [spaced, List.cons_append] at first ⊢
    split at first
    · rename_i comma
      obtain ⟨rfl, tail⟩ : seen = true ∧ spaced false rest = true := by simpa using first
      rw [if_pos comma, ih tail]
      rfl
    · rename_i other
      rw [if_neg other, ih first]

theorem spaced_true {seen : Bool} {texts : List String} (first : spaced seen texts = true) :
    spaced true texts = true := by
  induction texts generalizing seen with
  | nil => rfl
  | cons t rest ih =>
    simp only [spaced] at first ⊢
    split at first
    · rename_i comma
      obtain ⟨-, tail⟩ : seen = true ∧ spaced false rest = true := by simpa using first
      rw [if_pos comma, tail]
      rfl
    · rename_i other
      rw [if_neg other]
      exact ih first

private theorem spaced_bare {texts : List String} (none : texts.countP counts = 0) : spaced false texts = false := by
  induction texts with
  | nil => rfl
  | cons t rest ih =>
    obtain ⟨others, first⟩ : rest.countP counts = 0 ∧ counts t = false := by simpa [List.countP_cons] using none
    simp [spaced, first, ih others]

/-- No comma stands before all that counts. -/
theorem spaced_first {left : List String} (none : left.countP counts = 0) (right : List String) :
    spaced false (left ++ "," :: right) = false := by
  induction left with
  | nil => rfl
  | cons t rest ih =>
    obtain ⟨others, first⟩ : rest.countP counts = 0 ∧ counts t = false := by simpa [List.countP_cons] using none
    simp [spaced, first, ih others]

/-- No comma stands after all that counts. -/
theorem spaced_last {right : List String} (none : right.countP counts = 0) (seen : Bool) (left : List String) :
    spaced seen (left ++ "," :: right) = false := by
  induction left generalizing seen with
  | nil => simp [spaced, spaced_bare none]
  | cons t rest ih =>
    simp only [List.cons_append, spaced, ih, Bool.and_false]
    split <;> rfl

/-- Texts with even parentheses, and with texts that count around each comma. -/
structure Woven (seen : Bool) (texts : List String) : Prop extends Even texts where
  commas : spaced seen (face texts) = true

theorem Woven.append {seen : Bool} {left right : List String} (first : Woven seen left) (second : Woven true right) :
    Woven seen (left ++ right) := by
  refine ⟨first.toEven.append second.toEven, ?_⟩
  rw [face_append first.squares, spaced_append first.commas]
  exact second.commas

theorem Woven.weaken {seen : Bool} {texts : List String} (woven : Woven seen texts) : Woven true texts :=
  ⟨woven.toEven, spaced_true woven.commas⟩

theorem woven_nil : Woven true [] := ⟨even_nil, rfl⟩

theorem woven_comma {texts : List String} (woven : Woven false texts) : Woven true ("," :: texts) := by
  refine ⟨woven.toEven.cons apart_comma, ?_⟩
  rw [apart_comma.face_cons]
  exact woven.commas

/-- A text that counts. -/
theorem woven_single {text : String} (apart : Apart text) (isCounted : counts text = true) : Woven false [text] := by
  have other : text ≠ "," := by
    rintro rfl
    cases isCounted
  refine ⟨apart.even, ?_⟩
  rw [apart.face_cons]
  simp [face, surface, spaced, isCounted, other]

theorem woven_unmarked {text : String} (unmarked : isMark text = false) : Woven false [text] :=
  woven_single (apart_unmarked unmarked) (counts_unmarked unmarked)

theorem woven_operator {text : String} {op : Op} (operator : Op.ofSymbol? text = some op) : Woven false [text] :=
  woven_single (apart_operator operator) (counts_operator operator)

theorem Woven.round {seen : Bool} {inner : List String} (woven : Woven seen inner) :
    Woven seen ("(" :: inner ++ [")"]) := by
  refine ⟨woven.toEven.round, ?_⟩
  rw [face_round woven.squares, List.cons_append]
  cases seen with
  | false => exact spaced_append woven.commas [")"]
  | true => exact spaced_append woven.commas [")"]

theorem woven_intercalate {words : List (List String)} (filled : words ≠ []) (each : ∀ w ∈ words, Woven false w) :
    Woven false ([","].intercalate words) := by
  induction words with
  | nil => exact absurd rfl filled
  | cons first rest ih =>
    have front := each first (by simp)
    cases rest with
    | nil => simpa using front
    | cons second rest =>
      have others := ih (by simp) fun w member => each w (by simp [member])
      rw [List.intercalate_cons_cons, List.append_assoc, List.singleton_append]
      exact front.append (woven_comma others)

theorem Woven.size_pos {texts : List String} (woven : Woven false texts) : 0 < size texts := by
  refine Nat.pos_of_ne_zero fun none => ?_
  have commas := woven.commas
  rw [spaced_bare none] at commas
  cases commas

/-- What may stand between brackets. -/
theorem woven_parts {words : List (List String)} (each : ∀ w ∈ words, Woven false w) :
    Woven true ([","].intercalate words) := by
  cases words with
  | nil => exact woven_nil
  | cons first rest => exact (woven_intercalate (by simp) each).weaken

end Reckon.Token

namespace Reckon.Expr
open Token

/-! ### The words of an expression -/

theorem even_allWords {exprs : List Expr} (each : ∀ e ∈ exprs, Even e.words) :
    ∀ w ∈ allWords exprs, Even w := by
  intro w member
  rw [allWords_eq] at member
  obtain ⟨e, isPart, rfl⟩ := List.mem_map.mp member
  exact each e isPart

theorem woven_numWords (x : Float) : Woven false (numWords x) := by
  simp only [numWords]
  split
  · have magnitude := woven_unmarked (Number.isWord_text (Double.isNegative_abs x)).2
    have zero := woven_unmarked (show isMark "0" = false by decide)
    have minus := woven_operator (show Op.ofSymbol? "-" = some .sub from rfl)
    exact (zero.append (minus.append magnitude.weaken).weaken).round
  · rename_i unsigned
    cases negative : Double.isNegative x with
    | false => exact woven_unmarked (Number.isWord_text negative).2
    | true =>
      have none : x.isNaN = true := by simpa [negative] using unsigned
      rw [Number.text, if_pos none]
      exact woven_unmarked (by decide)

theorem Spelled.woven {expr : Expr} (spelled : expr.Spelled) : Woven false expr.words := by
  have parts {exprs : List Expr} (each : ∀ e ∈ exprs, Woven false e.words) :
      Woven true ([","].intercalate (allWords exprs)) := by
    refine woven_parts fun w member => ?_
    rw [allWords_eq] at member
    obtain ⟨e, isPart, rfl⟩ := List.mem_map.mp member
    exact each e isPart
  induction spelled with
  | num => exact woven_numWords _
  | var word => exact woven_unmarked word.2
  | binary known _ _ first second => exact (first.append ((woven_operator known).append second.weaken).weaken).round
  | call letters _ each => exact (woven_unmarked (isMark_letters letters)).append (parts each).round
  | list _ each =>
    have opened := (woven_single apart_curly.1 (by decide)).append (parts each)
    exact opened.append (woven_single apart_curly.2 (by decide)).weaken
  | vector _ _ each =>
    have opened := (woven_single apart_angle.1 (by decide)).append (parts each)
    exact opened.append (woven_single apart_angle.2 (by decide)).weaken
  | delegate sound => exact ⟨even_square sound.balanced, by rw [words, Delegate.words, face_square sound.balanced]; rfl⟩

theorem Spelled.even {expr : Expr} (spelled : expr.Spelled) : Even expr.words := spelled.woven.toEven

/-- What tokens that are read have on their surface. -/
structure Measured (tokens : List Token) (expr : Expr) : Prop where
  even : Even (Token.texts tokens)
  size_le : expr.Spelled → size (Token.texts tokens) ≤ size expr.words

/-- Groups without tokens do not count. -/
theorem size_filled (groups : List (List Token)) :
    (groups.map fun group => size (Token.texts group)).sum =
      ((groups.filter fun group => !group.isEmpty).map fun group => size (Token.texts group)).sum := by
  induction groups with
  | nil => rfl
  | cons group groups ih =>
    cases group with
    | nil => simpa [size, face, surface] using ih
    | cons t rest => simpa using ih

theorem Measured.each {groups : List (List Token)} {exprs : List Expr} (measured : List.Forall₂ Measured groups exprs) :
    (∀ group ∈ groups, Even (Token.texts group)) ∧
      ((∀ e ∈ exprs, e.Spelled) →
        (groups.map fun group => size (Token.texts group)).sum ≤ (exprs.map fun e => size e.words).sum) := by
  induction measured with
  | nil => simp
  | cons first _ ih =>
    refine ⟨by simpa using ⟨first.even, ih.1⟩, fun spelled => ?_⟩
    have head := first.size_le (spelled _ (by simp))
    have tail := ih.2 fun e member => spelled e (by simp [member])
    simp only [List.map_cons, List.sum_cons] at tail ⊢
    omega

theorem Measured.even_groups {groups : List (List Token)} {exprs : List Expr}
    (measured : List.Forall₂ Measured (groups.filter fun group => !group.isEmpty) exprs) :
    ∀ group ∈ groups, Even (Token.texts group) := by
  intro group member
  cases group with
  | nil => exact even_nil
  | cons t rest => exact (Measured.each measured).1 _ (by simp [member])

/-- What stands between brackets, if the parts with tokens are measured. -/
theorem Measured.inside {inner : List Token} {groups : List (List Token)} {exprs : List Expr}
    (parted : Parted "," inner groups)
    (measured : List.Forall₂ Measured (groups.filter fun group => !group.isEmpty) exprs) :
    Even (Token.texts inner) ∧
      ((∀ e ∈ exprs, e.Spelled) → size (Token.texts inner) ≤ size ([","].intercalate (allWords exprs))) := by
  have even := Measured.even_groups measured
  refine ⟨parted.even even, fun spelled => ?_⟩
  rw [parted.size_eq even, size_filled, size_intercalate (even_allWords fun e member => (spelled e member).even),
    allWords_eq, List.map_map]
  exact (Measured.each measured).2 spelled

/-- Parts of which none is empty. -/
theorem filter_filled {groups : List (List Token)} {exprs : List Expr} {R : List Token → Expr → Prop}
    (parts : List.Forall₂ R groups exprs) (filled : ∀ group e, R group e → group ≠ []) :
    groups.filter (fun group => !group.isEmpty) = groups := by
  refine List.filter_eq_self.mpr fun group member => ?_
  induction parts with
  | nil => cases member
  | cons first _ ih =>
    rcases List.mem_cons.mp member with rfl | member
    · simpa using filled _ _ first
    · exact ih member

theorem filter_argGroups {inner : List Token} {exprs : List Expr} {R : List Token → Expr → Prop}
    (parts : List.Forall₂ R (Form.argGroups inner) exprs) (filled : ∀ group e, R group e → group ≠ []) :
    (split "," inner).filter (fun group => !group.isEmpty) = Form.argGroups inner := by
  cases inner with
  | nil =>
    rw [split]
    rfl
  | cons t rest => exact filter_filled parts filled

/-- An operation counts as many texts as its two sides and its operator, or one less after a minus, where a
    zero is put in front. -/
theorem Measured.operation {tokens whole left right : List Token} {t : Token} {op : Op} {l r : Expr}
    (operation : Form.Operation tokens whole) (parted : whole = left ++ t :: right)
    (operator : Op.ofSymbol? t.text = some op) (first : Measured left l) (second : Measured right r) :
    Even (Token.texts tokens) ∧
      (tokens = whole ∧ size (Token.texts tokens) = size (Token.texts left) + 1 + size (Token.texts right) ∨
        size (Token.texts tokens) = size (Token.texts left) + size (Token.texts right)) := by
  have isApart : Apart "0" := by decide
  have even : Even (Token.texts whole) := by
    rw [parted, texts_append, texts_cons]
    exact first.even.append (second.even.cons (apart_operator operator))
  have sizes : size (Token.texts whole) = size (Token.texts left) + 1 + size (Token.texts right) := by
    rw [parted, texts_append, texts_cons, size_operation first.even operator]
  have nought {texts : List String} : size ("0" :: texts) = size texts + 1 := size_cons isApart texts
  cases operation with
  | plain => exact ⟨even, .inl ⟨rfl, sizes⟩⟩
  | negated operand sign isZero =>
    rw [texts_cons, isZero] at even sizes
    rw [nought] at sizes
    exact ⟨even.tail isApart, .inr (by omega)⟩
  | @captured minus zero opener closer operand sign isZero opens closes =>
    rw [Form.texts_captured isZero opens closes] at even sizes
    have inner := even.of_round
    rw [size_round inner.squares, nought] at sizes
    exact ⟨inner.tail isApart, .inr (by omega)⟩

private theorem size_enclosed_le {opener closer : String} {inner : List Token} {exprs : List Expr}
    (apart : Apart opener ∧ Apart closer) (bothCount : counts opener = true ∧ counts closer = true)
    (even : Even (Token.texts inner)) (spelled : ∀ e ∈ exprs, e.Spelled)
    (size_le : size (Token.texts inner) ≤ size ([","].intercalate (allWords exprs))) :
    size (opener :: Token.texts inner ++ [closer]) ≤
      size (opener :: [","].intercalate (allWords exprs) ++ [closer]) := by
  have words := even_intercalate (even_allWords fun e member => (spelled e member).even)
  rw [size_enclosed apart.1 apart.2 bothCount.1 bothCount.2 even,
    size_enclosed apart.1 apart.2 bothCount.1 bothCount.2 words]
  exact Nat.add_le_add_right size_le 2

/-- What is read is measured. -/
theorem measured_of_reads {tokens : List Token} {expr : Expr} (read : ofTokens tokens = .ok expr) :
    tokens ≠ [] ∧ Measured tokens expr := by
  refine reads_induction (motive := fun tokens expr => tokens ≠ [] ∧ Measured tokens expr) (fun reading => ?_) read
  cases reading with
  | @number t x value =>
    have unmarked := isMark_number value
    refine ⟨by simp, (apart_unmarked unmarked).even, fun _ => ?_⟩
    change size [t.text] ≤ size (numWords x)
    rw [size_cons (apart_unmarked unmarked), counts_unmarked unmarked]
    exact (woven_numWords x).size_pos
  | name _ unmarked => exact ⟨by simp, (apart_unmarked unmarked).even, fun _ => Nat.le_refl _⟩
  | parens span inside =>
    obtain ⟨-, -, even, size_le⟩ := inside
    refine ⟨by simp, ?_, fun spelled => ?_⟩
    · rw [span.texts_eq]
      exact even.round
    · rw [span.texts_eq]
      exact Nat.le_trans (Nat.le_of_eq (size_round even.squares)) (size_le spelled)
  | literal literal =>
    obtain ⟨even, none⟩ := even_literal literal
    exact ⟨by simp, even, fun _ => by rw [none]; exact Nat.zero_le _⟩
  | list span each =>
    obtain ⟨even, size_le⟩ := Measured.inside (parted_split "," _) (each.imp fun _ _ part => part.2.2)
    refine ⟨by simp, ?_, fun spelled => ?_⟩
    · rw [span.texts_eq]
      exact even.enclosed apart_curly.1 apart_curly.2
    · cases spelled with
      | list spelled =>
        rw [span.texts_eq, words]
        exact size_enclosed_le apart_curly (by decide) even spelled (size_le spelled)
  | vector span each =>
    have parts := each.imp fun _ _ part => part.2.2
    rw [← filter_filled each fun _ _ part => part.2.1] at parts
    obtain ⟨even, size_le⟩ := Measured.inside (parted_split "," _) parts
    refine ⟨by simp, ?_, fun spelled => ?_⟩
    · rw [span.texts_eq]
      exact even.enclosed apart_angle.1 apart_angle.2
    · cases spelled with
      | vector _ spelled =>
        rw [span.texts_eq, words]
        exact size_enclosed_le apart_angle (by decide) even spelled (size_le spelled)
  | @call name opener closer inner args letters span each =>
    have apart := apart_unmarked (isMark_letters letters)
    have parts := each.imp fun _ _ part => part.2.2
    rw [← filter_argGroups each fun _ _ part => part.2.1] at parts
    obtain ⟨even, size_le⟩ := Measured.inside (parted_split "," _) parts
    refine ⟨by simp, ?_, fun spelled => ?_⟩
    · rw [span.texts_call]
      exact even.round.cons apart
    · cases spelled with
      | call _ spelled =>
        have inside := even_intercalate (even_allWords fun e member => (spelled e member).even)
        have tokensSize := size_round even.squares
        have wordsSize := size_round inside.squares
        rw [span.texts_call, words_call, List.singleton_append, List.singleton_append, size_cons apart, size_cons apart,
          wordsSize]
        exact Nat.add_le_add_right (Nat.le_trans (Nat.le_of_eq tokensSize) (size_le spelled)) _
  | delegate span =>
    refine ⟨by simp, ?_, fun spelled => ?_⟩
    · rw [span.texts_eq]
      exact even_square span.balanced
    · cases spelled with
      | delegate sound =>
        rw [span.texts_eq, words, Delegate.words, size_square sound.balanced]
        exact Nat.le_of_eq (size_square span.balanced)
  | @binary tokens _ left right t _ _ _ operation parted operator first second =>
    obtain ⟨even, sizes⟩ := Measured.operation operation parted operator first.2.2 second.2.2
    refine ⟨by cases operation <;> simp [parted], even, fun spelled => ?_⟩
    cases spelled with
    | binary known spelledLeft spelledRight =>
      have leftSize := first.2.2.size_le spelledLeft
      have rightSize := second.2.2.size_le spelledRight
      rw [words, size_round (spelledLeft.even.append (spelledRight.even.cons (apart_operator known))).squares,
        size_operation spelledLeft.even known]
      omega

end Reckon.Expr
