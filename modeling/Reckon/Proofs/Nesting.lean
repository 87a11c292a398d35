import Reckon.Proofs.Reading

/-!
Which texts with brackets are read. Without delegates, a text that is read has its
brackets properly nested unless a closing parenthesis comes before any that opens it
(`Expr.parse?_nested_iff`). Such a stray parenthesis can only stand after a minus: there the
parentheses put around the subtraction from zero take it for their own.
-/

namespace Reckon.Token

/-- The bracket that a text opens, square ones aside. -/
def opening? (text : String) : Option Bracket :=
  [Bracket.round, .curly, .angle].find? fun kind => text = kind.opener

/-- The bracket that a text closes, square ones aside. -/
def closing? (text : String) : Option Bracket :=
  [Bracket.round, .curly, .angle].find? fun kind => text = kind.closer

/-- The brackets that are open after texts, the latest first, if each that closes is of the kind of
    the latest one open. -/
def nest? : (still : List Bracket) → List String → Option (List Bracket)
  | still, [] => some still
  | still, t :: rest =>
    match opening? t with
    | some kind => nest? (kind :: still) rest
    | none =>
      match closing? t with
      | none => nest? still rest
      | some kind =>
        match still with
        | [] => none
        | latest :: others => if latest = kind then nest? others rest else none

/-- Outside of text literals each bracket that closes is of the kind of the latest one still open,
    and none is left open. -/
def Nested (texts : List String) : Prop := nest? [] (outside false texts) = some []

instance (texts : List String) : Decidable (Nested texts) := inferInstanceAs (Decidable (_ = _))

theorem nest?_append (still : List Bracket) (left right : List String) :
    nest? still (left ++ right) = (nest? still left).bind fun after => nest? after right := by
  induction left generalizing still with
  | nil => rfl
  | cons t rest ih =>
    simp only [List.cons_append, nest?]
    split
    · exact ih _
    · split
      · exact ih _
      · split
        · rfl
        · split
          · exact ih _
          · rfl

/-- What is open before stays open below. -/
theorem nest?_below {still after : List Bracket} {texts : List String} (count : nest? still texts = some after)
    (below : List Bracket) : nest? (still ++ below) texts = some (after ++ below) := by
  induction texts generalizing still with
  | nil => cases count; rfl
  | cons t rest ih =>
    simp only [nest?] at count ⊢
    split at count
    · exact ih count
    · split at count
      · exact ih count
      · split at count
        · cases count
        · split at count
          · rename_i same
            simp only [List.cons_append, same, if_true]
            exact ih count
          · cases count

theorem opening?_eq_some {text : String} {kind : Bracket} (opens : opening? text = some kind) :
    text = kind.opener := by
  simpa using List.find?_some opens

theorem closing?_eq_some {text : String} {kind : Bracket} (closes : closing? text = some kind) :
    text = kind.closer := by
  simpa using List.find?_some closes

theorem ne_opener_of_opening? {text : String} {kind : Bracket} (plain : opening? text = none)
    (bracket : kind ≠ .square) : text ≠ kind.opener := by
  rintro rfl
  cases kind <;> first | exact absurd plain (by decide) | exact absurd rfl bracket

theorem ne_closer_of_closing? {text : String} {kind : Bracket} (plain : closing? text = none)
    (bracket : kind ≠ .square) : text ≠ kind.closer := by
  rintro rfl
  cases kind <;> first | exact absurd plain (by decide) | exact absurd rfl bracket

/-- Among nested brackets the parentheses alone are counted without a fall. -/
theorem climb?_of_nest? {still after : List Bracket} {texts : List String} (count : nest? still texts = some after) :
    climb? .round (still.count .round) texts = some (after.count .round) := by
  induction texts generalizing still with
  | nil => cases count; rfl
  | cons t rest ih =>
    simp only [nest?] at count
    split at count
    · rename_i kind opens
      obtain rfl := opening?_eq_some opens
      have tail := ih count
      cases kind with
      | round => simpa using tail
      | _ => simpa [climb?, Bracket.opener, Bracket.closer] using tail
    · rename_i plain
      have opener : _ ≠ Bracket.round.opener := ne_opener_of_opening? plain (by decide)
      split at count
      · rename_i other
        rw [climb?_other opener (ne_closer_of_closing? other (by decide))]
        exact ih count
      · rename_i kind closes
        obtain rfl := closing?_eq_some closes
        split at count
        · cases count
        · rename_i latest others
          split at count
          · rename_i same
            subst same
            have tail := ih count
            cases latest with
            | round => simpa using tail
            | _ => simpa [climb?, Bracket.opener, Bracket.closer] using tail
          · cases count

/-- Parentheses that are read as texts are: after them as many are open as before, and where the
    count does not fall the brackets of all kinds are nested. -/
structure Settled (texts : List String) : Prop where
  level : ∃ depth, Climbs .round depth texts depth
  nested : ∀ after, Climbs .round 0 texts after → Nested texts

theorem Nested.append {left right : List String} (closed : inLiteral false left = false)
    (first : Nested left) (second : Nested right) : Nested (left ++ right) := by
  rw [Nested, outside_closed closed, nest?_append, first]
  exact second

theorem Settled.closed {texts : List String} (settled : Settled texts) : inLiteral false texts = false := by
  obtain ⟨depth, count⟩ := settled.level
  exact count.1

/-- A count of settled texts ends where it starts. -/
theorem Settled.after_eq {texts : List String} (settled : Settled texts) {depth after : Nat}
    (count : Climbs .round depth texts after) : after = depth := by
  obtain ⟨level, same⟩ := settled.level
  have equal := count.unique same
  omega

theorem Settled.append {left right : List String} (first : Settled left) (second : Settled right) :
    Settled (left ++ right) := by
  obtain ⟨low, lowCount⟩ := first.level
  obtain ⟨high, highCount⟩ := second.level
  refine ⟨⟨low + high, (lowCount.add high).append ?_⟩, fun after count => ?_⟩
  · rw [Nat.add_comm]
    exact highCount.add low
  · obtain ⟨middle, leftCount, rightCount⟩ := count.cut first.closed
    obtain rfl := first.after_eq leftCount
    exact (first.nested _ leftCount).append first.closed (second.nested _ rightCount)

/-- A text that is no bracket and no quote. -/
structure Neutral (text : String) : Prop where
  unquoted : text ≠ quoteMark
  opens : opening? text = none
  closes : closing? text = none

theorem Neutral.climbs {text : String} (neutral : Neutral text) (depth : Nat) : Climbs .round depth [text] depth :=
  climbs_other neutral.unquoted (ne_opener_of_opening? neutral.opens (by decide))
    (ne_closer_of_closing? neutral.closes (by decide)) depth

theorem Neutral.settled {text : String} (neutral : Neutral text) : Settled [text] := by
  refine ⟨⟨0, neutral.climbs 0⟩, fun _ _ => ?_⟩
  rw [Nested, outside_cons neutral.unquoted]
  simp [nest?, neutral.opens, neutral.closes]

/-- Settled texts stay so without a neutral one in front. -/
theorem Settled.tail {text : String} {rest : List String} (neutral : Neutral text)
    (settled : Settled (text :: rest)) : Settled rest := by
  have front (depth after : Nat) (count : Climbs .round depth rest after) :
      Climbs .round depth (text :: rest) after := (neutral.climbs depth).append count
  refine ⟨?_, fun after count => ?_⟩
  · obtain ⟨depth, count⟩ := settled.level
    exact ⟨depth, (neutral.climbs depth).tail count⟩
  · have nested := settled.nested after (front 0 after count)
    rw [Nested, outside_cons neutral.unquoted] at nested
    simpa [Nested, nest?, neutral.opens, neutral.closes] using nested

theorem Nested.bracket {kind : Bracket} {inner : List String} (bracket : kind ≠ .square)
    (closed : inLiteral false inner = false) (nested : Nested inner) :
    Nested (kind.opener :: inner ++ [kind.closer]) := by
  have opens : opening? kind.opener = some kind := by
    cases kind <;> first | rfl | exact absurd rfl bracket
  have plain : opening? kind.closer = none := by
    cases kind <;> rfl
  have closes : closing? kind.closer = some kind := by
    cases kind <;> first | rfl | exact absurd rfl bracket
  have inside : nest? [kind] (outside false inner) = some [kind] := nest?_below nested [kind]
  rw [Nested, List.cons_append, outside_cons (opener_ne_quote kind), outside_closed closed,
    outside_cons (closer_ne_quote kind)]
  simp [nest?, nest?_append, opens, inside, plain, closes]

/-- Parentheses around settled texts whose parentheses are balanced. -/
theorem Settled.round {inner : List String} (settled : Settled inner) (balanced : Balanced .round inner) :
    Settled (Bracket.round.opener :: inner ++ [Bracket.round.closer]) := by
  refine ⟨⟨0, ?_⟩, fun _ _ => ?_⟩
  · exact ((climbs_opener .round 0).append (balanced.climbs 1)).append (climbs_closer .round 0)
  · exact (settled.nested 0 balanced).bracket (by decide) settled.closed

/-- Curly or angle brackets around settled texts. -/
theorem Settled.bracket {kind : Bracket} {inner : List String} (settled : Settled inner)
    (square : kind ≠ .square) (round : kind ≠ .round) :
    Settled (kind.opener :: inner ++ [kind.closer]) := by
  have opener (depth : Nat) : Climbs .round depth [kind.opener] depth := by
    exact climbs_other (opener_ne_quote kind) (opener_ne_opener round) (opener_ne_closer kind .round) depth
  have closer (depth : Nat) : Climbs .round depth [kind.closer] depth := by
    exact climbs_other (closer_ne_quote kind) (Ne.symm (opener_ne_closer .round kind)) (closer_ne_closer round) depth
  obtain ⟨level, count⟩ := settled.level
  refine ⟨⟨level, ((opener level).append count).append (closer level)⟩, fun after whole => ?_⟩
  exact (settled.nested after (whole.between settled.closed opener closer)).bracket square settled.closed

/-- Texts that are settled unless a square bracket opens among them. -/
structure Tidy (texts : List String) : Prop where
  closed : inLiteral false texts = false
  settled : "[" ∉ outside false texts → Settled texts

theorem Tidy.append {left right : List String} (first : Tidy left) (second : Tidy right) :
    Tidy (left ++ right) := by
  refine ⟨by rw [inLiteral_closed first.closed, second.closed], fun bare => ?_⟩
  rw [outside_closed first.closed, List.mem_append, not_or] at bare
  exact (first.settled bare.1).append (second.settled bare.2)

theorem Neutral.tidy {text : String} (neutral : Neutral text) : Tidy [text] :=
  ⟨(neutral.climbs 0).1, fun _ => neutral.settled⟩

theorem Tidy.tail {text : String} {rest : List String} (neutral : Neutral text) (plain : text ≠ "[")
    (tidy : Tidy (text :: rest)) : Tidy rest := by
  refine ⟨by rw [← inLiteral_cons neutral.unquoted]; exact tidy.closed, fun bare => ?_⟩
  refine (tidy.settled ?_).tail neutral
  rw [outside_cons neutral.unquoted]
  simp [Ne.symm plain, bare]

theorem Span.closed {kind : Bracket} {opener closer : Token} {inner : List Token}
    (span : Span kind opener inner closer) : inLiteral false (texts (opener :: inner ++ [closer])) = false := by
  rw [span.texts_eq, inLiteral_enclosed (opener_ne_quote kind) (closer_ne_quote kind), span.balanced.1]

/-- What a span encloses is tidy as the whole is. -/
theorem Span.tidy {kind : Bracket} {opener closer : Token} {inner : List Token}
    (span : Span kind opener inner closer) (tidy : Tidy (texts inner)) :
    Tidy (texts (opener :: inner ++ [closer])) := by
  refine ⟨span.closed, fun bare => ?_⟩
  simp only [List.cons_append, texts_cons, texts_append, texts_nil, span.opens, span.closes] at bare ⊢
  rw [outside_cons (opener_ne_quote kind), outside_closed tidy.closed, List.mem_cons, not_or,
    List.mem_append, not_or] at bare
  have settled := tidy.settled bare.2.1
  cases kind with
  | round => exact settled.round span.balanced
  | curly => exact settled.bracket (by decide) (by decide)
  | angle => exact settled.bracket (by decide) (by decide)
  | square => exact absurd rfl bare.1

theorem neutral_of_unmarked {text : String} (unmarked : isMark text = false) : Neutral text := by
  refine ⟨ne_of_unmarked unmarked (by decide), ?_, ?_⟩
  · cases opens : opening? text with
    | none => rfl
    | some kind =>
      have closes := closerOf?_unmarked unmarked
      rw [opening?_eq_some opens, closerOf?_opener] at closes
      cases closes
  · cases closes : closing? text with
    | none => rfl
    | some kind =>
      rw [closing?_eq_some closes] at unmarked
      cases kind <;> exact absurd unmarked (by decide)

theorem neutral_of_operator {text : String} {op : Op} (operator : Op.ofSymbol? text = some op) : Neutral text := by
  have symbol := Form.isOperator_of_ofSymbol? operator
  simp only [isOperator, Bool.or_eq_true, decide_eq_true_eq] at symbol
  rcases symbol with (((rfl | rfl) | rfl) | rfl) | rfl <;> exact ⟨by decide, by decide, by decide⟩

theorem tidy_nil : Tidy [] := ⟨rfl, fun _ => ⟨⟨0, rfl, rfl⟩, fun _ _ => rfl⟩⟩

theorem tidy_groups {inner : List Token} (each : ∀ group ∈ split "," inner, Tidy (texts group)) :
    Tidy (texts inner) :=
  (parted_split "," inner).texts Tidy.append (Neutral.tidy ⟨by decide, by decide, by decide⟩) each

theorem Literal.tidy {opener closer : Token} {inner : List Token} (literal : Literal opener inner closer) :
    Tidy (texts (opener :: inner ++ [closer])) := by
  have level : Nested (texts (opener :: inner ++ [closer])) := by
    rw [Nested, literal.outside_eq]
    rfl
  exact ⟨literal.closed, fun _ => ⟨⟨0, literal.balanced .round⟩, fun _ _ => level⟩⟩

end Reckon.Token

namespace Reckon.Form
open Token

/-- A negation whose parentheses a stray one has torn apart: the count falls at the stray one and
    rises again later. -/
theorem tidy_captured {opener zero closer t : Token} {rest left right : List Token} {op : Op}
    (opens : opener.text = "(") (closes : closer.text = ")") (operator : Op.ofSymbol? t.text = some op)
    (parted : opener :: zero :: rest ++ [closer] = left ++ t :: right)
    (first : Tidy (texts left)) (second : Tidy (texts right)) : Tidy (texts (zero :: rest)) := by
  have neutral := neutral_of_operator operator
  obtain ⟨left, rfl, middle⟩ : ∃ before, left = opener :: before ∧ zero :: rest ++ [closer] = before ++ t :: right := by
    cases left with
    | nil =>
      obtain ⟨rfl, -⟩ := List.cons.inj parted
      simp [opens, Op.ofSymbol?] at operator
    | cons head before =>
      obtain ⟨rfl, middle⟩ := List.cons.inj parted
      exact ⟨before, rfl, middle⟩
  obtain ⟨right, rfl, whole⟩ : ∃ after, right = after ++ [closer] ∧ zero :: rest = left ++ t :: after := by
    rcases List.eq_nil_or_concat right with rfl | ⟨after, last, rfl⟩
    · have ends := List.append_inj_right' middle rfl
      obtain rfl := List.singleton_inj.mp ends
      simp [closes, Op.ofSymbol?] at operator
    · rw [List.concat_eq_append, ← List.cons_append, ← List.append_assoc] at middle
      obtain ⟨whole, same⟩ := List.append_inj' middle rfl
      obtain rfl := List.singleton_inj.mp same
      exact ⟨after, by simp, whole⟩
  have opening : texts (opener :: left) = [Bracket.round.opener] ++ texts left := by
    rw [texts_cons, opens]
    rfl
  have closing : texts (right ++ [closer]) = texts right ++ [Bracket.round.closer] := by
    rw [texts_append, texts_cons, closes]
    rfl
  rw [opening] at first
  rw [closing] at second
  have leftClosed : inLiteral false (texts left) = false := first.closed
  have rightClosed : inLiteral false (texts right) = false := by
    have closed := second.closed
    rwa [inLiteral_append, inLiteral_cons (closer_ne_quote .round)] at closed
  rw [whole, texts_append, texts_cons]
  have closed : inLiteral false (texts left ++ t.text :: texts right) = false := by
    rw [inLiteral_closed leftClosed, inLiteral_cons neutral.unquoted, rightClosed]
  refine ⟨closed, fun bare => ?_⟩
  rw [outside_closed leftClosed, outside_cons neutral.unquoted, List.mem_append, List.mem_cons, not_or,
    not_or] at bare
  obtain ⟨bareLeft, -, bareRight⟩ := bare
  have before : Settled ([Bracket.round.opener] ++ texts left) := by
    refine first.settled ?_
    rw [List.singleton_append, outside_cons (opener_ne_quote .round)]
    simp [bareLeft, Bracket.opener]
  have after : Settled (texts right ++ [Bracket.round.closer]) := by
    refine second.settled ?_
    rw [outside_closed rightClosed, outside_cons (closer_ne_quote .round)]
    simp [bareRight, Bracket.closer]
  obtain ⟨low, rises⟩ := before.level
  obtain ⟨high, falls⟩ := after.level
  obtain ⟨lowNext, opened, leftCount⟩ := rises.cut (climbs_opener .round 0).1
  obtain ⟨highNext, rightCount, closedCount⟩ := falls.cut rightClosed
  obtain rfl : lowNext = low + 1 := by
    have same := opened.unique (climbs_opener .round 0)
    omega
  obtain rfl : highNext = high + 1 := by
    have same := closedCount.unique (climbs_closer .round 0)
    omega
  refine ⟨⟨low + 1 + high, ?_⟩, fun after count => ?_⟩
  · refine (leftCount.add high).append ((neutral.climbs _).append ?_)
    have raised := rightCount.add low
    rwa [Nat.add_comm high low, Nat.add_right_comm high 1 low, Nat.add_comm high low,
      Nat.add_right_comm low high 1] at raised
  · -- the stray parenthesis closes in `left`, so no count from zero passes it
    obtain ⟨middle, leftCount, -⟩ := count.cut leftClosed
    have fromOne := leftCount.add 1
    have same := before.after_eq ((climbs_opener .round 0).append fromOne)
    omega

end Reckon.Form

namespace Reckon.Expr
open Token

/-- Tokens that are read are tidy. -/
theorem tidy_of_reads {tokens : List Token} {expr : Expr} (read : ofTokens tokens = .ok expr) :
    Tidy (Token.texts tokens) := by
  refine reads_induction (motive := fun tokens _ => Tidy (Token.texts tokens)) (fun reading => ?_) read
  cases reading with
  | number value => exact (neutral_of_unmarked (isMark_number value)).tidy
  | name _ unmarked => exact (neutral_of_unmarked unmarked).tidy
  | parens span inside => exact span.tidy inside.2
  | literal literal => exact literal.tidy
  | list span each =>
    refine span.tidy (tidy_groups fun group member => ?_)
    cases group with
    | nil => exact tidy_nil
    | cons t rest => exact forall_of_forall₂ each.flip _ (by simp [member])
  | vector span each => exact span.tidy (tidy_groups (forall_of_forall₂ each.flip))
  | @call _ _ _ inner _ letters span each =>
    refine (neutral_of_unmarked (isMark_letters letters)).tidy.append (span.tidy ?_)
    cases inner with
    | nil => exact tidy_nil
    | cons t rest => exact tidy_groups (forall_of_forall₂ each.flip)
  | delegate span =>
    refine ⟨span.closed, fun bare => ?_⟩
    rw [List.cons_append, texts_cons, span.opens, outside_cons (opener_ne_quote .square)] at bare
    simp [Bracket.opener] at bare
  | @binary _ _ left right t _ _ _ operation parted operator first second =>
    have zeroNeutral {zero : Token} (nought : zero.text = "0") : Neutral zero.text := by
      rw [nought]
      exact ⟨by decide, by decide, by decide⟩
    have split : Tidy (Token.texts (left ++ t :: right)) := by
      rw [texts_append, texts_cons]
      exact first.2.append ((neutral_of_operator operator).tidy.append second.2)
    cases operation with
    | plain => exact parted ▸ split
    | negated operand sign nought =>
      rw [← parted] at split
      exact split.tail (zeroNeutral nought) (by rw [nought]; decide)
    | captured operand sign nought opens closes =>
      have tidy := Form.tidy_captured opens closes operator parted first.2 second.2
      exact tidy.tail (zeroNeutral nought) (by rw [nought]; decide)

/-- A text without square brackets that is read has its brackets nested exactly if no parenthesis
    closes before one that opens it. -/
theorem parse?_nested_iff {source : String} {expr : Expr} (read : parse? source = .ok (some expr))
    (bare : "[" ∉ outside false (Token.texts (lex source))) :
    Nested (Token.texts (lex source)) ↔
      ∃ after, climb? .round 0 (outside false (Token.texts (lex source))) = some after := by
  have tidy := tidy_of_reads (parse?_eq_some_iff.mp read)
  constructor
  · intro nested
    exact ⟨_, climb?_of_nest? nested⟩
  · rintro ⟨after, count⟩
    exact (tidy.settled bare).nested after ⟨tidy.closed, count⟩

/-- The parenthesis put before the negation of one is closed by the stray one after it, and the stray one that
    opens later by the parenthesis put at the end. -/
theorem parse?_unnested :
    parse? "-1) + (2" = .ok (some (.binary .add (.binary .sub (.num 0) (.num 1)) (.num 2))) ∧
      "[" ∉ outside false (Token.texts (lex "-1) + (2")) ∧ ¬Nested (Token.texts (lex "-1) + (2")) := by
  refine ⟨parse?_eq_some_iff.mpr ?_, by decide, by decide⟩
  have tokens : lex "-1) + (2" = [⟨"-", 1⟩, ⟨"1", 2⟩, ⟨")", 3⟩, ⟨"+", 5⟩, ⟨"(", 7⟩, ⟨"2", 8⟩] := by decide
  have whole : Form.ofTokens [⟨"-", 1⟩, ⟨"1", 2⟩, ⟨")", 3⟩, ⟨"+", 5⟩, ⟨"(", 7⟩, ⟨"2", 8⟩] =
      .ok (.binary .add [⟨"(", 1⟩, ⟨"0", 1⟩, ⟨"-", 1⟩, ⟨"1", 2⟩, ⟨")", 3⟩] [⟨"(", 7⟩, ⟨"2", 8⟩, ⟨")", 8⟩]) := by
    cbv
  have left : Form.ofTokens [⟨"(", 1⟩, ⟨"0", 1⟩, ⟨"-", 1⟩, ⟨"1", 2⟩, ⟨")", 3⟩] =
      .ok (.binary .sub [⟨"0", 1⟩] [⟨"1", 2⟩]) := by
    cbv
  have zero : ofTokens [⟨"0", 1⟩] = .ok (.num 0) := ofTokens_number (by decide)
  have one : ofTokens [⟨"1", 2⟩] = .ok (.num 1) := ofTokens_number (by decide)
  have two : ofTokens [⟨"(", 7⟩, ⟨"2", 8⟩, ⟨")", 8⟩] = .ok (.num 2) := by
    have bare := @ofTokens_parens ⟨"(", 7⟩ ⟨")", 8⟩ [⟨"2", 8⟩]
      ⟨rfl, rfl, by decide⟩ (by simp)
    exact bare.trans (ofTokens_number (by decide))
  rw [tokens]
  exact ofTokens_binary whole (ofTokens_binary left zero one) two

/-- A negation whose own parentheses stand around it. -/
theorem parse?_nested_negation :
    parse? "-(1)" = .ok (some (.binary .sub (.num 0) (.num 1))) ∧
      "[" ∉ outside false (Token.texts (lex "-(1)")) ∧
      (Nested (Token.texts (lex "-(1)")) ↔
        ∃ after, climb? .round 0 (outside false (Token.texts (lex "-(1)"))) = some after) := by
  have read : parse? "-(1)" = .ok (some (.binary .sub (.num 0) (.num 1))) := by
    have tokens : lex "-(1)" = [⟨"-", 1⟩, ⟨"(", 2⟩, ⟨"1", 3⟩, ⟨")", 4⟩] := by decide
    have whole : Form.ofTokens [⟨"-", 1⟩, ⟨"(", 2⟩, ⟨"1", 3⟩, ⟨")", 4⟩] =
        .ok (.binary .sub [⟨"0", 1⟩] [⟨"(", 2⟩, ⟨"1", 3⟩, ⟨")", 4⟩]) := by
      cbv
    have one : ofTokens [⟨"(", 2⟩, ⟨"1", 3⟩, ⟨")", 4⟩] = .ok (.num 1) := by
      have bare := @ofTokens_parens ⟨"(", 2⟩ ⟨")", 4⟩ [⟨"1", 3⟩]
        ⟨rfl, rfl, by decide⟩ (by simp)
      exact bare.trans (ofTokens_number (by decide))
    rw [parse?_eq_some_iff, tokens]
    exact ofTokens_binary whole (ofTokens_number (by decide)) one
  have bare : "[" ∉ outside false (Token.texts (lex "-(1)")) := by decide
  exact ⟨read, bare, parse?_nested_iff read bare⟩

end Reckon.Expr
