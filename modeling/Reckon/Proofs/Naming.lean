import Reckon.Proofs.Blame
import Reckon.Proofs.Bodies

/-!
What errors say of the source. An error has the column of a token and the text of one or several
(`ParseError.Names`). It names tokens of the source unless it blames what a negation puts around its operand, or
parameters of a delegate, which it gives with the column of the bracket (`Expr.names_iff`).
-/

namespace Reckon
open Token

namespace ParseError

/-- The text that an error gives is, at its column, that of a token or, for tokens that are no expression, of
    several one after another. -/
def Names (source : List Token) : ParseError → Prop
  | token column text => ∃ first rest, first :: rest <:+: source ∧ first.column = column ∧ joined (first :: rest) = text
  | operator column symbol => ⟨symbol, column⟩ ∈ source
  | bracket column opener _ => ⟨opener, column⟩ ∈ source
  | empty column near => ⟨near, column⟩ ∈ source

/-- Parentheses that close. -/
def closings (count : Nat) : String := String.join (List.replicate count ")")

/-- An error blames what the source does not have at its column. -/
inductive Misplaced (source : List Token) : ParseError → Prop
  /-- The parenthesis before a negation. -/
  | opener {minus : Token} (member : minus ∈ source) (sign : minus.text = "-") :
      Misplaced source (.bracket minus.column "(" ")")
  /-- The parenthesis behind a negation, with the column of the last token. -/
  | closer {last : Token} (ends : Form.EndsNegation source last) (other : last.text ≠ ")") :
      Misplaced source (.empty last.column ")")
  /-- A negation with the parenthesis or the zero before it. -/
  | front {minus : Token} {text : String} (member : minus ∈ source) (sign : minus.text = "-")
      (begins : text.toList.head? = some '(' ∨ text.toList.head? = some '0') :
      Misplaced source (.token minus.column text)
  /-- The end of a negation with parentheses that do not follow in the source. -/
  | back {first last : Token} {rest : List Token} {count : Nat} (inside : first :: rest <:+: source)
      (same : (first :: rest).getLast? = some last) (ends : Form.EndsNegation source last)
      (other : ∀ more, first :: rest ++ more <:+: source → joined more ≠ closings (count + 1)) :
      Misplaced source (.token first.column (joined (first :: rest) ++ closings (count + 1)))
  /-- The parentheses alone, with the column of the last token. -/
  | closers {last : Token} {count : Nat} (ends : Form.EndsNegation source last)
      (other : ∀ more, last :: more <:+: source → joined (last :: more) ≠ closings (count + 1)) :
      Misplaced source (.token last.column (closings (count + 1)))
  /-- Parameters of a delegate, with the column of its bracket. -/
  | params {opener closer : Token} {inner before body : List Token} (inside : opener :: inner ++ [closer] <:+: source)
      (span : Span .square opener inner closer) (cut : Form.cutAtColon? inner = some (before, body))
      (refused : Form.paramNames? before = none) : Misplaced source (.token opener.column (joined before))

end ParseError

namespace Token

/-- Of tokens at ascending columns there is one at most at each. -/
theorem eq_of_column {source : List Token} (ascends : source.Pairwise fun a b => a.column < b.column)
    {t other : Token} (member : t ∈ source) (otherMember : other ∈ source) (same : t.column = other.column) :
    t = other := by
  have distinct : (source.map column).Nodup := List.pairwise_map.mpr (ascends.imp ne_of_lt)
  exact List.inj_on_of_nodup_map distinct member otherMember same

/-- Tokens next to each other that begin at one column begin alike. -/
theorem prefix_of_column {source : List Token} (ascends : source.Pairwise fun a b => a.column < b.column)
    {first other : Token} {rest more : List Token} (inside : first :: rest <:+: source)
    (otherInside : other :: more <:+: source) (same : first.column = other.column) :
    first = other ∧ (rest <+: more ∨ more <+: rest) := by
  have distinct : source.Nodup := ascends.imp fun less same => (congrArg column same).not_lt less
  obtain rfl := eq_of_column ascends (inside.mem List.mem_cons_self) (otherInside.mem List.mem_cons_self) same
  obtain ⟨front, back, whole⟩ := inside
  obtain ⟨otherFront, otherBack, otherWhole⟩ := otherInside
  have split : front ++ first :: (rest ++ back) = otherFront ++ first :: (more ++ otherBack) := by
    simpa using whole.trans otherWhole.symm
  have once : first ∉ front ++ (rest ++ back) := by
    rw [← whole, List.append_assoc, List.cons_append, List.nodup_middle] at distinct
    exact (List.nodup_cons.mp distinct).1
  rw [List.mem_append, not_or] at once
  obtain ⟨-, -, tails⟩ := (List.append_cons_inj_of_notMem once.1 once.2).mp split
  exact ⟨rfl, List.prefix_or_prefix_of_prefix (List.prefix_append rest back) (tails ▸ List.prefix_append more otherBack)⟩

theorem joined_nil : joined [] = "" := rfl

theorem joined_append (left right : List Token) : joined (left ++ right) = joined left ++ joined right := by
  simp [joined, texts, String.join_append]

theorem joined_cons (t : Token) (rest : List Token) : joined (t :: rest) = t.text ++ joined rest := by
  simp [joined, texts, String.join_cons]

end Token

namespace ParseError

theorem joined_replicate (count column : Nat) : joined (List.replicate count ⟨")", column⟩) = closings count := by
  simp [joined, texts, closings]

theorem length_closings (count : Nat) : (closings count).length = count := by
  have one : (")" : String).length = 1 := by decide
  simp [closings, String.length_join, one]

private theorem last_of_replicate {front back : List Token} {count : Nat} {last t : Token}
    (same : back ++ [last] = front ++ List.replicate (count + 1) t) : last = t := by
  rw [List.replicate_succ', ← List.append_assoc] at same
  exact List.cons.inj (List.append_inj' same rfl).2 |>.1

/-- A token is not put in if its text is none of those that are. -/
private theorem mem_of_text {source tokens : List Token} (padded : Form.Padded source tokens) {t : Token}
    (member : t ∈ tokens) (P : String → Bool) (holds : P t.text = true)
    (never : P "(" = false ∧ P "0" = false ∧ P ")" = false) : t ∈ source := by
  rcases padded.mem member with own | ⟨minus, inside, -, rfl | rfl⟩ | ⟨last, -, rfl⟩
  · exact own
  · exact absurd holds (by simp [never.1])
  · exact absurd holds (by simp [never.2.1])
  · exact absurd holds (by simp [never.2.2])

private theorem names_or_misplaced_closer {source : List Token} {last : Token} (ends : Form.EndsNegation source last) :
    Names source (.empty last.column ")") ∨ Misplaced source (.empty last.column ")") := by
  by_cases same : last.text = ")"
  · exact .inl (same ▸ ends.mem)
  · exact .inr (.closer ends same)

/-- Tokens that are no expression stand in the source, or spell what does, or are misplaced. -/
private theorem names_or_misplaced_run {source tokens : List Token} (padded : Form.Padded source tokens) {first : Token}
    {rest : List Token} (run : first :: rest <:+: tokens) :
    Names source (.token first.column (joined (first :: rest))) ∨
      Misplaced source (.token first.column (joined (first :: rest))) := by
  rcases padded.run run with own | ⟨minus, inside, sign, opens⟩ | ⟨front, count, last, same, own, ending, ends⟩
  · exact .inl ⟨first, rest, own, rfl, rfl⟩
  · right
    rcases opens with rfl | rfl
    · exact @Misplaced.front _ minus _ inside sign (.inl (by simp [joined_cons]))
    · exact @Misplaced.front _ minus _ inside sign (.inr (by simp [joined_cons]))
  · rw [same, joined_append, joined_replicate]
    cases front with
    | nil =>
      obtain rfl := (List.cons.inj same).1
      rw [joined_nil, String.empty_append]
      by_cases there : ∃ more, last :: more <:+: source ∧ joined (last :: more) = closings (count + 1)
      · obtain ⟨more, found, text⟩ := there
        exact .inl ⟨last, more, found, rfl, text⟩
      · exact .inr (@Misplaced.closers _ last count ends fun more found text => there ⟨more, found, text⟩)
    | cons t front =>
      obtain rfl := (List.cons.inj same).1
      by_cases there : ∃ more, first :: front ++ more <:+: source ∧ joined more = closings (count + 1)
      · obtain ⟨more, found, text⟩ := there
        exact .inl ⟨first, front ++ more, found, rfl, by rw [← List.cons_append, joined_append, text]⟩
      · have final := ending.resolve_left (List.cons_ne_nil _ _)
        exact .inr (.back own final ends fun more found text => there ⟨more, found, text⟩)

/-- An error that blames tokens of the source, or what a negation puts around them, names tokens of the source or
    is misplaced. -/
theorem names_or_misplaced {source tokens : List Token} (padded : Form.Padded source tokens) {e : ParseError}
    (blames : Form.Blames tokens e) : e.Names source ∨ e.Misplaced source := by
  cases blames with
  | run run => exact names_or_misplaced_run padded run
  | @params opener closer inner before body whole span cut refused =>
    rcases padded.run whole with own | ⟨minus, inside, sign, rfl | rfl⟩ | ⟨front, count, last, same, -⟩
    · exact .inr (.params own span cut refused)
    · exact absurd span.opens (by decide : ("(" : String) ≠ "[")
    · exact absurd span.opens (by decide : ("0" : String) ≠ "[")
    · obtain rfl := @last_of_replicate front (opener :: inner) count closer _ same
      exact absurd span.closes (by decide : (")" : String) ≠ "]")
  | stranger member strange =>
    exact .inl (mem_of_text padded member (fun text => isSymbols text && !isMark text) strange (by decide +kernel))
  | unclosed member opens =>
    rcases padded.mem member with own | ⟨minus, inside, sign, rfl | rfl⟩ | ⟨last, -, rfl⟩
    · exact .inl own
    · cases opens
      exact .inr (@Misplaced.opener _ minus inside sign)
    · cases opens
    · cases opens
  | operand member operator => exact .inl (mem_of_text padded member isOperator operator (by decide))
  | @hollow t kind member closes =>
    have other : kind.closer ≠ "(" ∧ kind.closer ≠ "0" := by cases kind <;> decide
    rcases padded.mem member with own | ⟨minus, inside, -, rfl | rfl⟩ | ⟨last, ends, rfl⟩
    · exact .inl own
    · exact absurd closes.symm other.1
    · exact absurd closes.symm other.2
    · exact @names_or_misplaced_closer _ last ends
  | @gap comma t pair separates =>
    rcases padded.run pair with own | ⟨minus, inside, sign, rfl | rfl⟩ | ⟨front, count, last, same, -, -, ends⟩
    · exact .inl (own.mem (List.mem_cons_of_mem _ List.mem_cons_self))
    · exact absurd separates (by decide : ("(" : String) ≠ ",")
    · exact absurd separates (by decide : ("0" : String) ≠ ",")
    · obtain rfl := @last_of_replicate front [comma] count t _ same
      exact @names_or_misplaced_closer _ last ends

/-! ### Misplaced errors -/

/-- What is the same with a first entry in front and without has no other entries. -/
private theorem eq_of_shift {α : Type} {first : α} {rest more : List α} (same : first :: rest = rest ++ more) :
    ∀ entry ∈ rest, entry = first := by
  induction rest generalizing first with
  | nil => simp
  | cons next rest ih =>
    obtain ⟨rfl, tail⟩ := List.cons.inj same
    exact List.forall_mem_cons.mpr ⟨rfl, ih tail⟩

/-- Tokens that spell a bracket and then the first of themselves have no other characters. -/
private theorem brackets_of_spelled {run more : List Token}
    (spelled : '[' :: chars (texts run) = chars (texts (run ++ more))) {t : Token} (member : t ∈ run ++ more) {c : Char}
    (inText : c ∈ t.text.toList) : c = '[' := by
  have shifted : '[' :: chars (texts run) = chars (texts run) ++ chars (texts more) := by
    rw [spelled, texts_append, chars_append]
  have each : ∀ c ∈ chars (texts (run ++ more)), c = '[' := by
    rw [← spelled]
    exact List.forall_mem_cons.mpr ⟨rfl, eq_of_shift shifted⟩
  exact each c (List.mem_flatMap.mpr ⟨t.text, List.mem_map_of_mem member, inText⟩)

/-- A token right behind a square bracket is another one if it begins with one: outside of literals no word has
    brackets, and a literal has one token. -/
theorem bracket_of_head {source : String} {opener t : Token} (pair : [opener, t] <:+: lex source)
    (opens : opener.text = "[") (begins : t.text.toList.head? = some '[') : t.text = "[" := by
  obtain ⟨front, back, whole⟩ := pair
  have split : texts (lex source) = texts front ++ "[" :: t.text :: texts back := by
    rw [← whole]
    simp [opens]
  have lexical := lexical_lex source
  have single := single_lex source
  rw [split] at lexical single
  have lexical := ((lexical_append _ _ _).mp lexical).2
  have single := single.append.2
  have unquoted : t.text ≠ quoteMark := by
    intro mark
    rw [mark] at begins
    exact absurd begins (by decide)
  cases quoted : inLiteral false (texts front) with
  | true =>
    rw [quoted] at single
    simp only [Single, if_neg (by decide : ("[" : String) ≠ quoteMark)] at single
    exact absurd ((single.1 trivial).2 t.text rfl) unquoted
  | false =>
    rw [quoted] at lexical
    have after := ((lexical_cons (by decide) _).mp lexical).2
    rcases ((lexical_cons unquoted _).mp after).1 with word | mark
    · have each := inWords_of_continues (isWord_iff.mp word).2
      exact absurd (each '[' (List.mem_of_mem_head? begins)) (by decide)
    · rw [isMark] at mark
      split at mark
      · rename_i c same
        rw [same] at begins
        obtain rfl : c = '[' := Option.some.inj begins
        exact String.toList_inj.mp same
      · cases mark

/-- A bracket before the first colon is closed before it. -/
theorem closes_before {t : Token} {inner before body : List Token} (opens : t.text = "[")
    (balanced : Balanced .square (texts (t :: inner))) (cut : Form.cutAtColon? (t :: inner) = some (before, body)) :
    ∃ closer ∈ before, closer.text = "]" := by
  have square : closerOf? t.text = some "]" := by
    rw [opens]
    decide
  have search : ∃ found, enclosed? t.text "]" 0 false inner = some found := by
    refine Option.ne_none_iff_exists'.mp fun missing => ?_
    rw [opens] at missing
    obtain ⟨after, low⟩ := (@enclosed?_eq_none_iff .square _).mp missing
    have high : climb? .square 1 (outside false (texts inner)) = some 0 := by
      have count := balanced.2
      rw [texts_cons, opens, outside_cons (by decide)] at count
      exact (climb?_opener .square 0 _).symm.trans count
    have := climb?_unique low high
    omega
  obtain ⟨⟨between, closer, rest⟩, search⟩ := search
  have closing : closer.text = "]" := by
    rw [opens] at search
    exact ((enclosed?_eq_some_iff .square).mp search).2.1
  rw [Form.cutAtColon?, if_neg (by rw [opens]; decide)] at cut
  split at cut
  · rename_i found
    rw [square, Option.bind_some, search] at found
    cases found
    obtain ⟨⟨front, tail⟩, -, same⟩ := Option.map_eq_some_iff.mp cut
    obtain ⟨rfl, rfl⟩ := Prod.mk.inj same
    exact ⟨closer, by simp, closing⟩
  · rename_i missing
    rw [square, Option.bind_some, search] at missing
    cases missing

/-- The parameters behind a bracket do not spell what begins with the bracket. Otherwise they would be such brackets
    only, and the first of them would be closed before the colon. -/
theorem params_unnamed {source : String} {opener closer : Token} {inner before body : List Token}
    (inside : opener :: inner ++ [closer] <:+: lex source) (span : Span .square opener inner closer)
    (cut : Form.cutAtColon? inner = some (before, body)) (refused : Form.paramNames? before = none) :
    ¬ Names (lex source) (.token opener.column (joined before)) := by
  rintro ⟨start, run, there, column, text⟩
  have ascends := pairwise_lex source
  obtain ⟨colon, -, rfl⟩ := Form.cutAtColon?_whole cut
  obtain ⟨t, before, rfl⟩ : ∃ t rest, before = t :: rest := by
    cases before with
    | nil => cases refused
    | cons t rest => exact ⟨t, rest, rfl⟩
  have pair : [opener, t] <:+: lex source := .trans ⟨[], before ++ colon :: body ++ [closer], by simp⟩ inside
  have own : opener :: t :: before <:+: lex source := .trans ⟨[], colon :: body ++ [closer], by simp⟩ inside
  obtain ⟨rfl, comparable⟩ := prefix_of_column ascends own there column.symm
  have spelled : '[' :: chars (texts run) = chars (texts (t :: before)) := by
    have same := congrArg String.toList text
    rw [toList_joined, toList_joined] at same
    rw [← same, texts_cons, span.opens]
    rfl
  rcases comparable with ⟨more, rfl⟩ | ⟨more, split⟩
  · have lengths := congrArg List.length spelled
    rw [texts_append, chars_append, List.length_cons, List.length_append] at lengths
    omega
  · rw [← split] at spelled
    have spells {u : Token} (member : u ∈ t :: before) {c : Char} (inText : c ∈ u.text.toList) : c = '[' :=
      brackets_of_spelled spelled (split ▸ member) inText
    have begins : t.text.toList.head? = some '[' := by
      have filled : t.text ≠ "" := (column_lex (pair.mem (by simp))).1
      cases letters : t.text.toList with
      | nil => exact absurd (String.toList_inj.mp letters) filled
      | cons c rest => exact congrArg some (spells List.mem_cons_self (letters ▸ List.mem_cons_self))
    obtain ⟨u, member, closing⟩ := closes_before (bracket_of_head pair span.opens begins) span.balanced cut
    exact absurd (spells member (by rw [closing]; decide : ']' ∈ u.text.toList)) (by decide)

theorem Misplaced.not_names {source : String} {e : ParseError} (misplaced : e.Misplaced (lex source)) :
    ¬ e.Names (lex source) := by
  have ascends := pairwise_lex source
  intro names
  cases misplaced with
  | @opener minus member sign =>
    have same := eq_of_column ascends names member rfl
    rw [← same] at sign
    exact absurd sign (by decide : ("(" : String) ≠ "-")
  | closer ends other =>
    have same := eq_of_column ascends names ends.mem rfl
    exact other (congrArg Token.text same).symm
  | @front minus text member sign begins =>
    obtain ⟨first, rest, inside, column, rfl⟩ := names
    obtain rfl := eq_of_column ascends (inside.mem List.mem_cons_self) member column
    simp [joined_cons, sign] at begins
  | back inside _ _ other =>
    obtain ⟨start, run, there, column, text⟩ := names
    obtain ⟨rfl, ⟨more, rfl⟩ | ⟨more, rfl⟩⟩ := prefix_of_column ascends inside there column.symm
    · rw [← List.cons_append, joined_append] at text
      exact other more there (String.append_right_inj _ |>.mp text)
    · have lengths := congrArg String.length text
      rw [← List.cons_append, joined_append] at lengths
      simp only [String.length_append, length_closings] at lengths
      omega
  | closers ends other =>
    obtain ⟨start, run, there, column, text⟩ := names
    obtain rfl := eq_of_column ascends (there.mem List.mem_cons_self) ends.mem column
    exact other run there text
  | params inside span cut refused => exact params_unnamed inside span cut refused names

end ParseError

/-- The error of a source text names tokens of it if and only if it is not misplaced. -/
theorem Expr.names_iff {source : String} {e : ParseError} (failed : parse? source = .error e) :
    e.Names (lex source) ↔ ¬ e.Misplaced (lex source) := by
  obtain ⟨tokens, padded, blames⟩ := exists_blames failed
  constructor
  · exact fun names misplaced => misplaced.not_names names
  · exact (ParseError.names_or_misplaced padded blames).resolve_right

/-- The bracket of an operand is named at its own column. -/
theorem Expr.names_iff_operand :
    parse? "1 + (2" = .error (.bracket 5 "(" ")") ∧ ¬ ParseError.Misplaced (lex "1 + (2") (.bracket 5 "(" ")") := by
  have failed : parse? "1 + (2" = .error (.bracket 5 "(" ")") := by
    have tokens : lex "1 + (2" = [⟨"1", 1⟩, ⟨"+", 3⟩, ⟨"(", 5⟩, ⟨"2", 6⟩] := by decide
    have form : Form.ofTokens [⟨"1", 1⟩, ⟨"+", 3⟩, ⟨"(", 5⟩, ⟨"2", 6⟩] = .error (.bracket 5 "(" ")") := by cbv
    rw [parse?, tokens, ofTokens_eq, form]
    rfl
  have named : (⟨"(", 5⟩ : Token) ∈ lex "1 + (2" := by decide
  exact ⟨failed, (names_iff failed).mp named⟩

/-- The bracket of a negated operand is given with the column of the minus. -/
theorem Expr.unnamed_negation :
    parse? "-(1" = .error (.bracket 1 "(" ")") ∧ ¬ ParseError.Names (lex "-(1") (.bracket 1 "(" ")") := by
  have absent : (⟨"(", 1⟩ : Token) ∉ lex "-(1" := by decide
  exact ⟨parse?_negation_unclosed, absent⟩

end Reckon
