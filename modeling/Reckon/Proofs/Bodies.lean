import Reckon.Proofs.Columns

/-!
Bodies of delegates. A body is kept as its tokens put together without blanks, and read again when it is called. It is
read as it was written if it is cut at the same places again. That is so if and only if no word runs into the token after
it: a word into another one, or a word that awaits an exponent into a sign (`texts_lex_joined_iff`).
-/

namespace Reckon.Token

/-! ### Literals -/

/-- Texts of tokens whose literals hold one text each, if any. -/
def Single : (quoted : Bool) → List String → Prop
  | _, [] => True
  | quoted, t :: rest =>
    if t = quoteMark then Single (!quoted) rest
    else (quoted = true → t ≠ "" ∧ ∀ next ∈ rest.head?, next = quoteMark) ∧ Single quoted rest

theorem single_quote (quoted : Bool) (rest : List String) : Single quoted (quoteMark :: rest) ↔ Single (!quoted) rest := by
  simp [Single]

theorem single_cons {t : String} (unquoted : t ≠ quoteMark) (rest : List String) :
    Single false (t :: rest) ↔ Single false rest := by
  simp [Single, unquoted]

theorem Single.append {quoted : Bool} {left right : List String} (single : Single quoted (left ++ right)) :
    Single quoted left ∧ Single (inLiteral quoted left) right := by
  induction left generalizing quoted with
  | nil => exact ⟨trivial, single⟩
  | cons t left ih =>
    by_cases mark : t = quoteMark
    · subst mark
      rw [List.cons_append, single_quote] at single
      simpa [Single, inLiteral] using ih single
    · obtain ⟨first, rest⟩ : (quoted = true → t ≠ "" ∧ ∀ next ∈ (left ++ right).head?, next = quoteMark) ∧
          Single quoted (left ++ right) := by simpa [Single, mark] using single
      obtain ⟨leftSingle, rightSingle⟩ := ih rest
      refine ⟨?_, by rwa [inLiteral_cons mark]⟩
      simp only [Single, if_neg mark]
      refine ⟨fun inside => ⟨(first inside).1, fun next member => (first inside).2 next ?_⟩, leftSingle⟩
      rw [List.head?_append, Option.mem_def.mp member]
      rfl

theorem single_held {w : List Char} (unquoted : '"' ∉ w) {rest : List String} (single : Single false rest) :
    Single false (held w ++ rest) := by
  cases w with
  | nil => exact single
  | cons c w =>
    refine (single_cons (ne_quoteMark ?_) rest).mpr single
    rwa [String.toList_ofList, List.mem_reverse]

theorem single_held_literal {w : List Char} (unquoted : '"' ∉ w) {rest : List String} (single : Single true rest)
    (next : ∀ t ∈ rest.head?, t = quoteMark) : Single true (held w ++ rest) := by
  cases w with
  | nil => exact single
  | cons c w =>
    have inside : '"' ∉ (String.ofList (c :: w).reverse).toList := by
      rwa [String.toList_ofList, List.mem_reverse]
    have filled : String.ofList (c :: w).reverse ≠ "" := by
      intro empty
      have characters := congrArg String.toList empty
      simp at characters
    change Single true (String.ofList (c :: w).reverse :: rest)
    rw [Single, if_neg (ne_quoteMark inside)]
    exact ⟨fun _ => ⟨filled, next⟩, single⟩

private theorem single_cut (cs : List Char) :
    (∀ w, '"' ∉ w → Single false (cut (.word w) cs)) ∧ ∀ w, '"' ∉ w → Single true (cut (.literal w) cs) := by
  have clean : '"' ∉ ([] : List Char) := List.not_mem_nil
  induction cs with
  | nil =>
    refine ⟨fun w unquoted => ?_, fun w unquoted => ?_⟩
    · have whole : Single false (held w ++ []) := single_held unquoted trivial
      simpa [cut] using whole
    · have whole : Single true (held w ++ []) := single_held_literal unquoted trivial (by simp)
      simpa [cut] using whole
  | cons c rest ih =>
    obtain ⟨word, literal⟩ := ih
    refine ⟨fun w unquoted => ?_, fun w unquoted => ?_⟩
    · rw [cut]
      split
      · rename_i on
        have other : '"' ≠ c := by
          rintro rfl
          simp [goesOn] at on
        exact word (c :: w) (by simp [other, unquoted])
      · split
        · exact single_held unquoted ((single_quote false _).mpr (literal [] clean))
        · rename_i quote
          split
          · exact single_held unquoted (word [] clean)
          · exact single_held unquoted ((single_cons (singleton_ne_quoteMark quote) _).mpr (word [] clean))
    · rw [cut]
      split
      · exact single_held_literal unquoted ((single_quote true _).mpr (word [] clean)) (by simp)
      · rename_i quote
        exact literal (c :: w) (by simp [Ne.symm quote, unquoted])

/-- A literal of a text holds one token, if any. -/
theorem single_lex (source : String) : Single false (texts (lex source)) := by
  rw [texts_lex]
  exact (single_cut source.toList).1 [] List.not_mem_nil

/-! ### Tokens put together -/

/-- Whether a text runs into the next one when no blank stands between them. -/
def fuses (first second : String) : Bool :=
  !isMark first && (!isMark second || (awaitsExponent first.toList.reverse && (second = "+" || second = "-")))

/-- Texts of tokens of which none outside of literals runs into the next. -/
def separate : (quoted : Bool) → List String → Bool
  | _, [] => true
  | quoted, t :: rest =>
    if t = quoteMark then separate (!quoted) rest
    else (quoted || !rest.head?.any (fuses t)) && separate quoted rest

theorem fuses_mark {first : String} (marked : isMark first = true) (second : String) : fuses first second = false := by
  simp [fuses, marked]

/-- A text runs into the next one if its first character goes on with the text. -/
theorem goesOn_of_fuses {first second : String} (unmarked : isMark first = false)
    (lone : IsWord second ∨ isMark second = true) :
    ∃ c cs, second.toList = c :: cs ∧ goesOn first.toList.reverse c = fuses first second := by
  rcases lone with word | marked
  · obtain ⟨filled, on⟩ := isWord_iff.mp word
    cases characters : second.toList with
    | nil => exact absurd (String.toList_eq_nil_iff.mp characters) filled
    | cons c cs =>
      rw [characters] at on
      obtain ⟨start, -⟩ : goesOn [] c = true ∧ continues [c] cs = true := by simpa [continues] using on
      simp only [goesOn, awaitsExponent, Bool.not_false, Bool.and_true, Bool.not_eq_true', Bool.or_eq_false_iff] at start
      exact ⟨c, cs, rfl, by simp [goesOn, fuses, unmarked, word.2, start]⟩
  · have known : isMark second = true := marked
    simp only [isMark] at marked
    split at marked
    · rename_i c same
      obtain rfl : second = String.singleton c := by
        rw [← String.toList_inj, same]
        simp
      have sign : (String.singleton c = "+" || String.singleton c = "-") = isSign c := by
        simp [isSign, ← String.toList_inj]
      refine ⟨c, [], by simp, ?_⟩
      rw [fuses, unmarked, known, sign]
      simp only [Bool.or_eq_true, decide_eq_true_eq] at marked
      rcases marked with (mark | signed) | rfl
      · have other : isSign c = false := by
          simp only [isPunctuation, punctuation, List.contains_iff_mem, List.mem_cons, List.not_mem_nil, or_false]
            at mark
          rcases mark with rfl | rfl | rfl | rfl | rfl | rfl | rfl | rfl | rfl | rfl | rfl | rfl | rfl <;> rfl
        simp [goesOn, mark, other]
      · have plain : (c = '"' || Text.isBlank c || isPunctuation c) = false := by
          simp only [isSign, Bool.or_eq_true, decide_eq_true_eq] at signed
          rcases signed with rfl | rfl <;> decide
        simp [goesOn, plain, signed]
      · simp [goesOn, isSign]
    · cases marked

/-- After a word it is cut if and only if it does not run into what follows. -/
theorem cut_word_iff {t : String} (word : IsWord t) {rest : List String} (lexical : Lexical false rest) :
    (cut (.word []) (t.toList ++ chars rest) = t :: rest ↔
      rest.head?.any (fuses t) = false ∧ cut (.word []) (chars rest) = rest) := by
  obtain ⟨filled, on⟩ := isWord_iff.mp word
  rw [cut_continues on, List.append_nil]
  cases rest with
  | nil => simp [chars, cut, held_reverse filled, show held [] = [] from rfl]
  | cons next rest =>
    have lone : IsWord next ∨ isMark next = true := by
      by_cases quote : next = quoteMark
      · exact .inr (by rw [quote]; decide)
      · exact ((lexical_cons quote rest).mp lexical).1
    obtain ⟨c, cs, characters, goes⟩ := goesOn_of_fuses word.2 lone
    have whole : chars (next :: rest) = c :: (cs ++ chars rest) := by
      change next.toList ++ chars rest = _
      rw [characters, List.cons_append]
    rw [List.head?_cons, Option.any_some, whole]
    cases runs : fuses t next with
    | true =>
      rw [runs] at goes
      obtain ⟨more, tail, same⟩ := cut_head (w := c :: t.toList.reverse) (by simp) (cs ++ chars rest)
      rw [cut, if_pos goes, same]
      refine iff_of_false (fun same => ?_) (by simp)
      have length := congrArg String.length (List.cons.inj same).1
      simp at length
    | false =>
      rw [runs] at goes
      rw [cut_stop goes, held_reverse filled]
      simp

private theorem cut_chars_iff (texts : List String) :
    (Lexical false texts → Single false texts →
      (cut (.word []) (chars texts) = texts ↔ separate false texts = true)) ∧
    (Lexical true texts → Single true texts →
      (cut (.literal []) (chars texts) = texts ↔ separate true texts = true)) := by
  induction texts with
  | nil => exact ⟨fun _ _ => by simp [chars, cut, held, separate], fun _ _ => by simp [chars, cut, held, separate]⟩
  | cons t rest ih =>
    obtain ⟨word, literal⟩ := ih
    have split : chars (t :: rest) = t.toList ++ chars rest := rfl
    refine ⟨fun lexical single => ?_, fun lexical single => ?_⟩
    · by_cases mark : t = quoteMark
      · subst mark
        have whole : cut (.word []) (chars (quoteMark :: rest)) = quoteMark :: cut (.literal []) (chars rest) := by
          change cut (.word []) ('"' :: chars rest) = _
          simp [cut, goesOn, held]
        rw [whole, List.cons.injEq, literal (by simpa [Lexical] using lexical) ((single_quote _ _).mp single)]
        simp [separate]
      · obtain ⟨lone, tail⟩ := (lexical_cons mark rest).mp lexical
        have others := word tail ((single_cons mark rest).mp single)
        rcases lone with isWord | marked
        · rw [split, cut_word_iff isWord tail, others]
          simp [separate, mark]
        · rw [split, lexesFreely_mark marked mark, List.singleton_append, List.cons.injEq, others]
          cases rest <;> simp [separate, mark, fuses_mark marked]
    · by_cases mark : t = quoteMark
      · subst mark
        have whole : cut (.literal []) (chars (quoteMark :: rest)) = quoteMark :: cut (.word []) (chars rest) := by
          change cut (.literal []) ('"' :: chars rest) = _
          simp [cut, held]
        rw [whole, List.cons.injEq, word (by simpa [Lexical] using lexical) ((single_quote _ _).mp single)]
        simp [separate]
      · obtain ⟨inside, tail⟩ : '"' ∉ t.toList ∧ Lexical true rest := by simpa [Lexical, mark] using lexical
        obtain ⟨⟨filled, closes⟩, others⟩ : (t ≠ "" ∧ ∀ next ∈ rest.head?, next = quoteMark) ∧ Single true rest := by
          simpa [Single, mark] using single
        have whole : cut (.literal []) (chars (t :: rest)) = t :: cut (.literal []) (chars rest) := by
          rw [split, cut_literal inside, List.append_nil]
          cases rest with
          | nil =>
            change held t.toList.reverse = t :: held []
            rw [held_reverse filled]
            rfl
          | cons next rest =>
            obtain rfl : next = quoteMark := closes next rfl
            change cut (.literal t.toList.reverse) ('"' :: chars rest) = t :: cut (.literal []) ('"' :: chars rest)
            rw [cut, cut, if_pos rfl, if_pos rfl, held_reverse filled]
            rfl
        rw [whole, List.cons.injEq, literal tail others]
        simp [separate, mark]

/-- Tokens that are put together are cut at the same places again if and only if none of them runs into the next. -/
theorem texts_lex_joined_iff {tokens : List Token} (lexical : Lexical false (texts tokens))
    (single : Single false (texts tokens)) :
    texts (lex (joined tokens)) = texts tokens ↔ separate false (texts tokens) = true := by
  rw [texts_lex, toList_joined]
  exact (cut_chars_iff (texts tokens)).1 lexical single

end Reckon.Token

namespace Reckon.Delegate
open Token

/-- A delegate that is written in a source text, outside of text literals, and the tokens of its body: those from its
    first colon to the bracket that closes it. -/
inductive Written (source : String) : Delegate → List Token → Prop
  | of (front : List Token) (opener : Token) (inner : List Token) (closer : Token) (back : List Token)
      {before body : List Token} {d : Delegate}
      (whole : lex source = front ++ (opener :: inner ++ [closer]) ++ back) (outside : inLiteral false (texts front) = false)
      (opens : opener.text = "[") (read : Expr.ofTokens (opener :: inner ++ [closer]) = .ok (.delegate d))
      (cut : Form.cutAtColon? inner = some (before, body)) : Written source d body

/-- What a delegate that is written keeps of the tokens of its body, and what these are. -/
theorem Written.body_eq {source : String} {d : Delegate} {body : List Token} (written : Written source d body) :
    d.body = joined body ∧ Lexical false (texts body) ∧ Single false (texts body) := by
  obtain @⟨front, opener, inner, closer, back, before, body, d, whole, outside, opens, read, cut⟩ := written
  have quote : opener.text ≠ quoteMark := by
    rw [opens]
    decide
  generalize tokens : opener :: inner ++ [closer] = literal at read
  generalize isDelegate : Expr.delegate d = e at read
  cases Expr.reading_of_ofTokens read with
  | parens span =>
    obtain ⟨rfl, -⟩ := List.cons.inj tokens
    exact absurd (span.opens.symm.trans opens) (by decide)
  | @delegate _ _ _ _ _ params span cut' names filled =>
    obtain ⟨rfl, same⟩ := List.cons.inj tokens
    obtain ⟨rfl, -⟩ := List.append_inj' same rfl
    obtain ⟨rfl, rfl⟩ := Prod.mk.inj (Option.some.inj (cut.symm.trans cut'))
    cases isDelegate
    have closed := inLiteral_unquoted (unquoted_of_read span.balanced.1 cut names) false
    obtain ⟨colon, marks, rfl⟩ := Form.cutAtColon?_whole cut
    have colonMark : colon.text ≠ quoteMark := by
      rw [marks]
      decide
    have texts_eq : texts (lex source) =
        texts front ++ opener.text :: (texts before ++ colon.text :: (texts body ++ closer.text :: texts back)) := by
      simp [whole]
    refine ⟨rfl, ?_, ?_⟩
    · have lexical := lexical_lex source
      rw [texts_eq, lexical_append, outside, lexical_cons quote, lexical_append, closed, lexical_cons colonMark,
        lexical_append] at lexical
      exact lexical.2.2.2.2.1
    · have single := single_lex source
      rw [texts_eq] at single
      have inside := single.append.2
      rw [outside, single_cons quote] at inside
      have rest := inside.append.2
      rw [closed, single_cons colonMark] at rest
      exact rest.append.1
  | number | name | literal | list | vector | call | binary => cases isDelegate

/-- The body of a delegate that is written is its tokens put together. It is cut into these again if and only if none of
    them runs into the next, and then it is read as they are. -/
theorem parse_body {source : String} {d : Delegate} {body : List Token} (written : Written source d body) :
    d.body = joined body ∧ (texts (lex d.body) = texts body ↔ separate false (texts body) = true) ∧
      (separate false (texts body) = true → ∀ e, Expr.parse d.body = .ok e ↔ Expr.ofTokens body = .ok e) := by
  obtain ⟨same, lexical, single⟩ := written.body_eq
  have kept := texts_lex_joined_iff lexical single
  rw [same]
  refine ⟨rfl, kept, fun separated e => ?_⟩
  rw [Expr.parse_eq_ok_iff, Expr.eq_ok_iff_of_texts (kept.mpr separated)]

/-- A body with a literal, an exponent and a delegate of its own is read as it was written. -/
theorem parse_body_nested :
    let body : List Token :=
      [⟨"f", 9⟩, ⟨"(", 10⟩, ⟨"\"", 11⟩, ⟨"a b", 12⟩, ⟨"\"", 15⟩, ⟨",", 16⟩, ⟨"1e-5", 18⟩, ⟨"-", 23⟩, ⟨"x", 25⟩, ⟨",", 26⟩,
        ⟨"[", 28⟩, ⟨"y", 29⟩, ⟨":", 30⟩, ⟨"x", 32⟩, ⟨"+", 34⟩, ⟨"y", 36⟩, ⟨"]", 37⟩, ⟨")", 38⟩]
    Written "1 + [x: f(\"a b\", 1e-5 - x, [y: x + y])]" ⟨["x"], "f(\"a b\",1e-5-x,[y:x+y])"⟩ body ∧
      separate false (texts body) = true ∧
      ∃ e, Expr.ofTokens body = .ok e ∧ Expr.parse "f(\"a b\",1e-5-x,[y:x+y])" = .ok e := by
  intro body
  have form : Form.ofTokens (⟨"[", 5⟩ :: (⟨"x", 6⟩ :: ⟨":", 7⟩ :: body) ++ [⟨"]", 39⟩]) =
      .ok (.leaf (.delegate ⟨["x"], "f(\"a b\",1e-5-x,[y:x+y])"⟩)) := by
    cbv
  have written : Written "1 + [x: f(\"a b\", 1e-5 - x, [y: x + y])]" ⟨["x"], "f(\"a b\",1e-5-x,[y:x+y])"⟩ body := by
    refine .of [⟨"1", 1⟩, ⟨"+", 3⟩] ⟨"[", 5⟩ (⟨"x", 6⟩ :: ⟨":", 7⟩ :: body) ⟨"]", 39⟩ [] (by decide) (by decide) rfl ?_
      (by cbv)
    rw [Expr.ofTokens_eq, form]
    rfl
  have separated : separate false (texts body) = true := by decide
  have isRead : (Expr.ofTokens body).toOption.isSome = true := by decide +kernel
  cases read : Expr.ofTokens body with
  | error e =>
    rw [read] at isRead
    cases isRead
  | ok e => exact ⟨written, separated, e, rfl, ((parse_body written).2.2 separated e).mpr read⟩

/-- Two words are not read, but the word that they are put together to is. -/
theorem parse_body_fused :
    let body : List Token := [⟨"1", 9⟩, ⟨"2", 11⟩]
    Written "sum([x: 1 2], 0, 0)" ⟨["x"], "12"⟩ body ∧ (∀ e, Expr.ofTokens body ≠ .ok e) ∧
      Expr.parse "12" = .ok (.num 12) := by
  intro body
  have form : Form.ofTokens [⟨"[", 5⟩, ⟨"x", 6⟩, ⟨":", 7⟩, ⟨"1", 9⟩, ⟨"2", 11⟩, ⟨"]", 12⟩] =
      .ok (.leaf (.delegate ⟨["x"], "12"⟩)) := by
    cbv
  have refused : Form.ofTokens body = .error (.token 9 "12") := by
    set_option maxRecDepth 1024 in cbv
  have cut : Form.cutAtColon? [⟨"x", 6⟩, ⟨":", 7⟩, ⟨"1", 9⟩, ⟨"2", 11⟩] =
      some ([⟨"x", 6⟩], [⟨"1", 9⟩, ⟨"2", 11⟩]) := by
    decide +kernel
  refine ⟨?written, fun e read => ?fails, ?joined⟩
  case written =>
    refine .of [⟨"sum", 1⟩, ⟨"(", 4⟩] ⟨"[", 5⟩ [⟨"x", 6⟩, ⟨":", 7⟩, ⟨"1", 9⟩, ⟨"2", 11⟩] ⟨"]", 12⟩
      [⟨",", 13⟩, ⟨"0", 15⟩, ⟨",", 16⟩, ⟨"0", 18⟩, ⟨")", 19⟩] (by decide +kernel) (by decide) rfl ?_ cut
    rw [Expr.ofTokens_eq]
    exact congrArg (Except.bind · Form.read) form
  case fails =>
    rw [Expr.ofTokens_eq, refused] at read
    cases read
  case joined =>
    have tokens : lex "12" = [⟨"12", 1⟩] := by decide
    rw [Expr.parse_eq_ok_iff, tokens]
    exact Expr.ofTokens_number (by decide)

end Reckon.Delegate
