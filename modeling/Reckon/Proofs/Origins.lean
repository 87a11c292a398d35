import Reckon.Proofs.Bodies
import Reckon.Proofs.Segments

/-!
Where tokens come from. While a text is cut, every token is noted with what it is made from (`Token.trace`), so that a
word is told apart from a literal with the same text. Tokens that are put together are cut at the same places again if
and only if no word is followed by another word, or by a sign that it awaits (`Token.texts_lex_joined_lex_iff`).
-/

namespace Reckon.Token

/-- What a token is made from: a single quote, a mark of punctuation or a sign, the characters of a word that were held
    until it ended, or the text of a literal. -/
inductive Origin
  | quote
  | punctuation
  | sign
  | word
  | content
deriving DecidableEq, Repr

/-- The tokens of the characters from a column on, each with its origin. -/
def trace : (column : Nat) → Pending → List Char → List (Origin × Token)
  | column, .word w, [] => (flush column w).map (Origin.word, ·)
  | column, .literal t, [] => (flush column t).map (Origin.content, ·)
  | column, .literal t, c :: rest =>
    if c = '"' then
      (flush column t).map (Origin.content, ·) ++
        (.quote, ⟨quoteMark, column⟩) :: trace (column + 1) (.word []) rest
    else trace (column + 1) (.literal (c :: t)) rest
  | column, .word w, c :: rest =>
    if c = '"' then
      (flush column w).map (Origin.word, ·) ++
        (.quote, ⟨quoteMark, column⟩) :: trace (column + 1) (.literal []) rest
    else if Text.isBlank c then (flush column w).map (Origin.word, ·) ++ trace (column + 1) (.word []) rest
    else if isPunctuation c || (isSign c && !awaitsExponent w) then
      (flush column w).map (Origin.word, ·) ++
        (if isPunctuation c then .punctuation else .sign, ⟨String.singleton c, column⟩) ::
          trace (column + 1) (.word []) rest
    else trace (column + 1) (.word (c :: w)) rest

/-- The tokens of a source text, each with its origin. -/
def origins (source : String) : List (Origin × Token) := trace 1 (.word []) source.toList

/-- Without the origins they are the tokens of the characters. -/
theorem map_snd_trace (column : Nat) (pending : Pending) (cs : List Char) :
    (trace column pending cs).map Prod.snd = scan column pending cs := by
  have held (origin : Origin) (column : Nat) (w : List Char) :
      ((flush column w).map (origin, ·)).map Prod.snd = flush column w := by
    rw [List.map_map]
    exact List.map_id _
  fun_induction trace column pending cs with
  | case1 | case2 => simp only [held, scan]
  | case3 column t rest ih => simp only [List.map_append, List.map_cons, held, ih, scan, if_true]
  | case4 column t c rest other ih => simp only [ih, scan, if_neg other]
  | case5 column w rest ih => simp only [List.map_append, List.map_cons, held, ih, scan, if_true]
  | case6 column w c rest other skipped ih => simp only [List.map_append, held, ih, scan, if_neg other, if_pos skipped]
  | case7 column w c rest other visible lone ih =>
    simp only [List.map_append, List.map_cons, held, ih, scan, if_neg other, if_neg visible, if_pos lone]
  | case8 column w c rest other visible joins ih => simp only [ih, scan, if_neg other, if_neg visible, if_neg joins]

/-- The tokens of a source text are those with an origin. -/
theorem map_snd_origins (source : String) : (origins source).map Prod.snd = lex source := map_snd_trace 1 _ _

/-! ### What the origins say of the texts -/

/-- Tokens whose texts fit their origins, behind an open literal or outside of literals. -/
inductive Fits : (quoted : Bool) → List (Origin × Token) → Prop
  | done (quoted : Bool) : Fits quoted []
  | quote {quoted : Bool} {t : Token} {rest : List (Origin × Token)} (mark : t.text = quoteMark)
      (tail : Fits (!quoted) rest) : Fits quoted ((.quote, t) :: rest)
  | content {t : Token} {rest : List (Origin × Token)} (unquoted : t.text ≠ quoteMark) (tail : Fits true rest) :
      Fits true ((.content, t) :: rest)
  | word {t : Token} {rest : List (Origin × Token)} (unmarked : isMark t.text = false) (tail : Fits false rest) :
      Fits false ((.word, t) :: rest)
  | sign {t : Token} {rest : List (Origin × Token)} (signed : t.text = "+" ∨ t.text = "-") (tail : Fits false rest) :
      Fits false ((.sign, t) :: rest)
  | punctuation {t : Token} {c : Char} {rest : List (Origin × Token)} (single : t.text = String.singleton c)
      (mark : isPunctuation c = true) (tail : Fits false rest) : Fits false ((.punctuation, t) :: rest)

/-- The characters of a word are a token that fits. -/
theorem Fits.flush_word {column : Nat} {w : List Char} (on : continues [] w.reverse = true)
    {rest : List (Origin × Token)} (tail : Fits false rest) :
    Fits false ((flush column w).map (Origin.word, ·) ++ rest) := by
  cases w with
  | nil => exact tail
  | cons c w =>
    have isWord : IsWord (String.ofList (c :: w).reverse) := by
      refine isWord_iff.mpr ⟨fun empty => ?_, by rwa [String.toList_ofList]⟩
      have characters := congrArg String.toList empty
      simp at characters
    exact .word isWord.2 tail

/-- The text of a literal is a token that fits. -/
theorem Fits.flush_content {column : Nat} {w : List Char} (unquoted : '"' ∉ w) {rest : List (Origin × Token)}
    (tail : Fits true rest) : Fits true ((flush column w).map (Origin.content, ·) ++ rest) := by
  cases w with
  | nil => exact tail
  | cons c w =>
    refine .content (ne_quoteMark ?_) tail
    rwa [String.toList_ofList, List.mem_reverse]

/-- What a pending token holds: the characters of a word, or text without a quote. -/
def Pending.Holds : Pending → Prop
  | word w => continues [] w.reverse = true
  | literal w => '"' ∉ w

theorem fits_trace {column : Nat} {pending : Pending} (holds : pending.Holds) (cs : List Char) :
    Fits pending.isLiteral (trace column pending cs) := by
  fun_induction trace column pending cs with
  | case1 column w => simpa using @Fits.flush_word column w holds [] (.done false)
  | case2 column w => simpa using @Fits.flush_content column w holds [] (.done true)
  | case3 column w rest ih => exact .flush_content holds (.quote rfl (ih rfl))
  | case4 column w c rest other ih => exact ih (by simpa [Pending.Holds] using ⟨Ne.symm other, holds⟩)
  | case5 column w rest ih => exact .flush_word holds (.quote rfl (ih List.not_mem_nil))
  | case6 column w c rest other skipped ih => exact .flush_word holds (ih rfl)
  | case7 column w c rest other visible lone ih =>
    refine .flush_word holds ?_
    split
    · rename_i mark
      exact .punctuation rfl mark (ih rfl)
    · rename_i mark
      refine .sign ?_ (ih rfl)
      obtain ⟨signed, -⟩ : (c = '+' ∨ c = '-') ∧ awaitsExponent w = false := by simpa [mark, isSign] using lone
      rcases signed with rfl | rfl
      · exact .inl rfl
      · exact .inr rfl
  | case8 column w c rest other visible joins ih =>
    refine ih ?_
    have on : goesOn w c = true := by
      rw [goesOn, Bool.or_assoc, Bool.eq_false_iff.mpr joins]
      simp [other, visible]
    rw [Pending.Holds, List.reverse_cons, continues_append, holds]
    simp [continues, on]

/-- The texts of the tokens of a source text fit their origins. -/
theorem fits_origins (source : String) : Fits false (origins source) := @fits_trace 1 (.word []) rfl source.toList

/-! ### Tokens that run into the next one -/

/-- A word runs into another one that follows, and into a sign if it awaits an exponent. -/
def RunsInto (first second : Origin × Token) : Prop :=
  first.1 = .word ∧
    (second.1 = .word ∨ second.1 = .sign ∧ awaitsExponent first.2.text.toList.reverse = true)

theorem isMark_sign {text : String} (signed : text = "+" ∨ text = "-") : isMark text = true ∧ text ≠ quoteMark := by
  rcases signed with rfl | rfl <;> decide

theorem isMark_punctuation {c : Char} (mark : isPunctuation c = true) :
    isMark (String.singleton c) = true ∧ String.singleton c ≠ quoteMark ∧ String.singleton c ≠ "+" ∧
      String.singleton c ≠ "-" := by
  have other {d : Char} (unmarked : isPunctuation d = false) : String.singleton c ≠ String.singleton d := by
    intro same
    obtain rfl : c = d := by simpa using congrArg String.toList same
    rw [mark] at unmarked
    cases unmarked
  exact ⟨by simp [isMark, mark], @other '"' (by decide), @other '+' (by decide), @other '-' (by decide)⟩

/-- A word runs into a token if its text runs into that of the token. -/
theorem fuses_iff_runsInto {t : Token} {next : Origin × Token} {rest : List (Origin × Token)}
    (unmarked : isMark t.text = false) (fits : Fits false (next :: rest)) :
    fuses t.text next.2.text = true ↔ RunsInto (.word, t) next := by
  cases fits with
  | quote mark =>
    have marked : isMark quoteMark = true := by decide
    have unsigned : quoteMark ≠ "+" ∧ quoteMark ≠ "-" := by decide
    simp [RunsInto, fuses, mark, marked, unsigned]
  | word unmarked' => simp [RunsInto, fuses, unmarked, unmarked']
  | sign signed => simp [RunsInto, fuses, unmarked, (isMark_sign signed).1, signed]
  | punctuation single mark =>
    obtain ⟨marked, -, unsigned⟩ := isMark_punctuation mark
    simp [RunsInto, fuses, single, marked, unsigned]

/-- A mark runs into nothing. -/
theorem separate_mark {text : String} (marked : isMark text = true) (unquoted : text ≠ quoteMark)
    (rest : List String) : separate false (text :: rest) = separate false rest := by
  cases rest <;> simp [separate, unquoted, fuses_mark marked]

/-- That no text outside of literals runs into the next is told by the origins. -/
theorem separate_iff {quoted : Bool} {tokens : List (Origin × Token)} (fits : Fits quoted tokens) :
    separate quoted (texts (tokens.map Prod.snd)) = true ↔
      tokens.IsChain fun first second => ¬ RunsInto first second := by
  induction fits with
  | done => simp [separate]
  | quote mark tail ih => simp [separate, mark, List.isChain_cons, RunsInto, ih]
  | content unquoted tail ih => simp [separate, unquoted, List.isChain_cons, RunsInto, ih]
  | @word t rest unmarked tail ih =>
    have unquoted : t.text ≠ quoteMark := by
      intro mark
      rw [mark] at unmarked
      revert unmarked
      decide
    rw [List.map_cons, texts_cons, separate, if_neg unquoted, Bool.false_or, Bool.and_eq_true, ih, List.isChain_cons]
    refine and_congr_left' ?_
    cases rest with
    | nil => simp
    | cons next rest => simp [← fuses_iff_runsInto unmarked tail]
  | sign signed tail ih =>
    obtain ⟨marked, unquoted⟩ := isMark_sign signed
    rw [List.map_cons, texts_cons, separate_mark marked unquoted, ih, List.isChain_cons]
    simp [RunsInto]
  | punctuation single mark tail ih =>
    obtain ⟨marked, unquoted, -⟩ := isMark_punctuation mark
    rw [List.map_cons, texts_cons, single, separate_mark marked unquoted, ih, List.isChain_cons]
    simp [RunsInto]

/-- The tokens of a source text that are put together are cut at the same places again if and only if no word is
    followed by another one, and none that awaits an exponent by a sign. -/
theorem texts_lex_joined_lex_iff (source : String) :
    (origins source).map Prod.snd = lex source ∧
      (texts (lex (joined (lex source))) = texts (lex source) ↔
        (origins source).IsChain fun first second => ¬ RunsInto first second) := by
  refine ⟨map_snd_origins source, ?_⟩
  rw [texts_lex_joined_iff (lexical_lex source) (single_lex source), ← map_snd_origins]
  exact separate_iff (fits_origins source)

/-- In a literal there are no words to run into anything, also if it is not closed. -/
example : (origins "1e -\"1e -").map Prod.fst = [.word, .sign, .quote, .content] := by decide

end Reckon.Token
