import Mathlib.Data.List.Forall2
import Reckon.Proofs.Operands

/-!
How texts are cut into tokens, apart from the columns (`cut`, `texts_lex`). Texts that
are put together are cut one by one wherever the one before ends or the next begins
with a character that belongs to no word (`Lexes`, `LexesFreely`). A word is a text
whose characters all go on with it (`isWord_iff`).
-/

namespace Reckon.Token

/-- The text of characters held in reverse, if there are any. -/
def held (reversed : List Char) : List String :=
  if reversed.isEmpty then [] else [String.ofList reversed.reverse]

/-- Whether a character after those of a word, held in reverse, goes on with it. -/
def goesOn (reversed : List Char) (c : Char) : Bool :=
  !(c = '"' || Text.isBlank c || isPunctuation c || (isSign c && !awaitsExponent reversed))

/-- The texts of the tokens of characters. -/
def cut : Pending → List Char → List String
  | .word w, [] => held w
  | .literal t, [] => held t
  | .literal t, c :: rest =>
    if c = '"' then held t ++ quoteMark :: cut (.word []) rest else cut (.literal (c :: t)) rest
  | .word w, c :: rest =>
    if goesOn w c then cut (.word (c :: w)) rest
    else if c = '"' then held w ++ quoteMark :: cut (.literal []) rest
    else if Text.isBlank c then held w ++ cut (.word []) rest
    else held w ++ String.singleton c :: cut (.word []) rest

theorem texts_flush (column : Nat) (reversed : List Char) : texts (flush column reversed) = held reversed := by
  cases reversed <;> rfl

theorem texts_scan (column : Nat) (pending : Pending) (cs : List Char) :
    texts (scan column pending cs) = cut pending cs := by
  induction cs generalizing column pending with
  | nil => cases pending <;> exact texts_flush column _
  | cons c rest ih =>
    cases pending with
    | literal t =>
      simp only [scan, cut]
      split
      · rw [texts_append, texts_flush, texts_cons, ih]
      · exact ih _ _
    | word w =>
      simp only [scan, cut]
      by_cases quote : c = '"'
      · simp [goesOn, quote, texts_flush, ih]
      · by_cases blank : Text.isBlank c = true
        · simp [goesOn, quote, blank, texts_flush, ih]
        · by_cases mark : (isPunctuation c || (isSign c && !awaitsExponent w)) = true
          · have stops : goesOn w c = false := by
              rw [goesOn, Bool.or_assoc, mark]
              simp
            rw [if_neg quote, if_neg blank, if_pos mark, stops, if_neg quote, if_neg blank]
            simp [texts_flush, ih]
          · have on : goesOn w c = true := by
              rw [goesOn, Bool.or_assoc, Bool.eq_false_iff.mpr mark]
              simp [quote, blank]
            rw [if_neg quote, if_neg blank, if_neg mark, on]
            simp [ih]

/-- The texts of the tokens of a source text. -/
theorem texts_lex (source : String) : texts (lex source) = cut (.word []) source.toList := texts_scan 1 _ _

/-! ### Texts put together -/

/-- Characters after which a word in front of them has ended. -/
def Breaks (rest : List Char) : Prop := ∀ w, cut (.word w) rest = held w ++ cut (.word []) rest

/-- A text that is cut into these texts, if a break follows. -/
def Lexes (text : String) (words : List String) : Prop :=
  ∀ rest, Breaks rest → cut (.word []) (text.toList ++ rest) = words ++ cut (.word []) rest

/-- A text that is cut into these texts, whatever follows. -/
def LexesFreely (text : String) (words : List String) : Prop :=
  ∀ rest, cut (.word []) (text.toList ++ rest) = words ++ cut (.word []) rest

/-- A character that goes on with no word. -/
def Stops (c : Char) : Prop := ∀ w, goesOn w c = false

theorem breaks_nil : Breaks [] := by
  intro w
  simp [cut, held]

/-- A character that does not go on with a word ends it. -/
theorem cut_stop {w : List Char} {c : Char} (stop : goesOn w c = false) (rest : List Char) :
    cut (.word w) (c :: rest) = held w ++ cut (.word []) (c :: rest) := by
  have start : goesOn [] c = false := by
    simp only [goesOn, awaitsExponent, Bool.not_false, Bool.and_true, Bool.not_eq_false', Bool.or_eq_true,
      Bool.and_eq_true] at stop ⊢
    exact stop.imp_right And.left
  simp only [cut, stop, start]
  split
  · simp at *
  · split
    · simp [held]
    · split <;> simp [held]

theorem breaks_cons {c : Char} (stops : Stops c) (rest : List Char) : Breaks (c :: rest) :=
  fun w => cut_stop (stops w) rest

theorem stops_blank {c : Char} (blank : Text.isBlank c = true) : Stops c := by
  intro w
  simp [goesOn, blank]

theorem stops_punctuation {c : Char} (mark : isPunctuation c = true) : Stops c := by
  intro w
  simp [goesOn, mark]

theorem LexesFreely.lexes {text : String} {words : List String} (free : LexesFreely text words) :
    Lexes text words :=
  fun rest _ => free rest

theorem LexesFreely.append {first second : String} {left right : List String} (free : LexesFreely first left)
    (next : LexesFreely second right) : LexesFreely (first ++ second) (left ++ right) := by
  intro rest
  rw [String.toList_append, List.append_assoc, free, next, List.append_assoc]

theorem LexesFreely.append_lexes {first second : String} {left right : List String}
    (free : LexesFreely first left) (next : Lexes second right) : Lexes (first ++ second) (left ++ right) := by
  intro rest breaks
  rw [String.toList_append, List.append_assoc, free, next rest breaks, List.append_assoc]

/-- A text that begins with a stop ends what stands before it. -/
theorem Lexes.append_freely {first second : String} {left right : List String} (lexes : Lexes first left)
    (stops : ∃ c rest, second.toList = c :: rest ∧ Stops c) (next : LexesFreely second right) :
    LexesFreely (first ++ second) (left ++ right) := by
  intro rest
  obtain ⟨c, tail, same, stop⟩ := stops
  have breaks : Breaks (second.toList ++ rest) := by
    rw [same]
    exact breaks_cons stop _
  rw [String.toList_append, List.append_assoc, lexes _ breaks, next, List.append_assoc]

theorem Lexes.texts_lex {text : String} {words : List String} (lexes : Lexes text words) :
    texts (lex text) = words := by
  have whole := lexes [] breaks_nil
  rw [List.append_nil] at whole
  rw [Token.texts_lex, whole]
  simp [cut, held]

theorem lexesFreely_nil : LexesFreely "" [] := fun _ => rfl

theorem lexesFreely_blank : LexesFreely " " [] := by
  intro rest
  simp [cut, goesOn, Text.isBlank, held]

theorem lexesFreely_punctuation {c : Char} (mark : isPunctuation c = true) :
    LexesFreely (String.singleton c) [String.singleton c] := by
  intro rest
  have quote : c ≠ '"' := by
    rintro rfl
    revert mark
    decide
  have blank : Text.isBlank c = false := by
    simp only [isPunctuation, punctuation, List.contains_iff_mem, List.mem_cons, List.not_mem_nil, or_false] at mark
    rcases mark with rfl | rfl | rfl | rfl | rfl | rfl | rfl | rfl | rfl | rfl | rfl | rfl | rfl <;> decide
  simp [cut, stops_punctuation mark [], quote, blank, held]

/-- Texts with a separator between them that is cut into a comma. -/
theorem lexes_separated {separator : String} (free : LexesFreely separator [","])
    (stops : ∃ c tail, separator.toList = c :: tail ∧ Stops c) {texts : List String} {words : List (List String)}
    (each : List.Forall₂ Lexes texts words) : Lexes (separator.intercalate texts) ([","].intercalate words) := by
  induction each with
  | nil => exact lexesFreely_nil.lexes
  | @cons text words texts others first rest ih =>
    cases rest with
    | nil => simpa using first
    | cons next rest =>
      have both := (first.append_freely stops free).append_lexes ih
      simpa using both

theorem lexes_intercalate {texts : List String} {words : List (List String)}
    (each : List.Forall₂ Lexes texts words) : Lexes (", ".intercalate texts) ([","].intercalate words) :=
  lexes_separated ((lexesFreely_punctuation (c := ',') (by decide)).append lexesFreely_blank)
    ⟨',', [' '], rfl, stops_punctuation (by decide)⟩ each

theorem lexes_commas {texts : List String} {words : List (List String)}
    (each : List.Forall₂ Lexes texts words) : Lexes (",".intercalate texts) ([","].intercalate words) :=
  lexes_separated (lexesFreely_punctuation (c := ',') (by decide)) ⟨',', [], rfl, stops_punctuation (by decide)⟩ each

/-- A bracket ends what stands before it. -/
theorem Lexes.bracket {text : String} {words : List String} (lexes : Lexes text words) {c : Char}
    (mark : isPunctuation c = true) : LexesFreely (text ++ String.singleton c) (words ++ [String.singleton c]) :=
  lexes.append_freely ⟨c, [], by simp, stops_punctuation mark⟩ (lexesFreely_punctuation mark)

/-- What stands between brackets is cut by itself. -/
theorem lexesFreely_enclosed {text : String} {words : List String} (lexes : Lexes text words) (opener closer : Char)
    (opens : isPunctuation opener = true) (closes : isPunctuation closer = true) :
    LexesFreely (String.singleton opener ++ text ++ String.singleton closer)
      (String.singleton opener :: words ++ [String.singleton closer]) :=
  Lexes.bracket ((lexesFreely_punctuation opens).append_lexes lexes) closes

/-! ### Words -/

/-- Characters that all go on with a word, whose characters so far are held in reverse. -/
def continues : (reversed : List Char) → List Char → Bool
  | _, [] => true
  | w, c :: rest => goesOn w c && continues (c :: w) rest

/-- A text that is one token and no mark. -/
def IsWord (text : String) : Prop := texts (lex text) = [text] ∧ isMark text = false

instance (text : String) : Decidable (IsWord text) := inferInstanceAs (Decidable (_ ∧ _))

theorem cut_continues {w cs : List Char} (on : continues w cs = true) (rest : List Char) :
    cut (.word w) (cs ++ rest) = cut (.word (cs.reverse ++ w)) rest := by
  induction cs generalizing w with
  | nil => rfl
  | cons c cs ih =>
    obtain ⟨first, others⟩ : goesOn w c = true ∧ continues (c :: w) cs = true := by
      simpa [continues] using on
    rw [List.cons_append, cut, if_pos first, ih others]
    simp

/-- The first token goes on from the characters that are held. -/
theorem cut_head {w : List Char} (filled : w ≠ []) (cs : List Char) :
    ∃ more rest, cut (.word w) cs = String.ofList (w.reverse ++ more) :: rest := by
  have whole (tail : List String) : held w ++ tail = String.ofList (w.reverse ++ []) :: tail := by
    simp [held, filled]
  induction cs generalizing w with
  | nil => exact ⟨[], [], by simpa [cut] using whole []⟩
  | cons c rest ih =>
    rw [cut]
    split
    · obtain ⟨more, tail, same⟩ := ih (w := c :: w) (by simp) (by simp [held])
      exact ⟨c :: more, tail, by simpa using same⟩
    · split
      · exact ⟨[], _, whole _⟩
      · split
        · exact ⟨[], _, whole _⟩
        · exact ⟨[], _, whole _⟩

theorem held_reverse {text : String} (filled : text ≠ "") : held text.toList.reverse = [text] := by
  simp [held, filled]

theorem lexes_of_continues {text : String} (filled : text ≠ "") (on : continues [] text.toList = true) :
    Lexes text [text] := by
  intro rest breaks
  rw [cut_continues on, List.append_nil, breaks, held_reverse filled]

/-- Tokens hold no more characters than the text they are cut from. -/
theorem length_cut (cs w : List Char) :
    ((cut (.word w) cs).flatMap String.toList).length ≤ w.length + cs.length ∧
      ((cut (.literal w) cs).flatMap String.toList).length ≤ w.length + cs.length := by
  have kept (w : List Char) : ((held w).flatMap String.toList).length = w.length := by
    cases w <;> simp [held]
  induction cs generalizing w with
  | nil => simp [cut, kept]
  | cons c rest ih =>
    have word := (ih []).1
    have literal := (ih []).2
    constructor
    · rw [cut]
      split
      · have on := (ih (c :: w)).1
        simp at on ⊢
        omega
      · split
        · simp [kept, quoteMark] at literal ⊢
          omega
        · split
          · simp [kept] at word ⊢
            omega
          · simp [kept] at word ⊢
            omega
    · rw [cut]
      split
      · simp [kept, quoteMark] at word ⊢
        omega
      · have on := (ih (c :: w)).2
        simp at on ⊢
        omega

private theorem continues_of_cut {cs w : List Char} (single : cut (.word w) cs = [String.ofList (w.reverse ++ cs)])
    (unmarked : isMark (String.ofList (w.reverse ++ cs)) = false) : continues w cs = true := by
  induction cs generalizing w with
  | nil => rfl
  | cons c rest ih =>
    rw [cut] at single
    cases on : goesOn w c with
    | true =>
      rw [if_pos on] at single
      have others := ih (w := c :: w) (by simpa using single) (by simpa using unmarked)
      rw [continues, on, others]
      rfl
    | false =>
      exfalso
      simp only [on, Bool.false_eq_true, if_false] at single
      -- a word in front of the stop is a token that is too short
      have front : w = [] := by
        cases w with
        | nil => rfl
        | cons d w =>
          exfalso
          have first : String.ofList (d :: w).reverse = String.ofList ((d :: w).reverse ++ c :: rest) := by
            revert single
            split
            · intro single
              exact (List.cons.inj single).1
            · split
              · intro single
                exact (List.cons.inj single).1
              · intro single
                exact (List.cons.inj single).1
          have length := congrArg String.length first
          simp at length
      subst front
      have mark : isMark (String.singleton c) = true → String.singleton c ≠ String.ofList (c :: rest) := by
        intro marked same
        rw [List.reverse_nil, List.nil_append, ← same, marked] at unmarked
        cases unmarked
      revert single
      split
      · rename_i quote
        intro single
        refine mark (by rw [quote]; decide) ?_
        rw [quote]
        exact (List.cons.inj single).1.trans (by rw [quote]; rfl)
      · rename_i quote
        split
        · intro single
          have length := (length_cut rest []).1
          simp [held] at single
          have size : ([String.singleton c ++ String.ofList rest].flatMap String.toList).length = rest.length + 1 := by
            simp
          rw [single, size, List.length_nil] at length
          omega
        · rename_i blank
          intro single
          have marked : isMark (String.singleton c) = true := by
            simp only [goesOn, awaitsExponent, Bool.not_false, Bool.and_true, Bool.not_eq_false', Bool.or_eq_true,
              decide_eq_true_eq, quote, blank, false_or] at on
            simpa [isMark] using Or.inl on
          exact mark marked (List.cons.inj single).1

theorem isWord_iff {text : String} : IsWord text ↔ text ≠ "" ∧ continues [] text.toList = true := by
  constructor
  · rintro ⟨single, unmarked⟩
    rw [texts_lex] at single
    refine ⟨?_, continues_of_cut (by simpa using single) (by simpa using unmarked)⟩
    rintro rfl
    cases single
  · rintro ⟨filled, on⟩
    refine ⟨(lexes_of_continues filled on).texts_lex, ?_⟩
    simp only [isMark]
    split
    · rename_i c same
      simp only [same, continues, goesOn, awaitsExponent, Bool.not_false, Bool.and_true, Bool.not_eq_true',
        Bool.or_eq_false_iff] at on
      obtain ⟨⟨⟨quote, -⟩, mark⟩, sign⟩ := on
      rw [mark, sign, quote]
      rfl
    · rfl

theorem IsWord.lexes {text : String} (word : IsWord text) : Lexes text [text] :=
  lexes_of_continues (isWord_iff.mp word).1 (isWord_iff.mp word).2

/-- A mark that is no quote is cut as it is, whatever follows. -/
theorem lexesFreely_mark {text : String} (marked : isMark text = true) (unquoted : text ≠ quoteMark) :
    LexesFreely text [text] := by
  have listed := mem_marks marked
  simp only [marks, List.mem_cons, List.not_mem_nil, or_false] at listed
  rcases listed with rfl | rfl | rfl | rfl | rfl | rfl | rfl | rfl | rfl | rfl | rfl | rfl | rfl | rfl | rfl | rfl
  all_goals first | exact fun _ => rfl | exact absurd rfl unquoted

/-- A word or a mark that is no quote is cut as it is. -/
theorem lexes_lone {text : String} (lone : IsWord text ∨ isMark text = true) (unquoted : text ≠ quoteMark) :
    Lexes text [text] := by
  rcases lone with word | marked
  · exact word.lexes
  · exact (lexesFreely_mark marked unquoted).lexes

/-- An ASCII letter, an ASCII digit or a point, by its code. -/
def isPlain (c : Char) : Bool :=
  (0x30 ≤ c.toNat && c.toNat ≤ 0x39) || (0x41 ≤ c.toNat && c.toNat ≤ 0x5A) ||
    (0x61 ≤ c.toNat && c.toNat ≤ 0x7A) || c.toNat == 0x2E

theorem goesOn_plain {c : Char} (plain : isPlain c = true) (w : List Char) : goesOn w c = true := by
  have range : (0x30 ≤ c.toNat ∧ c.toNat ≤ 0x39) ∨ (0x41 ≤ c.toNat ∧ c.toNat ≤ 0x5A) ∨
      (0x61 ≤ c.toNat ∧ c.toNat ≤ 0x7A) ∨ c.toNat = 0x2E := by
    simpa [isPlain, or_assoc] using plain
  have blank : Text.isBlank c = false := by
    simp [Text.isBlank]
    omega
  have quote : c ≠ '"' := by
    rintro rfl
    revert plain
    decide
  have mark : isPunctuation c = false := by
    refine Bool.eq_false_iff.mpr fun mark => ?_
    simp only [isPunctuation, punctuation, List.contains_iff_mem, List.mem_cons, List.not_mem_nil, or_false] at mark
    rcases mark with rfl | rfl | rfl | rfl | rfl | rfl | rfl | rfl | rfl | rfl | rfl | rfl | rfl <;>
      exact absurd plain (by decide)
  have sign : isSign c = false := by
    refine Bool.eq_false_iff.mpr fun sign => ?_
    simp only [isSign, Bool.or_eq_true, decide_eq_true_eq] at sign
    rcases sign with rfl | rfl <;> exact absurd plain (by decide)
  simp [goesOn, quote, blank, mark, sign]

theorem continues_plain {cs : List Char} (plain : cs.all isPlain = true) (w : List Char) :
    continues w cs = true := by
  induction cs generalizing w with
  | nil => rfl
  | cons c rest ih =>
    obtain ⟨first, others⟩ : isPlain c = true ∧ rest.all isPlain = true := by simpa using plain
    rw [continues, goesOn_plain first, ih others]
    rfl

theorem continues_append (w first second : List Char) :
    continues w (first ++ second) = (continues w first && continues (first.reverse ++ w) second) := by
  induction first generalizing w with
  | nil => simp [continues]
  | cons c first ih => simp [continues, ih, Bool.and_assoc]

theorem isPlain_letter {c : Char} (letter : isAsciiLetter c = true) : isPlain c = true := by
  simp only [isAsciiLetter, Bool.or_eq_true, Bool.and_eq_true, decide_eq_true_eq, Char.le_def,
    UInt32.le_iff_toNat_le] at letter
  change (0x61 ≤ c.toNat ∧ c.toNat ≤ 0x7A) ∨ (0x41 ≤ c.toNat ∧ c.toNat ≤ 0x5A) at letter
  simp only [isPlain, Bool.or_eq_true, Bool.and_eq_true, decide_eq_true_eq, beq_iff_eq]
  omega

theorem isPlain_digit {c : Char} (digit : c.isDigit = true) : isPlain c = true := by
  simp only [Char.isDigit, Bool.and_eq_true, decide_eq_true_eq, ge_iff_le, UInt32.le_iff_toNat_le] at digit
  change 0x30 ≤ c.toNat ∧ c.toNat ≤ 0x39 at digit
  simp only [isPlain, Bool.or_eq_true, Bool.and_eq_true, decide_eq_true_eq, beq_iff_eq]
  omega

theorem isWord_plain {text : String} (filled : text ≠ "") (plain : text.toList.all isPlain = true) : IsWord text :=
  isWord_iff.mpr ⟨filled, continues_plain plain []⟩

theorem isWord_letters {text : String} (letters : isLetters text = true) : IsWord text := by
  simp only [isLetters, ne_eq, decide_not, Bool.and_eq_true, Bool.not_eq_eq_eq_not, Bool.not_true,
    decide_eq_false_iff_not] at letters
  refine isWord_plain ?_ ?_
  · rintro rfl
    exact letters.1 rfl
  · exact List.all_eq_true.mpr fun c member => isPlain_letter (List.all_eq_true.mp letters.2 c member)

/-! ### Texts that close their literals -/

theorem singleton_ne_quoteMark {c : Char} (unquoted : c ≠ '"') : String.singleton c ≠ quoteMark := by
  intro same
  exact unquoted (by simpa [quoteMark] using congrArg String.toList same)

theorem inLiteral_held {w : List Char} (unquoted : '"' ∉ w) (quoted : Bool) (rest : List String) :
    inLiteral quoted (held w ++ rest) = inLiteral quoted rest := by
  cases w with
  | nil => rfl
  | cons c w =>
    have other : String.ofList (c :: w).reverse ≠ quoteMark := by
      intro same
      have member : '"' ∈ (String.ofList (c :: w).reverse).toList := by
        rw [same]
        decide
      rw [String.toList_ofList, List.mem_reverse] at member
      exact unquoted member
    exact inLiteral_cons other quoted rest

private theorem cut_append_closed {rest : List Char} (breaks : Breaks rest) (cs : List Char) {w : List Char}
    (unquoted : '"' ∉ w) :
    (inLiteral false (cut (.word w) cs) = false →
      cut (.word w) (cs ++ rest) = cut (.word w) cs ++ cut (.word []) rest) ∧
    (inLiteral true (cut (.literal w) cs) = false →
      cut (.literal w) (cs ++ rest) = cut (.literal w) cs ++ cut (.word []) rest) := by
  have clean : '"' ∉ ([] : List Char) := List.not_mem_nil
  induction cs generalizing w with
  | nil =>
    refine ⟨fun _ => breaks w, fun closed => ?_⟩
    have open' := inLiteral_held unquoted true []
    rw [List.append_nil] at open'
    rw [cut, open'] at closed
    cases closed
  | cons c cs ih =>
    constructor
    · intro closed
      rw [List.cons_append, cut, cut]
      rw [cut] at closed
      split
      · rename_i on
        rw [if_pos on] at closed
        have other : '"' ≠ c := by
          rintro rfl
          simp [goesOn] at on
        exact (ih (w := c :: w) (by simp [other, unquoted])).1 closed
      · rename_i stop
        rw [if_neg stop] at closed
        split
        · rename_i quote
          rw [if_pos quote, inLiteral_held unquoted] at closed
          rw [(ih clean).2 closed]
          simp
        · rename_i quote
          rw [if_neg quote] at closed
          split
          · rename_i blank
            rw [if_pos blank, inLiteral_held unquoted] at closed
            rw [(ih clean).1 closed, List.append_assoc]
          · rename_i blank
            rw [if_neg blank, inLiteral_held unquoted, inLiteral_cons (singleton_ne_quoteMark quote)] at closed
            rw [(ih clean).1 closed]
            simp
    · intro closed
      rw [List.cons_append, cut, cut]
      rw [cut] at closed
      split
      · rename_i quote
        rw [if_pos quote, inLiteral_held unquoted] at closed
        rw [(ih clean).1 closed]
        simp
      · rename_i quote
        rw [if_neg quote] at closed
        exact (ih (w := c :: w) (by simp [Ne.symm quote, unquoted])).2 closed

/-- A text that closes its literals is cut in the same way before a break. -/
theorem lexes_of_closed {text : String} (closed : inLiteral false (texts (lex text)) = false) :
    Lexes text (texts (lex text)) := by
  intro rest breaks
  rw [texts_lex] at closed ⊢
  exact (cut_append_closed breaks text.toList List.not_mem_nil).1 closed

end Reckon.Token
