import Reckon.Proofs.Words

/-!
Tokens put together without blanks and cut again. The tokens of a text are words and marks outside of its
literals (`lexical_lex`). Words that are put together may be cut in other places, but no bracket and no
quote appears or disappears (`sameBrackets_relex`), and no character is lost (`joined_relex`).
-/

namespace Reckon.Token

/-- Texts as they can come from the cutting of a text: words and marks outside of text literals, and no quote
    character inside. -/
def Lexical : (quoted : Bool) → List String → Prop
  | _, [] => True
  | quoted, t :: rest =>
    if t = quoteMark then Lexical (!quoted) rest
    else (if quoted then '"' ∉ t.toList else IsWord t ∨ isMark t = true) ∧ Lexical quoted rest

theorem lexical_append (quoted : Bool) (left right : List String) :
    Lexical quoted (left ++ right) ↔ Lexical quoted left ∧ Lexical (inLiteral quoted left) right := by
  induction left generalizing quoted with
  | nil => simp [Lexical]
  | cons t rest ih =>
    by_cases mark : t = quoteMark
    · simp [Lexical, inLiteral, mark, ih]
    · simp [Lexical, inLiteral, mark, ih, and_assoc]

theorem lexical_cons {t : String} (unquoted : t ≠ quoteMark) (rest : List String) :
    Lexical false (t :: rest) ↔ (IsWord t ∨ isMark t = true) ∧ Lexical false rest := by
  simp [Lexical, unquoted]

theorem ne_quoteMark {text : String} (unquoted : '"' ∉ text.toList) : text ≠ quoteMark := by
  rintro rfl
  exact unquoted (by decide)

private theorem lexical_held {w : List Char} {rest : List String} (on : continues [] w.reverse = true)
    (tail : Lexical false rest) : Lexical false (held w ++ rest) := by
  cases w with
  | nil => exact tail
  | cons c w =>
    have word : IsWord (String.ofList (c :: w).reverse) := by
      refine isWord_iff.mpr ⟨?_, by rwa [String.toList_ofList]⟩
      intro empty
      have chars := congrArg String.toList empty
      simp at chars
    exact (lexical_cons (ne_of_unmarked word.2 (by decide)) rest).mpr ⟨.inl word, tail⟩

private theorem lexical_held_literal {w : List Char} {rest : List String} (unquoted : '"' ∉ w)
    (tail : Lexical true rest) : Lexical true (held w ++ rest) := by
  cases w with
  | nil => exact tail
  | cons c w =>
    have inside : '"' ∉ (String.ofList (c :: w).reverse).toList := by
      rwa [String.toList_ofList, List.mem_reverse]
    simp only [held, List.isEmpty_cons, Bool.false_eq_true, if_false, List.singleton_append, Lexical,
      ne_quoteMark inside, if_true]
    exact ⟨inside, tail⟩

private theorem lexical_cut (cs : List Char) :
    (∀ w, continues [] w.reverse = true → Lexical false (cut (.word w) cs)) ∧
      ∀ w, '"' ∉ w → Lexical true (cut (.literal w) cs) := by
  induction cs with
  | nil =>
    refine ⟨fun w on => ?_, fun w unquoted => ?_⟩
    · have whole : Lexical false (held w ++ []) := lexical_held on trivial
      simpa [cut] using whole
    · have whole : Lexical true (held w ++ []) := lexical_held_literal unquoted trivial
      simpa [cut] using whole
  | cons c rest ih =>
    obtain ⟨word, literal⟩ := ih
    refine ⟨fun w on => ?_, fun w unquoted => ?_⟩
    · rw [cut]
      split
      · rename_i goes
        refine word (c :: w) ?_
        rw [List.reverse_cons, continues_append, on]
        simp [continues, goes]
      · rename_i stop
        split
        · refine lexical_held on ?_
          simp only [Lexical, if_true]
          exact literal [] (by simp)
        · rename_i quote
          split
          · exact lexical_held on (word [] rfl)
          · rename_i blank
            have marked : isMark (String.singleton c) = true := by
              simp only [goesOn, quote, decide_false, blank, Bool.false_or, Bool.not_eq_true', Bool.not_eq_false,
                Bool.or_eq_true, Bool.and_eq_true] at stop
              rcases stop with mark | ⟨sign, -⟩
              · simp [isMark, mark]
              · simp [isMark, sign]
            exact lexical_held on ((lexical_cons (singleton_ne_quoteMark quote) _).mpr ⟨.inr marked, word [] rfl⟩)
    · rw [cut]
      split
      · refine lexical_held_literal unquoted ?_
        simp only [Lexical, if_true]
        exact word [] rfl
      · rename_i quote
        exact literal (c :: w) (by simp [Ne.symm quote, unquoted])

/-- The tokens of a text. -/
theorem lexical_lex (source : String) : Lexical false (texts (lex source)) := by
  rw [texts_lex]
  exact (lexical_cut source.toList).1 [] rfl

/-! ### The brackets outside of literals -/

/-- Texts that count the same in every kind of bracket. -/
def SameBrackets (quoted : Bool) (first second : List String) : Prop :=
  inLiteral quoted first = inLiteral quoted second ∧
    ∀ kind depth, climb? kind depth (outside quoted first) = climb? kind depth (outside quoted second)

/-- A text that is no bracket and no quote. -/
def Bland (text : String) : Prop := text ≠ quoteMark ∧ ∀ kind : Bracket, text ≠ kind.opener ∧ text ≠ kind.closer

theorem SameBrackets.symm {quoted : Bool} {first second : List String} (same : SameBrackets quoted first second) :
    SameBrackets quoted second first :=
  ⟨same.1.symm, fun kind depth => (same.2 kind depth).symm⟩

theorem SameBrackets.bland_left {text : String} {first second : List String} (bland : Bland text)
    (same : SameBrackets false first second) : SameBrackets false (text :: first) second := by
  refine ⟨by rw [inLiteral_cons bland.1, same.1], fun kind depth => ?_⟩
  rw [outside_cons bland.1, climb?_other (bland.2 kind).1 (bland.2 kind).2, same.2]

theorem SameBrackets.append_left {front first second : List String} (bland : ∀ text ∈ front, Bland text)
    (same : SameBrackets false first second) : SameBrackets false (front ++ first) second := by
  induction front with
  | nil => exact same
  | cons text front ih =>
    exact .bland_left (bland text (by simp)) (ih fun other member => bland other (by simp [member]))

theorem SameBrackets.cons {text : String} {first second : List String} (unquoted : text ≠ quoteMark)
    (same : SameBrackets false first second) : SameBrackets false (text :: first) (text :: second) := by
  refine ⟨by rw [inLiteral_cons unquoted, inLiteral_cons unquoted, same.1], fun kind depth => ?_⟩
  rw [outside_cons unquoted, outside_cons unquoted]
  simp only [climb?]
  split
  · split
    · rfl
    · exact same.2 kind _
  · split
    · exact same.2 kind _
    · exact same.2 kind _

theorem SameBrackets.quote {quoted : Bool} {first second : List String} (same : SameBrackets (!quoted) first second) :
    SameBrackets quoted (quoteMark :: first) (quoteMark :: second) := by
  simpa [SameBrackets, inLiteral, outside] using same

theorem SameBrackets.literal_left {text : String} {first second : List String} (unquoted : text ≠ quoteMark)
    (same : SameBrackets true first second) : SameBrackets true (text :: first) second := by
  simpa [SameBrackets, inLiteral, outside, unquoted] using same

/-- A character that stands in words or is a sign. -/
def inWords (c : Char) : Bool := !(c = '"' || Text.isBlank c || isPunctuation c)

theorem bland_of_inWords {text : String} (each : ∀ c ∈ text.toList, inWords c = true) : Bland text := by
  have other {mark : String} {c : Char} (member : c ∈ mark.toList) (stands : inWords c = false) : text ≠ mark := by
    rintro rfl
    rw [each c member] at stands
    cases stands
  refine ⟨other (c := '"') (by decide) (by decide), fun kind => ?_⟩
  cases kind with
  | round => exact ⟨other (c := '(') (by decide) (by decide), other (c := ')') (by decide) (by decide)⟩
  | curly => exact ⟨other (c := '\x7b') (by decide) (by decide), other (c := '\x7d') (by decide) (by decide)⟩
  | angle => exact ⟨other (c := '<') (by decide) (by decide), other (c := '>') (by decide) (by decide)⟩
  | square => exact ⟨other (c := '[') (by decide) (by decide), other (c := ']') (by decide) (by decide)⟩

theorem bland_held {w : List Char} (each : ∀ c ∈ w, inWords c = true) : ∀ text ∈ held w, Bland text := by
  intro text member
  cases w with
  | nil => cases member
  | cons c w =>
    obtain rfl := List.mem_singleton.mp member
    refine bland_of_inWords fun d inside => each d ?_
    rwa [String.toList_ofList, List.mem_reverse] at inside

/-- The characters of texts. -/
def chars (texts : List String) : List Char := texts.flatMap String.toList

theorem chars_append (left right : List String) : chars (left ++ right) = chars left ++ chars right := by
  simp [chars]

theorem chars_held (w : List Char) : chars (held w) = w.reverse := by
  cases w <;> simp [chars, held]

/-- Characters of words are cut into words and signs, the last of which may go on. -/
theorem cut_inWords {cs : List Char} (each : ∀ c ∈ cs, inWords c = true) {w : List Char}
    (held : ∀ c ∈ w, inWords c = true) (rest : List Char) :
    ∃ front last, cut (.word w) (cs ++ rest) = front ++ cut (.word last) rest ∧ (∀ text ∈ front, Bland text) ∧
      (∀ c ∈ last, inWords c = true) ∧ chars front ++ last.reverse = w.reverse ++ cs := by
  induction cs generalizing w with
  | nil => exact ⟨[], w, rfl, by simp, held, by simp [chars]⟩
  | cons c cs ih =>
    have first : inWords c = true := each c (by simp)
    have others : ∀ d ∈ cs, inWords d = true := fun d member => each d (by simp [member])
    rw [List.cons_append, cut]
    split
    · obtain ⟨front, last, same, bland, lastWords, characters⟩ := ih others (w := c :: w) (by simpa using ⟨first, held⟩)
      exact ⟨front, last, same, bland, lastWords, by simpa using characters⟩
    · obtain ⟨front, last, same, bland, lastWords, characters⟩ := ih others (w := []) (by simp)
      obtain ⟨quote, blank⟩ : c ≠ '"' ∧ Text.isBlank c = false := by
        simp only [inWords, Bool.not_eq_true', Bool.or_eq_false_iff, decide_eq_false_iff_not] at first
        exact first.1
      have sign : Bland (String.singleton c) := bland_of_inWords (by simpa using first)
      refine ⟨Token.held w ++ String.singleton c :: front, last, ?_, ?_, lastWords, ?_⟩
      · rw [if_neg quote, if_neg (by simp [blank]), same]
        simp
      · intro text member
        rcases List.mem_append.mp member with member | member
        · exact bland_held held text member
        · rcases List.mem_cons.mp member with rfl | member
          · exact sign
          · exact bland text member
      · rw [chars_append, chars_held]
        simp only [chars, List.flatMap_cons, List.reverse_nil, List.nil_append] at characters ⊢
        simp [characters]

theorem inWords_of_goesOn {w : List Char} {c : Char} (on : goesOn w c = true) : inWords c = true := by
  simp only [goesOn, inWords, Bool.not_eq_true', Bool.or_eq_false_iff] at on ⊢
  exact on.1

theorem inWords_of_continues {cs w : List Char} (on : continues w cs = true) : ∀ c ∈ cs, inWords c = true := by
  induction cs generalizing w with
  | nil => simp
  | cons c rest ih =>
    obtain ⟨first, others⟩ : goesOn w c = true ∧ continues (c :: w) rest = true := by simpa [continues] using on
    simpa using ⟨inWords_of_goesOn first, ih others⟩

/-- A word or a mark has characters of words only, unless it is a quote or a punctuation mark. -/
theorem inWords_or_punctuation {text : String} (lone : IsWord text ∨ isMark text = true) (unquoted : text ≠ quoteMark) :
    (∀ c ∈ text.toList, inWords c = true) ∨ ∃ c, text = String.singleton c ∧ isPunctuation c = true := by
  rcases lone with word | marked
  · exact .inl (inWords_of_continues (isWord_iff.mp word).2)
  · simp only [isMark] at marked
    split at marked
    · rename_i c same
      obtain rfl : text = String.singleton c := by
        rw [← String.toList_inj, same]
        simp
      simp only [Bool.or_eq_true, decide_eq_true_eq] at marked
      rcases marked with (punctuation | sign) | rfl
      · exact .inr ⟨c, rfl, punctuation⟩
      · simp only [isSign, Bool.or_eq_true, decide_eq_true_eq] at sign
        have sign' : inWords c = true := by
          rcases sign with rfl | rfl <;> decide
        exact .inl fun d member => by
          rw [String.toList_singleton, List.mem_singleton] at member
          rw [member, sign']
      · exact absurd rfl unquoted
    · cases marked

theorem cut_literal {cs : List Char} (unquoted : '"' ∉ cs) (w rest : List Char) :
    cut (.literal w) (cs ++ rest) = cut (.literal (cs.reverse ++ w)) rest := by
  induction cs generalizing w with
  | nil => rfl
  | cons c cs ih =>
    obtain ⟨first, others⟩ : '"' ≠ c ∧ '"' ∉ cs := by simpa using unquoted
    rw [List.cons_append, cut, if_neg (Ne.symm first), ih others]
    simp

private theorem literal_held {w : List Char} (unquoted : '"' ∉ w) {first second : List String}
    (same : SameBrackets true first second) : SameBrackets true (held w ++ first) second := by
  cases w with
  | nil => exact same
  | cons c w =>
    refine .literal_left (ne_quoteMark ?_) same
    rwa [String.toList_ofList, List.mem_reverse]

private theorem relex_cut (texts : List String) :
    (∀ w, (∀ c ∈ w, inWords c = true) → Lexical false texts →
      SameBrackets false (cut (.word w) (chars texts)) texts ∧
        chars (cut (.word w) (chars texts)) = w.reverse ++ chars texts) ∧
    ∀ w, '"' ∉ w → Lexical true texts →
      SameBrackets true (cut (.literal w) (chars texts)) texts ∧
        chars (cut (.literal w) (chars texts)) = w.reverse ++ chars texts := by
  have none (quoted : Bool) : SameBrackets quoted [] [] := ⟨rfl, fun _ _ => rfl⟩
  induction texts with
  | nil =>
    refine ⟨fun w words _ => ?_, fun w unquoted _ => ?_⟩
    · exact ⟨by simpa [cut, chars] using SameBrackets.append_left (bland_held words) (none false),
        by simpa [cut, chars] using chars_held w⟩
    · exact ⟨by simpa [cut, chars] using literal_held unquoted (none true), by simpa [cut, chars] using chars_held w⟩
  | cons t rest ih =>
    have split : chars (t :: rest) = t.toList ++ chars rest := rfl
    obtain ⟨word, literal⟩ := ih
    refine ⟨fun w words lexical => ?_, fun w unquoted lexical => ?_⟩
    · by_cases mark : t = quoteMark
      · subst mark
        obtain ⟨same, characters⟩ := literal [] (by simp) (by simpa [Lexical] using lexical)
        have whole : cut (.word w) (chars (quoteMark :: rest)) =
            held w ++ quoteMark :: cut (.literal []) (chars rest) := by
          change cut (.word w) ('"' :: chars rest) = _
          simp [cut, goesOn]
        rw [whole]
        refine ⟨.append_left (bland_held words) (.quote same), ?_⟩
        rw [chars_append, chars_held]
        simpa [chars, quoteMark] using characters
      · obtain ⟨lone, tail⟩ := (lexical_cons mark rest).mp lexical
        rcases inWords_or_punctuation lone mark with each | ⟨c, rfl, punctuation⟩
        · obtain ⟨front, last, cutEq, bland, lastWords, frontChars⟩ := cut_inWords each words (chars rest)
          obtain ⟨same, characters⟩ := word last lastWords tail
          rw [split, cutEq]
          refine ⟨.append_left bland (same.symm.bland_left (bland_of_inWords each)).symm, ?_⟩
          rw [chars_append, characters, ← List.append_assoc, frontChars, List.append_assoc]
        · obtain ⟨same, characters⟩ := word [] (by simp) tail
          have free := lexesFreely_punctuation punctuation (chars rest)
          have breaks := breaks_cons (stops_punctuation punctuation) (chars rest) w
          rw [String.toList_singleton, List.singleton_append, List.singleton_append] at free
          rw [split, String.toList_singleton, List.singleton_append, breaks, free]
          refine ⟨.append_left (bland_held words) (same.cons mark), ?_⟩
          rw [chars_append, chars_held]
          simpa [chars] using characters
    · by_cases mark : t = quoteMark
      · subst mark
        obtain ⟨same, characters⟩ := word [] (by simp) (by simpa [Lexical] using lexical)
        have whole : cut (.literal w) (chars (quoteMark :: rest)) =
            held w ++ quoteMark :: cut (.word []) (chars rest) := by
          change cut (.literal w) ('"' :: chars rest) = _
          simp [cut]
        rw [whole]
        refine ⟨literal_held unquoted (.quote same), ?_⟩
        rw [chars_append, chars_held]
        simpa [chars, quoteMark] using characters
      · obtain ⟨inside, tail⟩ : '"' ∉ t.toList ∧ Lexical true rest := by simpa [Lexical, mark] using lexical
        have more : '"' ∉ t.toList.reverse ++ w := by simpa using ⟨inside, unquoted⟩
        obtain ⟨same, characters⟩ := literal _ more tail
        rw [split, cut_literal inside]
        exact ⟨(same.symm.literal_left mark).symm, by simpa using characters⟩

theorem toList_joined (tokens : List Token) : (joined tokens).toList = chars (texts tokens) := by
  simp [joined, chars, String.toList_join, List.flatMap]

/-- Tokens that are put together and cut again have the same brackets. -/
theorem sameBrackets_relex {tokens : List Token} (lexical : Lexical false (texts tokens)) :
    SameBrackets false (texts (lex (joined tokens))) (texts tokens) := by
  rw [texts_lex, toList_joined]
  exact ((relex_cut (texts tokens)).1 [] (by simp) lexical).1

/-- Tokens that are put together and cut again hold the same text. -/
theorem joined_relex {tokens : List Token} (lexical : Lexical false (texts tokens)) :
    joined (lex (joined tokens)) = joined tokens := by
  rw [← String.toList_inj, toList_joined, texts_lex, toList_joined]
  exact ((relex_cut (texts tokens)).1 [] (by simp) lexical).2

end Reckon.Token
