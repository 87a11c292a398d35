import Mathlib
import Reckon.Markup

/-!
What messages show. A message is read from its front, where there is a character that is no marker, a doubled marker,
a marker with the character that chooses a colour, or a marker alone at the end (`message_induction`). A message that
does not end in a marker alone is shown the same whatever comes after it (`body_append`), and after such a message, and
no other, an escaped text is shown as it is (`render_escaped_iff`). With colours a message is what it is without them
and terminal escapes in between, of which the one that resets all is the last (`render_escapes`).
-/

namespace Reckon.Markup

/-! ### The parts of a message -/

/-- A message that ends in a marker which waits for the character of its colour. -/
def dangles : List Char → Bool
  | [] => false
  | [c] => c = marker
  | c :: d :: rest => if c = marker then dangles rest else dangles (d :: rest)

/-- What holds of all messages holds by induction on what stands at the front. -/
theorem message_induction {motive : List Char → Prop} (nil : motive []) (dangling : motive [marker])
    (other : ∀ c rest, c ≠ marker → motive rest → motive (c :: rest))
    (doubled : ∀ rest, motive rest → motive (marker :: marker :: rest))
    (choice : ∀ d rest, d ≠ marker → motive rest → motive (marker :: d :: rest)) (cs : List Char) : motive cs := by
  induction cs using dangles.induct with
  | case1 => exact nil
  | case2 c =>
    by_cases marks : c = marker
    · subst marks
      exact dangling
    · exact other c [] marks nil
  | case3 d rest ih =>
    by_cases twice : d = marker
    · subst twice
      exact doubled rest ih
    · exact choice d rest twice ih
  | case4 c d rest unmarked ih => exact other c (d :: rest) unmarked ih

section Parts

variable (color : Bool) {c : Char} (rest : List Char)

@[simp]
theorem body_nil : body color [] = [] := rfl

@[simp]
theorem body_dangling : body color [marker] = [] := rfl

theorem body_other (other : c ≠ marker) : body color (c :: rest) = c :: body color rest := by
  cases rest with
  | nil => exact if_neg other
  | cons d rest => rw [body, if_pos other]

@[simp]
theorem body_doubled : body color (marker :: marker :: rest) = marker :: body color rest := by
  rw [body, if_neg (by simp), if_pos rfl]

theorem body_choice (other : c ≠ marker) :
    body color (marker :: c :: rest) = (if color then escape (codeOf c) else []) ++ body color rest := by
  rw [body, if_neg (by simp), if_neg other]
  cases color <;> rfl

@[simp]
theorem choosesColor_nil : choosesColor [] = false := rfl

@[simp]
theorem choosesColor_dangling : choosesColor [marker] = false := rfl

theorem choosesColor_other (other : c ≠ marker) : choosesColor (c :: rest) = choosesColor rest := by
  cases rest with
  | nil => rfl
  | cons d rest => rw [choosesColor, if_pos other]

@[simp]
theorem choosesColor_doubled : choosesColor (marker :: marker :: rest) = choosesColor rest := by
  rw [choosesColor, if_neg (by simp), if_pos rfl]

theorem choosesColor_choice (other : c ≠ marker) : choosesColor (marker :: c :: rest) = true := by
  rw [choosesColor, if_neg (by simp), if_neg other]

@[simp]
theorem dangles_nil : dangles [] = false := rfl

@[simp]
theorem dangles_dangling : dangles [marker] = true := rfl

theorem dangles_other (other : c ≠ marker) : dangles (c :: rest) = dangles rest := by
  cases rest with
  | nil => exact decide_eq_false other
  | cons d rest => rw [dangles, if_neg other]

@[simp]
theorem dangles_marked (d : Char) : dangles (marker :: d :: rest) = dangles rest := by
  rw [dangles, if_pos rfl]

end Parts

/-! ### Messages put together -/

/-- A message that does not dangle is shown by itself. -/
theorem body_append (color : Bool) {a : List Char} (settled : dangles a = false) (b : List Char) :
    body color (a ++ b) = body color a ++ body color b := by
  induction a using message_induction with
  | nil => rfl
  | dangling => cases settled
  | other c rest unmarked ih =>
    rw [dangles_other rest unmarked] at settled
    rw [List.cons_append, body_other color _ unmarked, body_other color _ unmarked, ih settled, List.cons_append]
  | doubled rest ih =>
    rw [dangles_marked] at settled
    rw [List.cons_append, List.cons_append, body_doubled, body_doubled, ih settled, List.cons_append]
  | choice d rest unmarked ih =>
    rw [dangles_marked] at settled
    rw [List.cons_append, List.cons_append, body_choice color _ unmarked, body_choice color _ unmarked, ih settled,
      List.append_assoc]

theorem dangles_append {a : List Char} (settled : dangles a = false) (b : List Char) :
    dangles (a ++ b) = dangles b := by
  induction a using message_induction with
  | nil => rfl
  | dangling => cases settled
  | other c rest unmarked ih =>
    rw [dangles_other rest unmarked] at settled
    rw [List.cons_append, dangles_other _ unmarked, ih settled]
  | doubled rest ih =>
    rw [dangles_marked] at settled
    rw [List.cons_append, List.cons_append, dangles_marked, ih settled]
  | choice d rest unmarked ih =>
    rw [dangles_marked] at settled
    rw [List.cons_append, List.cons_append, dangles_marked, ih settled]

/-- A message that ends in another character does not dangle: either the character chooses a colour or it stands for
    itself. -/
theorem dangles_concat (a : List Char) {c : Char} (other : c ≠ marker) : dangles (a ++ [c]) = false := by
  induction a using message_induction with
  | nil => exact decide_eq_false other
  | dangling => rw [List.singleton_append, dangles_marked, dangles_nil]
  | other d rest unmarked ih => rw [List.cons_append, dangles_other _ unmarked, ih]
  | doubled rest ih => rw [List.cons_append, List.cons_append, dangles_marked, ih]
  | choice d rest unmarked ih => rw [List.cons_append, List.cons_append, dangles_marked, ih]

/-- A marker that dangles takes the character after it. -/
theorem body_swallowed {a : List Char} (waits : dangles a = true) {c : Char} (other : c ≠ marker) :
    body false (a ++ [c]) = body false a := by
  induction a using message_induction with
  | nil => cases waits
  | dangling => rw [List.singleton_append, body_choice false _ other]; rfl
  | other d rest unmarked ih =>
    rw [dangles_other rest unmarked] at waits
    rw [List.cons_append, body_other false _ unmarked, body_other false _ unmarked, ih waits]
  | doubled rest ih =>
    rw [dangles_marked] at waits
    rw [List.cons_append, List.cons_append, body_doubled, body_doubled, ih waits]
  | choice d rest unmarked ih =>
    rw [dangles_marked] at waits
    rw [List.cons_append, List.cons_append, body_choice false _ unmarked, body_choice false _ unmarked, ih waits]

/-! ### Texts without markers and escaped texts -/

section Unmarked

variable {cs : List Char} (unmarked : marker ∉ cs)
include unmarked

theorem body_unmarked (color : Bool) : body color cs = cs := by
  induction cs with
  | nil => rfl
  | cons c rest ih =>
    obtain ⟨first, others⟩ : marker ≠ c ∧ marker ∉ rest := by simpa using unmarked
    rw [body_other color rest (Ne.symm first), ih others]

theorem choosesColor_unmarked : choosesColor cs = false := by
  induction cs with
  | nil => rfl
  | cons c rest ih =>
    obtain ⟨first, others⟩ : marker ≠ c ∧ marker ∉ rest := by simpa using unmarked
    rw [choosesColor_other rest (Ne.symm first), ih others]

theorem dangles_unmarked : dangles cs = false := by
  induction cs with
  | nil => rfl
  | cons c rest ih =>
    obtain ⟨first, others⟩ : marker ≠ c ∧ marker ∉ rest := by simpa using unmarked
    rw [dangles_other rest (Ne.symm first), ih others]

end Unmarked

theorem render_unmarked {text : String} (unmarked : marker ∉ text.toList) (color : Bool) :
    render text color = text := by
  simp only [render, body_unmarked unmarked, choosesColor_unmarked unmarked, Bool.and_false, Bool.false_eq_true,
    if_false, List.append_nil, String.ofList_toList]

/-- What escaping makes of characters is shown as these characters, chooses no colour and does not dangle. -/
theorem shown_escaped (color : Bool) (cs : List Char) :
    let escaped := cs.flatMap fun c => if c = marker then [marker, marker] else [c]
    body color escaped = cs ∧ choosesColor escaped = false ∧ dangles escaped = false := by
  induction cs with
  | nil => exact ⟨rfl, rfl, rfl⟩
  | cons c rest ih =>
    obtain ⟨shown, colorless, settled⟩ := ih
    by_cases marks : c = marker
    · subst marks
      simp [shown, colorless, settled]
    · simp [marks, body_other, choosesColor_other, dangles_other, shown, colorless, settled]

theorem render_escapeMarkers (text : String) (color : Bool) : render (escapeMarkers text) color = text := by
  obtain ⟨shown, colorless, -⟩ := shown_escaped color text.toList
  simp only [render, escapeMarkers, String.toList_ofList, shown, colorless, Bool.and_false, Bool.false_eq_true,
    if_false, List.append_nil, String.ofList_toList]

theorem dangles_escapeMarkers (text : String) : dangles (escapeMarkers text).toList = false := by
  rw [escapeMarkers, String.toList_ofList]
  exact (shown_escaped false text.toList).2.2

theorem toList_render_false (message : String) : (render message false).toList = body false message.toList := by
  simp [render]

/-- Without colours a message that does not dangle is shown by itself. -/
theorem render_append {a : String} (settled : dangles a.toList = false) (b : String) :
    render (a ++ b) false = render a false ++ render b false := by
  rw [← String.toList_inj, String.toList_append, toList_render_false, toList_render_false, toList_render_false,
    String.toList_append, body_append false settled]

/-- Without colours an escaped text is shown as it is between any two messages, if and only if the first does not
    dangle. -/
theorem render_escaped_iff (a : String) : dangles a.toList = false ↔
    ∀ text b, render (a ++ escapeMarkers text ++ b) false = render a false ++ text ++ render b false := by
  constructor
  · intro settled text b
    have both : dangles (a ++ escapeMarkers text).toList = false := by
      rw [String.toList_append, dangles_append settled, dangles_escapeMarkers]
    rw [render_append both, render_append settled, render_escapeMarkers]
  · intro verbatim
    by_contra waits
    have swallowed : body false (a.toList ++ ['x']) = body false a.toList :=
      body_swallowed (by simpa using waits) (by decide)
    have shown := congrArg String.toList (verbatim "" "x")
    rw [String.toList_append, String.toList_append, toList_render_false, toList_render_false,
      toList_render_false] at shown
    simp [escapeMarkers, swallowed, body] at shown
    exact absurd shown (by decide)

/-! ### Terminal escapes -/

/-- An escape sequence: the escape character, an opening bracket, digits and an m. -/
inductive IsEscape : List Char → Prop
  | digits {digits : List Char} (filled : digits ≠ []) (each : ∀ d ∈ digits, d.isDigit = true) :
      IsEscape ('\x1b' :: '[' :: digits ++ ['m'])

/-- What comes after the escape sequence at the front, if there is one. -/
def afterEscape? : List Char → Option (List Char)
  | '\x1b' :: '[' :: rest =>
    match rest.takeWhile Char.isDigit, rest.dropWhile Char.isDigit with
    | _ :: _, 'm' :: after => some after
    | _, _ => none
  | _ => none

theorem afterEscape?_eq_some_iff {cs after : List Char} :
    afterEscape? cs = some after ↔ ∃ e, IsEscape e ∧ cs = e ++ after := by
  constructor
  · intro found
    unfold afterEscape? at found
    split at found
    · rename_i rest
      split at found
      · rename_i d digits after' front back
        cases found
        have each : ∀ c ∈ d :: digits, c.isDigit = true := by
          rw [← front]
          exact fun c member => List.mem_takeWhile_imp member
        refine ⟨_, .digits (List.cons_ne_nil d digits) each, ?_⟩
        rw [← List.takeWhile_append_dropWhile (p := Char.isDigit) (l := rest), front, back]
        simp
      · cases found
    · cases found
  · rintro ⟨_, ⟨filled, each⟩, rfl⟩
    rename_i digits
    obtain ⟨d, others, rfl⟩ := List.exists_cons_of_ne_nil filled
    have front : (d :: others ++ 'm' :: after).takeWhile Char.isDigit = d :: others := by
      rw [List.takeWhile_append_of_pos each]
      simp
    have back : (d :: others ++ 'm' :: after).dropWhile Char.isDigit = 'm' :: after := by
      rw [List.dropWhile_append_of_pos each]
      simp
    simp only [List.cons_append, List.append_assoc, List.nil_append, afterEscape?] at front back ⊢
    simp only [front, back]

theorem IsEscape.length_pos {e : List Char} (isEscape : IsEscape e) : 0 < e.length := by
  cases isEscape
  simp

/-- The characters that are left when all escape sequences are taken out. -/
def withoutEscapes (cs : List Char) : List Char :=
  match cs with
  | [] => []
  | c :: rest =>
    match _found : afterEscape? (c :: rest) with
    | some after => withoutEscapes after
    | none => c :: withoutEscapes rest
termination_by cs.length
decreasing_by
  · obtain ⟨e, isEscape, same⟩ := afterEscape?_eq_some_iff.mp _found
    have := isEscape.length_pos
    rw [same, List.length_append]
    omega
  · simp

theorem withoutEscapes_escape {e : List Char} (isEscape : IsEscape e) (rest : List Char) :
    withoutEscapes (e ++ rest) = withoutEscapes rest := by
  have found : afterEscape? (e ++ rest) = some rest := afterEscape?_eq_some_iff.mpr ⟨e, isEscape, rfl⟩
  obtain ⟨c, others, rfl⟩ := List.exists_cons_of_length_pos isEscape.length_pos
  rw [List.cons_append] at found ⊢
  rw [withoutEscapes]
  split
  · rename_i after found'
    rw [found] at found'
    cases found'
    rfl
  · rename_i none
    rw [found] at none
    cases none

theorem withoutEscapes_cons {c : Char} (other : c ≠ '\x1b') (rest : List Char) :
    withoutEscapes (c :: rest) = c :: withoutEscapes rest := by
  rw [withoutEscapes]
  split
  · rename_i after found
    obtain ⟨e, isEscape, same⟩ := afterEscape?_eq_some_iff.mp found
    cases isEscape
    exact absurd (List.cons.inj same).1 other
  · rfl

/-- The code of a colour: digits, of which the first is not that of the reset. -/
def IsColorCode (code : List Char) : Prop :=
  code ≠ [] ∧ code.head? ≠ some '0' ∧ code.all Char.isDigit = true

instance (code : List Char) : Decidable (IsColorCode code) := inferInstanceAs (Decidable (_ ∧ _ ∧ _))

theorem isColorCode_codeOf (c : Char) : IsColorCode (codeOf c).toList := by
  have white : IsColorCode whiteCode.toList := by decide
  have each : ∀ color ∈ colors, IsColorCode color.code.toList := by decide
  rw [codeOf]
  cases found : colors[colorIndex c]? with
  | none => exact white
  | some color => exact each color (List.mem_of_getElem? found)

theorem isEscape_color (c : Char) : IsEscape (escape (codeOf c)) := by
  obtain ⟨filled, -, each⟩ := isColorCode_codeOf c
  exact .digits filled (List.all_eq_true.mp each)

theorem isEscape_reset : IsEscape reset := .digits (by decide) (List.all_eq_true.mp (by decide))

/-- Nothing is shown that is not in the message. -/
theorem mem_of_mem_body {c : Char} {cs : List Char} (member : c ∈ body false cs) : c ∈ cs := by
  induction cs using message_induction with
  | nil => cases member
  | dangling => cases member
  | other d rest unmarked ih =>
    rw [body_other false rest unmarked] at member
    rcases List.mem_cons.mp member with rfl | member
    · exact List.mem_cons_self
    · exact List.mem_cons_of_mem _ (ih member)
  | doubled rest ih =>
    rw [body_doubled] at member
    rcases List.mem_cons.mp member with rfl | member
    · exact List.mem_cons_self
    · exact List.mem_cons_of_mem _ (List.mem_cons_of_mem _ (ih member))
  | choice d rest unmarked ih =>
    rw [body_choice false rest unmarked] at member
    exact List.mem_cons_of_mem _ (List.mem_cons_of_mem _ (ih member))

/-- A message that chooses no colour is the same with colours and without. -/
theorem body_colorless {cs : List Char} (colorless : choosesColor cs = false) : body true cs = body false cs := by
  induction cs using message_induction with
  | nil => rfl
  | dangling => rfl
  | other c rest unmarked ih =>
    rw [choosesColor_other rest unmarked] at colorless
    rw [body_other true rest unmarked, body_other false rest unmarked, ih colorless]
  | doubled rest ih =>
    rw [choosesColor_doubled] at colorless
    rw [body_doubled, body_doubled, ih colorless]
  | choice d rest unmarked =>
    rw [choosesColor_choice rest unmarked] at colorless
    cases colorless

section Plain

variable {cs : List Char} (plain : '\x1b' ∉ cs)
include plain

/-- The escapes that stand for colours can be taken out again. -/
theorem withoutEscapes_body (tail : List Char) :
    withoutEscapes (body true cs ++ tail) = body false cs ++ withoutEscapes tail := by
  induction cs using message_induction with
  | nil => rfl
  | dangling => rfl
  | other c rest unmarked ih =>
    obtain ⟨first, others⟩ : '\x1b' ≠ c ∧ '\x1b' ∉ rest := by simpa using plain
    rw [body_other true rest unmarked, body_other false rest unmarked, List.cons_append,
      withoutEscapes_cons (Ne.symm first), ih others, List.cons_append]
  | doubled rest ih =>
    obtain ⟨-, others⟩ : '\x1b' ≠ marker ∧ '\x1b' ∉ rest := by simpa using plain
    rw [body_doubled, body_doubled, List.cons_append, withoutEscapes_cons (by decide), ih others, List.cons_append]
  | choice d rest unmarked ih =>
    obtain ⟨-, -, others⟩ : '\x1b' ≠ marker ∧ '\x1b' ≠ d ∧ '\x1b' ∉ rest := by simpa using plain
    rw [body_choice true rest unmarked, body_choice false rest unmarked, if_pos rfl, List.append_assoc,
      withoutEscapes_escape (isEscape_color d), ih others]
    rfl

/-- A reset is not found before the end of characters without escapes. -/
theorem reset_after {tail before after : List Char} (found : cs ++ tail = before ++ reset ++ after) :
    ∃ before', tail = before' ++ reset ++ after := by
  induction cs generalizing before with
  | nil => exact ⟨before, found⟩
  | cons c rest ih =>
    obtain ⟨first, others⟩ : '\x1b' ≠ c ∧ '\x1b' ∉ rest := by simpa using plain
    cases before with
    | nil => exact absurd (List.cons.inj found).1.symm first
    | cons b before => exact ih others (List.cons.inj found).2

/-- No reset is found in a message before its end. -/
theorem reset_after_body {tail before after : List Char} (found : body true cs ++ tail = before ++ reset ++ after) :
    ∃ before', tail = before' ++ reset ++ after := by
  induction cs using message_induction generalizing before with
  | nil => exact ⟨before, found⟩
  | dangling => exact ⟨before, found⟩
  | other c rest unmarked ih =>
    obtain ⟨first, others⟩ : '\x1b' ≠ c ∧ '\x1b' ∉ rest := by simpa using plain
    rw [body_other true rest unmarked] at found
    have alone : '\x1b' ∉ [c] := by simpa using first
    obtain ⟨before', found⟩ := reset_after alone found
    exact ih others found
  | doubled rest ih =>
    obtain ⟨-, others⟩ : '\x1b' ≠ marker ∧ '\x1b' ∉ rest := by simpa using plain
    rw [body_doubled] at found
    have alone : '\x1b' ∉ [marker] := by decide
    obtain ⟨before', found⟩ := reset_after alone found
    exact ih others found
  | choice d rest unmarked ih =>
    obtain ⟨-, -, others⟩ : '\x1b' ≠ marker ∧ '\x1b' ≠ d ∧ '\x1b' ∉ rest := by simpa using plain
    obtain ⟨filled, notReset, each⟩ := isColorCode_codeOf d
    rw [body_choice true rest unmarked, if_pos rfl, List.append_assoc] at found
    cases before with
    | nil =>
      -- The escape of a colour begins like the reset, but its first digit is another.
      obtain ⟨first, more, same⟩ := List.exists_cons_of_ne_nil filled
      rw [escape, same] at found
      obtain ⟨-, found⟩ := List.cons.inj found
      obtain ⟨-, found⟩ := List.cons.inj found
      obtain ⟨rfl, -⟩ := List.cons.inj found
      rw [same] at notReset
      exact absurd rfl notReset
    | cons b before =>
      have digits : '\x1b' ∉ '[' :: (codeOf d).toList ++ ['m'] := by
        have free : '\x1b' ∉ (codeOf d).toList := fun member => absurd (List.all_eq_true.mp each _ member) (by decide)
        simpa using free
      obtain ⟨before', found⟩ := reset_after digits (List.cons.inj found).2
      exact ih others found

end Plain

theorem toList_render_true (message : String) : (render message true).toList =
    body true message.toList ++ if choosesColor message.toList then reset else [] := by
  simp [render]

section Message

variable {message : String} (plain : '\x1b' ∉ message.toList)
include plain

theorem withoutEscapes_render : withoutEscapes (render message true).toList = (render message false).toList := by
  have cleared : withoutEscapes (if choosesColor message.toList then reset else []) = [] := by
    split
    · have whole := withoutEscapes_escape isEscape_reset []
      rwa [List.append_nil, withoutEscapes] at whole
    · rw [withoutEscapes]
  rw [toList_render_true, withoutEscapes_body plain, cleared, List.append_nil, toList_render_false]

/-- Escapes come of colours only. -/
theorem choosesColor_of_escape {e : List Char} (isEscape : IsEscape e) (infixed : e <:+: (render message true).toList) :
    choosesColor message.toList = true := by
  by_contra colorless
  rw [Bool.not_eq_true] at colorless
  rw [toList_render_true, body_colorless colorless, colorless, if_neg Bool.false_ne_true, List.append_nil] at infixed
  cases isEscape
  exact plain (mem_of_mem_body (infixed.subset (by simp)))

/-- The reset is only found at the end. -/
theorem reset_last {before after : List Char} (found : (render message true).toList = before ++ reset ++ after) :
    after = [] := by
  rw [toList_render_true] at found
  obtain ⟨before', same⟩ := reset_after_body plain found
  have lengths := congrArg List.length same
  split at lengths
  · simp only [List.length_append] at lengths
    exact List.eq_nil_of_length_eq_zero (by omega)
  · simp only [List.length_append, List.length_nil] at lengths
    exact List.eq_nil_of_length_eq_zero (by omega)

/-- With colours a message is what it is without them and escapes in between. If there are any, the reset is the last of
    them and none of the others. -/
theorem render_escapes :
    withoutEscapes (render message true).toList = (render message false).toList ∧
      ((∃ e, IsEscape e ∧ e <:+: (render message true).toList) → reset <:+ (render message true).toList ∧
        ∀ before after, (render message true).toList = before ++ reset ++ after → after = []) := by
  refine ⟨withoutEscapes_render plain, ?_⟩
  rintro ⟨e, isEscape, infixed⟩
  refine ⟨?_, fun before after => reset_last plain⟩
  rw [toList_render_true, choosesColor_of_escape plain isEscape infixed, if_pos rfl]
  exact List.suffix_append _ _

end Message

/-- A message with a doubled marker, a colour, a character that is none, a marker before a line end, and one at the
    end. -/
theorem render_escapes_colors :
    let message := "§§4§4red§z\n§\nx§"
    '\x1b' ∉ message.toList ∧ render message true = "§4\x1b[31mred\x1b[97m\n\x1b[97mx\x1b[0m" ∧
      withoutEscapes (render message true).toList = "§4red\nx".toList ∧
      ∀ before after, (render message true).toList = before ++ reset ++ after → after = [] := by
  intro message
  have plain : '\x1b' ∉ message.toList := by decide +kernel
  have shown : render message true = "§4\x1b[31mred\x1b[97m\n\x1b[97mx\x1b[0m" := by decide +kernel
  obtain ⟨cleared, last⟩ := render_escapes plain
  refine ⟨plain, shown, ?_, (last ⟨reset, isEscape_reset, ?_⟩).2⟩
  · rw [cleared]
    decide +kernel
  · rw [shown]
    exact ⟨"§4\x1b[31mred\x1b[97m\n\x1b[97mx".toList, [], by decide +kernel⟩

end Reckon.Markup
