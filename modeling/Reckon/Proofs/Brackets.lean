import Reckon.Token.Split

/-!
What the search for a closing bracket finds. Brackets are counted in the texts
outside of text literals (`outside`), one kind at a time (`climb?`). The closing
bracket is the first one that leaves the count at zero (`enclosed?_eq_some_iff`), and
there is none exactly when the count never falls below zero (`enclosed?_eq_none_iff`).
-/

namespace Reckon.Token

/-- The kinds of bracket. -/
inductive Bracket
  | round
  | curly
  | angle
  | square
deriving DecidableEq, Repr

/-- The bracket that opens. -/
def Bracket.opener : Bracket → String
  | round => "("
  | curly => "\x7b"
  | angle => "<"
  | square => "["

/-- The bracket that closes. -/
def Bracket.closer : Bracket → String
  | round => ")"
  | curly => "\x7d"
  | angle => ">"
  | square => "]"

/-- Whether the end of texts lies in a text literal, if their start does (`quoted`) or not. -/
def inLiteral : (quoted : Bool) → List String → Bool
  | quoted, [] => quoted
  | quoted, t :: rest => inLiteral (if t = quoteMark then !quoted else quoted) rest

/-- The texts outside of text literals. -/
def outside : (quoted : Bool) → List String → List String
  | _, [] => []
  | quoted, t :: rest =>
    if t = quoteMark then outside (!quoted) rest
    else if quoted then outside quoted rest
    else t :: outside quoted rest

/-- How many brackets of a kind are open after texts, if `depth` are before. There is no such
    number once a bracket closes that none has opened. -/
def climb? (kind : Bracket) : (depth : Nat) → List String → Option Nat
  | depth, [] => some depth
  | depth, t :: rest =>
    if t = kind.closer then
      match depth with
      | 0 => none
      | outer + 1 => climb? kind outer rest
    else if t = kind.opener then climb? kind (depth + 1) rest
    else climb? kind depth rest

/-- Text literals are closed, and outside of them the count of a kind goes from `depth` to
    `after` without a fall below zero. -/
def Climbs (kind : Bracket) (depth : Nat) (texts : List String) (after : Nat) : Prop :=
  inLiteral false texts = false ∧ climb? kind depth (outside false texts) = some after

/-- Text literals are closed, and outside of them every bracket of the kind that opens is closed
    later and every one that closes was opened before. -/
def Balanced (kind : Bracket) (texts : List String) : Prop := Climbs kind 0 texts 0

instance (kind : Bracket) (texts : List String) : Decidable (Balanced kind texts) :=
  inferInstanceAs (Decidable (_ ∧ _))

/-! ### Texts one after another -/

@[simp]
theorem texts_append (left right : List Token) : texts (left ++ right) = texts left ++ texts right := by
  simp [texts]

@[simp]
theorem texts_cons (t : Token) (rest : List Token) : texts (t :: rest) = t.text :: texts rest := rfl

@[simp]
theorem texts_nil : texts [] = [] := rfl

@[simp]
theorem inLiteral_nil (quoted : Bool) : inLiteral quoted [] = quoted := rfl

@[simp]
theorem outside_nil (quoted : Bool) : outside quoted [] = [] := rfl

@[simp]
theorem climb?_nil (kind : Bracket) (depth : Nat) : climb? kind depth [] = some depth := rfl

theorem inLiteral_append (quoted : Bool) (left right : List String) :
    inLiteral quoted (left ++ right) = inLiteral (inLiteral quoted left) right := by
  induction left generalizing quoted with
  | nil => rfl
  | cons t rest ih => simp [inLiteral, ih]

theorem outside_append (quoted : Bool) (left right : List String) :
    outside quoted (left ++ right) = outside quoted left ++ outside (inLiteral quoted left) right := by
  induction left generalizing quoted with
  | nil => rfl
  | cons t rest ih =>
    by_cases mark : t = quoteMark
    · simp [outside, inLiteral, mark, ih]
    · cases quoted with
      | true => simp [outside, inLiteral, mark, ih]
      | false => simp [outside, inLiteral, mark, ih]

/-- What follows a closed literal is outside of it. -/
theorem outside_closed {left : List String} (closed : inLiteral false left = false) (right : List String) :
    outside false (left ++ right) = outside false left ++ outside false right := by
  rw [outside_append, closed]

theorem inLiteral_closed {left : List String} (closed : inLiteral false left = false) (right : List String) :
    inLiteral false (left ++ right) = inLiteral false right := by
  rw [inLiteral_append, closed]

theorem outside_cons {t : String} (unquoted : t ≠ quoteMark) (rest : List String) :
    outside false (t :: rest) = t :: outside false rest := by
  simp [outside, unquoted]

theorem inLiteral_cons {t : String} (unquoted : t ≠ quoteMark) (quoted : Bool) (rest : List String) :
    inLiteral quoted (t :: rest) = inLiteral quoted rest := by
  simp [inLiteral, unquoted]

/-- What stands between texts that are no quotes closes its literals if the whole does. -/
theorem inLiteral_enclosed {opener closer : String} (opens : opener ≠ quoteMark) (closes : closer ≠ quoteMark)
    (inner : List String) : inLiteral false (opener :: inner ++ [closer]) = inLiteral false inner := by
  rw [List.cons_append, inLiteral_cons opens, inLiteral_append, inLiteral_cons closes, inLiteral]

/-- Between two quotes nothing is outside. -/
theorem outside_literal {inner : List String} (unquoted : quoteMark ∉ inner) (rest : List String) :
    outside true (inner ++ quoteMark :: rest) = outside false rest := by
  induction inner with
  | nil => simp [outside]
  | cons t inner ih =>
    obtain ⟨first, others⟩ : quoteMark ≠ t ∧ quoteMark ∉ inner := by simpa using unquoted
    simp [outside, Ne.symm first, ih others]

theorem inLiteral_literal {inner : List String} (unquoted : quoteMark ∉ inner) (rest : List String) :
    inLiteral true (inner ++ quoteMark :: rest) = inLiteral false rest := by
  induction inner with
  | nil => simp [inLiteral]
  | cons t inner ih =>
    obtain ⟨first, others⟩ : quoteMark ≠ t ∧ quoteMark ∉ inner := by simpa using unquoted
    simp [inLiteral, Ne.symm first, ih others]

theorem climb?_append (kind : Bracket) (depth : Nat) (left right : List String) :
    climb? kind depth (left ++ right) = (climb? kind depth left).bind fun d => climb? kind d right := by
  induction left generalizing depth with
  | nil => rfl
  | cons t rest ih =>
    simp only [List.cons_append, climb?]
    split
    · cases depth with
      | zero => rfl
      | succ outer => exact ih outer
    · split
      · exact ih (depth + 1)
      · exact ih depth

/-- A count that ends ends as well, higher up, from a higher start. -/
theorem climb?_add {kind : Bracket} {depth after : Nat} {texts : List String}
    (count : climb? kind depth texts = some after) (more : Nat) :
    climb? kind (depth + more) texts = some (after + more) := by
  induction texts generalizing depth with
  | nil =>
    obtain rfl : depth = after := by simpa using count
    rfl
  | cons t rest ih =>
    simp only [climb?] at count ⊢
    split at count
    · rename_i closes
      cases depth with
      | zero => simp at count
      | succ outer =>
        rw [if_pos closes, Nat.succ_add]
        exact ih count
    · rename_i stays
      rw [if_neg stays]
      split at count
      · rename_i opens
        rw [if_pos opens, Nat.add_right_comm]
        exact ih count
      · rename_i other
        rw [if_neg other]
        exact ih count

/-- What a count adds does not depend on where it starts. -/
theorem climb?_unique {kind : Bracket} {low high lowAfter highAfter : Nat} {texts : List String}
    (fromLow : climb? kind low texts = some lowAfter) (fromHigh : climb? kind high texts = some highAfter) :
    lowAfter + high = highAfter + low := by
  have raised := climb?_add fromLow high
  have lifted := climb?_add fromHigh low
  rw [Nat.add_comm] at lifted
  exact Option.some.inj (raised.symm.trans lifted)

/-! ### The kinds -/

@[simp]
theorem opener_ne_quote (kind : Bracket) : kind.opener ≠ quoteMark := by
  cases kind <;> decide

@[simp]
theorem closer_ne_quote (kind : Bracket) : kind.closer ≠ quoteMark := by
  cases kind <;> decide

theorem opener_ne_closer (kind other : Bracket) : kind.opener ≠ other.closer := by
  cases kind <;> cases other <;> decide

@[simp]
theorem closerOf?_opener (kind : Bracket) : closerOf? kind.opener = some kind.closer := by
  cases kind <;> decide

@[simp]
theorem closerOf?_closer (kind : Bracket) : closerOf? kind.closer = none := by
  cases kind <;> decide

/-- Only brackets and quotes open a span. -/
theorem closerOf?_eq_some {opener closer : String} (closes : closerOf? opener = some closer) :
    (∃ kind : Bracket, opener = kind.opener ∧ closer = kind.closer) ∨
      (opener = quoteMark ∧ closer = quoteMark) := by
  simp only [closerOf?] at closes
  split at closes
  · exact .inl ⟨.round, ‹_›, (Option.some.inj closes).symm⟩
  · split at closes
    · exact .inl ⟨.curly, ‹_›, (Option.some.inj closes).symm⟩
    · split at closes
      · exact .inl ⟨.angle, ‹_›, (Option.some.inj closes).symm⟩
      · split at closes
        · exact .inl ⟨.square, ‹_›, (Option.some.inj closes).symm⟩
        · split at closes
          · exact .inr ⟨‹_›, (Option.some.inj closes).symm⟩
          · cases closes

@[simp]
theorem climb?_opener (kind : Bracket) (depth : Nat) (rest : List String) :
    climb? kind depth (kind.opener :: rest) = climb? kind (depth + 1) rest := by
  simp [climb?, opener_ne_closer]

@[simp]
theorem climb?_closer (kind : Bracket) (depth : Nat) (rest : List String) :
    climb? kind (depth + 1) (kind.closer :: rest) = climb? kind depth rest := by
  simp [climb?]

@[simp]
theorem climb?_closer_zero (kind : Bracket) (rest : List String) :
    climb? kind 0 (kind.closer :: rest) = none := by
  simp [climb?]

theorem climb?_other {kind : Bracket} {t : String} (opens : t ≠ kind.opener) (closes : t ≠ kind.closer)
    (depth : Nat) (rest : List String) : climb? kind depth (t :: rest) = climb? kind depth rest := by
  simp [climb?, opens, closes]

/-! ### The closing bracket -/

/-- Tokens that close no bracket of the kind but those they open are passed over. -/
theorem enclosed?_append {kind : Bracket} {nesting after : Nat} {quoted : Bool} {inner : List Token}
    (count : climb? kind nesting (outside quoted (texts inner)) = some after) (rest : List Token) :
    enclosed? kind.opener kind.closer nesting quoted (inner ++ rest) =
      (enclosed? kind.opener kind.closer after (inLiteral quoted (texts inner)) rest).map
        fun found => { found with inner := inner ++ found.inner } := by
  induction inner generalizing nesting quoted with
  | nil =>
    obtain rfl : nesting = after := by simpa using count
    cases h : enclosed? kind.opener kind.closer nesting quoted rest <;> simp [h]
  | cons t inner ih =>
    have step {n : Nat} {q : Bool} (tail : climb? kind n (outside q (texts inner)) = some after) :
        (enclosed? kind.opener kind.closer n q (inner ++ rest)).map (.push t) =
          (enclosed? kind.opener kind.closer after (inLiteral q (texts inner)) rest).map
            fun found => { found with inner := t :: inner ++ found.inner } := by
      rw [ih tail, Option.map_map]
      rfl
    cases quoted with
    | true =>
      by_cases mark : t.text = quoteMark
      · simp only [texts_cons, outside, mark, if_true] at count
        simpa [enclosed?, inLiteral, mark] using step count
      · simp only [texts_cons, outside, mark, if_false, if_true] at count
        simpa [enclosed?, inLiteral, mark] using step count
    | false =>
      by_cases mark : t.text = quoteMark
      · simp only [texts_cons, outside, mark, if_true] at count
        simpa [enclosed?, inLiteral, mark, Ne.symm (closer_ne_quote kind), Ne.symm (opener_ne_quote kind)]
          using step count
      · rw [texts_cons, outside_cons mark] at count
        simp only [climb?] at count
        split at count
        · rename_i closes
          cases nesting with
          | zero => simp at count
          | succ outer => simpa [enclosed?, inLiteral, mark, closes] using step count
        · rename_i stays
          split at count
          · rename_i opens
            simpa [enclosed?, inLiteral, mark, stays, opens, opener_ne_closer] using step count
          · rename_i other
            simpa [enclosed?, inLiteral, mark, stays, other] using step count

/-- The bracket that is found closes, and before it the count ends at zero. -/
theorem enclosed?_closes {kind : Bracket} {nesting : Nat} {quoted : Bool} {tokens : List Token}
    {found : Enclosed} (search : enclosed? kind.opener kind.closer nesting quoted tokens = some found) :
    found.closer.text = kind.closer ∧ inLiteral quoted (texts found.inner) = false ∧
      climb? kind nesting (outside quoted (texts found.inner)) = some 0 := by
  induction tokens generalizing nesting quoted found with
  | nil => simp [enclosed?] at search
  | cons t rest ih =>
    cases quoted with
    | true =>
      rw [enclosed?] at search
      obtain ⟨inner, tail, rfl⟩ := Option.map_eq_some_iff.mp search
      obtain ⟨closes, closed, count⟩ := ih tail
      by_cases mark : t.text = quoteMark
      · simp [mark] at closed count
        exact ⟨closes, by simpa [Enclosed.push, inLiteral, mark] using closed,
          by simpa [Enclosed.push, outside, mark] using count⟩
      · simp [mark] at closed count
        exact ⟨closes, by simpa [Enclosed.push, inLiteral, mark] using closed,
          by simpa [Enclosed.push, outside, mark] using count⟩
    | false =>
      unfold enclosed? at search
      split at search
      · rename_i closing
        cases nesting with
        | zero =>
          cases search
          exact ⟨closing, rfl, rfl⟩
        | succ outer =>
          obtain ⟨inner, tail, rfl⟩ := Option.map_eq_some_iff.mp search
          obtain ⟨closes, closed, count⟩ := ih tail
          have mark : t.text ≠ quoteMark := closing ▸ closer_ne_quote kind
          refine ⟨closes, by simpa [Enclosed.push, inLiteral, mark] using closed, ?_⟩
          rw [Enclosed.push, texts_cons, outside_cons mark, closing, climb?_closer]
          exact count
      · rename_i stays
        split at search
        · rename_i opening
          obtain ⟨inner, tail, rfl⟩ := Option.map_eq_some_iff.mp search
          obtain ⟨closes, closed, count⟩ := ih tail
          have mark : t.text ≠ quoteMark := opening ▸ opener_ne_quote kind
          refine ⟨closes, by simpa [Enclosed.push, inLiteral, mark] using closed, ?_⟩
          rw [Enclosed.push, texts_cons, outside_cons mark, opening, climb?_opener]
          exact count
        · rename_i other
          obtain ⟨inner, tail, rfl⟩ := Option.map_eq_some_iff.mp search
          obtain ⟨closes, closed, count⟩ := ih tail
          by_cases mark : t.text = quoteMark
          · simp [mark] at closed count
            exact ⟨closes, by simpa [Enclosed.push, inLiteral, mark] using closed,
              by simpa [Enclosed.push, outside, mark] using count⟩
          · simp [mark] at closed count
            refine ⟨closes, by simpa [Enclosed.push, inLiteral, mark] using closed, ?_⟩
            rw [Enclosed.push, texts_cons, outside_cons mark, climb?_other other stays]
            exact count

/-- The closing bracket is the first one outside of literals before which the count is zero. -/
theorem enclosed?_eq_some_iff (kind : Bracket) {tokens : List Token} {found : Enclosed} :
    enclosed? kind.opener kind.closer 0 false tokens = some found ↔
      tokens = found.inner ++ found.closer :: found.rest ∧ found.closer.text = kind.closer ∧
        Balanced kind (texts found.inner) := by
  constructor
  · intro search
    exact ⟨enclosed?_eq_some search, enclosed?_closes search⟩
  · rintro ⟨rfl, closes, closed, count⟩
    rw [enclosed?_append count, closed]
    simp [enclosed?, closes]

private theorem enclosed?_of_fall {kind : Bracket} {nesting : Nat} {quoted : Bool} {tokens : List Token}
    (fall : climb? kind nesting (outside quoted (texts tokens)) = none) :
    enclosed? kind.opener kind.closer nesting quoted tokens ≠ none := by
  induction tokens generalizing nesting quoted with
  | nil => simp at fall
  | cons t rest ih =>
    unfold enclosed?
    cases quoted with
    | true =>
      by_cases mark : t.text = quoteMark
      · simp [outside, mark] at fall
        simpa [mark] using ih fall
      · simp [outside, mark] at fall
        simpa [mark] using ih fall
    | false =>
      by_cases mark : t.text = quoteMark
      · simp [outside, mark] at fall
        simpa [mark, Ne.symm (closer_ne_quote kind), Ne.symm (opener_ne_quote kind)] using ih fall
      · rw [texts_cons, outside_cons mark] at fall
        simp only [climb?] at fall
        split at fall
        · rename_i closes
          cases nesting with
          | zero => simp [closes]
          | succ outer => simpa [closes] using ih fall
        · rename_i stays
          split at fall
          · rename_i opens
            simpa [stays, opens, opener_ne_closer] using ih fall
          · rename_i other
            simpa [stays, other, mark] using ih fall

/-- No bracket closes exactly when the count never falls below zero. -/
theorem enclosed?_eq_none_iff {kind : Bracket} {tokens : List Token} :
    enclosed? kind.opener kind.closer 0 false tokens = none ↔
      ∃ after, climb? kind 0 (outside false (texts tokens)) = some after := by
  constructor
  · intro missing
    cases count : climb? kind 0 (outside false (texts tokens)) with
    | some after => exact ⟨after, rfl⟩
    | none => exact absurd missing (enclosed?_of_fall count)
  · rintro ⟨after, count⟩
    have passed := enclosed?_append count []
    simpa [enclosed?] using passed

/-- A text literal ends at the next quote. -/
theorem enclosed?_literal_iff {tokens : List Token} {found : Enclosed} :
    enclosed? quoteMark quoteMark 0 false tokens = some found ↔
      tokens = found.inner ++ found.closer :: found.rest ∧ found.closer.text = quoteMark ∧
        quoteMark ∉ texts found.inner := by
  induction tokens generalizing found with
  | nil => simp [enclosed?]
  | cons t rest ih =>
    rw [enclosed?]
    by_cases mark : t.text = quoteMark
    · simp only [mark, if_true]
      constructor
      · intro search
        cases search
        simp [mark]
      · rintro ⟨same, closes, unquoted⟩
        obtain ⟨inner, closer, after⟩ := found
        cases inner with
        | nil => simp_all
        | cons first inner =>
          obtain ⟨rfl, -⟩ := List.cons.inj same
          simp [mark] at unquoted
    · simp only [mark, if_false, decide_false]
      constructor
      · intro search
        obtain ⟨inner, tail, rfl⟩ := Option.map_eq_some_iff.mp search
        obtain ⟨same, closes, unquoted⟩ := ih.mp tail
        exact ⟨by simp [Enclosed.push, same], closes, by simp [Enclosed.push, Ne.symm mark, unquoted]⟩
      · rintro ⟨same, closes, unquoted⟩
        obtain ⟨inner, closer, after⟩ := found
        cases inner with
        | nil =>
          obtain ⟨rfl, -⟩ := List.cons.inj same
          exact absurd closes mark
        | cons first inner =>
          obtain ⟨rfl, same⟩ := List.cons.inj same
          have others : quoteMark ∉ texts inner := by
            intro member
            exact unquoted (by simp [member])
          have tail : enclosed? quoteMark quoteMark 0 false rest = some ⟨inner, closer, after⟩ :=
            ih.mpr ⟨same, closes, others⟩
          rw [tail]
          rfl

/-! ### Counts in parts -/

theorem Climbs.append {kind : Bracket} {depth middle after : Nat} {left right : List String}
    (first : Climbs kind depth left middle) (second : Climbs kind middle right after) :
    Climbs kind depth (left ++ right) after := by
  refine ⟨by rw [inLiteral_closed first.1, second.1], ?_⟩
  rw [outside_closed first.1, climb?_append, first.2]
  exact second.2

/-- Texts that close their literals cut a count in two. -/
theorem Climbs.cut {kind : Bracket} {depth after : Nat} {left right : List String}
    (whole : Climbs kind depth (left ++ right) after) (closed : inLiteral false left = false) :
    ∃ middle, Climbs kind depth left middle ∧ Climbs kind middle right after := by
  obtain ⟨end_, count⟩ := whole
  rw [inLiteral_closed closed] at end_
  rw [outside_closed closed, climb?_append] at count
  obtain ⟨middle, first, second⟩ := Option.bind_eq_some_iff.mp count
  exact ⟨middle, ⟨closed, first⟩, ⟨end_, second⟩⟩

theorem Climbs.add {kind : Bracket} {depth after : Nat} {texts : List String}
    (count : Climbs kind depth texts after) (more : Nat) : Climbs kind (depth + more) texts (after + more) :=
  ⟨count.1, climb?_add count.2 more⟩

theorem Climbs.unique {kind : Bracket} {low high lowAfter highAfter : Nat} {texts : List String}
    (fromLow : Climbs kind low texts lowAfter) (fromHigh : Climbs kind high texts highAfter) :
    lowAfter + high = highAfter + low :=
  climb?_unique fromLow.2 fromHigh.2

theorem Balanced.climbs {kind : Bracket} {texts : List String} (balanced : Balanced kind texts) (depth : Nat) :
    Climbs kind depth texts depth := by
  simpa using Climbs.add balanced depth

theorem climbs_nil (kind : Bracket) (depth : Nat) : Climbs kind depth [] depth := ⟨rfl, rfl⟩

theorem climbs_opener (kind : Bracket) (depth : Nat) : Climbs kind depth [kind.opener] (depth + 1) :=
  ⟨by simp [inLiteral], by rw [outside_cons (opener_ne_quote kind), climb?_opener]; rfl⟩

theorem climbs_closer (kind : Bracket) (depth : Nat) : Climbs kind (depth + 1) [kind.closer] depth :=
  ⟨by simp [inLiteral], by rw [outside_cons (closer_ne_quote kind), climb?_closer]; rfl⟩

/-- A text that neither opens nor closes leaves the count as it is. -/
theorem climbs_other {kind : Bracket} {t : String} (unquoted : t ≠ quoteMark) (opens : t ≠ kind.opener)
    (closes : t ≠ kind.closer) (depth : Nat) : Climbs kind depth [t] depth :=
  ⟨by simp [inLiteral, unquoted], by rw [outside_cons unquoted, climb?_other opens closes]; rfl⟩

/-- A text in front that leaves the count as it is can be left out. -/
theorem Climbs.tail {kind : Bracket} {depth after : Nat} {text : String} {rest : List String}
    (single : Climbs kind depth [text] depth) (whole : Climbs kind depth (text :: rest) after) :
    Climbs kind depth rest after := by
  rw [← List.singleton_append] at whole
  obtain ⟨middle, first, others⟩ := whole.cut single.1
  have same := first.unique single
  obtain rfl : middle = depth := by omega
  exact others

/-- Texts at both ends that leave the count as it is can be left out. -/
theorem Climbs.between {kind : Bracket} {depth after : Nat} {opener closer : String} {inner : List String}
    (closed : inLiteral false inner = false) (front : ∀ depth, Climbs kind depth [opener] depth)
    (back : ∀ depth, Climbs kind depth [closer] depth) (whole : Climbs kind depth (opener :: inner ++ [closer]) after) :
    Climbs kind depth inner after := by
  obtain ⟨middle, inside, last⟩ := ((front depth).tail whole).cut closed
  have same := last.unique (back middle)
  obtain rfl : after = middle := by omega
  exact inside

theorem Balanced.append {kind : Bracket} {left right : List String} (first : Balanced kind left)
    (second : Balanced kind right) : Balanced kind (left ++ right) :=
  Climbs.append first second

theorem opener_ne_opener {kind other : Bracket} (different : kind ≠ other) : kind.opener ≠ other.opener := by
  cases kind <;> cases other <;> first | decide | exact absurd rfl different

theorem closer_ne_closer {kind other : Bracket} (different : kind ≠ other) : kind.closer ≠ other.closer := by
  cases kind <;> cases other <;> first | decide | exact absurd rfl different

/-- Brackets of any kind around balanced texts. -/
theorem Balanced.enclosed {kind : Bracket} {inner : List String} (balanced : Balanced kind inner) (other : Bracket) :
    Balanced kind (other.opener :: inner ++ [other.closer]) := by
  by_cases same : other = kind
  · subst same
    exact ((climbs_opener other 0).append (balanced.climbs 1)).append (climbs_closer other 0)
  · have opener := climbs_other (opener_ne_quote other) (opener_ne_opener same) (opener_ne_closer other kind) 0
    have closer := climbs_other (closer_ne_quote other) (Ne.symm (opener_ne_closer kind other))
      (closer_ne_closer same) 0
    exact (opener.append balanced).append closer

/-- What holds of texts one after another and of a comma holds of parts with commas between them. -/
theorem intercalate_induction {P : List String → Prop} (nil : P [])
    (append : ∀ {left right}, P left → P right → P (left ++ right)) (comma : P [","]) {words : List (List String)}
    (each : ∀ w ∈ words, P w) : P ([","].intercalate words) := by
  induction words with
  | nil => exact nil
  | cons first rest ih =>
    have others := ih fun w member => each w (by simp [member])
    cases rest with
    | nil => simpa using each first (by simp)
    | cons second rest =>
      rw [List.intercalate_cons_cons]
      exact append (append (each first (by simp)) comma) others

theorem balanced_intercalate {kind : Bracket} {words : List (List String)} (each : ∀ w ∈ words, Balanced kind w) :
    Balanced kind ([","].intercalate words) :=
  intercalate_induction (climbs_nil kind 0) Balanced.append (by cases kind <;> decide) each

/-! ### Spans -/

/-- An opening bracket, what it encloses and the bracket that closes it. -/
structure Span (kind : Bracket) (opener : Token) (inner : List Token) (closer : Token) : Prop where
  opens : opener.text = kind.opener
  closes : closer.text = kind.closer
  balanced : Balanced kind (texts inner)

theorem Span.texts_eq {kind : Bracket} {opener closer : Token} {inner : List Token}
    (span : Span kind opener inner closer) :
    Token.texts (opener :: inner ++ [closer]) = kind.opener :: Token.texts inner ++ [kind.closer] := by
  simp [span.opens, span.closes]

theorem Span.texts_call {kind : Bracket} {opener closer : Token} {inner : List Token}
    (span : Span kind opener inner closer) (name : Token) :
    Token.texts (name :: opener :: inner ++ [closer]) =
      [name.text] ++ (kind.opener :: Token.texts inner ++ [kind.closer]) :=
  congrArg (name.text :: ·) span.texts_eq

theorem Span.inner_eq {kind : Bracket} {opener closer : Token} {inner : List Token} {words : List String}
    (span : Span kind opener inner closer)
    (same : Token.texts (opener :: inner ++ [closer]) = kind.opener :: words ++ [kind.closer]) :
    Token.texts inner = words := by
  rw [span.texts_eq] at same
  exact (List.append_inj' (List.cons.inj same).2 rfl).1

/-- A quote, what stands in the literal and the next quote. -/
structure Literal (opener : Token) (inner : List Token) (closer : Token) : Prop where
  opens : opener.text = quoteMark
  closes : closer.text = quoteMark
  unquoted : quoteMark ∉ texts inner

theorem Literal.closed {opener closer : Token} {inner : List Token} (literal : Literal opener inner closer) :
    inLiteral false (texts (opener :: inner ++ [closer])) = false := by
  simp only [List.cons_append, texts_cons, texts_append, texts_nil, literal.opens, literal.closes]
  exact inLiteral_literal literal.unquoted []

/-- Nothing of a literal is outside of it. -/
theorem Literal.outside_eq {opener closer : Token} {inner : List Token} (literal : Literal opener inner closer) :
    outside false (texts (opener :: inner ++ [closer])) = [] := by
  simp only [List.cons_append, texts_cons, texts_append, texts_nil, literal.opens, literal.closes]
  exact outside_literal literal.unquoted []

theorem Literal.balanced {opener closer : Token} {inner : List Token} (literal : Literal opener inner closer)
    (kind : Bracket) : Balanced kind (texts (opener :: inner ++ [closer])) :=
  ⟨literal.closed, by rw [literal.outside_eq]; rfl⟩

theorem wrapped?_eq_some_iff (kind : Bracket) {tokens inner : List Token} {last : Token} :
    wrapped? kind.opener kind.closer tokens = some (inner, last) ↔
      ∃ first, tokens = first :: inner ++ [last] ∧ Span kind first inner last := by
  constructor
  · intro wrapped
    cases tokens with
    | nil => simp [wrapped?] at wrapped
    | cons first rest =>
      simp only [wrapped?] at wrapped
      split at wrapped
      · rename_i opens
        split at wrapped
        · rename_i search
          cases wrapped
          obtain ⟨same, closes, balanced⟩ := (enclosed?_eq_some_iff kind).mp search
          exact ⟨first, by rw [same]; rfl, opens, closes, balanced⟩
        · cases wrapped
      · cases wrapped
  · rintro ⟨first, rfl, opens, closes, balanced⟩
    have search : enclosed? kind.opener kind.closer 0 false (inner ++ [last]) = some ⟨inner, last, []⟩ :=
      (enclosed?_eq_some_iff kind).mpr ⟨rfl, closes, balanced⟩
    simp [wrapped?, opens, search]

theorem wrapped?_literal_iff {tokens inner : List Token} {last : Token} :
    wrapped? quoteMark quoteMark tokens = some (inner, last) ↔
      ∃ first, tokens = first :: inner ++ [last] ∧ Literal first inner last := by
  constructor
  · intro wrapped
    cases tokens with
    | nil => simp [wrapped?] at wrapped
    | cons first rest =>
      simp only [wrapped?] at wrapped
      split at wrapped
      · rename_i opens
        split at wrapped
        · rename_i search
          cases wrapped
          obtain ⟨same, closes, unquoted⟩ := enclosed?_literal_iff.mp search
          exact ⟨first, by rw [same]; rfl, opens, closes, unquoted⟩
        · cases wrapped
      · cases wrapped
  · rintro ⟨first, rfl, opens, closes, unquoted⟩
    have search : enclosed? quoteMark quoteMark 0 false (inner ++ [last]) = some ⟨inner, last, []⟩ :=
      enclosed?_literal_iff.mpr ⟨rfl, closes, unquoted⟩
    simp [wrapped?, opens, search]

end Reckon.Token
