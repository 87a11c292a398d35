import Reckon.Proofs.Operands

/-!
What a split at separators keeps together. A scan comes to the places outside of brackets and text literals if it passes
over a token that opens nothing, or over a whole span, from the first place on (`Token.TopLevel`). A split cuts at the
separators that stand at these places and nowhere else (`Token.Grouped.begins_iff`), so every span stays in one group,
and a group is not cut again (`Token.split_partition`).
-/

namespace Reckon.Token

/-! ### Places outside of brackets -/

/-- The place of the bracket or quote that closes the one at a place. -/
def spanEnd? (tokens : List Token) (start : Nat) : Option Nat :=
  tokens[start]?.bind fun opener =>
    (closerOf? opener.text).bind fun closer => matchBracket? tokens start opener.text closer

/-- The places that a scan comes to outside of brackets and text literals. From such a place it passes over a token that
    opens nothing, or over a span up to its end. A bracket or quote that is never closed ends the scan. -/
inductive TopLevel (tokens : List Token) : Nat → Prop
  | first : TopLevel tokens 0
  | single {i : Nat} {t : Token} (reached : TopLevel tokens i) (here : tokens[i]? = some t)
      (plain : closerOf? t.text = none) : TopLevel tokens (i + 1)
  | span {i j : Nat} (reached : TopLevel tokens i) (closes : spanEnd? tokens i = some j) : TopLevel tokens (j + 1)

/-- What a scan passes over at once: a token that opens nothing, or a span. -/
inductive Stride : List Token → Prop
  | single {t : Token} (plain : closerOf? t.text = none) : Stride [t]
  | span {opener closer : Token} {inner : List Token} (encloses : Encloses opener inner closer) :
      Stride (opener :: inner ++ [closer])

section Scan

variable {front rest : List Token}

theorem spanEnd?_cons (t : Token) (rest : List Token) :
    spanEnd? (t :: rest) 0 = (closerOf? t.text).bind fun closer =>
      (enclosed? t.text closer 0 false rest).map fun found => 1 + found.inner.length := by
  simp [spanEnd?, matchBracket?]

theorem getElem?_behind (front rest : List Token) (i : Nat) : (front ++ rest)[front.length + i]? = rest[i]? := by
  rw [List.getElem?_append_right (Nat.le_add_right _ _), Nat.add_sub_cancel_left]

/-- Behind other tokens a span ends as far behind them. -/
theorem spanEnd?_append (front rest : List Token) (i : Nat) :
    spanEnd? (front ++ rest) (front.length + i) = (spanEnd? rest i).map (front.length + ·) := by
  have behind : (((front.length + i : Nat) : Int) + 1).toNat = front.length + (i + 1) := by omega
  have inside : ((i : Int) + 1).toNat = i + 1 := by omega
  simp only [spanEnd?, matchBracket?, getElem?_behind, behind, inside, List.drop_length_add_append, Option.map_bind,
    Option.map_map, Function.comp_def, Nat.add_assoc]

theorem spanEnd?_within {i j : Nat} (closes : spanEnd? (front ++ rest) (front.length + i) = some j) :
    ∃ last, spanEnd? rest i = some last ∧ front.length + last = j :=
  Option.map_eq_some_iff.mp (by rwa [← spanEnd?_append])

/-- A span at the front ends with what is passed over. -/
theorem Stride.spanEnd?_eq (stride : Stride front) {j : Nat} (closes : spanEnd? (front ++ rest) 0 = some j) :
    j + 1 = front.length := by
  cases stride with
  | single plain => simp [spanEnd?_cons, plain] at closes
  | @span opener closer inner encloses =>
    obtain ⟨text, opens, search⟩ := encloses
    obtain rfl : 1 + inner.length = j := by simpa [spanEnd?_cons, opens, search] using closes
    simp only [List.cons_append, List.length_cons, List.length_append, List.length_nil]
    omega

/-- If a token at the front opens nothing, it is all that is passed over. -/
theorem Stride.eq_single (stride : Stride front) {t : Token} (here : (front ++ rest)[0]? = some t)
    (plain : closerOf? t.text = none) : front = [t] := by
  cases stride with
  | single _ =>
    obtain rfl : _ = t := by simpa using here
    rfl
  | span encloses =>
    obtain rfl : _ = t := by simpa using here
    obtain ⟨text, opens, -⟩ := encloses
    rw [plain] at opens
    cases opens

/-- The scan comes to the place behind what it passes over. -/
theorem Stride.topLevel (stride : Stride front) (rest : List Token) : TopLevel (front ++ rest) front.length := by
  cases stride with
  | single plain => exact .single .first rfl plain
  | @span opener closer inner encloses =>
    obtain ⟨text, opens, search⟩ := encloses
    have closes : spanEnd? (opener :: inner ++ [closer] ++ rest) 0 = some (inner.length + 1) := by
      simp [spanEnd?_cons, opens, search, Nat.add_comm]
    simpa using TopLevel.span .first closes

/-- The scan comes to the first place, and then to those of what follows. -/
theorem topLevel_append_iff (stride : Stride front) {i : Nat} :
    TopLevel (front ++ rest) i ↔ i = 0 ∨ ∃ k, i = front.length + k ∧ TopLevel rest k := by
  constructor
  · intro reached
    -- From the first place there is only one way on, to the place behind the front.
    induction reached with
    | first => exact .inl rfl
    | single _ here plain ih =>
      rcases ih with rfl | ⟨k, rfl, reached⟩
      · obtain rfl := stride.eq_single here plain
        exact .inr ⟨0, rfl, .first⟩
      · rw [getElem?_behind] at here
        exact .inr ⟨k + 1, rfl, .single reached here plain⟩
    | span _ closes ih =>
      rcases ih with rfl | ⟨k, rfl, reached⟩
      · exact .inr ⟨0, stride.spanEnd?_eq closes, .first⟩
      · obtain ⟨last, within, rfl⟩ := spanEnd?_within closes
        exact .inr ⟨last + 1, rfl, .span reached within⟩
  · rintro (rfl | ⟨k, rfl, reached⟩)
    · exact .first
    · induction reached with
      | first => exact stride.topLevel rest
      | single _ here plain ih => exact .single ih ((getElem?_behind _ _ _).trans here) plain
      | span _ closes ih => exact .span ih (by rw [spanEnd?_append, closes]; rfl)

/-- The scan ends at a bracket or quote that is never closed. -/
theorem topLevel_unclosed {t : Token} {closer : String} (opens : closerOf? t.text = some closer)
    (missing : enclosed? t.text closer 0 false rest = none) {i : Nat} (reached : TopLevel (t :: rest) i) : i = 0 := by
  induction reached with
  | first => rfl
  | single _ here plain ih =>
    subst ih
    obtain rfl : t = _ := by simpa using here
    rw [plain] at opens
    cases opens
  | span _ closes ih =>
    subst ih
    simp [spanEnd?_cons, opens, missing] at closes

end Scan

/-! ### Cuts -/

/-- The groups of tokens with cuts at the separators that a scan comes to. What it passes over goes to the group that
    follows, and so does a bracket or quote that is never closed, with all behind it. -/
inductive Grouped (separator : String) : List Token → List (List Token) → Prop
  | done : Grouped separator [] [[]]
  | unclosed {t : Token} {rest : List Token} {closer : String} (opens : closerOf? t.text = some closer)
      (missing : enclosed? t.text closer 0 false rest = none) : Grouped separator (t :: rest) [t :: rest]
  | separator {t : Token} {rest : List Token} {groups : List (List Token)} (separates : t.text = separator)
      (plain : closerOf? t.text = none) (others : Grouped separator rest groups) :
      Grouped separator (t :: rest) ([] :: groups)
  | stride {front rest group : List Token} {groups : List (List Token)} (stride : Stride front)
      (other : texts front ≠ [separator]) (others : Grouped separator rest (group :: groups)) :
      Grouped separator (front ++ rest) ((front ++ group) :: groups)

theorem grouped_intoFirst {separator : String} {front rest : List Token} (stride : Stride front)
    (other : texts front ≠ [separator]) (others : Grouped separator rest (split separator rest)) :
    Grouped separator (front ++ rest) (intoFirst front (split separator rest)) := by
  obtain ⟨group, groups, same⟩ := List.exists_cons_of_ne_nil (split_ne_nil separator rest)
  rw [same] at others ⊢
  exact .stride stride other others

/-- A split cuts at the separators that the scan comes to. -/
theorem grouped_split (separator : String) (tokens : List Token) :
    Grouped separator tokens (split separator tokens) := by
  fun_induction split separator tokens with
  | case1 => exact .done
  | case2 t rest closer opens inner last after found ih =>
    have whole : t :: rest = t :: inner ++ [last] ++ after := by simp [enclosed?_eq_some found]
    rw [whole]
    exact grouped_intoFirst (.span (encloses_of_search opens found)) (by simp) ih
  | case3 t rest closer opens missing => exact .unclosed opens missing
  | case4 t rest plain separates ih => exact .separator separates plain ih
  | case5 t rest plain other ih => exact grouped_intoFirst (.single plain) (by simpa using other) ih

/-- What is passed over is not cut, whatever follows it. -/
theorem Stride.split_append {separator : String} {front : List Token} (stride : Stride front)
    (other : texts front ≠ [separator]) (rest : List Token) :
    split separator (front ++ rest) = intoFirst front (split separator rest) := by
  cases stride with
  | single plain => exact split_single plain (by simpa using other) rest
  | span encloses => simpa using split_encloses encloses separator rest

/-! ### Groups at their places -/

/-- A group of tokens and the place of its first token. -/
structure Placed where
  first : Nat
  group : List Token
deriving DecidableEq, Repr

/-- The same group with more tokens before it. -/
def Placed.behind (offset : Nat) (p : Placed) : Placed := { p with first := offset + p.first }

@[simp]
theorem Placed.behind_first (offset : Nat) (p : Placed) : (p.behind offset).first = offset + p.first := rfl

@[simp]
theorem Placed.behind_group (offset : Nat) (p : Placed) : (p.behind offset).group = p.group := rfl

/-- Groups at their places from a first one on, with one token between each two. -/
def placed : (first : Nat) → List (List Token) → List Placed
  | _, [] => []
  | first, group :: groups => ⟨first, group⟩ :: placed (first + group.length + 1) groups

/-- The tokens from one place to another are in one group. -/
def Together (groups : List (List Token)) (i j : Nat) : Prop :=
  ∃ p ∈ placed 0 groups, p.first ≤ i ∧ j < p.first + p.group.length

/-- A group begins behind the token at a place. -/
def Begins (groups : List (List Token)) (i : Nat) : Prop := ∃ p ∈ placed 0 groups, p.first = i + 1

section Places

variable {front group : List Token} {groups : List (List Token)} {i j : Nat}

theorem placed_add (offset first : Nat) (groups : List (List Token)) :
    placed (offset + first) groups = (placed first groups).map (Placed.behind offset) := by
  induction groups generalizing first with
  | nil => rfl
  | cons group groups ih => simp [placed, Placed.behind, Nat.add_assoc, ih]

/-- All groups but the first one stand behind it and a separator. -/
theorem mem_placed_cons {p : Placed} :
    p ∈ placed 0 (group :: groups) ↔ p = ⟨0, group⟩ ∨ ∃ q ∈ placed 0 groups, q.behind (group.length + 1) = p := by
  rw [placed, List.mem_cons, ← List.mem_map, ← placed_add, Nat.zero_add, Nat.add_zero]

/-- A group is what stands at its place. -/
theorem Parted.extract_eq {separator : String} {tokens : List Token} (parted : Parted separator tokens groups)
    {p : Placed} (member : p ∈ placed 0 groups) : tokens.extract p.first (p.first + p.group.length) = p.group := by
  induction parted generalizing p with
  | last group =>
    obtain rfl : p = ⟨0, group⟩ := by simpa [placed] using member
    simp
  | @more t rest groups group separates others ih =>
    rcases mem_placed_cons.mp member with rfl | ⟨q, other, rfl⟩
    · simp
    · have drop : (group ++ t :: rest).drop (group.length + 1 + q.first) = rest.drop q.first := by
        rw [Nat.add_assoc, List.drop_length_add_append, Nat.add_comm, List.drop_succ_cons]
      have tail := ih other
      simp only [List.extract_eq_take_drop, Nat.add_sub_cancel_left, Placed.behind_first, Placed.behind_group] at tail ⊢
      rw [drop, tail]

/-- Tokens at the front of the first group move all others. -/
theorem Together.append (front : List Token) (together : Together (group :: groups) i j) :
    Together ((front ++ group) :: groups) (front.length + i) (front.length + j) := by
  obtain ⟨p, member, first, last⟩ := together
  rcases mem_placed_cons.mp member with rfl | ⟨q, other, rfl⟩
  · refine ⟨_, mem_placed_cons.mpr (.inl rfl), Nat.zero_le _, ?_⟩
    simp only [List.length_append] at last ⊢
    omega
  · refine ⟨_, mem_placed_cons.mpr (.inr ⟨q, other, rfl⟩), ?_⟩
    simp only [Placed.behind_first, Placed.behind_group, List.length_append] at first last ⊢
    omega

/-- A separator at the front moves all tokens. -/
theorem Together.behind (together : Together groups i j) : Together ([] :: groups) (1 + i) (1 + j) := by
  obtain ⟨p, member, first, last⟩ := together
  refine ⟨p.behind 1, mem_placed_cons.mpr (.inr ⟨p, member, rfl⟩), ?_, ?_⟩
  · simpa using first
  · simpa [Nat.add_assoc] using last

theorem begins_cons : Begins (group :: groups) i ↔ ∃ q ∈ placed 0 groups, group.length + q.first = i := by
  constructor
  · rintro ⟨p, member, first⟩
    rcases mem_placed_cons.mp member with rfl | ⟨q, other, rfl⟩
    · cases first
    · rw [Placed.behind_first] at first
      exact ⟨q, other, by omega⟩
  · rintro ⟨q, other, rfl⟩
    refine ⟨_, mem_placed_cons.mpr (.inr ⟨q, other, rfl⟩), ?_⟩
    rw [Placed.behind_first]
    omega

/-- No group begins in tokens at the front of the first one. -/
theorem begins_append_iff :
    Begins ((front ++ group) :: groups) i ↔ ∃ k, i = front.length + k ∧ Begins (group :: groups) k := by
  simp only [begins_cons, List.length_append, Nat.add_assoc]
  constructor
  · rintro ⟨q, other, rfl⟩
    exact ⟨_, rfl, q, other, rfl⟩
  · rintro ⟨_, rfl, q, other, rfl⟩
    exact ⟨q, other, rfl⟩

/-- Behind a separator at the front a group begins. -/
theorem begins_nil_iff :
    Begins ([] :: group :: groups) i ↔ i = 0 ∨ ∃ k, i = 1 + k ∧ Begins (group :: groups) k := by
  simp only [begins_cons, List.length_nil, Nat.zero_add]
  constructor
  · rintro ⟨p, member, rfl⟩
    rcases mem_placed_cons.mp member with rfl | ⟨q, other, rfl⟩
    · exact .inl rfl
    · refine .inr ⟨_, ?_, q, other, rfl⟩
      rw [Placed.behind_first]
      omega
  · rintro (rfl | ⟨_, rfl, q, other, rfl⟩)
    · exact ⟨_, mem_placed_cons.mpr (.inl rfl), rfl⟩
    · refine ⟨_, mem_placed_cons.mpr (.inr ⟨q, other, rfl⟩), ?_⟩
      rw [Placed.behind_first]
      omega

end Places

/-! ### What a split keeps together -/

/-- A separator stands at a place that the scan comes to. -/
structure Separates (separator : String) (tokens : List Token) (i : Nat) : Prop where
  reached : TopLevel tokens i
  here : tokens[i]?.map Token.text = some separator
  plain : closerOf? separator = none

/-- No separator stands in what is passed over, unless it is one. -/
theorem separates_append_iff {separator : String} {front rest : List Token} (stride : Stride front) {i : Nat} :
    Separates separator (front ++ rest) i ↔
      (i = 0 ∧ texts front = [separator] ∧ closerOf? separator = none) ∨
        ∃ k, i = front.length + k ∧ Separates separator rest k := by
  constructor
  · rintro ⟨reached, here, plain⟩
    rcases (topLevel_append_iff stride).mp reached with rfl | ⟨k, rfl, within⟩
    · obtain ⟨t, first, rfl⟩ := Option.map_eq_some_iff.mp here
      obtain rfl := stride.eq_single first plain
      exact .inl ⟨rfl, rfl, plain⟩
    · rw [getElem?_behind] at here
      exact .inr ⟨k, rfl, within, here, plain⟩
  · rintro (⟨rfl, same, plain⟩ | ⟨k, rfl, reached, here, plain⟩)
    · obtain ⟨t, rfl, rfl⟩ := List.map_eq_singleton_iff.mp same
      exact ⟨.first, rfl, plain⟩
    · exact ⟨(topLevel_append_iff stride).mpr (.inr ⟨k, rfl, reached⟩), by rwa [getElem?_behind], plain⟩

namespace Grouped

variable {separator : String} {tokens : List Token} {groups : List (List Token)}

/-- A group is not cut again. -/
theorem split_eq_self (grouped : Grouped separator tokens groups) :
    ∀ group ∈ groups, split separator group = [group] := by
  induction grouped with
  | done => simp [split]
  | unclosed opens missing => simp [split_unclosed separator opens missing]
  | separator _ _ _ ih => simpa [split] using ih
  | @stride front rest group groups stride other others ih =>
    obtain ⟨first, others⟩ := List.forall_mem_cons.mp ih
    refine List.forall_mem_cons.mpr ⟨?_, others⟩
    rw [stride.split_append other, first]
    rfl

/-- A span is in one group. -/
theorem together (grouped : Grouped separator tokens groups) {i j : Nat} (reached : TopLevel tokens i)
    (closes : spanEnd? tokens i = some j) : Together groups i j := by
  -- The span is the one at the front, or it begins behind the front and is found there.
  induction grouped generalizing i j with
  | done => cases closes
  | unclosed opens missing =>
    obtain rfl := topLevel_unclosed opens missing reached
    simp [spanEnd?_cons, opens, missing] at closes
  | @separator t rest groups _ plain _ ih =>
    rw [← List.singleton_append] at reached closes
    rcases (topLevel_append_iff (.single plain)).mp reached with rfl | ⟨k, rfl, inside⟩
    · simp [spanEnd?_cons, plain] at closes
    · obtain ⟨last, within, rfl⟩ := spanEnd?_within closes
      exact (ih inside within).behind
  | @stride front rest group groups stride _ _ ih =>
    rcases (topLevel_append_iff stride).mp reached with rfl | ⟨k, rfl, inside⟩
    · have size := stride.spanEnd?_eq closes
      refine ⟨_, mem_placed_cons.mpr (.inl rfl), Nat.zero_le 0, ?_⟩
      rw [List.length_append]
      omega
    · obtain ⟨last, within, rfl⟩ := spanEnd?_within closes
      exact (ih inside within).append front

/-- Groups begin behind the separators that the scan comes to. -/
theorem begins_iff (grouped : Grouped separator tokens groups) {i : Nat} :
    Begins groups i ↔ Separates separator tokens i := by
  induction grouped generalizing i with
  | done =>
    have none : ¬ Separates separator [] i := fun separates => by cases separates.here
    simp [begins_cons, placed, none]
  | @unclosed t rest closer opens missing =>
    have none : ¬ Separates separator (t :: rest) i := by
      rintro ⟨reached, here, plain⟩
      obtain rfl := topLevel_unclosed opens missing reached
      obtain rfl : t.text = separator := by simpa using here
      rw [plain] at opens
      cases opens
    simp [begins_cons, placed, none]
  | @separator t rest groups separates plain others ih =>
    obtain ⟨group, groups, rfl⟩ : ∃ group more, groups = group :: more := by cases others <;> exact ⟨_, _, rfl⟩
    have front := @separates_append_iff separator [t] rest (.single plain) i
    rw [separates] at plain
    simpa [begins_nil_iff, ih, separates, plain] using front.symm
  | stride stride other _ ih => simp [begins_append_iff, separates_append_iff stride, other, ih]

end Grouped

/-- A split is a partition outside of brackets and text literals. The groups with separators between them are the
    tokens, a group is not cut again, and a span from any place that the scan comes to is in one group. Groups begin
    behind the separators at these places, and nowhere else. -/
theorem split_partition (separator : String) (tokens : List Token) :
    [separator].intercalate ((split separator tokens).map texts) = texts tokens ∧
      (∀ p ∈ placed 0 (split separator tokens), tokens.extract p.first (p.first + p.group.length) = p.group) ∧
      (∀ group ∈ split separator tokens, split separator group = [group]) ∧
      (∀ i j, TopLevel tokens i → spanEnd? tokens i = some j → Together (split separator tokens) i j) ∧
      ∀ i, Begins (split separator tokens) i ↔ Separates separator tokens i := by
  have parted := parted_split separator tokens
  have grouped := grouped_split separator tokens
  exact ⟨parted.texts_intercalate.symm, fun _ => parted.extract_eq, grouped.split_eq_self,
    fun _ _ => grouped.together, fun _ => grouped.begins_iff⟩

/-- Separators in brackets do not cut, also if brackets of two kinds overlap, and neither do those behind a bracket that
    is never closed. -/
theorem split_partition_overlapping :
    let tokens := lex "f(a, b), \x7bc, (d\x7d, e, [x, y"
    let last := tokens.drop 16
    (⟨16, last⟩ ∈ placed 0 (split "," tokens) ∧ tokens.extract 16 (16 + last.length) = last) ∧
      (last ∈ split "," tokens ∧ split "," last = [last]) ∧
        TopLevel tokens 7 ∧ spanEnd? tokens 7 = some 12 ∧ Together (split "," tokens) 7 12 := by
  intro tokens last
  obtain ⟨-, inPlace, again, together, -⟩ := split_partition "," tokens
  have isPlaced : ⟨16, last⟩ ∈ placed 0 (split "," tokens) := by decide +kernel
  have isGroup : last ∈ split "," tokens := by decide +kernel
  have call : TopLevel tokens 6 := .span (.single .first rfl (by decide)) (show spanEnd? tokens 1 = some 5 by decide)
  have reached : TopLevel tokens 7 := .single call rfl (by decide)
  have closes : spanEnd? tokens 7 = some 12 := by decide
  exact ⟨⟨isPlaced, inPlace _ isPlaced⟩, ⟨isGroup, again _ isGroup⟩, reached, closes, together 7 12 reached closes⟩

end Reckon.Token
