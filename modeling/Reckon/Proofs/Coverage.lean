import Reckon.Proofs.Relexing
import Reckon.Proofs.Segments

/-!
What tokens cover. Each token is the text that stands at its column, no two of them overlap, and what none of them
covers are the blanks outside of text literals (`Token.covers_lex`). So the tokens put together are the source text
without these blanks.
-/

namespace Reckon.Token

/-- A text literal is open behind characters if the quotes among them do not come in pairs. -/
def opens (cs : List Char) : Bool := cs.count '"' % 2 = 1

/-- The character at an index is skipped: it is a blank, and no literal is open in front of it. -/
def isSkipped (cs : List Char) (c : Char) (i : Nat) : Bool := Text.isBlank c && !opens (cs.take i)

/-- The text of a token stands over the character at an index, counted from zero. -/
def Covers (t : Token) (i : Nat) : Prop := t.column ≤ i + 1 ∧ i + 1 < t.column + t.text.length

instance (t : Token) : DecidablePred t.Covers := fun _ => inferInstanceAs (Decidable (_ ∧ _))

theorem opens_quote (before : List Char) : opens (before ++ ['"']) = !opens before := by
  simp only [opens, List.count_append, List.count_singleton_self]
  rcases Nat.mod_two_eq_zero_or_one (before.count '"') with even | odd
  · simp [even, Nat.add_mod]
  · simp [odd, Nat.add_mod]

theorem opens_unquoted {w : List Char} (unquoted : '"' ∉ w) (before : List Char) :
    opens (before ++ w) = opens before := by
  simp [opens, List.count_append, List.count_eq_zero.mpr unquoted]

/-- A blank opens no literal and closes none. -/
theorem opens_blank {c : Char} (skipped : Text.isBlank c = true) (before : List Char) :
    opens (before ++ [c]) = opens before := by
  refine opens_unquoted (fun quoted => ?_) before
  obtain rfl := List.mem_singleton.mp quoted
  exact absurd skipped (by decide)

/-- In front of every character of a text without quotes the same literal is open. -/
theorem opens_inside {w : List Char} (unquoted : '"' ∉ w) (before after : List Char) {i : Nat}
    (low : before.length ≤ i) (high : i ≤ before.length + w.length) :
    opens ((before ++ (w ++ after)).take i) = opens before := by
  have inside : (w ++ after).take (i - before.length) = w.take (i - before.length) :=
    List.take_append_of_le_length (by omega)
  rw [List.take_append, List.take_of_length_le low, inside]
  exact opens_unquoted (fun quoted => unquoted (List.mem_of_mem_take quoted)) before

/-! ### The text of a token -/

/-- The text of a token stands at its column. -/
theorem Segments.isPrefix {column : Nat} {cs : List Char} {tokens : List Token} (segments : Segments column cs tokens)
    {t : Token} (member : t ∈ tokens) : t.text.toList <+: cs.drop (t.column - column) := by
  induction segments with
  | done => cases member
  | @blank column c cs tokens _ rest ih =>
    have after := (rest.column member).2.1
    rw [show t.column - column = t.column - (column + 1) + 1 by omega, List.drop_succ_cons]
    exact ih member
  | @token first cs tokens _ rest ih =>
    rcases List.mem_cons.mp member with rfl | member
    · simp
    · have after := (rest.column member).2.1
      have length : first.text.toList.length = first.text.length := String.length_toList
      rw [List.drop_append, List.drop_eq_nil_of_le (by omega), List.nil_append, length, Nat.sub_sub]
      exact ih member

/-- A token ends before the next one begins. -/
theorem Segments.apart {column : Nat} {cs : List Char} {tokens : List Token} (segments : Segments column cs tokens) :
    tokens.Pairwise fun a b => a.column + a.text.length ≤ b.column := by
  induction segments with
  | done => exact .nil
  | blank _ _ ih => exact ih
  | token _ rest ih => exact .cons (fun other member => (rest.column member).2.1) ih

/-! ### The characters under the tokens -/

variable {literal : Bool} {column : Nat} {whole before cs : List Char} {tokens : List Token}

/-- No character of a token is skipped. -/
theorem isSkipped_piece {w : List Char} (unquoted : '"' ∉ w)
    (solid : opens before = false → ∀ c ∈ w, Text.isBlank c = false) (after : List Char) {i : Nat} {c : Char}
    (low : before.length ≤ i) (high : i < before.length + w.length)
    (there : (before ++ (w ++ after))[i]? = some c) : isSkipped (before ++ (w ++ after)) c i = false := by
  have member : c ∈ w := by
    rw [List.getElem?_append_right low, List.getElem?_append_left (by omega)] at there
    exact List.mem_of_getElem? there
  rw [isSkipped, opens_inside unquoted before after low high.le]
  cases state : opens before with
  | true => simp
  | false => simp [solid state c member]

/-- The tokens from a column on cover the characters there that are not skipped, and no others. -/
theorem Tiling.covers_iff (tiling : Tiling literal column cs tokens) (split : whole = before ++ cs)
    (place : column = before.length + 1) (state : literal = opens before) {i : Nat} {c : Char}
    (low : before.length ≤ i) (there : whole[i]? = some c) :
    (∃ t ∈ tokens, t.Covers i) ↔ isSkipped whole c i = false := by
  induction tiling generalizing before with
  | done =>
    have inside : i < whole.length := (List.getElem?_eq_some_iff.mp there).1
    simp [split] at inside
    omega
  | @blank column d cs tokens skipped rest ih =>
    rcases Nat.eq_or_lt_of_le low with rfl | low
    · have uncovered : ¬ ∃ t ∈ tokens, t.Covers before.length := by
        rintro ⟨t, member, covers⟩
        have := (rest.segments.column member).2.1
        have := covers.1
        omega
      obtain rfl : d = c := by simpa [split] using there
      simp [uncovered, isSkipped, skipped, split, ← state]
    · have moved : whole = before ++ [d] ++ cs := by simp [split]
      exact ih moved (by simp [place]) (by rw [state, opens_blank skipped]) (by simpa using Nat.succ_le_of_lt low)
  | @quote literal column cs tokens rest ih =>
    have one : quoteMark.length = 1 := by decide
    rcases Nat.eq_or_lt_of_le low with rfl | low
    · obtain rfl : '"' = c := by simpa [split] using there
      have visible : Text.isBlank '"' = false := by decide
      have covered : Covers ⟨quoteMark, column⟩ before.length := ⟨place.le, by simp [one, place]⟩
      simp [covered, isSkipped, visible]
    · have uncovered : ¬ Covers ⟨quoteMark, column⟩ i := by
        rintro ⟨-, before⟩
        simp only [one] at before
        omega
      have moved : whole = before ++ ['"'] ++ cs := by simp [split]
      have others := ih moved (by simp [place]) (by rw [state, opens_quote]) (by simpa using Nat.succ_le_of_lt low)
      rw [← others]
      simp [uncovered]
  | @piece literal t cs tokens filled unquoted solid rest ih =>
    have length : t.text.toList.length = t.text.length := String.length_toList
    by_cases high : i < before.length + t.text.length
    · have covered : t.Covers i := ⟨by omega, by omega⟩
      have kept : isSkipped whole c i = false := by
        subst split
        exact isSkipped_piece unquoted (state ▸ solid) cs low (by omega) there
      simp [covered, kept]
    · have uncovered : ¬ t.Covers i := by
        rintro ⟨-, before⟩
        omega
      have moved : whole = before ++ t.text.toList ++ cs := by simp [split]
      have others := ih moved (by simp [place]; omega) (by rw [state, opens_unquoted unquoted]) (by simp; omega)
      rw [← others]
      simp [uncovered]

/-- The tokens from a column on, put together, are the characters there that are not skipped. -/
theorem Tiling.chars_eq (tiling : Tiling literal column cs tokens) (split : whole = before ++ cs)
    (state : literal = opens before) :
    chars (texts tokens) =
      ((cs.zipIdx before.length).filter fun entry => !isSkipped whole entry.1 entry.2).map Prod.fst := by
  induction tiling generalizing before with
  | done => rfl
  | @blank column d cs tokens skipped rest ih =>
    have moved : whole = before ++ [d] ++ cs := by simp [split]
    have others := ih moved (by rw [state, opens_blank skipped])
    have gone : isSkipped whole d before.length = true := by simp [isSkipped, skipped, split, ← state]
    simpa [List.zipIdx_cons, gone] using others
  | @quote literal column cs tokens rest ih =>
    have moved : whole = before ++ ['"'] ++ cs := by simp [split]
    have others := ih moved (by rw [state, opens_quote])
    have kept : isSkipped whole '"' before.length = false := by
      have visible : Text.isBlank '"' = false := by decide
      simp [isSkipped, visible]
    have mark : quoteMark.toList = ['"'] := by decide
    simpa [List.zipIdx_cons, kept, texts_cons, chars, mark] using others
  | @piece literal t cs tokens filled unquoted solid rest ih =>
    have moved : whole = before ++ t.text.toList ++ cs := by simp [split]
    have others := ih moved (by rw [state, opens_unquoted unquoted])
    have kept : (t.text.toList.zipIdx before.length).filter (fun entry => !isSkipped whole entry.1 entry.2) =
        t.text.toList.zipIdx before.length := by
      refine List.filter_eq_self.mpr ?_
      rintro ⟨c, i⟩ member
      obtain ⟨low, high, same⟩ := List.mem_zipIdx member
      have there : whole[i]? = some c := by
        rw [split, List.getElem?_append_right low, List.getElem?_append_left (by omega), same]
        exact List.getElem?_eq_getElem _
      subst split
      simp [isSkipped_piece unquoted (state ▸ solid) cs low high there]
    rw [List.length_append] at others
    rw [texts_cons, chars, List.flatMap_cons, List.zipIdx_append, List.filter_append, kept, List.map_append,
      List.zipIdx_map_fst, ← others]
    rfl

/-- The tokens of a source text are not empty, are what stands at their columns, and do not overlap. They cover all
    but the blanks outside of literals, and so are the source text without these. -/
theorem covers_lex (source : String) :
    (∀ t ∈ lex source, t.text ≠ "" ∧ 1 ≤ t.column ∧ t.text.toList <+: source.toList.drop (t.column - 1)) ∧
      ((lex source).Pairwise fun a b => a.column < b.column ∧ a.column + a.text.length ≤ b.column) ∧
      (∀ i c, source.toList[i]? = some c →
        ((∃ t ∈ lex source, t.Covers i) ↔ isSkipped source.toList c i = false)) ∧
      joined (lex source) = String.ofList
        ((source.toList.zipIdx.filter fun entry => !isSkipped source.toList entry.1 entry.2).map Prod.fst) := by
  have tiling := tiling_lex source
  have split : source.toList = [] ++ source.toList := rfl
  refine ⟨fun t member => ?_, (pairwise_lex source).and tiling.segments.apart, fun i c there => ?_, ?_⟩
  · obtain ⟨filled, low, -⟩ := tiling.segments.column member
    exact ⟨filled, low, tiling.segments.isPrefix member⟩
  · exact tiling.covers_iff split rfl rfl (Nat.zero_le i) there
  · rw [← String.toList_inj, toList_joined, String.toList_ofList]
    exact tiling.chars_eq split rfl

/-- A blank is skipped in front of a literal and belongs to a token inside of one, also if it is not closed. -/
theorem covers_lex_unclosed : let tokens := lex "1e-5 +\" a"
    (¬ ∃ t ∈ tokens, t.Covers 4) ∧ ∃ t ∈ tokens, t.Covers 7 := by
  obtain ⟨-, -, covers, -⟩ := covers_lex "1e-5 +\" a"
  exact ⟨mt (covers 4 ' ' (by decide)).mp (by decide), (covers 7 ' ' (by decide)).mpr (by decide)⟩

end Reckon.Token
