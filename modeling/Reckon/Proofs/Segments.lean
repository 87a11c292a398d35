import Mathlib.Data.List.Infix
import Reckon.Token

/-!
Where tokens stand. A source text is a row of segments: blanks, which are skipped, and tokens, each with the
column of its first character (`Token.segments_lex`). So the columns of tokens ascend and lie in the text
(`Token.pairwise_lex`, `Token.column_lex`), and a column has one token at most. With the quotes told apart from the
other tokens the row also shows which blanks are in text literals (`Token.tiling_lex`).
-/

namespace Reckon.Token

/-- The characters from a column on are blanks and tokens, which are not empty and know their columns. -/
inductive Segments : (column : Nat) → List Char → List Token → Prop
  | done (column : Nat) : Segments column [] []
  | blank {column : Nat} {c : Char} {cs : List Char} {tokens : List Token} (skipped : Text.isBlank c = true)
      (rest : Segments (column + 1) cs tokens) : Segments column (c :: cs) tokens
  | token {t : Token} {cs : List Char} {tokens : List Token} (filled : t.text ≠ "")
      (rest : Segments (t.column + t.text.length) cs tokens) : Segments t.column (t.text.toList ++ cs) (t :: tokens)

/-- The same with the literals that are open before the characters. Only blanks outside of literals are skipped, a quote
    opens or closes a literal, and the other tokens have no quotes and, outside of literals, no blanks. -/
inductive Tiling : (literal : Bool) → (column : Nat) → List Char → List Token → Prop
  | done (literal : Bool) (column : Nat) : Tiling literal column [] []
  | blank {column : Nat} {c : Char} {cs : List Char} {tokens : List Token} (skipped : Text.isBlank c = true)
      (rest : Tiling false (column + 1) cs tokens) : Tiling false column (c :: cs) tokens
  | quote {literal : Bool} {column : Nat} {cs : List Char} {tokens : List Token}
      (rest : Tiling (!literal) (column + 1) cs tokens) :
      Tiling literal column ('"' :: cs) (⟨quoteMark, column⟩ :: tokens)
  | piece {literal : Bool} {t : Token} {cs : List Char} {tokens : List Token} (filled : t.text ≠ "")
      (unquoted : '"' ∉ t.text.toList) (solid : literal = false → ∀ c ∈ t.text.toList, Text.isBlank c = false)
      (rest : Tiling literal (t.column + t.text.length) cs tokens) :
      Tiling literal t.column (t.text.toList ++ cs) (t :: tokens)

theorem Tiling.segments {literal : Bool} {column : Nat} {cs : List Char} {tokens : List Token}
    (tiling : Tiling literal column cs tokens) : Segments column cs tokens := by
  induction tiling with
  | done => exact .done _
  | blank skipped _ ih => exact .blank skipped ih
  | @quote _ column cs tokens _ ih =>
    have filled : quoteMark ≠ "" := by decide
    have one : quoteMark.length = 1 := by decide
    have mark : quoteMark.toList = ['"'] := by decide
    rw [← one] at ih
    have token := @Segments.token ⟨quoteMark, column⟩ cs tokens filled ih
    rwa [mark] at token
  | piece filled _ _ _ ih => exact .token filled ih

/-- The characters that are held before a column become a token, if there are any. -/
theorem Tiling.flush {literal : Bool} {column : Nat} {w cs : List Char} {tokens : List Token}
    (enough : w.length ≤ column) (unquoted : '"' ∉ w) (solid : literal = false → ∀ c ∈ w, Text.isBlank c = false)
    (rest : Tiling literal column cs tokens) :
    Tiling literal (column - w.length) (w.reverse ++ cs) (Token.flush column w ++ tokens) := by
  rw [Token.flush]
  split
  · rename_i none
    obtain rfl := List.isEmpty_iff.mp none
    exact rest
  · rename_i some
    have filled : String.ofList w.reverse ≠ "" := by
      intro same
      have := congrArg String.toList same
      simp at this
      simp [this] at some
    have same : column - w.length + (String.ofList w.reverse).length = column := by
      simp
      omega
    rw [← same] at rest
    have piece := @Tiling.piece literal ⟨String.ofList w.reverse, column - w.length⟩ cs tokens filled
      (by simpa using unquoted) (by simpa using solid) rest
    simpa using piece

/-- A character outside of literals may be a token of its own. -/
theorem Tiling.single {column : Nat} {c : Char} {cs : List Char} {tokens : List Token} (unquoted : c ≠ '"')
    (visible : Text.isBlank c = false) (rest : Tiling false (column + 1) cs tokens) :
    Tiling false column (c :: cs) (⟨String.singleton c, column⟩ :: tokens) := by
  have filled : String.singleton c ≠ "" := by simp [← String.toList_inj]
  have one : (String.singleton c).length = 1 := by simp
  rw [← one] at rest
  have piece := @Tiling.piece false ⟨String.singleton c, column⟩ cs tokens filled (by simpa using unquoted.symm)
    (by simpa using visible) rest
  simpa using piece

/-- The characters that a pending token holds, in reverse. -/
@[simp]
def Pending.reversed : Pending → List Char
  | word w => w
  | literal w => w

/-- Whether a pending token is the text of a literal. -/
@[simp]
def Pending.isLiteral : Pending → Bool
  | word _ => false
  | literal _ => true

/-- The characters that a pending token holds, and those that follow it, are tiled. -/
theorem tiling_scan {column : Nat} {pending : Pending} (enough : pending.reversed.length < column)
    (unquoted : '"' ∉ pending.reversed)
    (solid : pending.isLiteral = false → ∀ c ∈ pending.reversed, Text.isBlank c = false) (cs : List Char) :
    Tiling pending.isLiteral (column - pending.reversed.length) (pending.reversed.reverse ++ cs)
      (scan column pending cs) := by
  fun_induction scan column pending cs with
  | case1 column w => simpa using Tiling.flush enough.le unquoted solid (.done false column)
  | case2 column w => simpa using Tiling.flush enough.le unquoted solid (.done true column)
  | case3 column w rest ih =>
    have after : Tiling false (column + 1) rest (scan (column + 1) (.word []) rest) := by
      simpa using ih (Nat.succ_pos _) (by simp) (by simp)
    exact .flush enough.le unquoted solid (.quote after)
  | case4 column w c rest other ih =>
    have unquoted : '"' ∉ c :: w := by simpa using ⟨Ne.symm other, unquoted⟩
    simpa using ih (Nat.succ_lt_succ enough) unquoted (by simp)
  | case5 column w rest ih =>
    have after : Tiling true (column + 1) rest (scan (column + 1) (.literal []) rest) := by
      simpa using ih (Nat.succ_pos _) (by simp) (by simp)
    exact .flush enough.le unquoted solid (.quote after)
  | case6 column w c rest other skipped ih =>
    have after : Tiling false (column + 1) rest (scan (column + 1) (.word []) rest) := by
      simpa using ih (Nat.succ_pos _) (by simp) (by simp)
    exact .flush enough.le unquoted solid (.blank skipped after)
  | case7 column w c rest other visible lone ih =>
    have after : Tiling false (column + 1) rest (scan (column + 1) (.word []) rest) := by
      simpa using ih (Nat.succ_pos _) (by simp) (by simp)
    exact .flush enough.le unquoted solid (.single other (by simpa using visible) after)
  | case8 column w c rest other visible word ih =>
    have unquoted : '"' ∉ c :: w := by simpa using ⟨Ne.symm other, unquoted⟩
    have solid : ∀ d ∈ c :: w, Text.isBlank d = false :=
      List.forall_mem_cons.mpr ⟨by simpa using visible, solid rfl⟩
    simpa using ih (Nat.succ_lt_succ enough) unquoted fun _ => solid

/-- A source text is tiled by its tokens. -/
theorem tiling_lex (source : String) : Tiling false 1 source.toList (lex source) :=
  @tiling_scan 1 (.word []) (Nat.lt_succ_self 0) (by simp) (by simp) source.toList

/-- The tokens of a source text are segments of it. -/
theorem segments_lex (source : String) : Segments 1 source.toList (lex source) := (tiling_lex source).segments

/-! ### Columns -/

/-- A token stands between the first column and the end. -/
theorem Segments.column {column : Nat} {cs : List Char} {tokens : List Token} (segments : Segments column cs tokens)
    {t : Token} (member : t ∈ tokens) :
    t.text ≠ "" ∧ column ≤ t.column ∧ t.column + t.text.length ≤ column + cs.length := by
  induction segments with
  | done => cases member
  | blank skipped _ ih =>
    obtain ⟨filled, after, fits⟩ := ih member
    rw [List.length_cons]
    exact ⟨filled, by omega, by omega⟩
  | @token first cs tokens filled _ ih =>
    rw [List.length_append, String.length_toList]
    rcases List.mem_cons.mp member with rfl | member
    · exact ⟨filled, by omega, by omega⟩
    · obtain ⟨filled, after, fits⟩ := ih member
      exact ⟨filled, by omega, by omega⟩

theorem Segments.pairwise {column : Nat} {cs : List Char} {tokens : List Token} (segments : Segments column cs tokens) :
    tokens.Pairwise fun a b => a.column < b.column := by
  induction segments with
  | done => exact .nil
  | blank _ _ ih => exact ih
  | @token first cs tokens filled rest ih =>
    refine .cons (fun other member => ?_) ih
    have := (rest.column member).2.1
    have : 0 < first.text.length := Nat.pos_of_ne_zero (mt String.length_eq_zero_iff.mp filled)
    omega

/-- The columns of the tokens of a source text ascend. -/
theorem pairwise_lex (source : String) : (lex source).Pairwise fun a b => a.column < b.column :=
  (segments_lex source).pairwise

/-- A token of a source text is not empty and stands in it. -/
theorem column_lex {source : String} {t : Token} (member : t ∈ lex source) :
    t.text ≠ "" ∧ 1 ≤ t.column ∧ t.column ≤ source.length := by
  obtain ⟨filled, after, fits⟩ := (segments_lex source).column member
  have : 0 < t.text.length := Nat.pos_of_ne_zero (mt String.length_eq_zero_iff.mp filled)
  rw [String.length_toList] at fits
  exact ⟨filled, after, by omega⟩

end Reckon.Token
