import Mathlib
import Reckon.Proofs.Brackets

/-!
Which bracket the search for a closing bracket finds, for brackets of any two texts. A bracket closes an open one if it
stands outside of the text literals that begin behind the open one, and outside of these as many brackets open as close
in between (`Token.Matches`). The search finds the first of these brackets, and so it depends on nothing behind it
(`Token.matchBracket?_least`).
-/

namespace Reckon.Token

/-! ### Least places -/

/-- What a search for the least place with a property gives: that place, or nothing if there is none. -/
def IsFirst (p : Nat → Prop) : Option Nat → Prop
  | none => ∀ i, ¬ p i
  | some i => IsLeast {j | p j} i

namespace IsFirst

variable {p q : Nat → Prop} {result other : Option Nat}

/-- There is only one least place. -/
theorem unique (first : IsFirst p result) (second : IsFirst p other) : result = other := by
  cases result with
  | none =>
    cases other with
    | none => rfl
    | some j => exact absurd second.1 (first j)
  | some i =>
    cases other with
    | none => exact absurd first.1 (second i)
    | some j => exact congrArg some (IsLeast.unique first second)

/-- Places with the property lie behind others, in the order of a search from there on. -/
theorem add {offset : Nat} (first : IsFirst q result) (behind : ∀ i, p i → offset ≤ i)
    (same : ∀ i, p (offset + i) ↔ q i) : IsFirst p (result.map (offset + ·)) := by
  have moved {i : Nat} (found : p i) : q (i - offset) := by
    have le := behind i found
    exact (same _).mp (by rwa [Nat.add_sub_cancel' le])
  cases result with
  | none => exact fun i found => first _ (moved found)
  | some i =>
    refine ⟨(same i).mpr first.1, fun j found => ?_⟩
    have le := behind j found
    have := first.2 (moved found)
    change offset + i ≤ j
    omega

/-- A search that has not ended at the first place goes on behind it. -/
theorem succ (first : IsFirst q result) (here : ¬ p 0) (same : ∀ i, p (i + 1) ↔ q i) :
    IsFirst p (result.map (1 + ·)) := by
  refine first.add (fun i found => ?_) fun i => by rw [Nat.add_comm, same]
  exact Nat.one_le_iff_ne_zero.mpr fun zero => here (zero ▸ found)

end IsFirst

/-! ### The place of the closing bracket -/

section Search

variable {opener closer : String}

/-- A closing bracket at a place, outside of text literals, that leaves no bracket open: of those open before the tokens
    (`nesting`) and those that open among them before the place, all but one close there. -/
@[mk_iff closes_iff]
structure Closes (opener closer : String) (nesting : Nat) (quoted : Bool) (tokens : List Token) (i : Nat) : Prop where
  closes : (texts tokens)[i]? = some closer
  free : inLiteral quoted (texts (tokens.take i)) = false
  even : nesting + (outside quoted (texts (tokens.take i))).count opener =
    (outside quoted (texts (tokens.take i))).count closer

/-- The first token closes if it is a closing bracket and none is open before it but the one it closes. -/
theorem closes_zero_iff {nesting : Nat} {quoted : Bool} {t : Token} {rest : List Token} :
    Closes opener closer nesting quoted (t :: rest) 0 ↔ t.text = closer ∧ quoted = false ∧ nesting = 0 := by
  constructor
  · rintro ⟨closes, free, even⟩
    exact ⟨by simpa using closes, by simpa using free, by simpa using even⟩
  · rintro ⟨closes, rfl, rfl⟩
    exact ⟨by simp [closes], rfl, rfl⟩

/-- In a literal brackets do not count, and a quote ends it. -/
theorem closes_literal_iff {nesting : Nat} {t : Token} {rest : List Token} {i : Nat} :
    Closes opener closer nesting true (t :: rest) (i + 1) ↔
      Closes opener closer nesting (t.text ≠ quoteMark) rest i := by
  by_cases mark : t.text = quoteMark
  · simp [closes_iff, inLiteral, outside, mark]
  · simp [closes_iff, inLiteral, outside, mark]

/-- Outside of literals a closing bracket closes one of those that are open. -/
theorem closes_closer_iff (different : opener ≠ closer) (unquoted : closer ≠ quoteMark) {outer : Nat} {t : Token}
    {rest : List Token} {i : Nat} (here : t.text = closer) :
    Closes opener closer (outer + 1) false (t :: rest) (i + 1) ↔ Closes opener closer outer false rest i := by
  subst here
  simp only [closes_iff, texts_cons, List.getElem?_cons_succ, List.take_succ_cons, inLiteral_cons unquoted,
    outside_cons unquoted, List.count_cons_self, List.count_cons_of_ne (Ne.symm different)]
  refine and_congr_right fun _ => and_congr_right fun _ => ?_
  omega

/-- Outside of literals an opening bracket is one more that is open. -/
theorem closes_opener_iff (different : opener ≠ closer) (unquoted : opener ≠ quoteMark) {nesting : Nat} {t : Token}
    {rest : List Token} {i : Nat} (here : t.text = opener) :
    Closes opener closer nesting false (t :: rest) (i + 1) ↔ Closes opener closer (nesting + 1) false rest i := by
  subst here
  simp only [closes_iff, texts_cons, List.getElem?_cons_succ, List.take_succ_cons, inLiteral_cons unquoted,
    outside_cons unquoted, List.count_cons_self, List.count_cons_of_ne different]
  refine and_congr_right fun _ => and_congr_right fun _ => ?_
  omega

/-- Any other token does not count, and a quote begins a literal. -/
theorem closes_other_iff {nesting : Nat} {t : Token} {rest : List Token} {i : Nat} (closes : t.text ≠ closer)
    (opens : t.text ≠ opener) :
    Closes opener closer nesting false (t :: rest) (i + 1) ↔
      Closes opener closer nesting (t.text = quoteMark) rest i := by
  by_cases mark : t.text = quoteMark
  · simp [closes_iff, inLiteral, outside, mark]
  · simp only [closes_iff, texts_cons, List.getElem?_cons_succ, List.take_succ_cons, inLiteral_cons mark,
      outside_cons mark, mark, decide_false, List.count_cons_of_ne closes, List.count_cons_of_ne opens]

/-- The search ends at the first place that closes. -/
theorem enclosed?_isFirst (different : opener ≠ closer) (opens : opener ≠ quoteMark) (closes : closer ≠ quoteMark)
    (nesting : Nat) (quoted : Bool) (tokens : List Token) :
    IsFirst (Closes opener closer nesting quoted tokens)
      ((enclosed? opener closer nesting quoted tokens).map fun found => found.inner.length) := by
  induction tokens generalizing nesting quoted with
  | nil =>
    intro i found
    simpa using found.closes
  | cons t rest ih =>
    -- Unless it ends at the first token, the search goes on in another state.
    have step {n : Nat} {q : Bool} (here : ¬ Closes opener closer nesting quoted (t :: rest) 0)
        (same : ∀ i, Closes opener closer nesting quoted (t :: rest) (i + 1) ↔ Closes opener closer n q rest i) :
        IsFirst (Closes opener closer nesting quoted (t :: rest))
          (((enclosed? opener closer n q rest).map (Enclosed.push t)).map fun found => found.inner.length) := by
      have moved := (ih n q).succ here same
      rw [Option.map_map] at moved ⊢
      simpa [Function.comp_def, Enclosed.push, Nat.add_comm] using moved
    rw [closes_zero_iff] at step
    cases quoted with
    | true => exact step (by simp) fun i => closes_literal_iff
    | false =>
      unfold enclosed?
      split
      · rename_i here
        cases nesting with
        | zero => exact ⟨closes_zero_iff.mpr ⟨here, rfl, rfl⟩, fun j _ => Nat.zero_le j⟩
        | succ outer => exact step (by simp) fun i => closes_closer_iff different closes here
      · rename_i stays
        split
        · rename_i here
          exact step (by simp [stays]) fun i => closes_opener_iff different opens here
        · rename_i other
          exact step (by simp [stays]) fun i => closes_other_iff stays other

end Search

/-! ### In a list -/

/-- The bracket at a place of a list closes the one that opens at another, or before the list: it is a closing bracket
    outside of the text literals that begin in between, and outside of these as many brackets open there as close. -/
@[mk_iff matches_iff]
structure Matches (opener closer : String) (tokens : List Token) (start : Int) (i : Nat) : Prop where
  behind : start < i
  closes : (texts tokens)[i]? = some closer
  free : inLiteral false (texts (tokens.extract (start + 1).toNat i)) = false
  even : (outside false (texts (tokens.extract (start + 1).toNat i))).count opener =
    (outside false (texts (tokens.extract (start + 1).toNat i))).count closer

section Slices

variable {opener closer : String} {tokens : List Token} {start : Int}

/-- Places in the list are places in what follows the bracket that opens. -/
theorem matches_add_iff (before : -1 ≤ start) {i : Nat} :
    Matches opener closer tokens start ((start + 1).toNat + i) ↔
      Closes opener closer 0 false (tokens.drop (start + 1).toNat) i := by
  have behind : start < ((start + 1).toNat + i : Nat) := by omega
  rw [matches_iff, closes_iff, List.extract_eq_take_drop, Nat.add_sub_cancel_left, Nat.zero_add]
  simp only [behind, true_and, texts, List.map_drop, List.getElem?_drop]

/-- Places in a list that is cut out of another are places in the other. -/
theorem matches_extract_iff {low high : Nat} (first : (low : Int) ≤ start + 1) {i : Nat} (last : low + i < high) :
    Matches opener closer (tokens.extract low high) (start - low) i ↔
      Matches opener closer tokens start (low + i) := by
  have behind : start - low < i ↔ start < (low + i : Nat) := by omega
  have here : (texts (tokens.extract low high))[i]? = (texts tokens)[low + i]? := by
    rw [List.extract_eq_take_drop, texts, List.map_take, List.map_drop, List.getElem?_take_of_lt (by omega),
      List.getElem?_drop, texts]
  have between : (tokens.extract low high).extract (start - low + 1).toNat i =
      tokens.extract (start + 1).toNat (low + i) := by
    have offset : low + (start - low + 1).toNat = (start + 1).toNat := by omega
    have size : min (i - (start - low + 1).toNat) (high - low - (start - low + 1).toNat) =
        low + i - (start + 1).toNat := by omega
    simp only [List.extract_eq_take_drop, List.drop_take, List.drop_drop, List.take_take, offset, size]
  rw [matches_iff, matches_iff, behind, here, between]

variable (before : -1 ≤ start) (different : opener ≠ closer) (opens : opener ≠ quoteMark) (closes : closer ≠ quoteMark)
include before different opens closes

/-- The search in a list finds the first place that closes. -/
theorem matchBracket?_isFirst :
    IsFirst (Matches opener closer tokens start) (matchBracket? tokens start opener closer) := by
  have found := (enclosed?_isFirst different opens closes 0 false (tokens.drop (start + 1).toNat)).add
    (p := Matches opener closer tokens start) (fun i found => by have := found.behind; omega)
    fun i => matches_add_iff before
  rwa [Option.map_map] at found

/-- A list that is cut out around the brackets has the same ones. -/
theorem matchBracket?_extract {i low high : Nat} (search : matchBracket? tokens start opener closer = some i)
    (first : (low : Int) ≤ start + 1) (last : i < high) :
    matchBracket? (tokens.extract low high) (start - low) opener closer = some (i - low) := by
  have whole : IsLeast {j | Matches opener closer tokens start j} i := by
    have found := @matchBracket?_isFirst _ _ tokens _ before different opens closes
    rwa [search] at found
  have behind := whole.1.behind
  refine (matchBracket?_isFirst (by omega) different opens closes).unique (p := Matches opener closer _ _) ⟨?_, ?_⟩
  · refine (matches_extract_iff first (by omega)).mpr ?_
    rw [Nat.add_sub_cancel' (by omega)]
    exact whole.1
  · intro j found
    -- A place beyond the end of what is cut out is beyond the least one anyway.
    by_cases inside : low + j < high
    · have := whole.2 ((matches_extract_iff first inside).mp found)
      omega
    · omega

end Slices

/-- The search for the closing bracket finds the first place that closes, and none if there is no such place. It finds
    the same place in every list that is cut out around the brackets. -/
theorem matchBracket?_least (tokens : List Token) {start : Int} (before : -1 ≤ start) {opener closer : String}
    (different : opener ≠ closer) (opens : opener ≠ quoteMark) (closes : closer ≠ quoteMark) :
    IsFirst (Matches opener closer tokens start) (matchBracket? tokens start opener closer) ∧
      ∀ i, matchBracket? tokens start opener closer = some i → ∀ low high : Nat, (low : Int) ≤ start + 1 → i < high →
        matchBracket? (tokens.extract low high) (start - low) opener closer = some (i - low) :=
  ⟨matchBracket?_isFirst before different opens closes,
    fun _ search _ _ => matchBracket?_extract before different opens closes search⟩

/-- Brackets of another kind, brackets in a literal and brackets that are closed themselves are passed over, and nothing
    behind the bracket that closes is needed. -/
theorem matchBracket?_least_interleaved :
    let tokens := lex "f(< (a) \")\" ) > )"
    "(" ≠ ")" ∧ "(" ≠ quoteMark ∧ ")" ≠ quoteMark ∧ -1 ≤ (1 : Int) ∧ IsLeast {i | Matches "(" ")" tokens 1 i} 9 ∧
      matchBracket? (tokens.extract 1 10) 0 "(" ")" = some 8 := by
  intro tokens
  have search : matchBracket? tokens 1 "(" ")" = some 9 := by decide
  obtain ⟨least, cut⟩ := @matchBracket?_least tokens 1 (by decide) "(" ")" (by decide) (by decide) (by decide)
  rw [search] at least
  exact ⟨by decide, by decide, by decide, by decide, least, cut 9 search 1 10 (by decide) (by decide)⟩

end Reckon.Token
