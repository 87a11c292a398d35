import Reckon.Token

/-!
# Matching brackets

The closing bracket that belongs to an open one is found by counting the
brackets of its own kind. Text literals in between are passed over, and one that
is not closed hides everything after it.
-/

namespace Reckon.Token

/-- The tokens up to the bracket that closes an open one, that bracket, and what follows it. -/
structure Enclosed where
  inner : List Token
  closer : Token
  rest : List Token
deriving DecidableEq, Repr

/-- One more token at the front of what is enclosed. -/
def Enclosed.push (token : Token) (enclosed : Enclosed) : Enclosed :=
  { enclosed with inner := token :: enclosed.inner }

/-- Looks for the closing bracket after an open one. Inside, `nesting` more brackets of the kind
    are open, and `quoted` says that a text literal is. -/
def enclosed? (opener closer : String) : (nesting : Nat) → (quoted : Bool) → List Token →
    Option Enclosed
  | _, _, [] => none
  | nesting, true, t :: rest =>
    (enclosed? opener closer nesting (t.text ≠ quoteMark) rest).map (.push t)
  | nesting, false, t :: rest =>
    if t.text = closer then
      match nesting with
      | 0 => some ⟨[], t, rest⟩
      | outer + 1 => (enclosed? opener closer outer false rest).map (.push t)
    else if t.text = opener then (enclosed? opener closer (nesting + 1) false rest).map (.push t)
    else (enclosed? opener closer nesting (t.text = quoteMark) rest).map (.push t)

/-- The index of the bracket that closes the one at `start`. With `start` at -1 the open bracket
    is thought to stand before the first token. -/
def matchBracket? (tokens : List Token) (start : Int) (opener closer : String) : Option Nat :=
  let first := (start + 1).toNat
  (enclosed? opener closer 0 false (tokens.drop first)).map fun found => first + found.inner.length

/-- The text that closes an opening bracket or a quote. -/
def closerOf? (opener : String) : Option String :=
  if opener = "(" then some ")"
  else if opener = "\x7b" then some "\x7d"
  else if opener = "<" then some ">"
  else if opener = "[" then some "]"
  else if opener = quoteMark then some quoteMark
  else none

/-- A list that begins with a bracket and ends with the one that closes it: what stands between
    them and the closing bracket. -/
def wrapped? (opener closer : String) : List Token → Option (List Token × Token)
  | [] => none
  | t :: rest =>
    if t.text = opener then
      match enclosed? opener closer 0 false rest with
      | some ⟨inner, last, []⟩ => some (inner, last)
      | _ => none
    else none

/-- Tokens are found again around the closing bracket. -/
theorem enclosed?_eq_some {opener closer : String} {nesting : Nat} {quoted : Bool}
    {tokens : List Token} {found : Enclosed}
    (h : enclosed? opener closer nesting quoted tokens = some found) :
    tokens = found.inner ++ found.closer :: found.rest := by
  induction tokens generalizing nesting quoted found with
  | nil => simp [enclosed?] at h
  | cons t rest ih =>
    have step {nesting quoted} (h : (enclosed? opener closer nesting quoted rest).map (.push t)
        = some found) : t :: rest = found.inner ++ found.closer :: found.rest := by
      obtain ⟨inner, hinner, rfl⟩ := Option.map_eq_some_iff.1 h
      simp [Enclosed.push, ih hinner]
    cases quoted with
    | true => exact step (by simpa [enclosed?] using h)
    | false =>
      unfold enclosed? at h
      split at h
      · cases nesting with
        | zero => cases h; simp
        | succ outer => exact step h
      · split at h
        · exact step h
        · exact step h

/-- Tokens are found again inside their brackets. -/
theorem wrapped?_eq_some {opener closer : String} {tokens inner : List Token} {last : Token}
    (h : wrapped? opener closer tokens = some (inner, last)) :
    ∃ t, t.text = opener ∧ tokens = t :: inner ++ [last] := by
  cases tokens with
  | nil => simp [wrapped?] at h
  | cons t rest =>
    simp only [wrapped?] at h
    split at h
    · rename_i ht
      split at h
      · rename_i found
        cases h
        exact ⟨t, ht, by rw [enclosed?_eq_some found]; simp⟩
      · simp at h
    · simp at h

end Reckon.Token
