import Reckon.Token.Bracket

/-!
# Splitting at a separator

Tokens are cut at each separator that stands outside of brackets and text
literals. Empty groups are kept. A bracket that is never closed keeps all that
follows it in its group.
-/

namespace Reckon.Token

/-- Tokens before the first of the groups. -/
def intoFirst (tokens : List Token) : List (List Token) → List (List Token)
  | [] => [tokens]
  | group :: groups => (tokens ++ group) :: groups

/-- The groups of tokens between the separators. -/
def split (separator : String) : List Token → List (List Token)
  | [] => [[]]
  | t :: rest =>
    match closerOf? t.text with
    | some closer =>
      match _found : enclosed? t.text closer 0 false rest with
      | some ⟨inner, last, after⟩ => intoFirst (t :: inner ++ [last]) (split separator after)
      | none => [t :: rest]
    | none =>
      if t.text = separator then [] :: split separator rest
      else intoFirst [t] (split separator rest)
termination_by tokens => tokens.length
decreasing_by
  · have := congrArg List.length (enclosed?_eq_some _found)
    simp at this ⊢
    omega
  · simp
  · simp

end Reckon.Token
