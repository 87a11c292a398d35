import Reckon.Expr.Weight

/-!
# Reading expressions

An expression is read form by form: the form of the tokens is found, and then each
of its parts is read the same way. The first fault from left to right is reported.
-/

namespace Reckon

/-- Reads the parts of a form, all lighter than a bound, in order up to the first fault. -/
def Slot.readAll {bound : Nat}
    (read : (tokens : List Token) → Token.weight tokens < bound → Except ParseError Expr) :
    (slots : List Slot) → (∀ tokens, .ok tokens ∈ slots → Token.weight tokens < bound) →
    Except ParseError (List Expr)
  | [], _ => .ok []
  | .error e :: _, _ => .error e
  | .ok tokens :: rest, light =>
    match read tokens (light tokens (by simp)) with
    | .error e => .error e
    | .ok expr =>
      match readAll read rest fun part h => light part (by simp [h]) with
      | .error e => .error e
      | .ok exprs => .ok (expr :: exprs)

namespace Expr

/-- Reads tokens as an expression. -/
def ofTokens (tokens : List Token) : Except ParseError Expr :=
  let read (part : List Token) (_ : Token.weight part < Token.weight tokens) := ofTokens part
  match h : Form.ofTokens tokens with
  | .error e => .error e
  | .ok (.leaf expr) => .ok expr
  | .ok (.list items) => (Slot.readAll read items (Form.slot_light h rfl)).map .list
  | .ok (.vector items) => (Slot.readAll read items (Form.slot_light h rfl)).map .vector
  | .ok (.call name args) => (Slot.readAll read args (Form.slot_light h rfl)).map (.call name)
  | .ok (.binary op left right) =>
    match ofTokens left with
    | .error e => .error e
    | .ok l =>
      match ofTokens right with
      | .error e => .error e
      | .ok r => .ok (.binary op l r)
termination_by Token.weight tokens
decreasing_by
  · assumption
  · exact Form.weight_ofTokens h _ (by simp [Form.operands])
  · exact Form.weight_ofTokens h _ (by simp [Form.operands])

/-- Reads a source text. A text without tokens is no expression and no fault. -/
def parse? (source : String) : Except ParseError (Option Expr) :=
  let tokens := Token.lex source
  if tokens.isEmpty then .ok none else (ofTokens tokens).map some

/-- Reads a source text in which there must be an expression. -/
def parse (source : String) : Except ParseError Expr :=
  match parse? source with
  | .error e => .error e
  | .ok none => .error (.empty 0 "")
  | .ok (some expr) => .ok expr

end Expr

end Reckon
