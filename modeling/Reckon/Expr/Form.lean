import Reckon.Expr
import Reckon.Expr.ParseError
import Reckon.Token.Split

/-!
# The outermost form of an expression

The rules that tell from a list of tokens which form of expression it is, and
that leave its parts as lists of tokens. Parentheses around the whole are taken
off first. Then the forms are tried in order: a single token, a list, a vector,
a text literal, a negation, a delegate, a call and a binary operation.

Every part weighs less than the whole, where an operator weighs four and any other
token one: so reading part by part ends.
-/

namespace Reckon

open Token

/-- The tokens of a part, or why there are none. -/
abbrev Slot := Except ParseError (List Token)

/-- The form of an expression with the tokens of its parts. -/
inductive Form
  | leaf (expr : Expr)
  | list (items : List Slot)
  | vector (items : List Slot)
  | call (name : String) (args : List Slot)
  | binary (op : Op) (left right : List Token)

namespace Form

/-- Takes off the parentheses around the whole. -/
def unwrap (tokens : List Token) : Except ParseError (List Token) :=
  match _h : wrapped? "(" ")" tokens with
  | none => .ok tokens
  | some ([], closer) => .error (.empty closer.column closer.text)
  | some (t :: inner, _) => unwrap (t :: inner)
termination_by tokens.length
decreasing_by
  obtain ⟨first, _, hfirst⟩ := wrapped?_eq_some _h
  simp [hfirst]

/-- A single token is a number if it reads as one, and otherwise a variable. -/
def ofToken (t : Token) : Except ParseError Form :=
  match Number.read? t.text with
  | some x => .ok (.leaf (.num x))
  | none => if isMark t.text then .error (.token t.column t.text) else .ok (.leaf (.var t.text))

/-- The parts between commas, none of which may be empty. The fault of an empty one lies with
    the first token of the next part, or with the closing bracket. -/
def slots (closer : Token) : List (List Token) → List Slot
  | [] => []
  | group :: groups =>
    (if group.isEmpty then
      let near := (groups.head?.bind List.head?).getD closer
      .error (.empty near.column near.text)
    else .ok group) :: slots closer groups

/-- The parts of a call or a vector. Nothing between the brackets is no part. -/
def parts (inner : List Token) (closer : Token) : List Slot :=
  if inner.isEmpty then [] else slots closer (split "," inner)

/-- The elements of a list, of which the empty ones are left out. -/
def items (inner : List Token) : List Slot :=
  ((split "," inner).filter fun group => !group.isEmpty).map .ok

/-- The tokens before and after the first colon outside of brackets. -/
def cutAtColon? : List Token → Option (List Token × List Token)
  | [] => none
  | t :: rest =>
    if t.text = ":" then some ([], rest)
    else
      match _found : (closerOf? t.text).bind fun closer => enclosed? t.text closer 0 false rest with
      | some ⟨inner, last, after⟩ =>
        (cutAtColon? after).map fun (before, body) => (t :: inner ++ last :: before, body)
      | none => (cutAtColon? rest).map fun (before, body) => (t :: before, body)
termination_by tokens => tokens.length
decreasing_by
  · obtain ⟨closer, _, found⟩ := Option.bind_eq_some_iff.1 _found
    have := congrArg List.length (enclosed?_eq_some found)
    simp at this ⊢
    omega
  · simp

/-- The names of parameters, each a single token, between commas. -/
def paramNames? (tokens : List Token) : Option (List String) :=
  if tokens.isEmpty then some []
  else (split "," tokens).mapM fun group =>
    match group with
    | [t] => some t.text
    | _ => none

/-- A delegate between its brackets. -/
def ofDelegate (opener : Token) (inner : List Token) (closer : Token) : Except ParseError Form :=
  match cutAtColon? inner with
  | none => .error (.token opener.column (joined (opener :: inner ++ [closer])))
  | some (before, body) =>
    match paramNames? before with
    | none => .error (.token opener.column (joined before))
    | some params =>
      if body.isEmpty then .error (.empty closer.column closer.text)
      else .ok (.leaf (.delegate ⟨params, joined body⟩))

/-- The tokens outside of brackets with their indices, counted from `index`. A bracketed span
    counts by its opening. -/
def outline (index : Nat) : List Token → Except ParseError (List (Nat × Token))
  | [] => .ok []
  | t :: rest =>
    match closerOf? t.text with
    | some closer =>
      match _found : enclosed? t.text closer 0 false rest with
      | some ⟨inner, _, after⟩ =>
        (outline (index + inner.length + 2) after).map fun entries => (index, t) :: entries
      | none => .error (.bracket t.column t.text closer)
    | none => (outline (index + 1) rest).map fun entries => (index, t) :: entries
termination_by tokens => tokens.length
decreasing_by
  · have := congrArg List.length (enclosed?_eq_some _found)
    simp at this ⊢
    omega
  · simp

/-- The binary operators with their indices. An operator right after another belongs to
    its right operand. -/
def binaryOperators : (afterOperator : Bool) → List (Nat × Token) → List (Nat × Op)
  | _, [] => []
  | afterOperator, (index, t) :: rest =>
    match Op.ofSymbol? t.text with
    | none => binaryOperators false rest
    | some op =>
      if afterOperator then binaryOperators true rest
      else (index, op) :: binaryOperators true rest

/-- The last of the operators that bind least. -/
def weakest? : List (Nat × Op) → Option (Nat × Op)
  | [] => none
  | candidate :: rest =>
    match weakest? rest with
    | none => some candidate
    | some later =>
      if later.2.precedence ≤ candidate.2.precedence then some later else some candidate

/-- A token that looks like an operator and is none. -/
def isStranger (t : Token) : Bool := isSymbols t.text && !isMark t.text

/-- A binary operation, split at the last of its weakest operators. -/
def ofBinary (tokens : List Token) : Except ParseError Form :=
  match outline 0 tokens with
  | .error e => .error e
  | .ok entries =>
    match weakest? (binaryOperators false entries) with
    | none =>
      match entries.find? fun entry => isStranger entry.2 with
      | some (_, t) => .error (.operator t.column t.text)
      | none => .error (.token ((tokens.head?.map Token.column).getD 0) (joined tokens))
    | some (index, op) =>
      match tokens.drop index with
      | [] => .error (.empty 0 "")
      | t :: right =>
        if (tokens.take index).isEmpty || right.isEmpty then .error (.empty t.column t.text)
        else .ok (.binary op (tokens.take index) right)

/-- A negation is a subtraction from zero. It is put in parentheses, which come off unless
    a stray parenthesis takes one of them. -/
def ofNegation (minus : Token) (operand : List Token) : Except ParseError Form :=
  let lastColumn := (operand.getLast?.map Token.column).getD minus.column
  let subtraction :=
    ⟨"(", minus.column⟩ :: ⟨"0", minus.column⟩ :: minus :: operand ++ [⟨")", lastColumn⟩]
  match wrapped? "(" ")" subtraction with
  | some (inner, _) => ofBinary inner
  | none => ofBinary subtraction

/-- The form of two tokens or more without parentheses around them. -/
def ofCompound (first second : Token) (rest : List Token) : Except ParseError Form :=
  let tokens := first :: second :: rest
  match wrapped? "\x7b" "\x7d" tokens with
  | some (inner, _) => .ok (.list (items inner))
  | none =>
    match wrapped? "<" ">" tokens with
    | some (inner, closer) =>
      if inner.isEmpty then .error (.empty closer.column closer.text)
      else .ok (.vector (parts inner closer))
    | none =>
      match wrapped? quoteMark quoteMark tokens with
      | some (inner, _) => .ok (.leaf (.ofText (joined inner)))
      | none =>
        if first.text = "-" then ofNegation first (second :: rest)
        else if first.text = "[" then
          match enclosed? "[" "]" 0 false (second :: rest) with
          | none => .error (.bracket first.column "[" "]")
          | some ⟨inner, closer, []⟩ => ofDelegate first inner closer
          | some _ => ofBinary tokens
        else if isLetters first.text && second.text = "(" then
          match enclosed? "(" ")" 0 false rest with
          | none => .error (.bracket second.column "(" ")")
          | some ⟨inner, closer, []⟩ => .ok (.call first.text (parts inner closer))
          | some _ => ofBinary tokens
        else ofBinary tokens

/-- The form of an expression. -/
def ofTokens (tokens : List Token) : Except ParseError Form :=
  match unwrap tokens with
  | .error e => .error e
  | .ok [] => .error (.empty 0 "")
  | .ok [t] => ofToken t
  | .ok (first :: second :: rest) => ofCompound first second rest

end Form

end Reckon
