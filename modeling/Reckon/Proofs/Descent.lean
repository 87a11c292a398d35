import Reckon.Proofs.Reading

/-!
Reading ends. What tokens are read by is their form or, for a negation, other tokens that are read
instead (`Form.rule`), and the parts of the form and those other tokens are what reading them calls
(`Form.Calls`). A negation calls for three tokens more than there are, so that calls do not always go to
fewer or lighter tokens, but the parts of these weigh at least two less again. So no list of tokens has
calls without end, and a reader that follows every call is through before it is as deep as the tokens
weigh (`Expr.readWithin_eq`).
-/

namespace Reckon
open Token

namespace Form

/-! ### Rules -/

/-- What tokens are read by: their form, or tokens that are read instead of them. -/
inductive Rule
  | form (form : Form)
  | instead (tokens : List Token)

/-- The column of the last token of a negation. -/
def lastColumn (minus : Token) (operand : List Token) : Nat :=
  (operand.getLast?.map Token.column).getD minus.column

/-- The subtraction from zero that a negation stands for, in parentheses. The tokens that are put in have the
    columns of the minus and of the last token. -/
def subtraction (minus : Token) (operand : List Token) : List Token :=
  ⟨"(", minus.column⟩ :: ⟨"0", minus.column⟩ :: minus :: operand ++ [⟨")", lastColumn minus operand⟩]

/-- One step of reading. -/
def rule (tokens : List Token) : Except ParseError Rule :=
  match unwrap tokens with
  | .error e => .error e
  | .ok [] => .error (.empty 0 "")
  | .ok [t] => (ofToken t).map .form
  | .ok (first :: second :: rest) =>
    if first.text = "-" then .ok (.instead (subtraction first (second :: rest)))
    else (ofCompound first second rest).map .form

theorem ofCompound_minus {minus second : Token} {rest : List Token} (sign : minus.text = "-") :
    ofCompound minus second rest = ofNegation minus (second :: rest) := by
  have bare (left right : String) (other : left ≠ "-") : wrapped? left right (minus :: second :: rest) = none :=
    wrapped?_other (by rw [sign]; exact other.symm)
  simp only [ofCompound]
  rw [bare _ _ (by decide), bare _ _ (by decide), bare _ _ (by decide)]
  simp [sign]

/-- A list that begins with a zero, or with a parenthesis, is split at an operator, unless the parentheses come
    off. -/
theorem ofCompound_plain {first second : Token} {rest : List Token} (plain : first.text = "(" ∨ first.text = "0") :
    ofCompound first second rest = ofBinary (first :: second :: rest) := by
  have bare (left right : String) (round : left ≠ "(") (zero : left ≠ "0") :
      wrapped? left right (first :: second :: rest) = none :=
    wrapped?_other fun same => by rcases plain with here | here <;> simp_all
  simp only [ofCompound]
  rw [bare _ _ (by decide) (by decide), bare _ _ (by decide) (by decide), bare _ _ (by decide) (by decide)]
  rcases plain with here | here <;> simp [here, isLetters, isAsciiLetter]

/-- A negation is split where its subtraction is, once the parentheses of that come off. -/
theorem ofNegation_eq (minus : Token) (operand : List Token) :
    ofNegation minus operand =
      ofBinary (((wrapped? "(" ")" (subtraction minus operand)).map Prod.fst).getD (subtraction minus operand)) := by
  simp only [ofNegation, subtraction, lastColumn]
  split
  · rename_i found
    rw [found]
    rfl
  · rename_i found
    rw [found]
    rfl

/-- The subtraction for a negation is read by the form of the negation. -/
theorem rule_subtraction (minus : Token) (operand : List Token) :
    rule (subtraction minus operand) = (ofNegation minus operand).map .form := by
  rw [ofNegation_eq]
  cases wrapped : wrapped? "(" ")" (subtraction minus operand) with
  | none =>
    rw [rule, unwrap_of_none wrapped, Option.map_none, Option.getD_none]
    simp only [subtraction, List.cons_append]
    rw [if_neg (by decide), ofCompound_plain (.inl rfl)]
  | some found =>
    obtain ⟨inner, closer⟩ := found
    obtain ⟨opener, same, -⟩ := (wrapped?_eq_some_iff .round).mp wrapped
    obtain ⟨-, same⟩ := List.cons.inj same
    obtain ⟨rfl, -⟩ := List.append_inj' same rfl
    have zero : (⟨"0", minus.column⟩ : Token).text ≠ "(" := show "0" ≠ "(" by decide
    rw [rule, unwrap_of_some (List.cons_ne_nil _ _) wrapped, unwrap_of_none (wrapped?_other zero)]
    simp only [Option.map_some, Option.getD_some]
    rw [if_neg (by decide), ofCompound_plain (.inr rfl)]

/-- A negation is read as its subtraction. -/
theorem rule_eq_instead {tokens next : List Token} (found : rule tokens = .ok (.instead next)) :
    ∃ minus operand, unwrap tokens = .ok (minus :: operand) ∧ operand ≠ [] ∧ minus.text = "-" ∧
      next = subtraction minus operand := by
  rw [rule] at found
  split at found
  · cases found
  · cases found
  · rename_i t _
    cases atom : ofToken t <;> simp [atom, Except.map] at found
  · rename_i first second rest bare
    split at found
    · rename_i sign
      cases found
      exact ⟨first, second :: rest, bare, List.cons_ne_nil _ _, sign, rfl⟩
    · cases compound : ofCompound first second rest <;> simp [compound, Except.map] at found

theorem map_form_injective : Function.Injective (Except.map Rule.form : Except ParseError Form → _) := by
  rintro (e | form) (e' | form') same
  all_goals cases same
  all_goals rfl

/-- A rule that gives a form, or an error, gives that of the tokens. -/
theorem ofTokens_of_rule {tokens : List Token} (result : Except ParseError Form)
    (found : rule tokens = result.map .form) : ofTokens tokens = result := by
  rw [rule] at found
  rw [ofTokens]
  generalize unwrap tokens = bare at found
  rcases bare with e | (_ | ⟨first, _ | ⟨second, rest⟩⟩)
  · exact @map_form_injective (.error e) _ found
  · exact @map_form_injective (.error _) _ found
  · exact map_form_injective found
  · simp only at found
    split at found
    · cases result <;> cases found
    · exact map_form_injective found

/-- A form is that of a single token or of several. -/
theorem rule_eq_form {tokens : List Token} {form : Form} (found : rule tokens = .ok (.form form)) :
    (∃ expr, form = .leaf expr) ∨ ∃ first second rest, unwrap tokens = .ok (first :: second :: rest) ∧
      first.text ≠ "-" ∧ ofCompound first second rest = .ok form := by
  rw [rule] at found
  split at found
  · cases found
  · cases found
  · rename_i t bare
    have atom : ofToken t = .ok form := @map_form_injective _ (.ok form) found
    rw [ofToken] at atom
    left
    split at atom
    · exact ⟨_, (Except.ok.inj atom).symm⟩
    · split at atom
      · cases atom
      · exact ⟨_, (Except.ok.inj atom).symm⟩
  · rename_i first second rest bare
    split at found
    · cases found
    · rename_i unsigned
      exact .inr ⟨first, second, rest, bare, unsigned, @map_form_injective _ (.ok form) found⟩

/-- Tokens have the form of what is read instead of them. -/
theorem ofTokens_of_instead {tokens next : List Token} (found : rule tokens = .ok (.instead next)) :
    ofTokens tokens = ofTokens next := by
  obtain ⟨minus, operand, bare, filled, sign, rfl⟩ := rule_eq_instead found
  obtain ⟨second, rest, rfl⟩ := List.exists_cons_of_ne_nil filled
  rw [ofTokens_of_rule _ (rule_subtraction minus (second :: rest)), ofTokens, bare, ← ofCompound_minus sign]

/-! ### Calls -/

/-- Reading tokens calls for reading others: the parts of their form, or what is read instead of them. -/
inductive Calls : (others tokens : List Token) → Prop
  | part {tokens part : List Token} {form : Form} (found : rule tokens = .ok (.form form))
      (member : part ∈ form.operands) : Calls part tokens
  | instead {tokens next : List Token} (found : rule tokens = .ok (.instead next)) : Calls next tokens

theorem weight_part {tokens part : List Token} {form : Form} (found : rule tokens = .ok (.form form))
    (member : part ∈ form.operands) : weight part < weight tokens :=
  weight_ofTokens (ofTokens_of_rule (.ok form) found) part member

/-- The parts of what is read instead of tokens. -/
theorem weight_part_instead {tokens next part : List Token} {form : Form} (found : rule tokens = .ok (.instead next))
    (step : rule next = .ok (.form form)) (member : part ∈ form.operands) : weight part + 2 ≤ weight tokens := by
  obtain ⟨minus, operand, bare, -, -, rfl⟩ := rule_eq_instead found
  have formed : ofNegation minus operand = .ok form :=
    @map_form_injective _ (.ok form) ((rule_subtraction minus operand).symm.trans step)
  exact Nat.le_trans (weight_ofNegation formed part member) (weight_unwrap bare)

theorem weight_instead {tokens next : List Token} (found : rule tokens = .ok (.instead next)) : 1 < weight tokens := by
  obtain ⟨minus, operand, bare, filled, -, -⟩ := rule_eq_instead found
  have := weight_pos_iff.mpr filled
  have := weight_lt_cons minus operand
  have := weight_unwrap bare
  omega

/-- What is read instead of tokens has a form of its own. -/
theorem rule_ne_instead {tokens next after : List Token} (found : rule tokens = .ok (.instead next)) :
    rule next ≠ .ok (.instead after) := by
  obtain ⟨minus, operand, -, -, -, rfl⟩ := rule_eq_instead found
  rw [rule_subtraction]
  cases ofNegation minus operand <;> simp [Except.map]

/-- No list of tokens has calls without end. -/
theorem calls_wellFounded : WellFounded Calls := by
  suffices bounded : ∀ bound tokens, weight tokens < bound → Acc Calls tokens from
    ⟨fun tokens => bounded _ tokens (Nat.lt_succ_self _)⟩
  intro bound
  induction bound with
  | zero => exact fun tokens light => absurd light (Nat.not_lt_zero _)
  | succ bound ih =>
    intro tokens light
    refine .intro _ fun others calls => ?_
    cases calls with
    | part found member =>
      have := weight_part found member
      exact ih _ (by omega)
    | instead found =>
      -- These may weigh more, so that their own calls are followed at once.
      refine .intro _ fun parts calls => ?_
      cases calls with
      | part step member =>
        have := weight_part_instead found step member
        exact ih _ (by omega)
      | instead step => exact absurd step (rule_ne_instead found)

end Form

/-! ### A reader that follows every call -/

/-- Reads the parts of a form by a reader that need not come to an end. -/
def Slot.readBy (read : List Token → Option (Except ParseError Expr)) :
    List Slot → Option (Except ParseError (List Expr))
  | [] => some (.ok [])
  | .error e :: _ => some (.error e)
  | .ok tokens :: rest =>
    match read tokens with
    | none => none
    | some (.error e) => some (.error e)
    | some (.ok expr) => (readBy read rest).map fun others => others.map (expr :: ·)

/-- Reads a form by a reader that need not come to an end. -/
def Form.readBy (read : List Token → Option (Except ParseError Expr)) : Form → Option (Except ParseError Expr)
  | .leaf expr => some (.ok expr)
  | .list items => (Slot.readBy read items).map (Except.map .list)
  | .vector items => (Slot.readBy read items).map (Except.map .vector)
  | .call name args => (Slot.readBy read args).map (Except.map (.call name))
  | .binary op left right =>
    match read left with
    | none => none
    | some (.error e) => some (.error e)
    | some (.ok l) => (read right).map (Except.map (.binary op l))

/-- Reads tokens as an expression by the calls that the rules make, of which only so many may be open at a time. -/
def Expr.readWithin : (depth : Nat) → List Token → Option (Except ParseError Expr)
  | 0, _ => none
  | depth + 1, tokens =>
    match Form.rule tokens with
    | .error e => some (.error e)
    | .ok (.instead next) => readWithin depth next
    | .ok (.form form) => form.readBy (readWithin depth)

theorem Slot.readBy_eq {read : List Token → Option (Except ParseError Expr)} {slots : List Slot}
    (each : ∀ tokens, .ok tokens ∈ slots → read tokens = some (Expr.ofTokens tokens)) :
    Slot.readBy read slots = some (Slot.readEach slots) := by
  induction slots with
  | nil => rfl
  | cons slot rest ih =>
    cases slot with
    | error e => rfl
    | ok tokens =>
      have others := ih fun part member => each part (List.mem_cons_of_mem _ member)
      rw [readBy, readEach, each tokens List.mem_cons_self, others]
      cases Expr.ofTokens tokens with
      | error e => rfl
      | ok expr =>
        cases readEach rest <;> rfl

theorem Form.readBy_eq {read : List Token → Option (Except ParseError Expr)} {form : Form}
    (each : ∀ part ∈ form.operands, read part = some (Expr.ofTokens part)) : form.readBy read = some form.read := by
  have slots {items : List Slot} (same : form.operands = items.filterMap Except.toOption) :
      Slot.readBy read items = some (Slot.readEach items) :=
    Slot.readBy_eq fun part member => each part (same ▸ List.mem_filterMap.mpr ⟨_, member, rfl⟩)
  cases form with
  | leaf expr => rfl
  | list items => rw [readBy, slots rfl]; rfl
  | vector items => rw [readBy, slots rfl]; rfl
  | call name args => rw [readBy, slots rfl]; rfl
  | binary op left right =>
    rw [readBy, Form.read, each left (by simp [operands]), each right (by simp [operands])]
    cases Expr.ofTokens left with
    | error e => rfl
    | ok l => cases Expr.ofTokens right <;> rfl

/-- Tokens are read if what they call for is. -/
theorem Expr.readWithin_succ {depth : Nat} {tokens : List Token}
    (each : ∀ others, Form.Calls others tokens → readWithin depth others = some (ofTokens others)) :
    readWithin (depth + 1) tokens = some (ofTokens tokens) := by
  rw [readWithin]
  cases step : Form.rule tokens with
  | error e =>
    rw [ofTokens_eq, Form.ofTokens_of_rule (.error e) step]
    rfl
  | ok rule =>
    cases rule with
    | form form =>
      rw [ofTokens_eq, Form.ofTokens_of_rule (.ok form) step]
      exact Form.readBy_eq fun part member => each part (.part step member)
    | instead next =>
      rw [ofTokens_eq, Form.ofTokens_of_instead step, ← ofTokens_eq]
      exact each next (.instead step)

/-- Tokens are read by fewer open calls than they weigh, and one. -/
theorem Expr.readWithin_eq {depth : Nat} {tokens : List Token} (light : weight tokens < depth) :
    readWithin depth tokens = some (ofTokens tokens) := by
  induction depth using Nat.strongRecOn generalizing tokens with
  | ind depth ih =>
    obtain _ | depth := depth
    · exact absurd light (Nat.not_lt_zero _)
    refine readWithin_succ fun others calls => ?_
    cases calls with
    | part found member =>
      have := Form.weight_part found member
      exact ih depth (Nat.lt_succ_self _) (by omega)
    | instead found =>
      have pos := Form.weight_instead found
      obtain _ | depth := depth
      · omega
      refine readWithin_succ fun parts calls => ?_
      cases calls with
      | part step member =>
        have := Form.weight_part_instead found step member
        exact ih depth (by omega) (by omega)
      | instead step => exact absurd step (Form.rule_ne_instead found)

/-- Reading ends for all tokens, with an expression or an error: no list of tokens has calls without end, and of a
    number of tokens, each of which weighs four at most, the calls are never deeper than what they weigh together. -/
theorem Expr.readWithin_length : WellFounded Form.Calls ∧ ∀ (tokens : List Token) (more : Nat),
    readWithin (4 * tokens.length + 1 + more) tokens = some (ofTokens tokens) := by
  refine ⟨Form.calls_wellFounded, fun tokens more => readWithin_eq ?_⟩
  have := weight_le tokens
  omega

/-- One of the parts of four tokens may have five. -/
example : ((Form.ofTokens (lex "-1)+")).toOption.map fun form => form.operands.map List.length) = some [5, 1] := by
  decide +kernel

end Reckon
