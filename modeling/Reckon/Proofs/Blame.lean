import Mathlib.Logic.Relation
import Reckon.Proofs.Delegates
import Reckon.Proofs.Descent
import Reckon.Proofs.Segments

/-!
Where reading fails. Reading comes only to tokens that are not empty and stand next to each other in the source, or
in what a negation makes of a run of it: the minus with a parenthesis and a zero before it, and parentheses behind
(`Form.Padded`, `Form.Calls.padded`). An error comes up at tokens that reading comes to (`Expr.exists_raises`), and
there it blames one of them, or several (`Form.Blames`). The tokens that are put in have the columns of others, so
that an error has that of a token of the source.
-/

namespace Reckon
open Token

/-! ### Parts -/

namespace Token

theorem Parted.head_isPrefix {separator : String} {tokens group : List Token} {groups : List (List Token)}
    (parted : Parted separator tokens (group :: groups)) : group <+: tokens := by
  cases parted with
  | last => exact List.prefix_rfl
  | more => exact List.prefix_append _ _

end Token

namespace Form

theorem infix_unwrap {tokens bare : List Token} (found : unwrap tokens = .ok bare) : bare <:+: tokens := by
  fun_induction unwrap tokens with
  | case1 tokens => cases found; exact List.infix_rfl
  | case2 => cases found
  | case3 tokens t inner last wrapped ih =>
    obtain ⟨first, -, rfl⟩ := wrapped?_eq_some wrapped
    exact (ih found).trans ⟨[first], [last], by simp⟩

theorem unwrap_filled {tokens bare : List Token} (found : unwrap tokens = .ok bare) (filled : tokens ≠ []) : bare ≠ [] := by
  fun_induction unwrap tokens with
  | case1 tokens => cases found; exact filled
  | case2 => cases found
  | case3 tokens t inner last wrapped ih => exact ih found (List.cons_ne_nil _ _)

theorem slots_filled {closer : Token} {groups : List (List Token)} {part : List Token}
    (member : part ∈ (slots closer groups).filterMap Except.toOption) : part ≠ [] := by
  induction groups with
  | nil => cases member
  | cons group groups ih =>
    cases group with
    | nil => exact ih member
    | cons t group =>
      rcases List.mem_cons.mp member with rfl | member
      · exact List.cons_ne_nil _ _
      · exact ih member

theorem mem_parts {inner part : List Token} {closer : Token}
    (member : part ∈ (parts inner closer).filterMap Except.toOption) : part <:+: inner ∧ part ≠ [] := by
  rw [parts] at member
  split at member
  · cases member
  · exact ⟨(parted_split _ _).infix_of_mem (weight_slots member), slots_filled member⟩

theorem mem_items {inner part : List Token} (member : part ∈ (items inner).filterMap Except.toOption) :
    part <:+: inner ∧ part ≠ [] := by
  simp only [items, List.filterMap_map, List.mem_filterMap, List.mem_filter] at member
  obtain ⟨group, ⟨member, filled⟩, same⟩ := member
  cases same
  exact ⟨(parted_split _ _).infix_of_mem member, by simpa using filled⟩

theorem mem_ofBinary {tokens part : List Token} {form : Form} (found : ofBinary tokens = .ok form)
    (member : part ∈ form.operands) : part <:+: tokens ∧ part ≠ [] := by
  simp only [ofBinary] at found
  split at found
  · cases found
  split at found
  · split at found <;> cases found
  rename_i index op weakest
  split at found
  · cases found
  rename_i t right here
  split at found
  · cases found
  rename_i filled
  cases found
  simp only [Bool.or_eq_true, List.isEmpty_iff, not_or] at filled
  simp only [operands, List.mem_cons, List.not_mem_nil, or_false] at member
  rcases member with rfl | rfl
  · exact ⟨(List.take_prefix _ _).isInfix, filled.1⟩
  · have after : part <:+ t :: part := List.suffix_cons _ _
    exact ⟨(after.trans (here ▸ List.drop_suffix _ _)).isInfix, filled.2⟩

theorem mem_ofCompound {first second : Token} {rest part : List Token} {form : Form} (unsigned : first.text ≠ "-")
    (found : ofCompound first second rest = .ok form) (member : part ∈ form.operands) :
    part <:+: first :: second :: rest ∧ part ≠ [] := by
  simp only [ofCompound, if_neg unsigned] at found
  split at found
  · rename_i inner closer wrapped
    cases found
    obtain ⟨opener, -, whole⟩ := wrapped?_eq_some wrapped
    exact (mem_items member).imp_left fun inside => inside.trans (whole ▸ ⟨[opener], [closer], rfl⟩)
  split at found
  · rename_i inner closer wrapped
    split at found
    · cases found
    · cases found
      obtain ⟨opener, -, whole⟩ := wrapped?_eq_some wrapped
      exact (mem_parts member).imp_left fun inside => inside.trans (whole ▸ ⟨[opener], [closer], rfl⟩)
  split at found
  · cases found
    cases member
  split at found
  · split at found
    · cases found
    · rw [operands_ofDelegate found] at member
      cases member
    · exact mem_ofBinary found member
  split at found
  · split at found
    · cases found
    · rename_i inner closer search
      cases found
      have whole := enclosed?_eq_some search
      exact (mem_parts member).imp_left fun inside => inside.trans ⟨[first, second], [closer], by simp [whole]⟩
    · exact mem_ofBinary found member
  · exact mem_ofBinary found member

/-- The parts of a form stand in the tokens and are not empty. -/
theorem mem_operands {tokens part : List Token} {form : Form} (found : rule tokens = .ok (.form form))
    (member : part ∈ form.operands) : part <:+: tokens ∧ part ≠ [] := by
  rcases rule_eq_form found with ⟨expr, rfl⟩ | ⟨first, second, rest, bare, unsigned, compound⟩
  · cases member
  · exact (mem_ofCompound unsigned compound member).imp_left fun inside => inside.trans (infix_unwrap bare)

/-! ### Errors -/

/-- The errors of the parts of a form that have no tokens. -/
def faults : Form → List ParseError
  | leaf _ | binary _ _ _ => []
  | list items | vector items | call _ items => items.filterMap fun
    | .error e => some e
    | .ok _ => none

/-- An error comes up where tokens are read: they have no rule, or a part of their form has no tokens. -/
inductive Raises (tokens : List Token) (e : ParseError) : Prop
  | rule (failed : rule tokens = .error e)
  | part {form : Form} (found : Form.rule tokens = .ok (.form form)) (member : e ∈ form.faults)

/-- What an error in tokens blames. -/
inductive Blames (tokens : List Token) : ParseError → Prop
  /-- Tokens that are no expression. -/
  | run {first : Token} {rest : List Token} (inside : first :: rest <:+: tokens) :
      Blames tokens (.token first.column (joined (first :: rest)))
  /-- Parameters of a delegate that are not single tokens, at the column of its bracket. -/
  | params {opener closer : Token} {inner before body : List Token} (inside : opener :: inner ++ [closer] <:+: tokens)
      (span : Span .square opener inner closer) (cut : cutAtColon? inner = some (before, body))
      (refused : paramNames? before = none) : Blames tokens (.token opener.column (joined before))
  /-- A symbol that is no operator. -/
  | stranger {t : Token} (member : t ∈ tokens) (strange : isStranger t = true) :
      Blames tokens (.operator t.column t.text)
  /-- A bracket or quote that nothing closes. -/
  | unclosed {t : Token} {closer : String} (member : t ∈ tokens) (opens : closerOf? t.text = some closer) :
      Blames tokens (.bracket t.column t.text closer)
  /-- An operator without an operand. -/
  | operand {t : Token} (member : t ∈ tokens) (operator : isOperator t.text = true) :
      Blames tokens (.empty t.column t.text)
  /-- A closing bracket with nothing, or no part, before it. -/
  | hollow {t : Token} {kind : Bracket} (member : t ∈ tokens) (closes : t.text = kind.closer) :
      Blames tokens (.empty t.column t.text)
  /-- The token after a comma with no part before it. -/
  | gap {comma t : Token} (inside : [comma, t] <:+: tokens) (separates : comma.text = ",") :
      Blames tokens (.empty t.column t.text)

theorem Blames.mono {tokens others : List Token} {e : ParseError} (blames : Blames tokens e)
    (inside : tokens <:+: others) : Blames others e := by
  cases blames with
  | run run => exact .run (run.trans inside)
  | params delegate span cut refused => exact .params (delegate.trans inside) span cut refused
  | stranger member strange => exact .stranger (inside.mem member) strange
  | unclosed member opens => exact .unclosed (inside.mem member) opens
  | operand member operator => exact .operand (inside.mem member) operator
  | hollow member closes => exact .hollow (inside.mem member) closes
  | gap pair separates => exact .gap (pair.trans inside) separates

theorem Blames.column {tokens : List Token} {e : ParseError} (blames : Blames tokens e) :
    ∃ t ∈ tokens, t.column = e.column := by
  cases blames with
  | run run => exact ⟨_, run.mem List.mem_cons_self, rfl⟩
  | params delegate => exact ⟨_, delegate.mem List.mem_cons_self, rfl⟩
  | stranger member | unclosed member | operand member | hollow member => exact ⟨_, member, rfl⟩
  | gap pair => exact ⟨_, pair.mem (List.mem_cons_of_mem _ List.mem_cons_self), rfl⟩

theorem blames_unwrap {tokens : List Token} {e : ParseError} (failed : unwrap tokens = .error e) : Blames tokens e := by
  fun_induction unwrap tokens with
  | case1 => cases failed
  | case2 tokens closer wrapped =>
    cases failed
    obtain ⟨opener, rfl, span⟩ := (wrapped?_eq_some_iff .round).mp wrapped
    exact .hollow (by simp) span.closes
  | case3 tokens t inner last wrapped ih =>
    obtain ⟨opener, -, rfl⟩ := wrapped?_eq_some wrapped
    exact (ih failed).mono ⟨[opener], [last], by simp⟩

theorem blames_ofToken {t : Token} {e : ParseError} (failed : ofToken t = .error e) : Blames [t] e := by
  rw [ofToken] at failed
  split at failed
  · cases failed
  · split at failed
    · cases failed
      have same : joined [t] = t.text := by simp [joined, texts]
      exact same ▸ .run List.infix_rfl
    · cases failed

/-- A part is missing before the closing bracket or before the token after a comma. -/
theorem blames_slots {closer : Token} {kind : Bracket} (closes : closer.text = kind.closer) {inner : List Token}
    {groups : List (List Token)} (parted : Parted "," inner groups) {e : ParseError}
    (member : .error e ∈ slots closer groups) : Blames (inner ++ [closer]) e := by
  induction parted with
  | last group =>
    simp only [slots, List.mem_singleton] at member
    split at member
    · cases member
      exact .hollow (by simp) closes
    · cases member
  | @more comma rest groups group separates others ih =>
    rw [slots] at member
    rcases List.mem_cons.mp member with here | member
    · split at here
      · rename_i empty
        cases here
        obtain rfl := List.isEmpty_iff.mp empty
        obtain ⟨next, more, rfl⟩ := List.exists_cons_of_ne_nil others.ne_nil
        obtain ⟨back, rfl⟩ := others.head_isPrefix
        cases next with
        | nil => exact .hollow (by simp) closes
        | cons t next => exact .gap ⟨[], next ++ back ++ [closer], by simp⟩ separates
      · cases here
    · exact (ih member).mono ⟨group ++ [comma], [], by simp⟩

theorem blames_outline {start : Nat} {tokens : List Token} {e : ParseError} (failed : outline start tokens = .error e) :
    Blames tokens e := by
  have later {entry : Nat × Token} {result : Except ParseError (List (Nat × Token))}
      (failed : result.map (entry :: ·) = .error e) : result = .error e := by
    cases result with
    | error other => exact congrArg _ (Except.error.inj failed)
    | ok entries => cases failed
  fun_induction outline start tokens with
  | case1 => cases failed
  | case2 start t rest closer _ inner last after found ih =>
    exact (ih (later failed)).mono ⟨t :: inner ++ [last], [], by simp [enclosed?_eq_some found]⟩
  | case3 start t rest closer closes =>
    cases failed
    exact .unclosed List.mem_cons_self closes
  | case4 start t rest _ ih => exact (ih (later failed)).mono (List.suffix_cons t rest).isInfix

theorem mem_outline {start index : Nat} {tokens : List Token} {entries : List (Nat × Token)} {t : Token}
    (outlined : outline start tokens = .ok entries) (member : (index, t) ∈ entries) : t ∈ tokens := by
  obtain ⟨skip, -, rest, here⟩ := outline_index outlined member
  exact List.mem_of_mem_drop (here ▸ List.mem_cons_self)

theorem blames_ofBinary {tokens : List Token} (filled : tokens ≠ []) {e : ParseError}
    (failed : ofBinary tokens = .error e) : Blames tokens e := by
  simp only [ofBinary] at failed
  split at failed
  · rename_i e' unclosed
    cases failed
    exact blames_outline unclosed
  rename_i entries outlined
  split at failed
  · split at failed
    · rename_i index t found
      cases failed
      exact .stranger (mem_outline outlined (List.mem_of_find?_eq_some found)) (by simpa using List.find?_some found)
    · cases failed
      obtain ⟨first, rest, rfl⟩ := List.exists_cons_of_ne_nil filled
      exact .run List.infix_rfl
  rename_i index op weakest
  obtain ⟨t, member, operator⟩ := mem_binaryOperators (weakest?_mem weakest)
  obtain ⟨skip, same, rest, here⟩ := outline_index outlined member
  obtain rfl : index = skip := by omega
  rw [here] at failed
  simp only at failed
  split at failed
  · cases failed
    exact .operand (mem_outline outlined member) (isOperator_of_ofSymbol? operator)
  · cases failed

theorem blames_ofDelegate {opener closer : Token} {inner : List Token} (span : Span .square opener inner closer)
    {e : ParseError} (failed : ofDelegate opener inner closer = .error e) :
    Blames (opener :: inner ++ [closer]) e := by
  simp only [ofDelegate] at failed
  split at failed
  · cases failed
    exact .run List.infix_rfl
  rename_i before body cut
  split at failed
  · rename_i refused
    cases failed
    exact .params List.infix_rfl span cut refused
  · split at failed
    · cases failed
      exact .hollow (by simp) span.closes
    · cases failed

theorem blames_ofCompound {first second : Token} {rest : List Token} {e : ParseError} (unsigned : first.text ≠ "-")
    (failed : ofCompound first second rest = .error e) : Blames (first :: second :: rest) e := by
  have binary := fun failed => blames_ofBinary (e := e) (List.cons_ne_nil first (second :: rest)) failed
  simp only [ofCompound, if_neg unsigned] at failed
  split at failed
  · cases failed
  split at failed
  · rename_i inner closer wrapped
    split at failed
    · cases failed
      obtain ⟨opener, same, span⟩ := (wrapped?_eq_some_iff .angle).mp wrapped
      rw [same]
      exact .hollow (by simp) span.closes
    · cases failed
  split at failed
  · cases failed
  split at failed
  · rename_i opens
    split at failed
    · cases failed
      exact opens ▸ .unclosed List.mem_cons_self (opens ▸ by decide)
    · rename_i inner closer search
      obtain ⟨same, closes, balanced⟩ := (enclosed?_eq_some_iff .square).mp search
      rw [same]
      exact blames_ofDelegate ⟨opens, closes, balanced⟩ failed
    · exact binary failed
  split at failed
  · rename_i named
    split at failed
    · cases failed
      have opens : second.text = "(" := of_decide_eq_true (Bool.and_eq_true _ _ ▸ named).2
      exact opens ▸ .unclosed (by simp) (opens ▸ by decide)
    · cases failed
    · exact binary failed
  · exact binary failed

theorem blames_faults {inner : List Token} {closer : Token} {kind : Bracket} (closes : closer.text = kind.closer)
    {e : ParseError} (member : .error e ∈ parts inner closer) : Blames (inner ++ [closer]) e := by
  rw [parts] at member
  split at member
  · cases member
  · exact blames_slots closes (parted_split _ _) member

theorem mem_faults {slots : List Slot} {e : ParseError} (member : e ∈ (list slots).faults) : .error e ∈ slots := by
  obtain ⟨slot, inside, same⟩ := List.mem_filterMap.mp member
  cases slot <;> cases same
  exact inside

theorem Shape.blames {tokens : List Token} {form : Form} (shape : Shape tokens form) {e : ParseError}
    (member : e ∈ form.faults) : Blames tokens e := by
  cases shape with
  | number | name | literal | delegate | binary => cases member
  | @list opener closer inner span =>
    obtain ⟨group, -, same⟩ := List.mem_map.mp (mem_faults member)
    cases same
  | @vector opener closer inner span filled =>
    exact (blames_faults span.closes (mem_faults member)).mono ⟨[opener], [], by simp⟩
  | @call name opener closer inner letters span =>
    exact (blames_faults span.closes (mem_faults member)).mono ⟨[name, opener], [], by simp⟩

theorem Raises.blames {tokens : List Token} (filled : tokens ≠ []) {e : ParseError} (raises : Raises tokens e) :
    Blames tokens e := by
  cases raises with
  | rule failed =>
    rw [Form.rule] at failed
    split at failed
    · rename_i stuck
      cases failed
      exact blames_unwrap stuck
    · rename_i bare
      exact absurd rfl (unwrap_filled bare filled)
    · rename_i t bare
      have atom : ofToken t = .error e := @map_form_injective _ (.error e) failed
      exact (blames_ofToken atom).mono (infix_unwrap bare)
    · rename_i first second rest bare
      split at failed
      · cases failed
      · rename_i unsigned
        have compound : ofCompound first second rest = .error e := @map_form_injective _ (.error e) failed
        exact (blames_ofCompound unsigned compound).mono (infix_unwrap bare)
  | part found member =>
    rcases rule_eq_form found with ⟨expr, rfl⟩ | ⟨first, second, rest, bare, -, compound⟩
    · cases member
    · exact ((ofCompound_shape compound).blames member).mono (infix_unwrap bare)

end Form

/-! ### Sites -/

/-- Parts are read up to the first that fails. -/
theorem Slot.readEach_eq_error {slots : List Slot} {e : ParseError} (failed : Slot.readEach slots = .error e) :
    .error e ∈ slots ∨ ∃ tokens, .ok tokens ∈ slots ∧ Expr.ofTokens tokens = .error e := by
  induction slots with
  | nil => cases failed
  | cons slot rest ih =>
    cases slot with
    | error other =>
      cases failed
      exact .inl List.mem_cons_self
    | ok tokens =>
      simp only [readEach] at failed
      split at failed
      · rename_i first
        cases failed
        exact .inr ⟨tokens, List.mem_cons_self, first⟩
      · split at failed
        · rename_i others
          cases failed
          rcases ih others with missing | ⟨part, member, inside⟩
          · exact .inl (List.mem_cons_of_mem _ missing)
          · exact .inr ⟨part, List.mem_cons_of_mem _ member, inside⟩
        · cases failed

theorem Form.read_eq_error {form : Form} {e : ParseError} (failed : form.read = .error e) :
    e ∈ form.faults ∨ ∃ part ∈ form.operands, Expr.ofTokens part = .error e := by
  have slots {items : List Slot} {make : List Expr → Expr} (failed : (Slot.readEach items).map make = .error e) :
      .error e ∈ items ∨ ∃ part, .ok part ∈ items ∧ Expr.ofTokens part = .error e := by
    refine Slot.readEach_eq_error ?_
    cases result : Slot.readEach items with
    | error other => rw [result] at failed; cases failed; rfl
    | ok exprs => rw [result] at failed; cases failed
  have split {items : List Slot} (found : .error e ∈ items ∨ ∃ part, .ok part ∈ items ∧ Expr.ofTokens part = .error e) :
      e ∈ (Form.list items).faults ∨ ∃ part ∈ (Form.list items).operands, Expr.ofTokens part = .error e := by
    rcases found with missing | ⟨part, member, inside⟩
    · exact .inl (List.mem_filterMap.mpr ⟨_, missing, rfl⟩)
    · exact .inr ⟨part, List.mem_filterMap.mpr ⟨_, member, rfl⟩, inside⟩
  cases form with
  | leaf => cases failed
  | list items => exact split (slots failed)
  | vector items => exact split (slots failed)
  | call name args => exact split (slots failed)
  | binary op left right =>
    right
    simp only [read] at failed
    split at failed
    · rename_i first
      cases failed
      exact ⟨left, by simp [operands], first⟩
    · split at failed
      · rename_i second
        cases failed
        exact ⟨right, by simp [operands], second⟩
      · cases failed

/-- An error of reading comes up at tokens that reading comes to. -/
theorem Expr.exists_raises {tokens : List Token} {e : ParseError} (failed : ofTokens tokens = .error e) :
    ∃ site, Relation.ReflTransGen Form.Calls site tokens ∧ Form.Raises site e := by
  induction tokens using Form.calls_wellFounded.induction with
  | _ tokens ih =>
    rw [ofTokens_eq] at failed
    cases step : Form.rule tokens with
    | error other =>
      rw [Form.ofTokens_of_rule (.error other) step] at failed
      cases failed
      exact ⟨tokens, .refl, .rule step⟩
    | ok rule =>
      cases rule with
      | instead next =>
        rw [Form.ofTokens_of_instead step, ← ofTokens_eq] at failed
        obtain ⟨site, reached, raises⟩ := ih next (.instead step) failed
        exact ⟨site, reached.tail (.instead step), raises⟩
      | form form =>
        rw [Form.ofTokens_of_rule (.ok form) step] at failed
        rcases Form.read_eq_error failed with member | ⟨part, member, inside⟩
        · exact ⟨tokens, .refl, .part step member⟩
        · obtain ⟨site, reached, raises⟩ := ih part (.part step member) inside
          exact ⟨site, reached.tail (.part step member), raises⟩

namespace Form

/-! ### Tokens that are put in -/

/-- The tokens of a source as they stand, or those from a minus on with what negations put around them. -/
inductive Padded (source : List Token) : List Token → Prop
  | plain : Padded source source
  | negated {minus : Token} {operand : List Token} (inside : minus :: operand <:+: source) (sign : minus.text = "-")
      (closers : Nat) : Padded source (⟨"(", minus.column⟩ :: ⟨"0", minus.column⟩ :: minus :: operand ++
        List.replicate closers ⟨")", lastColumn minus operand⟩)

/-- What stands in a list with copies of a token behind stands in the list, or ends it, with some of the copies. -/
theorem infix_append_replicate {run tokens : List Token} {count : Nat} {t : Token}
    (inside : run <:+: tokens ++ List.replicate count t) : run <:+: tokens ∨
      ∃ front copies, run = front ++ List.replicate (copies + 1) t ∧ front <:+ tokens := by
  obtain ⟨before, after, whole⟩ := inside
  rcases List.append_eq_append_iff.mp whole with ⟨back, rfl, -⟩ | ⟨copied, same, copies⟩
  · exact .inl (List.infix_append _ _ _)
  · obtain ⟨-, copied_eq, -⟩ := List.append_eq_replicate_iff.mp copies.symm
    rcases List.append_eq_append_iff.mp same with ⟨front, rfl, rfl⟩ | ⟨skipped, -, rfl⟩
    · cases length : copied.length with
      | zero => exact .inl ⟨before, [], by simp [List.length_eq_zero_iff.mp length]⟩
      | succ more =>
        rw [length] at copied_eq
        exact .inr ⟨front, more, by rw [copied_eq], List.suffix_append _ _⟩
    · obtain ⟨-, -, run_eq⟩ := List.append_eq_replicate_iff.mp copied_eq
      cases length : run.length with
      | zero => exact .inl (List.length_eq_zero_iff.mp length ▸ List.nil_infix)
      | succ more =>
        rw [length] at run_eq
        exact .inr ⟨[], more, run_eq, List.nil_suffix⟩

/-- A token that is not the first of a list begins what stands behind. -/
theorem infix_of_head_ne {t first : Token} {run rest : List Token} (inside : t :: run <:+: first :: rest)
    (other : t.text ≠ first.text) : t :: run <:+: rest := by
  rcases List.infix_cons_iff.mp inside with front | later
  · exact absurd (congrArg Token.text (List.cons_prefix_cons.mp front).1) other
  · exact later

theorem lastColumn_append {minus t : Token} (operand : List Token) (copies : Nat) :
    lastColumn minus (operand ++ List.replicate (copies + 1) t) = t.column := by
  simp [lastColumn, List.getLast?_append, List.getLast?_replicate]

theorem lastColumn_suffix {minus first : Token} {operand rest : List Token}
    (ends : first :: rest <:+ minus :: operand) : lastColumn minus operand = lastColumn first rest := by
  have column (first : Token) (rest : List Token) :
      ((first :: rest).getLast?.map Token.column).getD 0 = lastColumn first rest := by
    cases rest with
    | nil => rfl
    | cons second rest => simp [lastColumn, List.getLast?_cons]
  obtain ⟨front, whole⟩ := ends
  rw [← column, ← column, ← whole, List.getLast?_append]
  simp [List.getLast?_cons]

/-- A token ends tokens of a source that begin with a minus. -/
def EndsNegation (source : List Token) (last : Token) : Prop :=
  ∃ minus operand, minus :: operand <:+: source ∧ minus.text = "-" ∧ (minus :: operand).getLast? = some last

theorem EndsNegation.mem {source : List Token} {last : Token} (ends : EndsNegation source last) : last ∈ source := by
  obtain ⟨minus, operand, inside, -, same⟩ := ends
  exact inside.mem (List.mem_of_getLast? same)

theorem exists_last (minus : Token) (operand : List Token) :
    ∃ last, (minus :: operand).getLast? = some last ∧ lastColumn minus operand = last.column := by
  refine ⟨operand.getLast?.getD minus, List.getLast?_cons, ?_⟩
  rw [lastColumn]
  cases operand.getLast? <;> rfl

/-- What a negation in such a list is read as is such a list again. -/
theorem Padded.subtraction {source tokens : List Token} (padded : Padded source tokens) {minus : Token}
    {operand : List Token} (inside : minus :: operand <:+: tokens) (sign : minus.text = "-") :
    Padded source (Form.subtraction minus operand) := by
  cases padded with
  | plain => exact .negated inside sign 1
  | @negated first rest whole _ closers =>
    have later := infix_of_head_ne
      (infix_of_head_ne inside fun same => absurd (sign.symm.trans same) (by decide : ("-" : String) ≠ "("))
      fun same => absurd (sign.symm.trans same) (by decide : ("-" : String) ≠ "0")
    rcases infix_append_replicate later with inside | ⟨front, copies, same, ends⟩
    · exact .negated (inside.trans whole) sign 1
    · -- The minus is no parenthesis, so that it stands before the copies.
      cases front with
      | nil =>
        rw [(List.cons.inj same).1] at sign
        exact absurd sign (by decide : (")" : String) ≠ "-")
      | cons t front =>
        obtain ⟨rfl, tail⟩ := List.cons.inj same
        obtain rfl : operand = front ++ List.replicate (copies + 1) ⟨")", lastColumn first rest⟩ := tail
        have columns := lastColumn_suffix ends
        have more : Form.subtraction minus (front ++ List.replicate (copies + 1) ⟨")", lastColumn first rest⟩) =
            ⟨"(", minus.column⟩ :: ⟨"0", minus.column⟩ :: minus :: front ++
              List.replicate (copies + 2) ⟨")", lastColumn minus front⟩ := by
          simp [Form.subtraction, lastColumn_append, columns, List.replicate_succ' (n := copies + 1)]
        rw [more]
        exact .negated (ends.isInfix.trans whole) sign _

/-- A token of such a list is one of the source, or put in: in front of a minus and with its column, or behind with
    the column of the last token. -/
theorem Padded.mem {source tokens : List Token} (padded : Padded source tokens) {t : Token} (member : t ∈ tokens) :
    t ∈ source ∨ (∃ minus ∈ source, minus.text = "-" ∧ (t = ⟨"(", minus.column⟩ ∨ t = ⟨"0", minus.column⟩)) ∨
      ∃ last, EndsNegation source last ∧ t = ⟨")", last.column⟩ := by
  cases padded with
  | plain => exact .inl member
  | @negated minus operand inside sign closers =>
    have first : minus ∈ source := inside.mem List.mem_cons_self
    simp only [List.cons_append, List.mem_cons, List.mem_append, List.mem_replicate] at member
    rcases member with rfl | rfl | rfl | member | ⟨-, rfl⟩
    · exact .inr (.inl ⟨minus, first, sign, .inl rfl⟩)
    · exact .inr (.inl ⟨minus, first, sign, .inr rfl⟩)
    · exact .inl first
    · exact .inl (inside.mem (List.mem_cons_of_mem _ member))
    · obtain ⟨last, ends, columns⟩ := exists_last minus operand
      exact .inr (.inr ⟨last, ⟨minus, operand, inside, sign, ends⟩, by rw [columns]⟩)

/-- Tokens next to each other in such a list are so in the source, or begin or end with tokens that are put in. -/
theorem Padded.run {source tokens : List Token} (padded : Padded source tokens) {first : Token} {rest : List Token}
    (inside : first :: rest <:+: tokens) : first :: rest <:+: source ∨
      (∃ minus ∈ source, minus.text = "-" ∧ (first = ⟨"(", minus.column⟩ ∨ first = ⟨"0", minus.column⟩)) ∨
      ∃ front count last, first :: rest = front ++ List.replicate (count + 1) ⟨")", last.column⟩ ∧
        front <:+: source ∧ (front = [] ∨ front.getLast? = some last) ∧ EndsNegation source last := by
  cases padded with
  | plain => exact .inl inside
  | @negated minus operand whole sign closers =>
    have minusIn : minus ∈ source := whole.mem List.mem_cons_self
    rcases List.infix_cons_iff.mp inside with head | inside
    · exact .inr (.inl ⟨minus, minusIn, sign, .inl (List.cons_prefix_cons.mp head).1⟩)
    rcases List.infix_cons_iff.mp inside with head | inside
    · exact .inr (.inl ⟨minus, minusIn, sign, .inr (List.cons_prefix_cons.mp head).1⟩)
    rcases infix_append_replicate inside with inside | ⟨front, count, same, ⟨before, split⟩⟩
    · exact .inl (inside.trans whole)
    · obtain ⟨last, ends, columns⟩ := exists_last minus operand
      have ending : front = [] ∨ front.getLast? = some last := by
        refine or_iff_not_imp_left.mpr fun filled => ?_
        rw [← split, List.getLast?_append_of_ne_nil _ filled] at ends
        exact ends
      exact .inr (.inr ⟨front, count, last, columns ▸ same, .trans ⟨before, [], by simpa using split⟩ whole, ending,
        minus, operand, whole, sign, ends⟩)

/-- Every token that is put in has the column of one of the source. -/
theorem Padded.column {source tokens : List Token} (padded : Padded source tokens) {t : Token} (member : t ∈ tokens) :
    ∃ origin ∈ source, origin.column = t.column := by
  rcases padded.mem member with own | ⟨minus, inside, -, rfl | rfl⟩ | ⟨last, ends, rfl⟩
  · exact ⟨t, own, rfl⟩
  · exact ⟨minus, inside, rfl⟩
  · exact ⟨minus, inside, rfl⟩
  · exact ⟨last, ends.mem, rfl⟩

/-- Reading comes only to tokens that stand in the source as it is or in what negations make of it. -/
theorem Calls.padded {source tokens : List Token} (reached : Relation.ReflTransGen Calls tokens source)
    (filled : source ≠ []) : tokens ≠ [] ∧ ∃ whole, Padded source whole ∧ tokens <:+: whole := by
  induction reached using Relation.ReflTransGen.head_induction_on with
  | refl => exact ⟨filled, source, .plain, List.infix_rfl⟩
  | head calls _ ih =>
    obtain ⟨-, whole, padded, inside⟩ := ih
    cases calls with
    | part found member =>
      obtain ⟨part, filled⟩ := mem_operands found member
      exact ⟨filled, whole, padded, part.trans inside⟩
    | instead found =>
      obtain ⟨minus, operand, bare, -, sign, rfl⟩ := rule_eq_instead found
      exact ⟨List.cons_ne_nil _ _, _, padded.subtraction ((infix_unwrap bare).trans inside) sign, List.infix_rfl⟩

end Form

/-! ### Places of errors -/

theorem Expr.ofTokens_of_parse? {source : String} {e : ParseError} (failed : parse? source = .error e) :
    lex source ≠ [] ∧ ofTokens (lex source) = .error e := by
  rw [parse?] at failed
  split at failed
  · cases failed
  · rename_i filled
    refine ⟨by simpa using filled, ?_⟩
    cases read : ofTokens (lex source) with
    | error other => rw [read] at failed; cases failed; rfl
    | ok expr => rw [read] at failed; cases failed

/-- An error blames tokens of the source, or of what a negation makes of them. -/
theorem Expr.exists_blames {source : String} {e : ParseError} (failed : parse? source = .error e) :
    ∃ tokens, Form.Padded (lex source) tokens ∧ Form.Blames tokens e := by
  obtain ⟨filled, failed⟩ := ofTokens_of_parse? failed
  obtain ⟨site, reached, raises⟩ := exists_raises failed
  obtain ⟨some, tokens, padded, inside⟩ := Form.Calls.padded reached filled
  exact ⟨tokens, padded, (raises.blames some).mono inside⟩

/-- A source text without tokens is read as nothing. Any other is read without coming to a list without tokens, and
    if that fails, the column of the error is that of a token. Every text that is taken for an operator is one. -/
theorem Expr.parse?_column (source : String) :
    (parse? source = .ok none ↔ lex source = []) ∧
    (∀ e, parse? source = .error e →
      ∃ t ∈ lex source, t.column = e.column ∧ 1 ≤ e.column ∧ e.column ≤ source.length) ∧
    (lex source ≠ [] → ∀ tokens, Relation.ReflTransGen Form.Calls tokens (lex source) → tokens ≠ []) ∧
    ∀ text, isOperator text = true → (Op.ofSymbol? text).isSome = true := by
  refine ⟨?_, ?_, ?_, ?_⟩
  · rw [parse?]
    cases tokens : lex source with
    | nil => simp
    | cons t rest => cases ofTokens (t :: rest) <;> simp [Except.map]
  · intro e failed
    obtain ⟨tokens, padded, blames⟩ := exists_blames failed
    obtain ⟨t, member, same⟩ := blames.column
    obtain ⟨origin, member, column⟩ := padded.column member
    have place := column_lex member
    rw [column, same] at place
    exact ⟨origin, member, column.trans same, place.2⟩
  · intro filled tokens reached
    exact (Form.Calls.padded reached filled).1
  · intro text operator
    simp only [isOperator, Bool.or_eq_true, decide_eq_true_eq] at operator
    rcases operator with (((rfl | rfl) | rfl) | rfl) | rfl <;> rfl

/-- A bracket that a minus stands before is not closed by the parenthesis that is put in behind it. -/
theorem Expr.parse?_negation_unclosed : parse? "-(1" = .error (.bracket 1 "(" ")") := by
  have tokens : lex "-(1" = [⟨"-", 1⟩, ⟨"(", 2⟩, ⟨"1", 3⟩] := by decide
  have form : Form.ofTokens [⟨"-", 1⟩, ⟨"(", 2⟩, ⟨"1", 3⟩] = .error (.bracket 1 "(" ")") := by cbv
  rw [parse?, tokens, ofTokens_eq, form]
  rfl

/-- The parenthesis that is put in has the column of the minus. -/
theorem Expr.parse?_column_negation :
    parse? "-(1" = .error (.bracket 1 "(" ")") ∧ (∃ t ∈ lex "-(1", t.column = 1) ∧ lex "-(1" ≠ [] ∧
      ∀ tokens, Relation.ReflTransGen Form.Calls tokens (lex "-(1") → tokens ≠ [] := by
  obtain ⟨-, located, whole, -⟩ := parse?_column "-(1"
  obtain ⟨t, member, column, -⟩ := located _ parse?_negation_unclosed
  have filled : lex "-(1" ≠ [] := by decide
  exact ⟨parse?_negation_unclosed, ⟨t, member, column⟩, filled, whole filled⟩

end Reckon
