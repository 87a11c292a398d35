import Reckon.Expr.Form

/-!
# Parts weigh less than the whole

An operator weighs four and any other token one. Main statement: every part of
the form of a list of tokens weighs less than the list. A negation adds three
tokens, but its form is split at an operator, which weighs more.
-/

namespace Reckon

namespace Token

/-- What tokens weigh. -/
def weight : List Token → Nat
  | [] => 0
  | t :: rest => (if isOperator t.text then 4 else 1) + weight rest

@[simp]
theorem weight_nil : weight [] = 0 := rfl

@[simp]
theorem weight_append (left right : List Token) :
    weight (left ++ right) = weight left + weight right := by
  induction left with
  | nil => simp
  | cons t rest ih => simp [weight, ih, Nat.add_assoc]

theorem weight_cons (t : Token) (rest : List Token) :
    weight (t :: rest) = (if isOperator t.text then 4 else 1) + weight rest := rfl

theorem weight_lt_cons (t : Token) (rest : List Token) : weight rest < weight (t :: rest) := by
  rw [weight_cons]
  split <;> omega

theorem weight_le (tokens : List Token) : weight tokens ≤ 4 * tokens.length := by
  induction tokens with
  | nil => exact Nat.le_refl _
  | cons t rest ih =>
    rw [weight_cons, List.length_cons]
    split <;> omega

theorem weight_pos_iff {tokens : List Token} : 0 < weight tokens ↔ tokens ≠ [] := by
  cases tokens with
  | nil => simp
  | cons t rest => simpa using Nat.lt_of_le_of_lt (Nat.zero_le _) (weight_lt_cons t rest)

theorem weight_wrapped {opener closer : String} {tokens inner : List Token} {last : Token}
    (h : wrapped? opener closer tokens = some (inner, last)) : weight inner < weight tokens := by
  obtain ⟨t, _, rfl⟩ := wrapped?_eq_some h
  have := weight_lt_cons t (inner ++ [last])
  simp at this ⊢
  omega

theorem weight_intoFirst {tokens : List Token} {groups : List (List Token)} {bound : Nat}
    (h : ∀ group ∈ groups, weight group ≤ bound) :
    ∀ group ∈ intoFirst tokens groups, weight group ≤ weight tokens + bound := by
  cases groups with
  | nil => simp [intoFirst]
  | cons first groups =>
    intro group hgroup
    simp only [intoFirst, List.mem_cons] at hgroup
    rcases hgroup with rfl | hgroup
    · have := h first (by simp)
      simp
      omega
    · have := h group (by simp [hgroup])
      omega

theorem weight_split (separator : String) (tokens : List Token) :
    ∀ group ∈ split separator tokens, weight group ≤ weight tokens := by
  fun_induction split separator tokens with
  | case1 => simp
  | case2 t rest closer _ inner last after found ih =>
    intro group hgroup
    have := weight_intoFirst ih group hgroup
    have whole := congrArg weight (enclosed?_eq_some found)
    simp [weight_cons] at this whole ⊢
    omega
  | case3 t rest => simp
  | case4 t rest _ _ ih =>
    intro group hgroup
    have := weight_lt_cons t rest
    simp only [List.mem_cons] at hgroup
    rcases hgroup with rfl | hgroup
    · simp
    · have := ih group hgroup
      omega
  | case5 t rest _ _ ih =>
    intro group hgroup
    have := weight_intoFirst ih group hgroup
    simp [weight_cons] at this ⊢
    omega

end Token

open Token

namespace Form

/-- The tokens of the parts of a form that has any. -/
def operands : Form → List (List Token)
  | leaf _ => []
  | list items | vector items | call _ items => items.filterMap Except.toOption
  | binary _ left right => [left, right]

theorem weight_unwrap {tokens inner : List Token} (h : unwrap tokens = .ok inner) :
    weight inner ≤ weight tokens := by
  fun_induction unwrap tokens with
  | case1 tokens => cases h; exact Nat.le_refl _
  | case2 => cases h
  | case3 tokens t rest last found ih =>
    have := weight_wrapped found
    have := ih h
    omega

theorem weight_slots {closer : Token} {groups : List (List Token)} {tokens : List Token}
    (h : tokens ∈ (slots closer groups).filterMap Except.toOption) : tokens ∈ groups := by
  induction groups with
  | nil => simp [slots] at h
  | cons group groups ih =>
    simp only [slots, List.filterMap_cons] at h
    split at h
    · exact List.mem_cons_of_mem _ (ih h)
    · rename_i found
      split at found
      · simp [Except.toOption] at found
      · simp [Except.toOption] at found
        rcases List.mem_cons.1 h with rfl | h
        · simp [found]
        · exact List.mem_cons_of_mem _ (ih h)

theorem weight_parts {inner : List Token} {closer : Token} {tokens : List Token}
    (h : tokens ∈ (parts inner closer).filterMap Except.toOption) :
    weight tokens ≤ weight inner := by
  simp only [parts] at h
  split at h
  · simp at h
  · exact weight_split _ _ _ (weight_slots h)

theorem weight_items {inner tokens : List Token}
    (h : tokens ∈ (items inner).filterMap Except.toOption) : weight tokens ≤ weight inner := by
  simp only [items, List.filterMap_map, List.mem_filterMap, List.mem_filter] at h
  obtain ⟨group, ⟨hgroup, _⟩, heq⟩ := h
  simp [Except.toOption] at heq
  exact heq ▸ weight_split _ _ _ hgroup

/-- An operator heads the tokens from the index of a binary operator on. -/
theorem outline_index {start index : Nat} {tokens : List Token} {entries : List (Nat × Token)}
    {t : Token} (h : outline start tokens = .ok entries) (hmem : (index, t) ∈ entries) :
    ∃ skip, index = start + skip ∧ ∃ rest, tokens.drop skip = t :: rest := by
  fun_induction outline start tokens generalizing entries with
  | case1 => cases h; simp at hmem
  | case2 start first rest closer _ inner last after found ih =>
    obtain ⟨more, hmore, rfl⟩ : ∃ more, outline (start + inner.length + 2) after = .ok more ∧
        (start, first) :: more = entries := by
      cases hmore : outline (start + inner.length + 2) after with
      | error e => simp [hmore, Except.map] at h
      | ok more => exact ⟨more, rfl, by simpa [hmore, Except.map] using h⟩
    rcases List.mem_cons.1 hmem with heq | hmem
    · obtain ⟨rfl, rfl⟩ := Prod.mk.inj heq
      exact ⟨0, rfl, rest, rfl⟩
    · obtain ⟨skip, rfl, tail, htail⟩ := ih hmore hmem
      refine ⟨inner.length + (skip + 1) + 1, by omega, tail, ?_⟩
      rw [enclosed?_eq_some found, ← htail, List.drop_succ_cons, ← List.drop_drop, List.drop_left,
        List.drop_succ_cons]
  | case3 => cases h
  | case4 start first rest _ ih =>
    obtain ⟨more, hmore, rfl⟩ : ∃ more, outline (start + 1) rest = .ok more ∧
        (start, first) :: more = entries := by
      cases hmore : outline (start + 1) rest with
      | error e => simp [hmore, Except.map] at h
      | ok more => exact ⟨more, rfl, by simpa [hmore, Except.map] using h⟩
    rcases List.mem_cons.1 hmem with heq | hmem
    · obtain ⟨rfl, rfl⟩ := Prod.mk.inj heq
      exact ⟨0, rfl, rest, rfl⟩
    · obtain ⟨skip, rfl, tail, htail⟩ := ih hmore hmem
      exact ⟨skip + 1, by omega, tail, by simpa using htail⟩

theorem mem_binaryOperators {after : Bool} {entries : List (Nat × Token)} {index : Nat} {op : Op}
    (h : (index, op) ∈ binaryOperators after entries) :
    ∃ t, (index, t) ∈ entries ∧ Op.ofSymbol? t.text = some op := by
  fun_induction binaryOperators after entries with
  | case1 => simp at h
  | case2 _ _ _ _ _ ih | case3 _ _ _ _ _ ih =>
    obtain ⟨t, ht, hop⟩ := ih h
    exact ⟨t, by simp [ht], hop⟩
  | case4 _ i t rest op' hop _ ih =>
    rcases List.mem_cons.1 h with heq | h
    · obtain ⟨rfl, rfl⟩ := Prod.mk.inj heq
      exact ⟨t, by simp, hop⟩
    · obtain ⟨t, ht, hop⟩ := ih h
      exact ⟨t, by simp [ht], hop⟩

theorem weakest?_mem {candidates : List (Nat × Op)} {found : Nat × Op}
    (h : weakest? candidates = some found) : found ∈ candidates := by
  fun_induction weakest? candidates with
  | case1 => cases h
  | case2 => cases h; simp
  | case3 _ _ later hlater _ ih => cases h; simp [ih hlater]
  | case4 => cases h; simp

theorem isOperator_of_ofSymbol? {text : String} {op : Op} (h : Op.ofSymbol? text = some op) :
    isOperator text = true := by
  simp only [Op.ofSymbol?] at h
  repeat' split at h
  all_goals simp_all [isOperator]

/-- Both operands of a binary operation weigh at least five less than the whole. -/
theorem weight_ofBinary {tokens : List Token} {form : Form} (h : ofBinary tokens = .ok form) :
    ∀ operand ∈ form.operands, weight operand + 5 ≤ weight tokens := by
  simp only [ofBinary] at h
  split at h
  · cases h
  rename_i entries hentries
  split at h
  · split at h <;> cases h
  rename_i index op hweakest
  split at h
  · cases h
  rename_i t right hdrop
  split at h
  · cases h
  rename_i hempty
  cases h
  obtain ⟨t', ht', hop⟩ := mem_binaryOperators (weakest?_mem hweakest)
  obtain ⟨skip, hskip, rest, hrest⟩ := outline_index hentries ht'
  obtain rfl : index = skip := by omega
  rw [hrest] at hdrop
  obtain ⟨rfl, rfl⟩ := List.cons.inj hdrop
  have whole : weight tokens = weight (tokens.take index) + (4 + weight rest) := by
    conv => lhs; rw [← List.take_append_drop index tokens, hrest]
    simp [weight_cons, isOperator_of_ofSymbol? hop]
  simp only [Bool.or_eq_true, List.isEmpty_iff, not_or] at hempty
  have hleft := weight_pos_iff.2 hempty.1
  have hright := weight_pos_iff.2 hempty.2
  simp only [operands, List.mem_cons, List.not_mem_nil, or_false]
  rintro operand (rfl | rfl) <;> omega

/-- A negation is read as three tokens more, of which the operator takes five away again. -/
theorem weight_ofNegation {minus : Token} {operand : List Token} {form : Form}
    (h : ofNegation minus operand = .ok form) :
    ∀ part ∈ form.operands, weight part + 2 ≤ weight (minus :: operand) := by
  have three (column last : Nat) :
      weight (⟨"(", column⟩ :: ⟨"0", column⟩ :: minus :: operand ++ [⟨")", last⟩])
        = weight (minus :: operand) + 3 := by
    simp [weight_cons, isOperator]
    omega
  intro part hpart
  simp only [ofNegation] at h
  split at h
  · rename_i inner last found
    have := weight_wrapped found
    have := weight_ofBinary h part hpart
    rw [three] at *
    omega
  · have := weight_ofBinary h part hpart
    rw [three] at this
    omega

theorem operands_ofDelegate {opener closer : Token} {inner : List Token} {form : Form}
    (h : ofDelegate opener inner closer = .ok form) : form.operands = [] := by
  simp only [ofDelegate] at h
  split at h
  · cases h
  · split at h
    · cases h
    · split at h
      · cases h
      · cases h; rfl

theorem weight_ofCompound {first second : Token} {rest : List Token} {form : Form}
    (h : ofCompound first second rest = .ok form) :
    ∀ part ∈ form.operands, weight part < weight (first :: second :: rest) := by
  intro part hpart
  have binary {form : Form} (h : ofBinary (first :: second :: rest) = .ok form)
      (hpart : part ∈ form.operands) : weight part < weight (first :: second :: rest) := by
    have := weight_ofBinary h part hpart
    omega
  simp only [ofCompound] at h
  split at h
  · rename_i found
    cases h
    exact Nat.lt_of_le_of_lt (weight_items hpart) (weight_wrapped found)
  split at h
  · rename_i found
    split at h
    · cases h
    · cases h
      exact Nat.lt_of_le_of_lt (weight_parts hpart) (weight_wrapped found)
  split at h
  · cases h
    simp [operands] at hpart
  split at h
  · have := weight_ofNegation h part hpart
    omega
  split at h
  · split at h
    · cases h
    · rw [operands_ofDelegate h] at hpart
      simp at hpart
    · exact binary h hpart
  split at h
  · split at h
    · cases h
    · rename_i found
      cases h
      have := weight_parts hpart
      have := congrArg weight (enclosed?_eq_some found)
      have := weight_lt_cons first (second :: rest)
      have := weight_lt_cons second rest
      simp at *
      omega
    · exact binary h hpart
  · exact binary h hpart

/-- Every part of a form weighs less than the tokens it was made from. -/
theorem weight_ofTokens {tokens : List Token} {form : Form} (h : ofTokens tokens = .ok form) :
    ∀ part ∈ form.operands, weight part < weight tokens := by
  intro part hpart
  simp only [ofTokens] at h
  split at h
  · cases h
  · cases h
  · simp only [ofToken] at h
    split at h
    · cases h; simp [operands] at hpart
    · split at h
      · cases h
      · cases h; simp [operands] at hpart
  · rename_i hunwrap
    exact Nat.lt_of_lt_of_le (weight_ofCompound h part hpart) (weight_unwrap hunwrap)

/-- Every part of a list, a vector or a call is light. -/
theorem slot_light {tokens : List Token} {form : Form} {slots : List Slot}
    (h : ofTokens tokens = .ok form)
    (hslots : form.operands = slots.filterMap Except.toOption) (part : List Token)
    (hpart : .ok part ∈ slots) : weight part < weight tokens :=
  weight_ofTokens h part (hslots ▸ List.mem_filterMap.2 ⟨_, hpart, rfl⟩)

end Form

end Reckon
