import Reckon.Proofs.Reading

/-!
How operators bind. A chain is a sequence of operands with an operator between each two and any
number of minuses before each. It is cut into products at the operators that bind
least (`cut`), and it is read as its products grouped to the left, each of them its
factors grouped to the left (`Chain.ofTokens_tokens`). Minuses before a product negate
the whole of it, and minuses before a later factor that factor alone.
-/

namespace Reckon
open Token

/-- An operand, what it is read as, and the minuses before it. -/
structure Factor where
  signs : List Token
  tokens : List Token
  expr : Expr
  minus : ∀ t ∈ signs, t.text = "-"
  operand : Operand tokens
  balanced : ∀ kind, Balanced kind (texts tokens)
  reads : Expr.ofTokens tokens = .ok expr

/-- A binary operator and the factor after it. -/
structure Link where
  operator : Token
  op : Op
  factor : Factor
  symbol : Op.ofSymbol? operator.text = some op

/-- A factor and those that operators link to it. -/
structure Chain where
  first : Factor
  rest : List Link

/-- The tokens of a factor. -/
def Factor.allTokens (factor : Factor) : List Token := factor.signs ++ factor.tokens

/-- The tokens of links. -/
def Link.allTokens : List Link → List Token
  | [] => []
  | link :: rest => link.operator :: link.factor.allTokens ++ allTokens rest

/-- The tokens of a chain. -/
def Chain.tokens (chain : Chain) : List Token := chain.first.allTokens ++ Link.allTokens chain.rest

/-! ### The tree of a chain -/

/-- An expression after so many minuses, each of them a subtraction from zero. -/
def Expr.negated : Nat → Expr → Expr
  | 0, expr => expr
  | count + 1, expr => .binary .sub (.num 0) (negated count expr)

/-- A factor after the first of its product, negated alone. -/
def Factor.tree (factor : Factor) : Expr := .negated factor.signs.length factor.expr

/-- A product, negated as a whole by the minuses before its first factor. -/
def Factor.product (first : Factor) (rest : List Link) : Expr :=
  .negated first.signs.length
    (rest.foldl (fun left link => .binary link.op left link.factor.tree) first.expr)

/-- Cuts links at the operators that bind least: the links before the first of these, and each of
    these with the links up to the next. -/
def Link.cut : List Link → List Link × List (Link × List Link)
  | [] => ([], [])
  | link :: rest =>
    if link.op.precedence = 0 then ([], (link, (cut rest).1) :: (cut rest).2)
    else (link :: (cut rest).1, (cut rest).2)

/-- The tree of a chain: its products grouped to the left. -/
def Chain.tree (chain : Chain) : Expr :=
  (Link.cut chain.rest).2.foldl
    (fun left (link, factors) => .binary link.op left (link.factor.product factors))
    (chain.first.product (Link.cut chain.rest).1)

theorem Op.precedence_le (op : Op) : op.precedence ≤ 1 := by
  cases op <;> simp [precedence]

theorem Link.cut_strong {links : List Link} (strong : ∀ link ∈ links, 0 < link.op.precedence) :
    cut links = (links, []) := by
  induction links with
  | nil => rfl
  | cons link rest ih =>
    have first : link.op.precedence ≠ 0 := Nat.ne_of_gt (strong link (by simp))
    have others := ih fun other member => strong other (by simp [member])
    rw [cut, if_neg first, others]

theorem Link.cut_append {weak : Link} (binds : weak.op.precedence = 0) (front : List Link) {back : List Link}
    (strong : ∀ link ∈ back, 0 < link.op.precedence) :
    cut (front ++ weak :: back) = ((cut front).1, (cut front).2 ++ [(weak, back)]) := by
  induction front with
  | nil => simp [cut, binds, cut_strong strong]
  | cons link rest ih =>
    rw [List.cons_append, cut, ih, cut]
    split <;> rfl

/-- A chain without minuses in front is the operation of the last of its weakest operators. -/
theorem Chain.tree_split {first : Factor} {link : Link} {front back : List Link} (unsigned : first.signs = [])
    (before : ∀ other ∈ front, link.op.precedence ≤ other.op.precedence)
    (after : ∀ other ∈ back, link.op.precedence < other.op.precedence) :
    tree ⟨first, front ++ link :: back⟩ = .binary link.op (tree ⟨first, front⟩) (tree ⟨link.factor, back⟩) := by
  by_cases weak : link.op.precedence = 0
  · have strong : ∀ other ∈ back, 0 < other.op.precedence := fun other member => weak ▸ after other member
    simp [tree, Link.cut_append weak front strong, Link.cut_strong strong]
  · obtain rfl : back = [] := by
      refine List.eq_nil_iff_forall_not_mem.mpr fun other member => ?_
      have above := after other member
      have bound := other.op.precedence_le
      omega
    have strong : ∀ other ∈ front, 0 < other.op.precedence := fun other member => by
      have below := before other member
      omega
    have all : ∀ other ∈ front ++ [link], 0 < other.op.precedence := by
      intro other member
      rcases List.mem_append.mp member with member | member
      · exact strong other member
      · obtain rfl := List.mem_singleton.mp member
        omega
    simp [tree, Link.cut_strong all, Link.cut_strong strong, Link.cut, Factor.product, Factor.tree, unsigned,
      Expr.negated]

/-! ### The operators of a chain -/

namespace Form

/-- The operators of links with their indices. -/
def positions (index : Nat) : List Link → List (Nat × Op)
  | [] => []
  | link :: rest => (index, link.op) :: positions (index + 1 + link.factor.allTokens.length) rest

theorem positions_append (index : Nat) (front back : List Link) :
    positions index (front ++ back) =
      positions index front ++ positions (index + (Link.allTokens front).length) back := by
  induction front generalizing index with
  | nil => rfl
  | cons link rest ih =>
    have length : index + 1 + link.factor.allTokens.length + (Link.allTokens rest).length =
        index + (Link.allTokens (link :: rest)).length := by
      simp [Link.allTokens]
      omega
    rw [List.cons_append, positions, ih, length]
    rfl

theorem mem_positions {index : Nat} {links : List Link} {entry : Nat × Op} (member : entry ∈ positions index links) :
    ∃ link ∈ links, entry.2 = link.op := by
  induction links generalizing index with
  | nil => simp [positions] at member
  | cons link rest ih =>
    rcases List.mem_cons.mp member with rfl | member
    · exact ⟨link, by simp, rfl⟩
    · obtain ⟨other, found, same⟩ := ih member
      exact ⟨other, by simp [found], same⟩

private theorem binaryOperators_signs {entries : List (Nat × Token)}
    (signs : ∀ entry ∈ entries, ∃ op, Op.ofSymbol? entry.2.text = some op) (rest : List (Nat × Token)) :
    binaryOperators true (entries ++ rest) = binaryOperators true rest := by
  induction entries with
  | nil => rfl
  | cons entry entries ih =>
    obtain ⟨op, symbol⟩ := signs entry (by simp)
    rw [List.cons_append, binaryOperators, symbol]
    exact ih fun other member => signs other (by simp [member])

private theorem outline_signs {signs : List Token} (minus : ∀ t ∈ signs, t.text = "-") (index : Nat) :
    ∃ entries, (∀ entry ∈ entries, ∃ op, Op.ofSymbol? entry.2.text = some op) ∧
      ∀ rest, outline index (signs ++ rest) = (outline (index + signs.length) rest).map (entries ++ ·) := by
  induction signs generalizing index with
  | nil =>
    refine ⟨[], by simp, fun rest => ?_⟩
    simp only [List.nil_append, List.length_nil, Nat.add_zero]
    cases outline index rest <;> rfl
  | cons t signs ih =>
    have text : t.text = "-" := minus t (by simp)
    obtain ⟨entries, symbols, seen⟩ := ih (fun other member => minus other (by simp [member])) (index + 1)
    refine ⟨(index, t) :: entries, ?_, fun rest => ?_⟩
    · intro entry member
      rcases List.mem_cons.mp member with rfl | member
      · exact ⟨.sub, by rw [text]; decide⟩
      · exact symbols entry member
    · have single : closerOf? t.text = none := by
        rw [text]
        decide
      have length : index + (t :: signs).length = index + 1 + signs.length := by
        simp
        omega
      rw [List.cons_append, outline_single single, seen, length]
      cases outline (index + 1 + signs.length) rest <;> rfl

/-- After an operator a factor holds no operator that is seen. -/
theorem outline_factor (factor : Factor) (index : Nat) :
    ∃ entries, (∀ rest, binaryOperators true (entries ++ rest) = binaryOperators false rest) ∧
      ∀ rest, outline index (factor.allTokens ++ rest) =
        (outline (index + factor.allTokens.length) rest).map (entries ++ ·) := by
  obtain ⟨signs, symbols, seenSigns⟩ := outline_signs factor.minus index
  obtain ⟨entries, filled, silent, seen⟩ := outline_operand factor.operand (index + factor.signs.length)
  refine ⟨signs ++ entries, fun rest => ?_, fun rest => ?_⟩
  · rw [List.append_assoc, binaryOperators_signs symbols, binaryOperators_silent filled silent]
  · have length : index + factor.allTokens.length = index + factor.signs.length + factor.tokens.length := by
      simp [Factor.allTokens]
      omega
    rw [Factor.allTokens, List.append_assoc, seenSigns, seen, ← Factor.allTokens, length]
    cases outline (index + factor.signs.length + factor.tokens.length) rest <;> simp [Except.map]

/-- The operators that are seen in links are those between their factors. -/
theorem binaryOperators_links (links : List Link) (index : Nat) :
    ∃ entries, outline index (Link.allTokens links) = .ok entries ∧
      binaryOperators false entries = positions index links := by
  induction links generalizing index with
  | nil => exact ⟨[], by rw [Link.allTokens, outline], rfl⟩
  | cons link rest ih =>
    obtain ⟨inside, hidden, seen⟩ := outline_factor link.factor (index + 1)
    obtain ⟨entries, outlined, operators⟩ := ih (index + 1 + link.factor.allTokens.length)
    refine ⟨(index, link.operator) :: (inside ++ entries), ?_, ?_⟩
    · rw [Link.allTokens, List.cons_append, outline_single (closerOf?_operator link.symbol), seen, outlined]
      rfl
    · simp [binaryOperators, link.symbol, hidden, operators, positions]

theorem weakest?_append {front back : List (Nat × Op)} {found : Nat × Op}
    (before : ∀ other ∈ front, found.2.precedence ≤ other.2.precedence)
    (after : ∀ other ∈ back, found.2.precedence < other.2.precedence) :
    weakest? (front ++ found :: back) = some found := by
  induction front with
  | nil =>
    rw [List.nil_append, weakest?]
    cases weakest : weakest? back with
    | none => rfl
    | some later =>
      have stronger := after later (weakest?_mem weakest)
      simp [Nat.not_le.mpr stronger]
  | cons candidate front ih =>
    have rest := ih fun other member => before other (by simp [member])
    rw [List.cons_append, weakest?, rest]
    simp [before candidate (by simp)]

end Form

theorem Link.allTokens_append (front back : List Link) :
    allTokens (front ++ back) = allTokens front ++ allTokens back := by
  induction front with
  | nil => rfl
  | cons link rest ih => simp [allTokens, ih]

/-- A chain is cut in two at each of its operators. -/
theorem Chain.tokens_split (first : Factor) (front back : List Link) (link : Link) :
    tokens ⟨first, front ++ link :: back⟩ =
      tokens ⟨first, front⟩ ++ link.operator :: tokens ⟨link.factor, back⟩ := by
  simp [tokens, Link.allTokens_append, Link.allTokens]

theorem Chain.tokens_ne_nil (chain : Chain) : chain.tokens ≠ [] := by
  simp [tokens, Factor.allTokens, chain.first.operand.ne_nil]

theorem Form.ofBinary_chain {first : Factor} {link : Link} {front back : List Link} (unsigned : first.signs = [])
    (before : ∀ other ∈ front, link.op.precedence ≤ other.op.precedence)
    (after : ∀ other ∈ back, link.op.precedence < other.op.precedence) :
    ofBinary (Chain.tokens ⟨first, front ++ link :: back⟩) =
      .ok (.binary link.op (Chain.tokens ⟨first, front⟩) (Chain.tokens ⟨link.factor, back⟩)) := by
  obtain ⟨inside, filled, silent, seen⟩ := outline_operand first.operand 0
  obtain ⟨entries, outlined, operators⟩ :=
    binaryOperators_links (front ++ link :: back) (0 + first.tokens.length)
  have whole : outline 0 (Chain.tokens ⟨first, front ++ link :: back⟩) = .ok (inside ++ entries) := by
    rw [Chain.tokens, Factor.allTokens, unsigned, List.nil_append, seen, outlined]
    rfl
  have index : 0 + first.tokens.length + (Link.allTokens front).length = (Chain.tokens ⟨first, front⟩).length := by
    simp [Chain.tokens, Factor.allTokens, unsigned]
  have weakest : weakest? (binaryOperators false (inside ++ entries)) =
      some ((Chain.tokens ⟨first, front⟩).length, link.op) := by
    rw [binaryOperators_silent filled silent, operators, positions_append, positions, index]
    apply weakest?_append
    · intro other member
      obtain ⟨source, found, same⟩ := mem_positions member
      rw [same]
      exact before source found
    · intro other member
      obtain ⟨source, found, same⟩ := mem_positions member
      rw [same]
      exact after source found
  rw [ofBinary, whole]
  simp only [weakest]
  rw [Chain.tokens_split, List.drop_left, List.take_left]
  simp [Chain.tokens_ne_nil]

/-- Links that there are have a last weakest operator. -/
theorem Link.exists_weakest {links : List Link} (filled : links ≠ []) :
    ∃ front link back, links = front ++ link :: back ∧
      (∀ other ∈ front, link.op.precedence ≤ other.op.precedence) ∧
      ∀ other ∈ back, link.op.precedence < other.op.precedence := by
  induction links with
  | nil => exact absurd rfl filled
  | cons first rest ih =>
    by_cases last : rest = []
    · exact ⟨[], first, [], by rw [last]; rfl, by simp, by simp⟩
    · obtain ⟨front, link, back, rfl, before, after⟩ := ih last
      by_cases weak : link.op.precedence ≤ first.op.precedence
      · exact ⟨first :: front, link, back, rfl, by simpa using ⟨weak, before⟩, after⟩
      · refine ⟨[], first, front ++ link :: back, rfl, by simp, fun other member => ?_⟩
        rcases List.mem_append.mp member with member | member
        · exact Nat.lt_of_lt_of_le (Nat.not_le.mp weak) (before other member)
        · rcases List.mem_cons.mp member with rfl | member
          · exact Nat.not_le.mp weak
          · exact Nat.lt_trans (Nat.not_le.mp weak) (after other member)

/-! ### Minuses in front -/

theorem Link.balanced_operator (link : Link) (kind : Bracket) : Balanced kind [link.operator.text] := by
  have symbol := Form.isOperator_of_ofSymbol? link.symbol
  simp only [isOperator, Bool.or_eq_true, decide_eq_true_eq] at symbol
  rcases symbol with (((same | same) | same) | same) | same <;> rw [same] <;> cases kind <;> decide

theorem Factor.balanced_all (factor : Factor) (kind : Bracket) : Balanced kind (texts factor.allTokens) := by
  have signs : ∀ signs : List Token, (∀ t ∈ signs, t.text = "-") → Balanced kind (texts signs) := by
    intro signs minus
    induction signs with
    | nil => exact climbs_nil kind 0
    | cons t signs ih =>
      have first : Balanced kind [t.text] := by
        rw [minus t (by simp)]
        cases kind <;> decide
      exact first.append (ih fun other member => minus other (by simp [member]))
  rw [allTokens, texts_append]
  exact (signs _ factor.minus).append (factor.balanced kind)

theorem Link.balanced_all (links : List Link) (kind : Bracket) : Balanced kind (texts (allTokens links)) := by
  induction links with
  | nil => exact climbs_nil kind 0
  | cons link rest ih =>
    rw [allTokens, texts_append, texts_cons]
    exact ((link.balanced_operator kind).append (link.factor.balanced_all kind)).append ih

/-- A negation of balanced tokens is read as the subtraction from zero. -/
theorem Form.ofTokens_negation {minus : Token} {operand : List Token} (sign : minus.text = "-")
    (filled : operand ≠ []) (balanced : Balanced .round (texts operand)) :
    ofTokens (minus :: operand) = ofBinary (⟨"0", minus.column⟩ :: minus :: operand) := by
  obtain ⟨second, rest, rfl⟩ := List.exists_cons_of_ne_nil filled
  have other {left right : String} (opens : left ≠ "-") : wrapped? left right (minus :: second :: rest) = none :=
    wrapped?_other (by rw [sign]; exact Ne.symm opens)
  rw [ofTokens, unwrap_of_none (other (by decide))]
  simp only [ofCompound]
  rw [other (by decide), other (by decide), other (by decide)]
  simp only [sign, if_true]
  have inside : Balanced .round (texts (⟨"0", minus.column⟩ :: minus :: second :: rest)) := by
    rw [texts_cons, texts_cons, sign]
    have front : Balanced .round ["0", "-"] := by decide
    exact front.append balanced
  have wrapped (column : Nat) : wrapped? "(" ")" (⟨"(", minus.column⟩ :: ⟨"0", minus.column⟩ :: minus ::
      (second :: rest) ++ [⟨")", column⟩]) = some (⟨"0", minus.column⟩ :: minus :: second :: rest, ⟨")", column⟩) :=
    (wrapped?_eq_some_iff .round).mpr ⟨⟨"(", minus.column⟩, rfl, rfl, rfl, inside⟩
  simp only [ofNegation, wrapped]

/-- A number with minuses before it. -/
def Factor.number {t : Token} {x : Float} (value : Number.read? t.text = some x) (signs : List Token)
    (minus : ∀ t ∈ signs, t.text = "-") : Factor where
  signs := signs
  tokens := [t]
  expr := .num x
  minus := minus
  operand := .word (isMark_number value)
  balanced := balanced_unmarked (isMark_number value)
  reads := Expr.ofTokens_number value

/-- The zero that a negation is subtracted from. -/
def Factor.zero (column : Nat) : Factor :=
  .number (t := ⟨"0", column⟩) (show Number.read? "0" = some 0 by decide) [] (by simp)

/-- The first minus before a factor as the operator of a subtraction. -/
def Factor.subtracted (factor : Factor) {minus : Token} {more : List Token}
    (signed : factor.signs = minus :: more) : Link where
  operator := minus
  op := .sub
  factor := { factor with signs := more, minus := fun t member => factor.minus t (by simp [signed, member]) }
  symbol := by
    rw [factor.minus minus (by simp [signed])]
    decide

/-- One minus in front of a chain subtracts its first product from zero. -/
theorem Chain.tree_subtracted {first : Factor} {minus : Token} {more : List Token}
    (signed : first.signs = minus :: more) (rest : List Link) :
    tree ⟨.zero minus.column, first.subtracted signed :: rest⟩ = tree ⟨first, rest⟩ := by
  simp [tree, Link.cut, Factor.zero, Factor.number, Factor.subtracted, Op.precedence, Factor.product, signed,
    Expr.negated]

theorem Form.ofTokens_chain {first : Factor} (unsigned : first.signs = []) {rest : List Link}
    (filled : rest ≠ []) : ofTokens (Chain.tokens ⟨first, rest⟩) = ofBinary (Chain.tokens ⟨first, rest⟩) := by
  obtain ⟨link, rest, rfl⟩ := List.exists_cons_of_ne_nil filled
  rw [Chain.tokens, Factor.allTokens, unsigned, List.nil_append, Link.allTokens]
  exact ofTokens_operand first.operand link.symbol _

theorem Chain.ofTokens_subtracted {first : Factor} {minus : Token} {more : List Token}
    (signed : first.signs = minus :: more) (rest : List Link) :
    Expr.ofTokens (tokens ⟨first, rest⟩) =
      Expr.ofTokens (tokens ⟨.zero minus.column, first.subtracted signed :: rest⟩) := by
  have whole : tokens ⟨first, rest⟩ = minus :: tokens ⟨(first.subtracted signed).factor, rest⟩ := by
    simp [tokens, Factor.allTokens, Factor.subtracted, signed]
  have zero : tokens ⟨.zero minus.column, first.subtracted signed :: rest⟩ =
      ⟨"0", minus.column⟩ :: minus :: tokens ⟨(first.subtracted signed).factor, rest⟩ := by
    simp [tokens, Link.allTokens, Factor.allTokens, Factor.subtracted, Factor.zero, Factor.number]
  have balanced : Balanced .round (texts (tokens ⟨(first.subtracted signed).factor, rest⟩)) := by
    rw [tokens, texts_append]
    exact (Factor.balanced_all _ .round).append (Link.balanced_all rest .round)
  have sign : minus.text = "-" := first.minus minus (by simp [signed])
  have chain := @Form.ofTokens_chain (.zero minus.column) rfl (first.subtracted signed :: rest) (by simp)
  rw [Expr.ofTokens_eq, Expr.ofTokens_eq, chain, zero, whole]
  rw [Form.ofTokens_negation sign (tokens_ne_nil _) balanced]

/-- How many minuses stand before the factors of links. -/
def Link.signCount : List Link → Nat
  | [] => 0
  | link :: rest => link.factor.signs.length + signCount rest

theorem Link.signCount_append (front back : List Link) :
    signCount (front ++ back) = signCount front + signCount back := by
  induction front with
  | nil => simp [signCount]
  | cons link rest ih => simp [signCount, ih, Nat.add_assoc]

/-- Chains get smaller as they are cut in two at an operator, and as the first minus in front becomes one. -/
def Chain.size (chain : Chain) : Nat :=
  2 * (chain.first.signs.length + Link.signCount chain.rest) + chain.rest.length

/-- A chain is read as its tree. -/
theorem Chain.ofTokens_tokens (chain : Chain) : Expr.ofTokens chain.tokens = .ok chain.tree := by
  induction size : chain.size using Nat.strongRecOn generalizing chain with
  | _ size ih =>
  subst size
  obtain ⟨first, rest⟩ := chain
  cases signed : first.signs with
  | nil =>
    by_cases filled : rest = []
    · subst filled
      simpa [tokens, tree, Link.allTokens, Link.cut, Factor.allTokens, Factor.product, signed, Expr.negated]
        using first.reads
    · have form := Form.ofTokens_chain signed filled
      obtain ⟨front, link, back, rfl, before, after⟩ := Link.exists_weakest filled
      rw [Form.ofBinary_chain signed before after] at form
      rw [tree_split signed before after]
      refine Expr.ofTokens_binary form (ih _ ?_ _ rfl) (ih _ ?_ _ rfl)
      · simp [size, Link.signCount_append, Link.signCount]
        omega
      · simp [size, Link.signCount_append, Link.signCount]
        omega
  | cons minus more =>
    rw [ofTokens_subtracted signed, ← tree_subtracted signed]
    refine ih _ ?_ _ rfl
    simp [size, Link.signCount, Factor.zero, Factor.number, Factor.subtracted, signed]
    omega

/-- Minuses before a product, before a later factor of it and before the next product. -/
theorem Chain.ofTokens_signs :
    Expr.ofTokens (lex "-2 * -3 - --1") =
      .ok (.binary .sub
        (.binary .sub (.num 0) (.binary .mul (.num 2) (.binary .sub (.num 0) (.num 3))))
        (.binary .sub (.num 0) (.binary .sub (.num 0) (.num 1)))) := by
  have two : Number.read? "2" = some 2 := by decide
  have three : Number.read? "3" = some 3 := by decide
  have one : Number.read? "1" = some 1 := by decide
  let chain : Chain :=
    ⟨.number (t := ⟨"2", 2⟩) two [⟨"-", 1⟩] (by decide),
      [⟨⟨"*", 4⟩, .mul, .number (t := ⟨"3", 7⟩) three [⟨"-", 6⟩] (by decide), by decide⟩,
        ⟨⟨"-", 9⟩, .sub, .number (t := ⟨"1", 13⟩) one [⟨"-", 11⟩, ⟨"-", 12⟩] (by decide), by decide⟩]⟩
  have tokens : lex "-2 * -3 - --1" = chain.tokens := rfl
  rw [tokens, chain.ofTokens_tokens]
  rfl

end Reckon
