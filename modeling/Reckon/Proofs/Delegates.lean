import Reckon.Proofs.Groups
import Reckon.Proofs.Relexing
import Reckon.Proofs.RoundTrip

/-!
Delegates that are read. The tokens before the first colon are parameters with commas between them, of which only
the last may open a bracket that nothing closes (`Form.cutAtColon?_eq_some`). So a delegate that is read is read
back from its words (`Delegate.sound_of_read`), which have the brackets of its tokens.
-/

namespace Reckon.Token

/-- A separator is no group, as it would be cut again. -/
theorem split_single_ne {separator : String} (single : closerOf? separator = none) {tokens : List Token} {t : Token}
    (member : [t] ∈ split separator tokens) : t.text ≠ separator := by
  rintro rfl
  have alone := (grouped_split t.text tokens).split_eq_self [t] member
  simp [split, single] at alone

/-- Groups of one token at most stay so without a token in front that opens nothing. -/
theorem short_tail {separator : String} {t : Token} {rest : List Token} (single : closerOf? t.text = none)
    (short : ∀ group ∈ split separator (t :: rest), group.length ≤ 1) :
    ∀ group ∈ split separator rest, group.length ≤ 1 := by
  intro group member
  rw [split] at short
  split at short
  · rename_i closes
    rw [single] at closes
    cases closes
  · split at short
    · exact short group (by simp [member])
    · obtain ⟨first, groups, filled⟩ := List.exists_cons_of_ne_nil (split_ne_nil separator rest)
      rw [filled] at member short
      rcases List.mem_cons.mp member with rfl | member
      · have length := short (t :: group) (by simp [intoFirst])
        exact Nat.le_trans (Nat.le_succ _) length
      · exact short group (by simp [intoFirst, member])

end Reckon.Token

namespace Reckon.Form
open Token

theorem cutAtColon?_whole {inner before body : List Token} (cut : cutAtColon? inner = some (before, body)) :
    ∃ colon : Token, colon.text = ":" ∧ inner = before ++ colon :: body := by
  fun_induction cutAtColon? inner generalizing before body with
  | case1 => cases cut
  | case2 t rest marks =>
    cases cut
    exact ⟨t, marks, rfl⟩
  | case3 t rest _ inner last after found ih =>
    obtain ⟨⟨front, tail⟩, cut, same⟩ := Option.map_eq_some_iff.mp cut
    obtain ⟨closer, -, search⟩ := Option.bind_eq_some_iff.mp found
    obtain ⟨colon, marks, whole⟩ := ih cut
    obtain ⟨rfl, rfl⟩ := Prod.mk.inj same
    exact ⟨colon, marks, by simp [enclosed?_eq_some search, whole]⟩
  | case4 t rest _ _ ih =>
    obtain ⟨⟨front, tail⟩, cut, same⟩ := Option.map_eq_some_iff.mp cut
    obtain ⟨colon, marks, whole⟩ := ih cut
    obtain ⟨rfl, rfl⟩ := Prod.mk.inj same
    exact ⟨colon, marks, by simp [whole]⟩

/-- Of single tokens before the first colon only the last may open a bracket, and nothing closes that. -/
theorem cutAtColon?_plain {before body : List Token} {colon : Token}
    (cut : cutAtColon? (before ++ colon :: body) = some (before, body))
    (short : ∀ group ∈ split "," before, group.length ≤ 1) {front back : List Token} {t : Token}
    (same : before = front ++ t :: back) :
    t.text ≠ ":" ∧ ∀ closer, closerOf? t.text = some closer →
      back = [] ∧ enclosed? t.text closer 0 false (colon :: body) = none := by
  induction before generalizing front with
  | nil => simp at same
  | cons first before ih =>
    rw [List.cons_append, cutAtColon?] at cut
    split at cut
    · cases cut
    rename_i other
    split at cut
    · -- a span would be a group of two tokens or more
      rename_i inner last after found
      obtain ⟨⟨others, tail⟩, -, whole⟩ := Option.map_eq_some_iff.mp cut
      obtain ⟨⟨-, rfl⟩, -⟩ : (True ∧ inner ++ last :: others = before) ∧ tail = body := by simpa using whole
      obtain ⟨closer, closes, search⟩ := Option.bind_eq_some_iff.mp found
      have group := split_encloses (encloses_of_search closes search) "," others
      obtain ⟨next, groups, filled⟩ := List.exists_cons_of_ne_nil (split_ne_nil "," others)
      rw [← List.cons_append, group, filled, intoFirst] at short
      have length := short _ List.mem_cons_self
      simp at length
    · rename_i missing
      obtain ⟨⟨others, tail⟩, rest, whole⟩ := Option.map_eq_some_iff.mp cut
      obtain ⟨rfl, rfl⟩ : others = before ∧ tail = body := by simpa using whole
      cases closes : closerOf? first.text with
      | none =>
        cases front with
        | nil =>
          obtain ⟨rfl, rfl⟩ := List.cons.inj same
          exact ⟨other, by simp [closes]⟩
        | cons _ front => exact ih rest (short_tail closes short) (List.cons.inj same).2
      | some closer =>
        replace missing : enclosed? first.text closer 0 false (others ++ colon :: tail) = none := by
          simpa [closes] using missing
        have group := split_unclosed "," closes (enclosed?_none_of_append closes _ missing)
        obtain rfl : others = [] := by simpa [group] using short
        cases front with
        | nil =>
          obtain ⟨rfl, rfl⟩ := List.cons.inj same
          refine ⟨other, fun text found => ⟨rfl, ?_⟩⟩
          obtain rfl : closer = text := Option.some.inj (closes.symm.trans found)
          exact missing
        | cons _ front => simp at same

private theorem of_singles {groups : List (List Token)} {params : List String}
    (each : List.Forall₂ (fun group param => ∃ t : Token, group = [t] ∧ t.text = param) groups params) :
    (groups.map texts = params.map fun param => [param]) ∧ (∀ group ∈ groups, group.length ≤ 1) ∧
      ∀ param ∈ params, ∃ t : Token, [t] ∈ groups ∧ t.text = param := by
  induction each with
  | nil => simp
  | cons first _ ih =>
    obtain ⟨t, rfl, rfl⟩ := first
    obtain ⟨words, short, names⟩ := ih
    refine ⟨by simp [words], by simpa using short, fun param member => ?_⟩
    rcases List.mem_cons.mp member with rfl | member
    · exact ⟨t, by simp, rfl⟩
    · obtain ⟨other, isGroup, same⟩ := names param member
      exact ⟨other, by simp [isGroup], same⟩

/-- The tokens before the first colon are the parameters with commas between them. -/
theorem texts_of_paramNames? {before : List Token} {params : List String} (names : paramNames? before = some params) :
    texts before = [","].intercalate (params.map fun param => [param]) ∧
      (∀ group ∈ split "," before, group.length ≤ 1) ∧ ∀ param ∈ params, param ≠ "," := by
  by_cases none : before = []
  · subst none
    obtain rfl : [] = params := by simpa [paramNames?] using names
    refine ⟨rfl, fun group member => ?_, by simp⟩
    rw [split] at member
    simp [List.mem_singleton.mp member]
  · obtain ⟨words, short, singles⟩ := of_singles ((paramNames?_eq_some_iff none).mp names)
    refine ⟨by rw [(parted_split "," before).texts_intercalate, words], short, fun param member => ?_⟩
    obtain ⟨t, isGroup, rfl⟩ := singles param member
    exact split_single_ne (by decide) isGroup

end Reckon.Form

namespace Reckon.Token

theorem inLiteral_unquoted {texts : List String} (unquoted : quoteMark ∉ texts) (quoted : Bool) :
    inLiteral quoted texts = quoted := by
  induction texts with
  | nil => rfl
  | cons t rest ih =>
    obtain ⟨first, others⟩ : quoteMark ≠ t ∧ quoteMark ∉ rest := by simpa using unquoted
    rw [inLiteral_cons (Ne.symm first), ih others]

/-- A quote that nothing closes. -/
theorem unquoted_of_missing {tokens : List Token} (missing : enclosed? quoteMark quoteMark 0 false tokens = none) :
    quoteMark ∉ texts tokens := by
  intro member
  obtain ⟨front, back, same, unquoted⟩ := List.eq_append_cons_of_mem member
  obtain ⟨inner, rest, rfl, rfl, tail⟩ := List.map_eq_append_iff.mp same
  obtain ⟨closer, after, rfl, closes, -⟩ := List.map_eq_cons_iff.mp tail
  have search : enclosed? quoteMark quoteMark 0 false (inner ++ closer :: after) = some ⟨inner, closer, after⟩ :=
    enclosed?_literal_iff.mpr ⟨rfl, closes, unquoted⟩
  rw [search] at missing
  cases missing

theorem lexical_mem {texts : List String} (lexical : Lexical false texts) (unquoted : quoteMark ∉ texts) :
    ∀ t ∈ texts, IsWord t ∨ isMark t = true := by
  induction texts with
  | nil => simp
  | cons t rest ih =>
    obtain ⟨first, others⟩ : quoteMark ≠ t ∧ quoteMark ∉ rest := by simpa using unquoted
    obtain ⟨lone, tail⟩ := (lexical_cons (Ne.symm first) rest).mp lexical
    simpa using ⟨lone, ih tail others⟩

/-- Tokens hold some character. -/
theorem joined_ne_empty {tokens : List Token} (lexical : Lexical false (texts tokens)) (filled : tokens ≠ []) :
    joined tokens ≠ "" := by
  obtain ⟨t, rest, rfl⟩ := List.exists_cons_of_ne_nil filled
  have first : t.text ≠ "" := by
    by_cases quote : t.text = quoteMark
    · rw [quote]
      decide
    · rcases ((lexical_cons quote _).mp lexical).1 with word | marked
      · exact (isWord_iff.mp word).1
      · intro empty
        rw [empty] at marked
        cases marked
  intro empty
  have characters := toList_joined (t :: rest)
  rw [empty] at characters
  have none : t.text.toList = [] := (List.append_eq_nil_iff.mp characters.symm).1
  exact first (String.toList_eq_nil_iff.mp none)

theorem SameBrackets.append {front first second : List String} (closed : inLiteral false front = false)
    (same : SameBrackets false first second) : SameBrackets false (front ++ first) (front ++ second) := by
  refine ⟨by rw [inLiteral_closed closed, inLiteral_closed closed, same.1], fun kind depth => ?_⟩
  rw [outside_closed closed, outside_closed closed, climb?_append, climb?_append]
  exact congrArg _ (funext fun d => same.2 kind d)

theorem SameBrackets.climbs {first second : List String} (same : SameBrackets false first second) {kind : Bracket}
    {depth after : Nat} (count : Climbs kind depth second after) : Climbs kind depth first after :=
  ⟨by rw [same.1, count.1], by rw [same.2, count.2]⟩

end Reckon.Token

namespace Reckon.Delegate
open Token

/-- Where a parameter stands between the commas: before more, or at the end. -/
private theorem cut_at_param {params : List String} {param : String} :
    (param ∈ params.dropLast → ∃ front next back,
      [","].intercalate (params.map fun p => [p]) = front ++ param :: next :: back) ∧
    (params.getLast? = some param → ∃ front, [","].intercalate (params.map fun p => [p]) = front ++ [param]) := by
  induction params with
  | nil => simp
  | cons first params ih =>
    cases params with
    | nil => exact ⟨by simp, fun last => ⟨[], by simpa using last⟩⟩
    | cons second params =>
      simp only [List.map_cons, List.intercalate_cons_cons] at ih ⊢
      refine ⟨fun member => ?_, fun last => ?_⟩
      · rcases List.mem_cons.mp member with rfl | member
        · exact ⟨[], ",", _, rfl⟩
        · obtain ⟨front, next, back, same⟩ := ih.1 member
          exact ⟨first :: "," :: front, next, back, by rw [same]; rfl⟩
      · obtain ⟨front, same⟩ := ih.2 (by simpa using last)
        exact ⟨first :: "," :: front, by rw [same]; rfl⟩

private theorem mem_dropLast_or_last {params : List String} {param : String} (member : param ∈ params) :
    param ∈ params.dropLast ∨ params.getLast? = some param := by
  have filled := List.ne_nil_of_mem member
  rw [← List.dropLast_append_getLast filled, List.mem_append, List.mem_singleton] at member
  rcases member with inner | rfl
  · exact .inl inner
  · exact .inr (List.getLast?_eq_getLast_of_ne_nil filled)

/-- The tokens before the colon hold no quote, since nothing would close its literal. -/
private theorem unquoted_params {before body : List Token} {colon : Token}
    (plain : ∀ {front t back}, before = front ++ t :: back → ∀ closer, closerOf? t.text = some closer →
      back = [] ∧ enclosed? t.text closer 0 false (colon :: body) = none)
    (closed : inLiteral false (texts (before ++ colon :: body)) = false) : quoteMark ∉ texts before := by
  intro member
  obtain ⟨t, isToken, quote⟩ := List.mem_map.mp member
  obtain ⟨front, back, same⟩ := List.append_of_mem isToken
  obtain ⟨rfl, missing⟩ := plain same quoteMark (by rw [quote]; decide)
  have earlier : quoteMark ∉ texts front := by
    intro inside
    obtain ⟨other, isOther, otherQuote⟩ := List.mem_map.mp inside
    obtain ⟨start, middle, rfl⟩ := List.append_of_mem isOther
    have whole : before = start ++ other :: (middle ++ [t]) := by simpa using same
    obtain ⟨none, -⟩ := plain whole quoteMark (by rw [otherQuote]; decide)
    simp at none
  rw [quote] at missing
  rw [same, texts_append, texts_append, texts_cons, texts_nil, quote, inLiteral_append, inLiteral_append,
    inLiteral_unquoted earlier] at closed
  have open' : inLiteral true (texts (colon :: body)) = false := closed
  rw [inLiteral_unquoted (unquoted_of_missing missing)] at open'
  cases open'

/-- No text literal begins before the colon of a delegate that is read. -/
theorem unquoted_of_read {inner before body : List Token} {params : List String}
    (closed : inLiteral false (texts inner) = false) (cut : Form.cutAtColon? inner = some (before, body))
    (names : Form.paramNames? before = some params) : quoteMark ∉ texts before := by
  obtain ⟨colon, -, rfl⟩ := Form.cutAtColon?_whole cut
  obtain ⟨-, short, -⟩ := Form.texts_of_paramNames? names
  exact unquoted_params (fun same => (Form.cutAtColon?_plain cut short same).2) closed

/-- A delegate that is read is sound, and its words have the brackets of its tokens. -/
theorem sound_of_read {inner before body : List Token} {params : List String}
    (balanced : Balanced .square (texts inner)) (cut : Form.cutAtColon? inner = some (before, body))
    (names : Form.paramNames? before = some params) (filled : body ≠ []) (lexical : Lexical false (texts inner)) :
    Sound ⟨params, joined body⟩ ∧ SameBrackets false (inside ⟨params, joined body⟩) (texts inner) := by
  obtain ⟨colon, marks, rfl⟩ := Form.cutAtColon?_whole cut
  obtain ⟨words, short, separate⟩ := Form.texts_of_paramNames? names
  have plain {front t back} (same : before = front ++ t :: back) := Form.cutAtColon?_plain cut short same
  have unquoted := unquoted_of_read balanced.1 cut names
  have closed : inLiteral false (texts before) = false := inLiteral_unquoted unquoted false
  have colonMark : ":" ≠ quoteMark := by decide
  rw [texts_append, texts_cons, marks] at balanced lexical ⊢
  obtain ⟨lexicalBefore, rest⟩ := (lexical_append false _ _).mp lexical
  rw [closed] at rest
  obtain ⟨-, lexicalBody⟩ := (lexical_cons colonMark _).mp rest
  have relexed := sameBrackets_relex lexicalBody
  have brackets : SameBrackets false (inside ⟨params, joined body⟩) (texts before ++ ":" :: texts body) := by
    rw [inside, ← words]
    exact (relexed.cons colonMark).append closed
  have place {front back : List String} {param : String} (same : texts before = front ++ param :: back) :
      ∃ start t tail, before = start ++ t :: tail ∧ t.text = param ∧ texts tail = back := by
    obtain ⟨start, others, rfl, -, tailTexts⟩ := List.map_eq_append_iff.mp same
    obtain ⟨t, tail, rfl, text, backTexts⟩ := List.map_eq_cons_iff.mp tailTexts
    exact ⟨start, t, tail, rfl, text, backTexts⟩
  have member {param : String} (isParam : param ∈ params) : param ∈ texts before := by
    rw [words]
    rcases mem_dropLast_or_last isParam with inner | last
    · obtain ⟨front, next, back, same⟩ := cut_at_param.1 inner
      simp [same]
    · obtain ⟨front, same⟩ := cut_at_param.2 last
      simp [same]
  refine ⟨⟨fun param isParam => ?lone, fun param isParam => ?plain, fun param inner => ?single,
    fun kind last => ?unclosed, ?filled, ?closed, joined_relex lexicalBody, brackets.climbs balanced⟩, brackets⟩
  case lone => exact lexical_mem lexicalBefore unquoted param (member isParam)
  case plain =>
    refine ⟨fun quote => unquoted (quote ▸ member isParam), separate param isParam, ?_⟩
    obtain ⟨t, isToken, rfl⟩ := List.mem_map.mp (member isParam)
    obtain ⟨front, back, same⟩ := List.append_of_mem isToken
    exact (plain same).1
  case single =>
    obtain ⟨front, next, back, same⟩ := cut_at_param.1 inner
    obtain ⟨start, t, tail, whole, rfl, rest⟩ := place (words.trans same)
    cases closes : closerOf? t.text with
    | none => rfl
    | some closer =>
      obtain ⟨rfl, -⟩ := (plain whole).2 closer closes
      cases rest
  case unclosed =>
    obtain ⟨front, same⟩ := cut_at_param.2 last
    obtain ⟨start, t, tail, whole, opens, -⟩ := place (words.trans same)
    obtain ⟨-, missing⟩ := (plain whole).2 kind.closer (by rw [opens, closerOf?_opener])
    rw [opens] at missing
    obtain ⟨after, count⟩ := enclosed?_eq_none_iff.mp missing
    rw [texts_cons, marks, outside_cons colonMark] at count
    rw [climb?_other (by cases kind <;> decide) (by cases kind <;> decide)] at count
    exact ⟨after, by rw [relexed.2, count]⟩
  case filled => exact joined_ne_empty lexicalBody filled
  case closed =>
    rw [relexed.1, ← inLiteral_cons colonMark, ← inLiteral_closed closed]
    exact balanced.1

end Reckon.Delegate
