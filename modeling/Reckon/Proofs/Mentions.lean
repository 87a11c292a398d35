import Mathlib
import Reckon.Proofs.Delegates
import Reckon.Proofs.Shadowing
import Reckon.Proofs.Tables

/-!
Names that no text mentions. Every name that an evaluation looks up stands in the source text or in the body of a
function once the blanks are left out (`Expr.avoids_of_parse`): the body of a delegate is made of the tokens of such a
text, and has no other characters. So definitions under a name that none of these texts mentions change nothing, be the
result a value or a fault (`Context.evalText_unmentioned`).
-/

namespace Reckon

/-! ### Texts without their blanks -/

/-- Characters without the blanks among them. -/
def Text.solid (cs : List Char) : List Char := cs.filter fun c => !isBlank c

/-- A name stands in a text, whatever blanks are between its characters. -/
def Mentions (name text : String) : Prop := name.toList <:+: Text.solid text.toList

instance (name text : String) : Decidable (Mentions name text) := inferInstanceAs (Decidable (_ <:+: _))

namespace Text

theorem solid_append (first second : List Char) : solid (first ++ second) = solid first ++ solid second := by
  simp [solid]

theorem solid_cons (c : Char) (rest : List Char) :
    solid (c :: rest) = if isBlank c then solid rest else c :: solid rest := by
  cases blank : isBlank c <;> simp [solid, blank]

theorem solid_infix {part whole : List Char} (inside : part <:+: whole) : solid part <:+: solid whole :=
  inside.filter _

theorem solid_of_solid {cs : List Char} (each : ∀ c ∈ cs, isBlank c = false) : solid cs = cs :=
  List.filter_eq_self.mpr fun c member => by simp [each c member]

end Text

namespace Token
open Text (solid solid_append solid_cons)

theorem chars_cons (text : String) (rest : List String) : chars (text :: rest) = text.toList ++ chars rest := rfl

/-- Cutting loses blanks only. -/
theorem solid_cut (cs w : List Char) :
    solid (chars (cut (.word w) cs)) = solid (w.reverse ++ cs) ∧
      solid (chars (cut (.literal w) cs)) = solid (w.reverse ++ cs) := by
  induction cs generalizing w with
  | nil => simp [cut, chars_held]
  | cons c rest ih =>
    have mark : quoteMark.toList = ['"'] := rfl
    have word := (ih []).1
    have literal := (ih []).2
    constructor
    · rw [cut]
      split
      · simpa using (ih (c :: w)).1
      · split
        · rename_i quote
          simp [chars_append, chars_held, chars_cons, solid_append, solid_cons, literal, mark, quote]
        · split
          · rename_i blank
            simp [chars_append, chars_held, solid_append, solid_cons, word, blank]
          · simp [chars_append, chars_held, chars_cons, solid_append, solid_cons, word]
    · rw [cut]
      split
      · rename_i quote
        simp [chars_append, chars_held, chars_cons, solid_append, solid_cons, word, mark, quote]
      · simpa using (ih (c :: w)).2

/-- A text has the characters of its tokens, blanks aside. -/
theorem solid_joined (source : String) : solid (joined (lex source)).toList = solid source.toList := by
  rw [toList_joined, texts_lex, (solid_cut source.toList []).1]
  rfl

theorem chars_isInfix {part whole : List Token} (inside : part <:+: whole) :
    (joined part).toList <:+: (joined whole).toList := by
  obtain ⟨front, back, rfl⟩ := inside
  simp only [toList_joined, texts_append, chars_append]
  exact List.infix_append _ _ _

end Token

/-! ### Expressions that avoid a name -/

namespace Expr
open Token

/-- A name is not that of a variable or of a call in an expression, and no body of a delegate mentions it. -/
inductive Avoids (name : String) : Expr → Prop
  | num (x : Float) : Avoids name (.num x)
  | var {other : String} (distinct : other ≠ name) : Avoids name (.var other)
  | binary {op : Op} {left right : Expr} (first : Avoids name left) (second : Avoids name right) :
      Avoids name (.binary op left right)
  | call {other : String} {args : List Expr} (distinct : other ≠ name) (each : ∀ arg ∈ args, Avoids name arg) :
      Avoids name (.call other args)
  | list {elems : List Expr} (each : ∀ elem ∈ elems, Avoids name elem) : Avoids name (.list elems)
  | vector {elems : List Expr} (each : ∀ elem ∈ elems, Avoids name elem) : Avoids name (.vector elems)
  | delegate {d : Delegate} (unmentioned : ¬ Mentions name d.body) : Avoids name (.delegate d)

variable {name : String} {lettersOnly : Bool}

theorem mentions_of_isInfix {part tokens : List Token} (inside : part <:+: tokens)
    (mentioned : Mentions name (joined part)) : Mentions name (joined tokens) :=
  List.IsInfix.trans mentioned (Text.solid_infix (chars_isInfix inside))

/-- A name is mentioned by a token that is the name. -/
theorem mentions_of_mem (valid : Name.Valid lettersOnly name) {t : Token} {tokens : List Token} (member : t ∈ tokens)
    (same : t.text = name) : Mentions name (joined tokens) := by
  have inside : [t] <:+: tokens := by
    obtain ⟨front, back, rfl⟩ := List.append_of_mem member
    exact ⟨front, back, by simp⟩
  refine mentions_of_isInfix inside ?_
  have whole : Text.solid name.toList = name.toList := Text.solid_of_solid fun c member => (valid.solid c member).2.2
  simp [Mentions, toList_joined, chars, same, whole]

/-- A character that does not stand in a name, in front of others or behind them, does not matter. -/
theorem infix_of_cons {c : Char} {part cs : List Char} (other : c ∉ part) (inside : part <:+: c :: cs) :
    part <:+: cs := by
  rcases List.infix_cons_iff.mp inside with first | inside
  · cases part with
    | nil => exact List.nil_infix
    | cons d rest =>
      obtain ⟨rfl, -⟩ := List.cons_prefix_cons.mp first
      exact absurd List.mem_cons_self other
  · exact inside

theorem infix_of_concat {c : Char} {part cs : List Char} (other : c ∉ part) (inside : part <:+: cs ++ [c]) :
    part <:+: cs := by
  rw [← List.reverse_infix, List.reverse_append] at inside
  exact List.reverse_infix.mp (infix_of_cons (by simpa using other) inside)

/-- The zero and the parentheses around the operand of a negation belong to no name. -/
theorem mentions_of_operation (valid : Name.Valid lettersOnly name) {tokens whole : List Token}
    (operation : Form.Operation tokens whole) (mentioned : Mentions name (joined whole)) :
    Mentions name (joined tokens) := by
  have other {c : Char} (letter : isAsciiLetter c = false) (underscore : c ≠ '_') : c ∉ name.toList := by
    intro member
    rcases valid.letters c member with isLetter | ⟨rfl, -⟩
    · rw [letter] at isLetter
      cases isLetter
    · exact underscore rfl
  cases operation with
  | plain => exact mentioned
  | @negated minus zero operand sign nought =>
    have whole : (joined (zero :: minus :: operand)).toList = '0' :: (joined (minus :: operand)).toList := by
      simp [toList_joined, chars, nought]
    rw [Mentions, whole] at mentioned
    exact infix_of_cons (other (by decide) (by decide)) mentioned
  | @captured minus zero opener closer operand sign nought opens closes =>
    have whole : (joined (opener :: zero :: minus :: operand ++ [closer])).toList =
        '(' :: '0' :: ((joined (minus :: operand)).toList ++ [')']) := by
      simp [toList_joined, chars, nought, opens, closes]
    rw [Mentions, whole, ← List.cons_append, ← List.cons_append, Text.solid_append] at mentioned
    have before := infix_of_concat (other (by decide) (by decide)) mentioned
    exact infix_of_cons (other (by decide) (by decide)) (infix_of_cons (other (by decide) (by decide)) before)

/-- What is read of tokens that do not mention a name avoids it. -/
theorem avoids_of_ofTokens (valid : Name.Valid lettersOnly name) {tokens : List Token} {expr : Expr}
    (read : ofTokens tokens = .ok expr) : ¬ Mentions name (joined tokens) → expr.Avoids name := by
  refine reads_induction (motive := fun tokens expr => ¬ Mentions name (joined tokens) → expr.Avoids name) ?_ read
  intro tokens expr reading unmentioned
  have inner {part : List Token} (inside : part <:+: tokens) : ¬ Mentions name (joined part) :=
    fun mentioned => unmentioned (mentions_of_isInfix inside mentioned)
  have parts {groups : List (List Token)} {exprs : List Expr}
      (each : List.Forall₂ (fun part e => ofTokens part = .ok e ∧ (¬ Mentions name (joined part) → e.Avoids name))
        groups exprs) (inside : ∀ group ∈ groups, group <:+: tokens) : ∀ e ∈ exprs, e.Avoids name := by
    induction each with
    | nil => exact List.forall_mem_nil _
    | cons first _ ih =>
      obtain ⟨own, others⟩ := List.forall_mem_cons.mp inside
      exact List.forall_mem_cons.mpr ⟨first.2 (inner own), ih others⟩
  have between (opener : Token) (inside : List Token) (closer : Token) :
      inside <:+: opener :: inside ++ [closer] := ⟨[opener], [closer], rfl⟩
  cases reading with
  | number value => exact .num _
  | name word unmarked => exact .var fun same => unmentioned (mentions_of_mem valid (by simp) same)
  | @parens opener closer inside _ span whole => exact whole.2 (inner (between opener inside closer))
  | literal literal =>
    refine .list fun elem member => ?_
    obtain ⟨c, -, rfl⟩ := List.mem_map.mp member
    exact .num _
  | @list opener closer inside elems span each =>
    refine .list (parts each fun group member => ?_)
    exact ((parted_split "," inside).infix_of_mem (List.mem_of_mem_filter member)).trans (between opener inside closer)
  | @vector opener closer inside elems span each =>
    refine .vector (parts each fun group member => ?_)
    exact ((parted_split "," inside).infix_of_mem member).trans (between opener inside closer)
  | @call called opener closer inside args letters span each =>
    refine .call (fun same => unmentioned (mentions_of_mem valid (by simp) same)) (parts each fun group member => ?_)
    have own : group <:+: inside := by
      unfold Form.argGroups at member
      split at member
      · cases member
      · exact (parted_split "," inside).infix_of_mem member
    exact (own.trans (between opener inside closer)).trans (List.suffix_cons _ _).isInfix
  | @delegate opener closer inside before body params span cut names filled =>
    obtain ⟨colon, -, rfl⟩ := Form.cutAtColon?_whole cut
    refine .delegate (inner (List.IsInfix.trans ?_ (between opener _ closer)))
    exact ⟨before ++ [colon], [], by simp⟩
  | @binary _ whole left right t op l r operation parted operator first second =>
    have apart {part : List Token} (inside : part <:+: whole) : ¬ Mentions name (joined part) :=
      fun mentioned => unmentioned (mentions_of_operation valid operation (mentions_of_isInfix inside mentioned))
    subst parted
    refine .binary (first.2 (apart ?_)) (second.2 (apart ?_))
    · exact (List.prefix_append _ _).isInfix
    · exact ⟨left ++ [t], [], by simp⟩

/-- What is read of a text that does not mention a name avoids it. -/
theorem avoids_of_parse (valid : Name.Valid lettersOnly name) {source : String} {expr : Expr}
    (read : parse source = .ok expr) (unmentioned : ¬ Mentions name source) : expr.Avoids name := by
  refine avoids_of_ofTokens valid (parse_eq_ok_iff.mp read) ?_
  rwa [Mentions, solid_joined]

end Expr

/-! ### Scopes that differ in one name -/

/-- Scopes in which every name but one means the same, and no function of the first mentions that one. -/
structure Scope.SameBut (name : String) (scope scope' : Scope) : Prop where
  value : ∀ other, other ≠ name → scope.value? other = scope'.value? other
  function : ∀ other, other ≠ name → scope.function? other = scope'.function? other
  bodies : ∀ frame ∈ scope, ∀ entry ∈ frame.functions, ¬ Mentions name entry.2.body

theorem Scope.SameBut.cons {name : String} {scope scope' : Scope} (same : SameBut name scope scope') {frame : Frame}
    (own : ∀ entry ∈ frame.functions, ¬ Mentions name entry.2.body) :
    SameBut name (frame :: scope) (frame :: scope') where
  value other distinct := by
    have outer := same.value other distinct
    simp only [value?, List.findSome?_cons] at outer ⊢
    rw [outer]
  function other distinct := by
    have outer := same.function other distinct
    simp only [function?, List.findSome?_cons] at outer ⊢
    rw [outer]
  bodies := List.forall_mem_cons.mpr ⟨own, same.bodies⟩

theorem Scope.mem_of_function? {scope : Scope} {name : String} {f : Function} (found : scope.function? name = some f) :
    ∃ frame ∈ scope, (name, f) ∈ frame.functions := by
  obtain ⟨frame, member, found⟩ := List.exists_of_findSome?_eq_some found
  obtain ⟨before, after, same, -⟩ := List.lookup_eq_some_iff.mp found
  exact ⟨frame, member, by simp [same]⟩

theorem Eval.function?_of_callee? {scope : Scope} {name : String} {f : Function}
    (known : callee? scope name = some (.user f)) : scope.function? name = some f := by
  rw [callee?] at known
  split at known
  · cases known
  · obtain ⟨g, found, same⟩ := Option.map_eq_some_iff.mp known
    cases same
    exact found

/-- The functions in the frame of a call are the delegates that were given. -/
theorem Frame.functions_ofCall? {params : List Param} {args : List Arg} {frame : Frame}
    (called : ofCall? params args = some frame) :
    ∀ entry ∈ frame.functions, ∃ d, .delegate d ∈ args ∧ entry.2.body = d.body := by
  fun_induction ofCall? params args generalizing frame with
  | case1 =>
    cases called
    exact List.forall_mem_nil _
  | case2 => cases called
  | case3 => cases called
  | case4 p params args inner rest v plain ih =>
    cases called
    intro entry member
    obtain ⟨d, given, same⟩ := ih rest entry member
    exact ⟨d, List.mem_cons_of_mem _ given, same⟩
  | case5 p params args inner rest d marked ih =>
    cases called
    intro entry member
    rcases List.mem_append.mp member with member | member
    · obtain ⟨d, given, same⟩ := ih rest entry member
      exact ⟨d, List.mem_cons_of_mem _ given, same⟩
    · rw [List.mem_singleton.mp member]
      exact ⟨d, List.mem_cons_self, rfl⟩
  | case6 => cases called
  | case7 => cases called

/-- Names but one mean the same at every level of the evaluation of expressions that avoid the one. -/
theorem Rules.simulates_sameBut {name : String} {lettersOnly : Bool} (valid : Name.Valid lettersOnly name)
    {ctx ctx' : Context} (clock : ctx.clock = ctx'.clock) :
    Simulates (fun _ => True) (fun _ => False) (Scope.SameBut name) (Expr.Avoids name) (ofContext ctx)
      (ofContext ctx') where
  parts avoids member := by
    cases avoids with
    | num | var | delegate => cases member
    | binary first second =>
      simp only [Expr.parts, List.mem_cons, List.not_mem_nil, or_false] at member
      rcases member with rfl | rfl
      · exact first
      · exact second
    | call _ each => exact each _ member
    | list each => exact each _ member
    | vector each => exact each _ member
  operation _ _ _ _ _ := trivial
  delegate avoids read := by
    cases avoids with
    | delegate unmentioned => exact Expr.avoids_of_parse valid (Host.parse_of_read read) unmentioned
  body link known read := by
    obtain ⟨frame, member, own⟩ := Scope.mem_of_function? (Eval.function?_of_callee? known)
    exact Expr.avoids_of_parse valid (Host.parse_of_read read) (link.bodies frame member _ own)
  value link avoids := by
    cases avoids with
    | var distinct => simp only [ofContext, link.value _ distinct, Context.constant?, clock]
  callee link avoids := by
    cases avoids with
    | call distinct _ => simp only [ofContext, Eval.callee?, link.function _ distinct]
  builtin known := List.mem_of_find?_eq_some (Eval.find?_of_callee? known)
  invoke _ := .inr (.inl ⟨rfl, rfl, fun _ _ _ _ => trivial⟩)
  frame link _ _ avoid called := by
    refine link.cons fun entry member => ?_
    obtain ⟨d, given, same⟩ := Frame.functions_ofCall? called entry member
    rw [same]
    cases avoid d given with
    | delegate unmentioned => exact unmentioned
  binding v link _ := link.cons (List.forall_mem_nil _)

/-! ### Definitions that are not mentioned -/

namespace Context

/-- Contexts with the same clock and limit and, under every name but one, the same definitions. -/
structure SameBut (name : String) (ctx ctx' : Context) : Prop where
  value : ∀ other, other ≠ name → ctx.vars.get? other = ctx'.vars.get? other
  function : ∀ other, other ≠ name → ctx.functions.get? other = ctx'.functions.get? other
  clock : ctx.clock = ctx'.clock
  limit : ctx.limit = ctx'.limit

/-- A request to define, to redefine or to delete a variable or a function. -/
inductive Request.Concerns (name : String) : Request → Prop
  | defineVariable (value : Value) : Concerns name (.defineVariable name value)
  | deleteVariable : Concerns name (.deleteVariable name)
  | defineFunction (params body : String) : Concerns name (.defineFunction name params body)
  | deleteFunction : Concerns name (.deleteFunction name)

namespace SameBut

variable {name : String} {ctx ctx' ctx'' : Context}

theorem refl (name : String) (ctx : Context) : SameBut name ctx ctx :=
  ⟨fun _ _ => rfl, fun _ _ => rfl, rfl, rfl⟩

theorem trans (first : SameBut name ctx ctx') (second : SameBut name ctx' ctx'') : SameBut name ctx ctx'' where
  value other distinct := (first.value other distinct).trans (second.value other distinct)
  function other distinct := (first.function other distinct).trans (second.function other distinct)
  clock := first.clock.trans second.clock
  limit := first.limit.trans second.limit

/-- A request that fails changes nothing. -/
theorem kept {result : Except Fault Context} (each : ∀ next, result = .ok next → SameBut name ctx next) :
    SameBut name ctx (result.toOption.getD ctx) := by
  cases result with
  | error fault => exact refl name ctx
  | ok next => exact each next rfl

/-- A request about a name changes what is defined under that name only. -/
theorem run {request : Request} (concerns : request.Concerns name) (ctx : Context) :
    SameBut name ctx (request.run ctx) := by
  cases concerns with
  | defineVariable value =>
    refine kept fun next defined => ?_
    unfold Context.defineVariable at defined
    split at defined
    · cases defined
    · cases defined
      exact ⟨fun _ distinct => (Table.get?_insert_of_ne _ distinct _).symm, fun _ _ => rfl, rfl, rfl⟩
  | deleteVariable =>
    refine kept fun next deleted => ?_
    unfold Context.deleteVariable at deleted
    split at deleted
    · cases deleted
      exact ⟨fun _ distinct => (Table.get?_erase_of_ne _ distinct).symm, fun _ _ => rfl, rfl, rfl⟩
    · cases deleted
  | defineFunction params body =>
    refine kept fun next defined => ?_
    obtain ⟨params, -, rfl⟩ := (defineFunction_eq_ok_iff (f := ⟨name, params, body⟩)).mp defined
    exact ⟨fun _ _ => rfl, fun _ distinct => (Table.get?_insert_of_ne _ distinct _).symm, rfl, rfl⟩
  | deleteFunction =>
    refine kept fun next deleted => ?_
    unfold Context.deleteFunction at deleted
    split at deleted
    · cases deleted
      exact ⟨fun _ _ => rfl, fun _ distinct => (Table.get?_erase_of_ne _ distinct).symm, rfl, rfl⟩
    · cases deleted

theorem foldl {requests : List Request} (concern : ∀ request ∈ requests, request.Concerns name) (ctx : Context) :
    SameBut name ctx (requests.foldl Request.run ctx) := by
  induction requests generalizing ctx with
  | nil => exact refl name ctx
  | cons request requests ih =>
    obtain ⟨first, others⟩ := List.forall_mem_cons.mp concern
    exact (run first ctx).trans (ih others _)

theorem root (same : SameBut name ctx ctx') (bodies : ∀ entry ∈ ctx.functions.entries, ¬ Mentions name entry.2.body) :
    Scope.SameBut name (Scope.root ctx) (Scope.root ctx') where
  value other distinct := by
    have found := same.value other distinct
    simp only [Table.get?] at found
    simp [Scope.value?, Scope.root, found]
  function other distinct := by
    have found := same.function other distinct
    simp only [Table.get?] at found
    simp [Scope.function?, Scope.root, found]
  bodies := List.forall_mem_singleton.mpr bodies

/-- A text that does not mention a name evaluates to the same whatever is defined under it. -/
theorem evalText_eq (same : SameBut name ctx ctx') {lettersOnly : Bool} (valid : Name.Valid lettersOnly name)
    {source : String} (unmentioned : ¬ Mentions name source)
    (bodies : ∀ entry ∈ ctx.functions.entries, ¬ Mentions name entry.2.body) :
    ctx'.evalText source = ctx.evalText source := by
  rw [← Rules.evalText_ofContext, ← Rules.evalText_ofContext, Rules.evalText, Rules.evalText]
  cases read : Expr.parse source with
  | error e => rfl
  | ok e =>
    have avoids := Expr.avoids_of_parse valid read unmentioned
    have follows := (Rules.simulates_sameBut valid same.clock).follows_limit ctx.limit (same.root bodies) avoids
    rcases follows.same_or_excused with ⟨equal, -⟩ | ⟨_, _, ⟨⟩⟩
    rw [← same.limit]
    exact equal

end SameBut

/-- Whatever is defined, redefined or deleted under a name that neither the text nor the body of a function mentions,
    the text evaluates to the same value or fails the same. -/
theorem evalText_unmentioned {lettersOnly : Bool} {name : String} (valid : Name.Valid lettersOnly name) {ctx : Context}
    {source : String} (unmentioned : ¬ Mentions name source)
    (bodies : ∀ entry ∈ ctx.functions.entries, ¬ Mentions name entry.2.body) {requests : List Request}
    (concern : ∀ request ∈ requests, request.Concerns name) :
    (requests.foldl Request.run ctx).evalText source = ctx.evalText source :=
  (SameBut.foldl concern ctx).evalText_eq valid unmentioned bodies

/-- A function that calls itself takes the place of a variable. What is evaluated, through another function and a
    delegate, does not mention either. -/
theorem evalText_unmentioned_replaced :
    let ctx := after 0 [.defineVariable "a" (.number 2), .defineVariable "b" (.number 1),
      .defineFunction "twice" "x" "x + x"]
    let changed := [Request.deleteVariable "b", .defineFunction "b" "x" "b(a)"].foldl Request.run ctx
    let source := "sum([k: twice(k) * a], 1, 3)"
    Name.Valid true "b" ∧ ¬ Mentions "b" source ∧ changed.vars.names = ["a"] ∧
      changed.functions.names = ["b", "twice"] ∧ changed.evalText source = ctx.evalText source ∧
      (ctx.evalText source).toOption.map Value.text = some "24" := by
  intro ctx changed source
  have valid : Name.Valid true "b" := (@Name.problem?_eq_none_iff _ .func _).mp (by decide)
  have unmentioned : ¬ Mentions "b" source := by decide
  have bodies : ∀ entry ∈ ctx.functions.entries, ¬ Mentions "b" entry.2.body := by decide +kernel
  have concern : ∀ request ∈ [Request.deleteVariable "b", .defineFunction "b" "x" "b(a)"], request.Concerns "b" :=
    List.forall_mem_cons.mpr ⟨.deleteVariable, List.forall_mem_singleton.mpr (.defineFunction _ _)⟩
  exact ⟨valid, unmentioned, by decide +kernel, by decide +kernel,
    evalText_unmentioned valid unmentioned bodies concern, by decide +kernel⟩

-- The body of a delegate loses its blanks, so that a name can be mentioned across them.
example : Mentions "ab" "foreach(\x7b1\x7d, [x: a b])" ∧
    ((after 0 [.defineVariable "ab" (.number 7)]).evalText "foreach(\x7b1\x7d, [x: a b])").toOption.map Value.text =
      some "\x7b7\x7d" := by
  decide +kernel

end Context

end Reckon
