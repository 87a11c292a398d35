import Mathlib
import Reckon.Proofs.Values

/-!
Evaluation makes no empty vectors. A vector that is read has components (`Expr.filled_of_parse`), and
each operation and each built-in function hands on that no vector is empty (`Op.yields_apply`,
`Builtin.keeps_of_find?`), so that what is evaluated in a context whose variables hold no empty vectors
has none (`Context.yields_evalText`).
-/

namespace Reckon

/-! ### Expressions -/

namespace Expr

/-- No vector in an expression is empty. -/
inductive Filled : Expr → Prop
  | num (x : Float) : Filled (.num x)
  | var (name : String) : Filled (.var name)
  | binary {op : Op} {left right : Expr} (first : Filled left) (second : Filled right) : Filled (.binary op left right)
  | call {name : String} {args : List Expr} (each : ∀ arg ∈ args, Filled arg) : Filled (.call name args)
  | list {elems : List Expr} (each : ∀ elem ∈ elems, Filled elem) : Filled (.list elems)
  | vector {elems : List Expr} (filled : elems ≠ []) (each : ∀ elem ∈ elems, Filled elem) : Filled (.vector elems)
  | delegate (d : Delegate) : Filled (.delegate d)

theorem filled_of_ofTokens {tokens : List Token} {expr : Expr} (read : ofTokens tokens = .ok expr) : expr.Filled := by
  refine reads_induction (motive := fun _ expr => expr.Filled) (fun reading => ?_) read
  cases reading with
  | number value => exact .num _
  | name word unmarked => exact .var _
  | parens span inside => exact inside.2
  | literal literal =>
    refine .list fun elem member => ?_
    obtain ⟨c, -, rfl⟩ := List.mem_map.mp member
    exact .num _
  | list span each => exact .list (forall_of_forall₂ each)
  | vector span each =>
    refine .vector (fun none => ?_) (forall_of_forall₂ each)
    subst none
    exact Token.split_ne_nil "," _ (List.forall₂_nil_right_iff.mp each)
  | call letters span each => exact .call (forall_of_forall₂ each)
  | delegate span cut names filled => exact .delegate _
  | binary operation parted operator first second => exact .binary first.2 second.2

/-- What is read has no empty vectors. -/
theorem filled_of_parse {source : String} {expr : Expr} (read : parse source = .ok expr) : expr.Filled :=
  filled_of_ofTokens (parse_eq_ok_iff.mp read)

end Expr

/-! ### Results -/

/-- What a computation gives, if it gives anything, has a property. -/
def Yields {ε α : Type} (P : α → Prop) (result : Except ε α) : Prop := ∀ a, result = .ok a → P a

section Yields

variable {ε α β : Type} {P : α → Prop} {Q : β → Prop}

theorem yields_ok {a : α} (holds : P a) : Yields P (.ok a : Except ε α) := by
  rintro _ ⟨⟩
  exact holds

theorem yields_error (e : ε) : Yields P (.error e) := by
  rintro _ ⟨⟩

theorem Yields.map {result : Except ε α} (yields : Yields P result) {f : α → β} (each : ∀ a, P a → Q (f a)) :
    Yields Q (result.map f) := by
  cases result with
  | error e => exact yields_error e
  | ok a => exact yields_ok (each a (yields a rfl))

theorem yields_map {result : Except ε α} {f : α → β} (each : ∀ a, Q (f a)) : Yields Q (result.map f) :=
  Yields.map (P := fun _ => True) (fun _ _ => trivial) fun a _ => each a

end Yields

/-! ### Values -/

namespace Value

theorem Filled.elems {v : Value} (filled : v.Filled) : ∀ elem ∈ v.elems, elem.Filled := by
  intro elem member
  cases filled with
  | number x =>
    rw [List.mem_singleton.mp member]
    exact .number x
  | list each => exact each elem member
  | vector _ =>
    obtain ⟨x, -, rfl⟩ := List.mem_map.mp member
    exact .number x

theorem Filled.comps_ne_nil {v : Value} (filled : v.Filled) (isVector : v.kind = .vector) : v.comps ≠ [] := by
  cases filled with
  | number x => cases isVector
  | list each => cases isVector
  | vector filled => exact filled

/-- A list of elements of other values, and of others without empty vectors, has none. -/
theorem Filled.list_append {first second : List Value} (each : ∀ elem ∈ first, elem.Filled)
    (others : ∀ elem ∈ second, elem.Filled) : (Value.list (first ++ second)).Filled := by
  refine .list fun elem member => ?_
  rcases List.mem_append.mp member with member | member
  · exact each elem member
  · exact others elem member

end Value

/-! ### Operations -/

namespace Op

theorem yields_onNumbers (op : Op) (x y : Float) : Yields Value.Filled (op.onNumbers x y) := by
  cases op with
  | unknown code => exact yields_error _
  | _ => exact yields_ok (.number _)

theorem yields_onVectors (op : Op) (f : Float → Float → Float) {v w : List Float} (filled : v ≠ []) :
    Yields Value.Filled (op.onVectors f v w) := by
  rw [onVectors]
  split
  · rename_i same
    refine yields_ok (.vector fun none => filled ?_)
    rcases List.zipWith_eq_nil_iff.mp none with none | none
    · exact none
    · rwa [none, List.length_nil, List.length_eq_zero_iff] at same
  · exact yields_error _

theorem filled_scale {v : List Float} (filled : v ≠ []) (x : Float) : (scale v x).Filled :=
  .vector (by simpa using filled)

theorem yields_apply (op : Op) {left right : Value} (first : left.Filled) (second : right.Filled) :
    Yields Value.Filled (op.apply left right) := by
  simp only [apply]
  split
  · exact yields_onVectors _ _ (first.comps_ne_nil rfl)
  · exact yields_onVectors _ _ (first.comps_ne_nil rfl)
  · exact yields_onNumbers _ _ _
  · exact yields_onNumbers _ _ _
  · exact yields_ok (filled_scale (first.comps_ne_nil rfl) _)
  · exact yields_ok (filled_scale (second.comps_ne_nil rfl) _)
  · exact yields_ok (filled_scale (first.comps_ne_nil rfl) _)
  · exact yields_ok (filled_scale (second.comps_ne_nil rfl) _)
  · exact yields_onNumbers _ _ _

end Op

/-! ### Built-in functions -/

/-- Variables that hold no empty vectors. -/
def FilledVars (vars : List (String × Value)) : Prop := ∀ entry ∈ vars, entry.2.Filled

/-- An argument without empty vectors. What a delegate gives is for its evaluation. -/
def Arg.Filled : Arg → Prop
  | value v => v.Filled
  | delegate _ => True

/-- A host that makes no empty vectors, and that evaluates a written vector to a vector. -/
structure Host.Sound (host : Host) : Prop where
  filled : ∀ {vars e}, FilledVars vars → e.Filled → Yields Value.Filled (host.evaluate vars e)
  vector : ∀ vars elems, Yields (fun v => v.kind = .vector) (host.evaluate vars (.vector elems))

/-- A function that makes no empty vectors. -/
def Impl.Keeps (impl : Impl) : Prop :=
  ∀ host args, host.Sound → (∀ arg ∈ args, arg.Filled) → Yields Value.Filled (impl host args)

theorem Host.parse_of_read {source : String} {e : Expr} (read : Host.read source = .ok e) :
    Expr.parse source = .ok e := by
  rw [Host.read] at read
  cases found : Expr.parse source with
  | error e => rw [found] at read; cases read
  | ok body =>
    rw [found] at read
    cases read
    rfl

theorem Host.filled_of_read {source : String} {e : Expr} (read : Host.read source = .ok e) : e.Filled :=
  Expr.filled_of_parse (parse_of_read read)

namespace Calculus

theorem Unary.ofDelegate_eq_ok {host : Host} {d : Delegate} {f : Unary} (read : ofDelegate host d = .ok f) :
    f.host = host ∧ f.body.Filled := by
  rw [ofDelegate] at read
  split at read
  · cases found : Host.read d.body with
    | error e => rw [found] at read; cases read
    | ok body =>
      rw [found] at read
      cases read
      exact ⟨rfl, Host.filled_of_read found⟩
  · cases read

theorem Unary.yields_apply {f : Unary} (sound : f.host.Sound) (body : f.body.Filled) {v : Value} (filled : v.Filled) :
    Yields Value.Filled (f.apply v) := by
  refine sound.filled (fun entry member => ?_) body
  rw [List.mem_singleton.mp member]
  exact filled

theorem length_addVectorQuotients (f : Unary) (x : Float) (base : List Float) (steps : List Float)
    {sums : List Float} (same : sums.length = base.length) :
    Yields (fun total => total.length = base.length) (addVectorQuotients f x base steps sums) := by
  induction steps generalizing sums with
  | nil => exact yields_ok same
  | cons dx steps ih =>
    rw [addVectorQuotients]
    split
    · exact yields_error _
    · split
      · exact yields_error _
      · rename_i moved _ lengths
        refine ih ?_
        rw [List.length_zipWith, List.length_zipWith, same, not_not.mp lengths, min_self, min_self]

/-- The derivative of a vector has as many components as the vector. -/
theorem yields_vectorSlope (f : Unary) (x : Float) {base : List Float} (filled : base ≠ []) :
    Yields Value.Filled (vectorSlope f x base) := by
  refine (length_addVectorQuotients f x base diffSteps (by simp)).map fun sums same => .vector ?_
  intro none
  rw [List.map_eq_nil_iff.mp none, List.length_nil, eq_comm, List.length_eq_zero_iff] at same
  exact filled same

theorem yields_derivative {host : Host} (sound : host.Sound) (d : Delegate) (x : Float) :
    Yields Value.Filled (derivative host d x) := by
  rw [derivative]
  split
  · exact yields_error _
  · rename_i f read
    obtain ⟨rfl, body⟩ := Unary.ofDelegate_eq_ok read
    split
    · exact yields_error _
    · rename_i base found
      have filled := Unary.yields_apply sound body (.number x) base found
      split
      · rename_i isVector
        -- What is written as a vector has a vector as its value, so there are components either way.
        refine yields_vectorSlope f x (filled.comps_ne_nil ?_)
        rcases Bool.or_eq_true_iff.mp isVector with written | kind
        · cases literal : f.body with
          | vector elems =>
            rw [Unary.value, Unary.apply, literal] at found
            exact sound.vector _ elems base found
          | _ => rw [literal] at written; cases written
        · exact decide_eq_true_eq.mp kind
      · exact yields_map fun s => .number _

theorem yields_summation (host : Host) (d : Delegate) (start stop : Int) :
    Yields Value.Filled (summation host d start stop) := by
  rw [summation]
  split
  · exact yields_error _
  · exact yields_map .number

theorem yields_integral (host : Host) (d : Delegate) (lo hi : Float) :
    Yields Value.Filled (integral host d lo hi) := by
  simp only [integral]
  repeat' split
  · exact yields_error _
  · exact yields_error _
  · exact yields_error _
  · exact yields_map fun sum => .number _

theorem yields_zero (host : Host) (d : Delegate) (guess : Float) : Yields Value.Filled (zero host d guess) := by
  simp only [zero]
  repeat' split
  · exact yields_error _
  · exact yields_error _
  · exact yields_map .number

end Calculus

namespace Builtin

theorem keeps_ofValue {f : Value → Except Fault Value} (each : ∀ {v}, v.Filled → Yields Value.Filled (f v)) :
    Impl.Keeps (ofValue f) := by
  intro host args _ filled
  simp only [ofValue]
  split
  · rename_i v
    exact each (filled (.value v) (by simp))
  · exact yields_error _

theorem keeps_ofValues {f : Value → Value → Except Fault Value}
    (each : ∀ {v w}, v.Filled → w.Filled → Yields Value.Filled (f v w)) : Impl.Keeps (ofValues f) := by
  intro host args _ filled
  simp only [ofValues]
  split
  · rename_i v w
    exact each (filled (.value v) (by simp)) (filled (.value w) (by simp))
  · exact yields_error _

theorem keeps_ofNumber (f : Float → Float) : Impl.Keeps (ofNumber f) :=
  keeps_ofValue fun _ => yields_ok (.number _)

theorem keeps_ofNumbers (f : Float → Float → Float) : Impl.Keeps (ofNumbers f) :=
  keeps_ofValues fun _ _ => yields_ok (.number _)

theorem keeps_numbers : ∀ f ∈ numbers, Impl.Keeps f.run := by
  simp [numbers, numeric, keeps_ofNumber, keeps_ofNumbers]

theorem yields_reduce (name : String) (f : Float → Float → Float) (v : Value) :
    Yields Value.Filled (reduce name f v) := by
  rw [reduce]
  split
  · exact yields_error _
  · exact yields_ok (.number _)

theorem yields_average (v : Value) : Yields Value.Filled (average v) := by
  rw [average]
  split
  · exact yields_error _
  · exact yields_ok (.number _)

theorem keeps_summaries : ∀ f ∈ summaries, Impl.Keeps f.run := by
  simp only [summaries, List.forall_mem_cons]
  refine ⟨?max, ?min, ?avg, List.forall_mem_nil _⟩
  case max => exact keeps_ofValue fun _ => yields_reduce _ _ _
  case min => exact keeps_ofValue fun _ => yields_reduce _ _ _
  case avg => exact keeps_ofValue fun _ => yields_average _

theorem keeps_calculus : ∀ f ∈ calculus, Impl.Keeps f.run := by
  simp only [calculus, List.forall_mem_cons]
  refine ⟨?sum, ?int, ?diff, ?solve, ?solves, List.forall_mem_nil _⟩
  all_goals
    intro host args sound _
    dsimp only
  case sum => split; exacts [Calculus.yields_summation _ _ _ _, yields_error _]
  case int => split; exacts [Calculus.yields_integral _ _ _ _, yields_error _]
  case diff => split; exacts [Calculus.yields_derivative sound _ _, yields_error _]
  case solve => split; exacts [Calculus.yields_zero _ _ _, yields_error _]
  case solves => split; exacts [Calculus.yields_zero _ _ _, yields_error _]

theorem yields_cutAt {elems : List Value} (filled : ∀ elem ∈ elems, elem.Filled) (place : Nat) :
    Yields (fun parts => (∀ elem ∈ parts.1, elem.Filled) ∧ ∀ elem ∈ parts.2, elem.Filled) (cutAt elems place) := by
  rw [cutAt]
  split
  · refine yields_ok ⟨fun elem member => ?_, fun elem member => ?_⟩
    · exact filled elem (List.mem_of_mem_take member)
    · exact filled elem (List.mem_of_mem_drop member)
  · exact yields_error _

theorem yields_remove {list place : Value} (filled : list.Filled) : Yields Value.Filled (remove list place) := by
  rw [remove]
  split
  · exact yields_error _
  · split
    · exact yields_error _
    · split
      · exact yields_error _
      · exact yields_error _
      · rename_i first second
        exact yields_ok (.list_append (yields_cutAt filled.elems _ _ first).1 (yields_cutAt filled.elems _ _ second).2)

theorem yields_get {list place : Value} (filled : list.Filled) : Yields Value.Filled (get list place) := by
  rw [get]
  split
  · exact yields_error _
  · split
    · rename_i found
      exact yields_ok (filled.elems _ (List.mem_of_getElem? found))
    · exact yields_error _

theorem yields_insert {list element place : Value} (filled : list.Filled) (added : element.Filled) :
    Yields Value.Filled (insert list element place) := by
  rw [insert]
  split
  · exact yields_error _
  · split
    · exact yields_error _
    · rename_i cut
      obtain ⟨before, after⟩ := yields_cutAt filled.elems _ _ cut
      refine yields_ok (.list_append before fun elem member => ?_)
      rcases List.mem_cons.mp member with rfl | member
      · exact added
      · exact after elem member

theorem yields_select {keep : Bool} {list others : Value} (filled : list.Filled) :
    Yields Value.Filled (select keep list others) :=
  yields_ok (.list fun elem member => filled.elems elem (List.mem_filter.mp member).1)

theorem yields_foreach {host : Host} (sound : host.Sound) (d : Delegate) {elems : List Value}
    (each : ∀ elem ∈ elems, elem.Filled) :
    Yields (fun results => ∀ elem ∈ results, elem.Filled) (foreach host d elems) := by
  induction elems with
  | nil => exact yields_ok (List.forall_mem_nil _)
  | cons v rest ih =>
    rw [foreach]
    split
    · exact yields_error _
    · rename_i w found
      have first : w.Filled := by
        cases read : Calculus.Unary.ofDelegate host d with
        | error e => rw [read] at found; cases found
        | ok f =>
          rw [read] at found
          obtain ⟨rfl, body⟩ := Calculus.Unary.ofDelegate_eq_ok read
          exact Calculus.Unary.yields_apply sound body (each v List.mem_cons_self) w found
      split
      · exact yields_error _
      · rename_i ws others
        refine yields_ok fun elem member => ?_
        rcases List.mem_cons.mp member with rfl | member
        · exact first
        · exact ih (fun elem member => each elem (List.mem_cons_of_mem v member)) ws others elem member

theorem keeps_lists : ∀ f ∈ lists, Impl.Keeps f.run := by
  simp only [lists, List.forall_mem_cons]
  refine ⟨?add, ?len, ?remove, ?get, ?insert, ?concat, ?intersect, ?less, ?indexof, ?foreach, ?join, ?toascii,
    List.forall_mem_nil _⟩
  case add =>
    refine keeps_ofValues fun filled added => yields_ok (.list_append filled.elems fun elem member => ?_)
    rw [List.mem_singleton.mp member]
    exact added
  case len => exact keeps_ofValue fun _ => yields_ok (.number _)
  case remove => exact keeps_ofValues fun filled _ => yields_remove filled
  case get => exact keeps_ofValues fun filled _ => yields_get filled
  case insert =>
    intro host args _ filled
    dsimp only
    split
    · rename_i list element place
      exact yields_insert (filled (.value list) (by simp)) (filled (.value element) (by simp))
    · exact yields_error _
  case concat => exact keeps_ofValues fun first second => yields_ok (.list_append first.elems second.elems)
  case intersect => exact keeps_ofValues fun filled _ => yields_select filled
  case less => exact keeps_ofValues fun filled _ => yields_select filled
  case indexof => exact keeps_ofValues fun _ _ => yields_ok (.number _)
  case foreach =>
    intro host args sound filled
    dsimp only
    split
    · rename_i list d
      have elems := Value.Filled.elems (filled (.value list) (by simp))
      exact (yields_foreach sound d elems).map fun _ each => .list each
    · exact yields_error _
  case join =>
    refine keeps_ofValue fun filled => yields_ok (.list fun elem member => ?_)
    obtain ⟨inner, inside, member⟩ := List.mem_flatMap.mp member
    exact (filled.elems inner inside).elems elem member
  case toascii => exact keeps_ofNumber _

theorem yields_dot (v w : Value) : Yields Value.Filled (dot v w) := by
  rw [dot]
  split
  · exact yields_error _
  · exact yields_ok (.number _)

theorem yields_cross (v w : Value) : Yields Value.Filled (cross v w) := by
  simp only [cross]
  split
  · exact yields_ok (.vector (by simp))
  · exact yields_error _

theorem keeps_vectors : ∀ f ∈ vectors, Impl.Keeps f.run := by
  simp only [vectors, List.forall_mem_cons]
  refine ⟨?dot, ?cross, ?magnitude, List.forall_mem_nil _⟩
  case dot => exact keeps_ofValues fun _ _ => yields_dot _ _
  case cross => exact keeps_ofValues fun _ _ => yields_cross _ _
  case magnitude => exact keeps_ofValue fun _ => yields_ok (.number _)

/-- No built-in function makes empty vectors. -/
theorem keeps_of_find? {name : String} {f : Builtin} (found : find? name = some f) : Impl.Keeps f.run := by
  have member := List.mem_of_find?_eq_some found
  simp only [all, List.mem_append] at member
  rcases member with (((member | member) | member) | member) | member
  · exact keeps_numbers f member
  · exact keeps_summaries f member
  · exact keeps_calculus f member
  · exact keeps_lists f member
  · exact keeps_vectors f member

end Builtin

/-! ### Evaluation -/

/-- A scope whose variables hold no empty vectors. -/
def Scope.Filled (scope : Scope) : Prop := ∀ frame ∈ scope, FilledVars frame.vars

theorem Scope.Filled.value? {scope : Scope} (filled : scope.Filled) {name : String} {v : Value}
    (found : scope.value? name = some v) : v.Filled := by
  obtain ⟨frame, member, found⟩ := List.exists_of_findSome?_eq_some found
  obtain ⟨before, after, same, -⟩ := List.lookup_eq_some_iff.mp found
  exact filled frame member (name, v) (by simp [same])

theorem Context.filled_of_constant? {ctx : Context} {name : String} {v : Value}
    (found : ctx.constant? name = some v) : v.Filled := by
  simp only [constant?] at found
  repeat' split at found
  all_goals cases found
  all_goals exact .number _

/-- The frame of a call holds the values of its arguments. -/
theorem Frame.filled_ofCall? {params : List Param} {args : List Arg} {frame : Frame}
    (found : ofCall? params args = some frame) (filled : ∀ arg ∈ args, arg.Filled) : FilledVars frame.vars := by
  induction params generalizing args frame with
  | nil =>
    cases args with
    | nil =>
      cases found
      exact List.forall_mem_nil _
    | cons arg args => cases found
  | cons p params ih =>
    cases args with
    | nil => cases found
    | cons arg args =>
      rw [ofCall?] at found
      split at found
      · cases found
      · rename_i inner rest
        have others := ih rest fun arg member => filled arg (List.mem_cons_of_mem _ member)
        split at found
        · rename_i v
          split at found
          · cases found
          · cases found
            intro entry member
            rcases List.mem_append.mp member with member | member
            · exact others entry member
            · rw [List.mem_singleton.mp member]
              exact filled (.value v) List.mem_cons_self
        · split at found
          · cases found
            exact others
          · cases found

/-- An evaluator that makes no empty vectors, and that evaluates a written vector to a vector. -/
structure Evaluator.Sound (deeper : Evaluator) : Prop where
  filled : ∀ {scope : Scope} {e : Expr}, scope.Filled → e.Filled → Yields Value.Filled (deeper scope e)
  vector : ∀ (scope : Scope) (elems : List Expr), Yields (fun v => v.kind = .vector) (deeper scope (.vector elems))

namespace Eval

variable {deeper : Evaluator} {scope : Scope}

theorem sound_host (sound : deeper.Sound) (filled : scope.Filled) : (host deeper scope).Sound where
  filled {vars e} held read := by
    refine sound.filled (fun frame member => ?_) read
    rcases List.mem_cons.mp member with rfl | member
    · exact held
    · exact filled frame member
  vector vars elems := sound.vector _ elems

theorem yields_list {evaluate : Expr → Except Fault Value} {exprs : List Expr}
    (each : ∀ e ∈ exprs, Yields Value.Filled (evaluate e)) :
    Yields (fun values => ∀ v ∈ values, v.Filled) (list evaluate exprs) := by
  induction exprs with
  | nil => exact yields_ok (List.forall_mem_nil _)
  | cons e rest ih =>
    rw [list]
    split
    · exact yields_error _
    · rename_i v found
      split
      · exact yields_error _
      · rename_i values others
        refine yields_ok fun w member => ?_
        rcases List.mem_cons.mp member with rfl | member
        · exact each e List.mem_cons_self w found
        · exact ih (fun e member => each e (List.mem_cons_of_mem _ member)) values others w member

/-- There are as many components as expressions. -/
theorem yields_components {evaluate : Expr → Except Fault Value} {position : Nat} {exprs : List Expr} :
    Yields (fun comps => comps.length = exprs.length) (components evaluate position exprs) := by
  induction exprs generalizing position with
  | nil => exact yields_ok rfl
  | cons e rest ih =>
    rw [components]
    split
    · exact yields_error _
    · split
      · exact yields_error _
      · rename_i comps others
        exact yields_ok (congrArg (· + 1) (ih comps others))
    · exact yields_error _

theorem yields_argument {evaluate : Expr → Except Fault Value} {function : String} {position : Nat} {p : Param}
    {e : Expr} (given : Yields Value.Filled (evaluate e)) :
    Yields Arg.Filled (argument evaluate function position p e) := by
  simp only [argument]
  split
  · split
    · split
      · exact yields_error _
      · exact yields_ok trivial
    · exact yields_error _
  · split
    · exact yields_error _
    · exact given.map fun _ filled => filled

theorem yields_arguments {evaluate : Expr → Except Fault Value} {function : String} {position : Nat}
    {params : List Param} {exprs : List Expr} (each : ∀ e ∈ exprs, Yields Value.Filled (evaluate e)) :
    Yields (fun args => ∀ arg ∈ args, arg.Filled) (arguments evaluate function position params exprs) := by
  induction params generalizing position exprs with
  | nil => exact yields_ok (List.forall_mem_nil _)
  | cons p params ih =>
    cases exprs with
    | nil => exact yields_ok (List.forall_mem_nil _)
    | cons e rest =>
      rw [arguments]
      split
      · exact yields_error _
      · rename_i arg found
        split
        · exact yields_error _
        · rename_i args others
          refine yields_ok fun other member => ?_
          rcases List.mem_cons.mp member with rfl | member
          · exact yields_argument (each e List.mem_cons_self) _ found
          · exact ih (fun e member => each e (List.mem_cons_of_mem _ member)) args others other member

theorem yields_body (sound : deeper.Sound) (filled : scope.Filled) {f : Function} {args : List Arg}
    (each : ∀ arg ∈ args, arg.Filled) : Yields Value.Filled (body deeper scope f args) := by
  rw [body]
  split
  · exact yields_error _
  · rename_i frame called
    split
    · exact yields_error _
    · rename_i e read
      refine sound.filled (fun inner member => ?_) ?_
      · rcases List.mem_cons.mp member with rfl | member
        · exact Frame.filled_ofCall? called each
        · exact filled inner member
      · exact Host.filled_of_read read

theorem find?_of_callee? {name : String} {f : Builtin} (known : callee? scope name = some (.builtin f)) :
    Builtin.find? name = some f := by
  rw [callee?] at known
  split at known
  · rename_i found
    cases known
    exact found
  · cases function : scope.function? name <;> rw [function] at known <;> cases known

theorem yields_call (sound : deeper.Sound) (filled : scope.Filled) {name : String} {exprs : List Expr}
    (each : ∀ e ∈ exprs, e.Filled) : Yields Value.Filled (call deeper scope name exprs) := by
  rw [call]
  split
  · exact yields_error _
  · rename_i callee known
    split
    · exact yields_error _
    · split
      · exact yields_error _
      · rename_i args given
        have inputs := yields_arguments (fun e member => sound.filled filled (each e member)) args given
        split
        · rename_i f
          exact Builtin.keeps_of_find? (find?_of_callee? known) _ _ (sound_host sound filled) inputs
        · exact yields_body sound filled inputs

/-- One level of an evaluation makes no empty vectors if the levels below make none. -/
theorem sound_step (ctx : Context) (sound : deeper.Sound) : Evaluator.Sound (step ctx deeper) where
  filled {scope e} filled read := by
    cases read with
    | num x => exact yields_ok (.number x)
    | var name =>
      rw [step]
      split
      · rename_i v found
        exact yields_ok (filled.value? found)
      · split
        · rename_i v found
          exact yields_ok (Context.filled_of_constant? found)
        · exact yields_error _
    | binary first second =>
      rw [step]
      split
      · exact yields_error _
      · rename_i left evaluated
        split
        · exact yields_error _
        · rename_i right other
          exact Op.yields_apply _ (sound.filled filled first left evaluated) (sound.filled filled second right other)
    | call each => exact yields_call sound filled each
    | list each => exact (yields_list fun e member => sound.filled filled (each e member)).map fun _ => .list
    | vector nonempty each =>
      refine yields_components.map fun comps same => .vector fun none => nonempty ?_
      rwa [none, List.length_nil, eq_comm, List.length_eq_zero_iff] at same
    | delegate d => exact yields_error _
  vector scope elems := yields_map fun comps => rfl

theorem sound_run (ctx : Context) (depth : Nat) : Evaluator.Sound (run ctx depth) := by
  induction depth with
  | zero => exact ⟨fun _ _ => yields_error _, fun _ _ => yields_error _⟩
  | succ depth ih => exact sound_step ctx ih

end Eval

/-- In a context whose variables hold no empty vectors, no text evaluates to a value with one. -/
theorem Context.yields_evalText {ctx : Context} (filled : FilledVars ctx.vars.entries) (source : String) :
    Yields Value.Filled (ctx.evalText source) := by
  rw [evalText]
  split
  · exact yields_error _
  · rename_i e read
    refine (Eval.sound_run ctx ctx.limit).filled (fun frame member => ?_) (Expr.filled_of_parse read)
    rw [List.mem_singleton.mp member]
    exact filled

/-- What is evaluated in a context whose variables hold no empty vectors has none, whatever its functions are, and its
    text is read again, as the expression of the value. -/
theorem Context.parse_text_evalText {ctx : Context} (filled : FilledVars ctx.vars.entries) {source : String} {v : Value}
    (evaluated : ctx.evalText source = .ok v) : v.Filled ∧ Expr.parse v.text = .ok v.expr := by
  have whole := yields_evalText filled source v evaluated
  exact ⟨whole, whole.parse⟩

/-- Quotients of differences, a function of the user and a delegate make vectors, which a list takes up. -/
theorem Context.parse_text_evalText_vectors :
    let turn : Function := ⟨["turn"], [.number "v"], "", "cross(v, axis)"⟩
    let ctx : Context := ⟨Table.empty.insert "axis" (.vector [0, 0, 1]), Table.empty.insert "turn" turn, 0, 512⟩
    let source := "insert(foreach(\x7b1, 2\x7d, [x: turn(x * <1, 0, 0>)]), diff([x: <x, 2>], 3), 1)"
    FilledVars ctx.vars.entries ∧ ∃ v, ctx.evalText source = .ok v ∧ v.text = "\x7b<0,-1,0>,<1,0>,<0,-2,0>\x7d" ∧
      v.Filled ∧ Expr.parse v.text = .ok v.expr := by
  intro turn ctx source
  have filled : FilledVars ctx.vars.entries := List.forall_mem_singleton.mpr (.vector (by simp))
  have shown : (ctx.evalText source).toOption.map Value.text = some "\x7b<0,-1,0>,<1,0>,<0,-2,0>\x7d" := by
    decide +kernel
  cases evaluated : ctx.evalText source with
  | error fault =>
    rw [evaluated] at shown
    cases shown
  | ok v =>
    rw [evaluated] at shown
    exact ⟨filled, v, rfl, Option.some.inj shown, parse_text_evalText filled evaluated⟩

end Reckon
