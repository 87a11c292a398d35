import Mathlib
import Reckon.Proofs.Agreement
import Reckon.Proofs.Definitions

/-!
Nothing is shadowed. No variable in scope has the name of a constant and no function that of a built-in one: not in the
definitions of a context, as all of them were checked, and not in the frame of a call, as parameters and the delegates
given for them are checked too (`Frame.clear_ofCall?`). So it does not matter which are looked up first, at any level of
an evaluation (`Context.evalText_reversed`).
-/

namespace Reckon

/-! ### Names in scope -/

/-- A parameter that shadows nothing: it has not the name of a constant, nor, if it is for a delegate and so becomes a
    function, that of a built-in one. -/
structure Param.Clear (p : Param) : Prop where
  unreserved : p.name ∉ Name.reserved
  new : p.kind = .delegate → Builtin.isName p.name = false

theorem Param.Sound.clear {p : Param} (sound : p.Sound) : p.Clear := by
  cases sound with
  | number valid => exact ⟨valid.unreserved, by rintro ⟨⟩⟩
  | delegate valid new => exact ⟨valid.unreserved, fun _ => new⟩

/-- A frame that shadows nothing, nor do the parameters of its functions. -/
structure Frame.Clear (frame : Frame) : Prop where
  vars : ∀ entry ∈ frame.vars, entry.1 ∉ Name.reserved
  functions : ∀ entry ∈ frame.functions, Builtin.isName entry.1 = false
  params : ∀ entry ∈ frame.functions, ∀ p ∈ entry.2.params, p.Clear

/-- The parameters of a delegate take values, under names that they may have. -/
theorem Param.Takes.clear {p : Param} {d : Delegate} (takes : p.Takes (.delegate d)) :
    ∀ own ∈ (Function.ofDelegate p.name d).params, own.Clear := by
  intro own member
  obtain ⟨name, known, rfl⟩ := List.mem_map.mp member
  exact ⟨(Name.problem?_eq_none_iff.mp (takes.2.2 name known)).unreserved, by rintro ⟨⟩⟩

/-- The frame of a call shadows nothing if the parameters do not. -/
theorem Frame.clear_ofCall? {params : List Param} {args : List Arg} {frame : Frame} (clear : ∀ p ∈ params, p.Clear)
    (fits : Fits params args) (called : ofCall? params args = some frame) : frame.Clear := by
  induction fits generalizing frame with
  | nil =>
    cases called
    exact ⟨by simp, by simp, by simp⟩
  | @cons p arg params args takes _ ih =>
    have first := clear p List.mem_cons_self
    simp only [ofCall?] at called
    split at called
    · cases called
    · rename_i inner rest
      have others := ih (fun p member => clear p (List.mem_cons_of_mem _ member)) rest
      cases arg with
      | value v =>
        dsimp only at called
        rw [if_neg takes] at called
        cases called
        refine ⟨?_, others.functions, others.params⟩
        exact List.forall_mem_append.mpr ⟨others.vars, List.forall_mem_singleton.mpr first.unreserved⟩
      | delegate d =>
        dsimp only at called
        rw [if_pos takes.1] at called
        cases called
        refine ⟨others.vars, ?_, ?_⟩
        · exact List.forall_mem_append.mpr ⟨others.functions, List.forall_mem_singleton.mpr (first.new takes.1)⟩
        · exact List.forall_mem_append.mpr ⟨others.params, List.forall_mem_singleton.mpr takes.clear⟩

/-- Scopes that shadow nothing. -/
def Scope.Clear (scope : Scope) : Prop := ∀ frame ∈ scope, frame.Clear

namespace Scope.Clear

variable {scope : Scope}

theorem cons {frame : Frame} (first : frame.Clear) (clear : scope.Clear) : Clear (frame :: scope) :=
  List.forall_mem_cons.mpr ⟨first, clear⟩

theorem unreserved (clear : scope.Clear) {name : String} {v : Value} (found : scope.value? name = some v) :
    name ∉ Name.reserved := by
  obtain ⟨frame, member, found⟩ := List.exists_of_findSome?_eq_some found
  obtain ⟨before, after, same, -⟩ := List.lookup_eq_some_iff.mp found
  exact (clear frame member).vars (name, v) (by simp [same])

theorem function (clear : scope.Clear) {name : String} {f : Function} (found : scope.function? name = some f) :
    Builtin.isName name = false ∧ ∀ p ∈ f.params, p.Clear := by
  obtain ⟨frame, member, found⟩ := List.exists_of_findSome?_eq_some found
  obtain ⟨before, after, same, -⟩ := List.lookup_eq_some_iff.mp found
  have own : (name, f) ∈ frame.functions := by simp [same]
  exact ⟨(clear frame member).functions _ own, (clear frame member).params _ own⟩

end Scope.Clear

theorem Context.Sound.clear {ctx : Context} (sound : ctx.Sound) : (Scope.root ctx).Clear := by
  intro frame member
  rw [List.mem_singleton.mp member]
  constructor
  · intro entry known
    exact (sound.vars entry known).unreserved
  · intro entry known
    exact (sound.functions entry known).new
  · intro entry known p own
    exact ((sound.functions entry known).params p own).clear

/-! ### The other order -/

theorem Context.constant?_eq_none {ctx : Context} {name : String} (free : name ∉ Name.reserved) :
    ctx.constant? name = none := by
  simp only [Name.reserved, List.mem_cons, List.not_mem_nil, or_false, not_or] at free
  simp [constant?, free]

theorem Builtin.find?_eq_none {name : String} (new : isName name = false) : find? name = none := by
  rw [find?, List.find?_eq_none]
  intro f member
  simpa using List.any_eq_false.mp new f member

namespace Rules

/-- The rules of a context, but with constants before variables and built-in functions after others. -/
def reversed (ctx : Context) : Rules where
  value? scope name := (ctx.constant? name).or (scope.value? name)
  callee? scope name := ((scope.function? name).map .user).or ((Builtin.find? name).map .builtin)
  refuses _ _ := false

theorem value?_reversed {ctx : Context} {scope : Scope} (clear : scope.Clear) (name : String) :
    (reversed ctx).value? scope name = (ofContext ctx).value? scope name := by
  simp only [reversed, ofContext]
  cases found : scope.value? name with
  | none => simp
  | some v => rw [Context.constant?_eq_none (clear.unreserved found)]; rfl

theorem callee?_reversed {ctx : Context} {scope : Scope} (clear : scope.Clear) (name : String) :
    (reversed ctx).callee? scope name = (ofContext ctx).callee? scope name := by
  simp only [reversed, ofContext, Eval.callee?]
  cases found : scope.function? name with
  | none => cases Builtin.find? name <;> rfl
  | some f => rw [Builtin.find?_eq_none (clear.function found).1]; rfl

/-- A built-in function is one, and a function of the user is in scope, in whatever order they are looked up. -/
theorem callee?_reversed_cases {ctx : Context} {scope : Scope} {name : String} {callee : Eval.Callee}
    (known : (reversed ctx).callee? scope name = some callee) :
    (∃ f, callee = .user f ∧ scope.function? name = some f) ∨ ∃ f, callee = .builtin f ∧ f ∈ Builtin.all := by
  simp only [reversed] at known
  cases found : scope.function? name with
  | some f =>
    rw [found] at known
    cases known
    exact .inl ⟨f, rfl, rfl⟩
  | none =>
    rw [found] at known
    obtain ⟨f, builtin, rfl⟩ := Option.map_eq_some_iff.mp known
    exact .inr ⟨f, rfl, List.mem_of_find?_eq_some builtin⟩

/-- In scopes that shadow nothing names mean the same in either order, and the scopes below shadow nothing either. -/
theorem simulates_reversed (ctx : Context) : Simulates (fun _ => True) (fun _ => False)
    (fun scope scope' => scope = scope' ∧ scope.Clear) (fun _ => True) (reversed ctx) (ofContext ctx) where
  parts _ _ := trivial
  operation _ _ _ _ _ := trivial
  delegate _ _ := trivial
  body _ _ _ := trivial
  value link _ := by
    rw [← link.1]
    exact value?_reversed link.2 _
  callee link _ := by
    rw [← link.1]
    exact callee?_reversed link.2 _
  builtin known := by
    rcases callee?_reversed_cases known with ⟨_, ⟨⟩, _⟩ | ⟨_, ⟨⟩, member⟩
    exact member
  invoke _ := .inr (.inl ⟨rfl, rfl, fun _ _ _ _ => trivial⟩)
  frame link known fits _ called := by
    rcases callee?_reversed_cases known with ⟨f, ⟨⟩, found⟩ | ⟨_, ⟨⟩, _⟩
    have clear := Frame.clear_ofCall? (link.2.function found).2 fits called
    exact ⟨by rw [link.1], .cons clear link.2⟩
  binding v link valid := by
    have unreserved := (Name.problem?_eq_none_iff.mp valid).unreserved
    refine ⟨by rw [link.1], .cons ⟨?_, by simp, by simp⟩ link.2⟩
    simpa using unreserved

end Rules

namespace Context

/-- Constants and built-in functions are not shadowed: whatever was asked of a context, an evaluation gives the same if
    constants are looked up before variables and built-in functions after those in scope. -/
theorem evalText_reversed (clock : Int) (requests : List Request) (source : String) :
    (Rules.reversed (after clock requests)).evalText (after clock requests) source =
      (after clock requests).evalText source := by
  generalize known : after clock requests = ctx
  have clear : (Scope.root ctx).Clear := known ▸ (sound_after clock requests).clear
  rw [← Rules.evalText_ofContext]
  unfold Rules.evalText
  cases Expr.parse source with
  | error e => rfl
  | ok e =>
    have follows := (Rules.simulates_reversed ctx).follows_limit ctx.limit ⟨rfl, clear⟩ (e := e) trivial
    rcases follows.same_or_excused with ⟨same, -⟩ | ⟨_, _, ⟨⟩⟩
    exact same.symm

/-- A variable is refused the name of a constant, so that the order does not matter. It does if the variable is set
    without a check. -/
theorem evalText_reversed_refused :
    let checked := after 0 [.defineVariable "E" (.number 1)]
    let unchecked := (new 0).setVariable "E" (.number 1)
    (Rules.reversed checked).evalText checked "E" = checked.evalText "E" ∧
      (Rules.reversed unchecked).evalText unchecked "E" ≠ unchecked.evalText "E" := by
  intro checked unchecked
  refine ⟨evalText_reversed 0 _ "E", ?_⟩
  intro same
  have texts := congrArg (fun result => result.toOption.map Value.text) same
  revert texts
  decide +kernel

end Context

end Reckon
