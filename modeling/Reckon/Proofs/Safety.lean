import Mathlib
import Reckon.Proofs.Agreement

/-!
Broken promises. What is read has no unknown operations (`Expr.known_of_parse`), and every function is called with one
argument for each parameter, so that an evaluation breaks two promises of the program at most, and these exactly when
it comes to a call of `get` or `remove` with an empty list and a place between -1 and 0
(`Context.evalText_breach_iff`).
-/

namespace Reckon

/-! ### Operations -/

namespace Expr

/-- All operations in an expression are known. -/
inductive Known : Expr → Prop
  | intro {e : Expr} (operation : ∀ code left right, e ≠ .binary (.unknown code) left right)
      (each : ∀ part ∈ e.parts, Known part) : Known e

theorem Known.of_mem_parts {e part : Expr} (known : e.Known) (member : part ∈ e.parts) : part.Known := by
  cases known with
  | intro _ each => exact each part member

theorem known_of_ofTokens {tokens : List Token} {expr : Expr} (read : ofTokens tokens = .ok expr) : expr.Known := by
  refine reads_induction (motive := fun _ expr => expr.Known) (fun reading => ?_) read
  cases reading with
  | number value => exact ⟨by simp, by simp [parts]⟩
  | name word unmarked => exact ⟨by simp, by simp [parts]⟩
  | parens span inside => exact inside.2
  | literal literal =>
    refine ⟨by simp [ofText], ?_⟩
    intro part member
    simp only [ofText, parts, List.mem_map] at member
    obtain ⟨c, -, rfl⟩ := member
    exact ⟨by simp, by simp [parts]⟩
  | list span each => exact ⟨by simp, forall_of_forall₂ each⟩
  | vector span each => exact ⟨by simp, forall_of_forall₂ each⟩
  | call letters span each => exact ⟨by simp, forall_of_forall₂ each⟩
  | delegate span cut names filled => exact ⟨by simp, by simp [parts]⟩
  | @binary _ _ _ _ t op _ _ operation parted operator first second =>
    refine ⟨?_, ?_⟩
    · rintro code left right ⟨⟩
      simp only [Op.ofSymbol?] at operator
      repeat' split at operator
      all_goals cases operator
    · intro part member
      simp only [parts, List.mem_cons, List.not_mem_nil, or_false] at member
      rcases member with rfl | rfl
      · exact first.2
      · exact second.2

/-- What is read has no unknown operations. -/
theorem known_of_parse {source : String} {expr : Expr} (read : parse source = .ok expr) : expr.Known :=
  known_of_ofTokens (parse_eq_ok_iff.mp read)

end Expr

theorem Host.known_of_read {source : String} {e : Expr} (read : Host.read source = .ok e) : e.Known :=
  Expr.known_of_parse (parse_of_read read)

/-- A known operation breaks no promise. -/
theorem Op.breaksOnly_apply {broken : Breach → Prop} {op : Op} (known : ∀ code, op ≠ .unknown code)
    (left right : Value) : BreaksOnly broken (op.apply left right) := by
  have numbers (x y : Float) : BreaksOnly broken (op.onNumbers x y) := by
    cases op with
    | unknown code => exact absurd rfl (known code)
    | add | sub | mul | div | mod => exact breaksOnly_ok _
  have vectors (f : Float → Float → Float) (v w : List Float) : BreaksOnly broken (op.onVectors f v w) := by
    unfold onVectors
    split
    · exact breaksOnly_ok _
    · exact breaksOnly_argument _ _ _
  unfold apply
  split
  · exact vectors _ _ _
  · exact vectors _ _ _
  · exact numbers _ _
  · exact numbers _ _
  · exact breaksOnly_ok _
  · exact breaksOnly_ok _
  · exact breaksOnly_ok _
  · exact breaksOnly_ok _
  · exact numbers _ _

/-! ### Calls that are refused -/

namespace Rules

/-- The rules of a context, but with some calls refused. -/
def refusing (ctx : Context) (refuses : Eval.Callee → List Arg → Bool) : Rules := { ofContext ctx with refuses }

/-- Rules of one context that differ in the calls they refuse need to be compared at these calls only. -/
theorem simulates_refusing {ctx : Context} {refuses refuses' : Eval.Callee → List Arg → Bool} {broken : Breach → Prop}
    {excuse : Fault → Prop}
    (invoke : ∀ {callee : Eval.Callee} {args : List Arg}, Fits callee.params args →
      (refuses callee args = true ∧ excuse (.breach .malformedCall)) ∨
      (refuses callee args = false ∧ refuses' callee args = false ∧
        ∀ f promise, callee = .builtin f → f.Lapses args promise → broken promise) ∨
      (refuses callee args = false ∧ ∃ f, callee = .builtin f ∧
        (f ∈ Builtin.all → ∀ host, ∃ fault, f.run host args = .error fault ∧ excuse fault))) :
    Simulates broken excuse Eq Expr.Known (refusing ctx refuses) (refusing ctx refuses') where
  parts known member := known.of_mem_parts member
  operation known v w := by
    cases known with
    | intro operation _ =>
      refine Op.breaksOnly_apply ?_ v w
      rintro code rfl
      exact operation code _ _ rfl
  delegate _ read := Host.known_of_read read
  body _ _ read := Host.known_of_read read
  value link _ := by rw [link]; rfl
  callee link _ := by rw [link]; rfl
  builtin known := List.mem_of_find?_eq_some (Eval.find?_of_callee? known)
  invoke := invoke
  frame link _ _ _ _ := by rw [link]
  binding _ link _ := by rw [link]

/-- The evaluation of a text follows by rules under which that of every expression does. -/
theorem follows_evalText {ctx : Context} {refuses refuses' : Eval.Callee → List Arg → Bool} {broken : Breach → Prop}
    {excuse : Fault → Prop}
    (simulates : Simulates broken excuse Eq Expr.Known (refusing ctx refuses) (refusing ctx refuses')) (source : String) :
    Follows broken excuse ((refusing ctx refuses).evalText ctx source) ((refusing ctx refuses').evalText ctx source) := by
  unfold evalText
  cases read : Expr.parse source with
  | error e => exact .same (by rintro _ ⟨⟩)
  | ok e => exact simulates.follows_limit ctx.limit rfl (Expr.known_of_parse read)

/-- The rules of a context under which a call is refused unless it has one argument for each parameter: a delegate with
    the declared number of parameters for a delegate, and a value for all else. -/
def checked (ctx : Context) : Rules := refusing ctx fun callee args => !decide (Fits callee.params args)

/-- The rules of a context under which no function is called with an empty list for a place between -1 and 0. -/
def guarded (ctx : Context) : Rules := refusing ctx fun callee args =>
  match callee with
  | .builtin f => f.isVacant args
  | .user _ => false

end Rules

/-! ### Empty lists -/

namespace Builtin

theorem run_of_names : ∀ f ∈ all, (f.names = ["get"] → f.run = ofValues get) ∧
    (f.names = ["remove"] → f.run = ofValues remove) := by
  have elsewhere : ∀ f ∈ numbers ++ summaries ++ calculus ++ vectors, f.names ≠ ["get"] ∧ f.names ≠ ["remove"] := by
    decide +kernel
  have here : ∀ f ∈ lists, (f.names = ["get"] → f.run = ofValues get) ∧
      (f.names = ["remove"] → f.run = ofValues remove) := by
    simp [lists]
  intro f member
  by_cases listed : f ∈ lists
  · exact here f listed
  · have other : f ∈ numbers ++ summaries ++ calculus ++ vectors := by
      simp only [all, List.mem_append] at member ⊢
      tauto
    obtain ⟨first, second⟩ := elsewhere f other
    exact ⟨fun same => absurd same first, fun same => absurd same second⟩

/-- A call with an empty list and a place between -1 and 0 breaks a promise. -/
theorem exists_breach {f : Builtin} (member : f ∈ all) {args : List Arg} (vacant : f.isVacant args = true)
    (host : Host) : ∃ promise, f.run host args = .error (.breach promise) := by
  unfold isVacant at vacant
  split at vacant
  · rename_i list place
    simp only [Bool.and_eq_true, Bool.or_eq_true, decide_eq_true_eq, List.isEmpty_iff] at vacant
    obtain ⟨⟨⟨named, none⟩, above⟩, below⟩ := vacant
    have passes (name : String) (position : Nat) : index name position place.num 0 = .ok (Double.toInt place.num).toNat :=
      if_pos (Bool.and_eq_true_iff.mpr ⟨decide_eq_true above, decide_eq_true below⟩)
    rcases named with named | named
    · rw [(run_of_names f member).1 named]
      exact ⟨.indexBeyond (Double.toInt place.num).toNat 0, by simp [ofValues, get, none, passes]⟩
    · rw [(run_of_names f member).2 named]
      exact ⟨.negativeCapacity, by simp [ofValues, remove, none, passes]⟩
  · cases vacant

end Builtin

namespace Context

/-- The evaluation of a text comes to a call of `get` or `remove` with an empty list and a place between -1 and 0: it
    ends there if such calls are refused. -/
def ComesToVacant (ctx : Context) (source : String) : Prop :=
  (Rules.guarded ctx).evalText ctx source = .error (.breach .malformedCall)

/-- To refuse the calls whose arguments do not fit changes no evaluation, as there are none. -/
theorem evalText_checked (ctx : Context) (source : String) :
    (Rules.checked ctx).evalText ctx source = ctx.evalText source := by
  have simulates : Simulates (fun _ => True) (fun _ => False) Eq Expr.Known (Rules.checked ctx)
      (Rules.refusing ctx fun _ _ => false) :=
    Rules.simulates_refusing fun fits => .inr (.inl ⟨by simpa using fits, rfl, fun _ _ _ _ => trivial⟩)
  rcases (Rules.follows_evalText simulates source).same_or_excused with ⟨same, -⟩ | ⟨_, _, ⟨⟩⟩
  exact same.symm.trans (Rules.evalText_ofContext ctx source)

/-- The promises that an evaluation breaks are those about an empty list. -/
theorem breaksOnly_evalText (ctx : Context) (source : String) :
    BreaksOnly (fun promise => promise = .indexBeyond 0 0 ∨ promise = .negativeCapacity) (ctx.evalText source) := by
  have simulates : Simulates (fun promise => promise = .indexBeyond 0 0 ∨ promise = .negativeCapacity) (fun _ => False)
      Eq Expr.Known (Rules.refusing ctx fun _ _ => false) (Rules.refusing ctx fun _ _ => false) :=
    Rules.simulates_refusing fun _ => .inr (.inl ⟨rfl, rfl, fun _ _ _ lapses => lapses.2⟩)
  rw [← Rules.evalText_ofContext]
  rcases (Rules.follows_evalText simulates source).same_or_excused with ⟨-, kept⟩ | ⟨_, _, ⟨⟩⟩
  exact kept

/-- Where calls with an empty list are refused, an evaluation ends at one or gives what it gives otherwise, and breaks
    no promise. -/
theorem evalText_guarded (ctx : Context) (source : String) : ctx.ComesToVacant source ∨
    (ctx.evalText source = (Rules.guarded ctx).evalText ctx source ∧
      BreaksOnly (fun _ => False) ((Rules.guarded ctx).evalText ctx source)) := by
  have simulates : Simulates (fun _ => False) (fun fault => fault = .breach .malformedCall) Eq Expr.Known
      (Rules.guarded ctx) (Rules.refusing ctx fun _ _ => false) := by
    refine Rules.simulates_refusing ?_
    intro callee args _
    cases callee with
    | user f => exact .inr (.inl ⟨rfl, rfl, by rintro f promise ⟨⟩⟩)
    | builtin f =>
      by_cases vacant : f.isVacant args = true
      · exact .inl ⟨vacant, rfl⟩
      · refine .inr (.inl ⟨eq_false_of_ne_true vacant, rfl, ?_⟩)
        rintro f promise ⟨⟩ lapses
        exact vacant lapses.1
  rcases (Rules.follows_evalText simulates source).same_or_excused with ⟨same, kept⟩ | ⟨fault, failed, rfl⟩
  · exact .inr ⟨(Rules.evalText_ofContext ctx source).symm.trans same, kept⟩
  · exact .inl failed

/-- An evaluation that comes to a call with an empty list breaks a promise. -/
theorem exists_breach_of_vacant {ctx : Context} {source : String} (vacant : ctx.ComesToVacant source) :
    ∃ promise, ctx.evalText source = .error (.breach promise) := by
  have simulates : Simulates (fun _ => False) (fun fault => ∃ promise, fault = .breach promise) Eq Expr.Known
      (Rules.refusing ctx fun _ _ => false) (Rules.guarded ctx) := by
    refine Rules.simulates_refusing ?_
    intro callee args _
    cases callee with
    | user f => exact .inr (.inl ⟨rfl, rfl, by rintro f promise ⟨⟩⟩)
    | builtin f =>
      by_cases vacant : f.isVacant args = true
      · refine .inr (.inr ⟨rfl, f, rfl, fun member host => ?_⟩)
        obtain ⟨promise, broke⟩ := Builtin.exists_breach member vacant host
        exact ⟨_, broke, promise, rfl⟩
      · refine .inr (.inl ⟨rfl, eq_false_of_ne_true vacant, ?_⟩)
        rintro f promise ⟨⟩ lapses
        exact vacant lapses.1
  rw [← Rules.evalText_ofContext]
  rcases (Rules.follows_evalText simulates source).same_or_excused with ⟨same, kept⟩ | ⟨fault, failed, promise, rfl⟩
  · exact (kept _ (same.symm.trans vacant)).elim
  · exact ⟨promise, failed⟩

/-- Every function is called with one argument for each parameter, and of all promises an evaluation breaks those about
    an empty list only, exactly when it comes to a call of `get` or `remove` with an empty list and a place between -1
    and 0. -/
theorem evalText_breach_iff (ctx : Context) (source : String) :
    (Rules.checked ctx).evalText ctx source = ctx.evalText source ∧
      (∀ promise, ctx.evalText source = .error (.breach promise) →
        promise = .indexBeyond 0 0 ∨ promise = .negativeCapacity) ∧
      ((∃ promise, ctx.evalText source = .error (.breach promise)) ↔ ctx.ComesToVacant source) := by
  refine ⟨evalText_checked ctx source, breaksOnly_evalText ctx source, ?_, exists_breach_of_vacant⟩
  rintro ⟨promise, broke⟩
  rcases evalText_guarded ctx source with vacant | ⟨same, kept⟩
  · exact vacant
  · exact (kept promise (same.symm.trans broke)).elim

/-- The element before the first of an empty list is beyond the list. -/
theorem evalText_vacant : (new 0).evalText "get(\x7b\x7d, -0.5)" = .error (.breach (.indexBeyond 0 0)) := by
  have shown : (match (new 0).evalText "get(\x7b\x7d, -0.5)" with
      | .error (.breach promise) => some promise
      | _ => none) = some (.indexBeyond 0 0) := by decide +kernel
  split at shown
  · rename_i failed
    cases shown
    exact failed
  · cases shown

end Context

end Reckon
