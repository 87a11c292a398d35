import Mathlib
import Reckon.Proofs.Asking
import Reckon.Proofs.Filling

/-!
When two evaluations agree. The rules of an evaluation say what the names of variables and functions mean in a scope
and which calls are refused (`Rules`); a context has rules of its own (`Rules.run_ofContext`). Where rules give names
the same meaning in tied scopes and scopes stay tied at every call (`Simulates`), one level of an evaluation follows
the other if the levels below do (`Simulates.follows_step`), and so does a whole evaluation
(`Simulates.follows_run`). So the depth to which a context lets an evaluation nest only cuts it off
(`Context.eval_of_le`).
-/

namespace Reckon

/-! ### Results -/

/-- A result is the same as another, with promises of a kind broken only, or a fault that excuses any other result. -/
inductive Follows {α : Type} (broken : Breach → Prop) (excuse : Fault → Prop) : Except Fault α → Except Fault α → Prop
  | same {result : Except Fault α} (kept : BreaksOnly broken result) : Follows broken excuse result result
  | excused {fault : Fault} (other : Except Fault α) (excuses : excuse fault) :
      Follows broken excuse (.error fault) other

section Follows

variable {α β : Type} {broken : Breach → Prop} {excuse : Fault → Prop}

theorem Follows.bind {result result' : Except Fault α} {next next' : α → Except Fault β}
    (first : Follows broken excuse result result')
    (each : ∀ a, result = .ok a → Follows broken excuse (next a) (next' a)) :
    Follows broken excuse (result.bind next) (result'.bind next') := by
  cases first with
  | same kept =>
    cases result with
    | error fault => exact .same kept.error
    | ok a => exact each a rfl
  | excused other excuses => exact .excused _ excuses

theorem Follows.map {result result' : Except Fault α} (first : Follows broken excuse result result') (f : α → β) :
    Follows broken excuse (result.map f) (result'.map f) := by
  cases first with
  | same kept =>
    cases result with
    | error fault => exact .same kept.error
    | ok a => exact .same (breaksOnly_ok _)
  | excused other excuses => exact .excused _ excuses

theorem Follows.same_or_excused {result result' : Except Fault α} (follows : Follows broken excuse result result') :
    (result' = result ∧ BreaksOnly broken result) ∨ ∃ fault, result = .error fault ∧ excuse fault := by
  cases follows with
  | same kept => exact .inl ⟨rfl, kept⟩
  | excused other excuses => exact .inr ⟨_, rfl, excuses⟩

/-- What is computed with two hosts that answer alike is alike. -/
theorem Asks.follows {given : Delegate → Prop} {lapses : Breach → Prop} {computation : Host → Except Fault α}
    (asks : Asks given lapses computation) (more : ∀ promise, lapses promise → broken promise) {host host' : Host}
    (alike : ∀ {d : Delegate} {param : String} {body : Expr} (v : Value), given d → d.params = [param] →
      Host.read d.body = .ok body →
        Follows broken excuse (host.evaluate [(param, v)] body) (host'.evaluate [(param, v)] body)) :
    Follows broken excuse (computation host) (computation host') := by
  induction asks with
  | done kept => exact .same (kept.mono more)
  | ask known named read v _ ih => exact (alike v known named read).bind fun w _ => ih w

end Follows

/-! ### Parts of an evaluation -/

namespace Eval

variable {broken : Breach → Prop} {excuse : Fault → Prop} {evaluate evaluate' : Expr → Except Fault Value}

theorem list_cons (evaluate : Expr → Except Fault Value) (e : Expr) (rest : List Expr) : list evaluate (e :: rest) =
    (evaluate e).bind fun v => (list evaluate rest).map (v :: ·) := by
  rw [list]
  cases evaluate e with
  | error fault => rfl
  | ok v =>
    simp only [Except.bind]
    cases list evaluate rest <;> rfl

theorem follows_list {exprs : List Expr} (each : ∀ e ∈ exprs, Follows broken excuse (evaluate e) (evaluate' e)) :
    Follows broken excuse (list evaluate exprs) (list evaluate' exprs) := by
  induction exprs with
  | nil => exact .same (breaksOnly_ok [])
  | cons e rest ih =>
    rw [list_cons, list_cons]
    refine (each e List.mem_cons_self).bind fun v _ => ?_
    exact (ih fun e member => each e (List.mem_cons_of_mem _ member)).map _

/-- What follows the evaluation of a component: the others if it is a number. -/
def afterComponent (position : Nat) (others : Except Fault (List Float)) : Value → Except Fault (List Float)
  | .number x => others.map (x :: ·)
  | v => .error (.misuse (.componentNotNumber position v.kind))

theorem components_cons (evaluate : Expr → Except Fault Value) (position : Nat) (e : Expr) (rest : List Expr) :
    components evaluate position (e :: rest) =
      (evaluate e).bind (afterComponent position (components evaluate (position + 1) rest)) := by
  rw [components]
  cases evaluate e with
  | error fault => rfl
  | ok v =>
    cases v with
    | number x =>
      simp only [Except.bind, afterComponent]
      cases components evaluate (position + 1) rest <;> rfl
    | list elems => rfl
    | vector comps => rfl

theorem follows_components {exprs : List Expr} (each : ∀ e ∈ exprs, Follows broken excuse (evaluate e) (evaluate' e))
    (position : Nat) :
    Follows broken excuse (components evaluate position exprs) (components evaluate' position exprs) := by
  induction exprs generalizing position with
  | nil => exact .same (breaksOnly_ok [])
  | cons e rest ih =>
    rw [components_cons, components_cons]
    refine (each e List.mem_cons_self).bind fun v _ => ?_
    cases v with
    | number x => exact (ih (fun e member => each e (List.mem_cons_of_mem _ member)) _).map _
    | list elems => exact .same (by rintro _ ⟨⟩)
    | vector comps => exact .same (by rintro _ ⟨⟩)

/-- An expression that is no delegate is evaluated for a parameter that takes values. -/
theorem argument_other {e : Expr} (other : ∀ d, e ≠ .delegate d) (evaluate : Expr → Except Fault Value)
    (function : String) (position : Nat) (p : Param) : argument evaluate function position p e =
      if p.kind = .delegate then .error (.ofArgument function position (.notDelegate e.description))
      else (evaluate e).map .value := by
  cases e with
  | delegate d => exact absurd rfl (other d)
  | num | var | binary | call | list | vector => rfl

theorem follows_argument {e : Expr} (given : Follows broken excuse (evaluate e) (evaluate' e)) (function : String)
    (position : Nat) (p : Param) :
    Follows broken excuse (argument evaluate function position p e) (argument evaluate' function position p e) := by
  by_cases isDelegate : ∃ d, e = .delegate d
  · obtain ⟨d, rfl⟩ := isDelegate
    refine .same ?_
    simp only [argument]
    split
    · split
      · exact breaksOnly_argument _ _ _
      · exact breaksOnly_ok _
    · exact breaksOnly_argument _ _ _
  · have other : ∀ d, e ≠ .delegate d := fun d same => isDelegate ⟨d, same⟩
    rw [argument_other other, argument_other other]
    split
    · exact .same (breaksOnly_argument _ _ _)
    · exact given.map _

theorem arguments_cons (evaluate : Expr → Except Fault Value) (function : String) (position : Nat) (p : Param)
    (params : List Param) (e : Expr) (exprs : List Expr) :
    arguments evaluate function position (p :: params) (e :: exprs) =
      (argument evaluate function position p e).bind fun arg =>
        (arguments evaluate function (position + 1) params exprs).map (arg :: ·) := by
  rw [arguments]
  cases argument evaluate function position p e with
  | error fault => rfl
  | ok arg =>
    simp only [Except.bind]
    cases arguments evaluate function (position + 1) params exprs <;> rfl

theorem follows_arguments {exprs : List Expr} (each : ∀ e ∈ exprs, Follows broken excuse (evaluate e) (evaluate' e))
    (function : String) (position : Nat) (params : List Param) :
    Follows broken excuse (arguments evaluate function position params exprs)
      (arguments evaluate' function position params exprs) := by
  induction exprs generalizing position params with
  | nil => cases params <;> exact .same (breaksOnly_ok [])
  | cons e exprs ih =>
    cases params with
    | nil => exact .same (breaksOnly_ok [])
    | cons p params =>
      rw [arguments_cons, arguments_cons]
      refine (follows_argument (each e List.mem_cons_self) _ _ _).bind fun arg _ => ?_
      exact (ih (fun e member => each e (List.mem_cons_of_mem _ member)) _ _).map _

/-! ### Arguments -/

theorem takes_of_argument {e : Expr} {function : String} {position : Nat} {p : Param} {arg : Arg}
    (given : argument evaluate function position p e = .ok arg) :
    p.Takes arg ∧ ∀ d, arg = .delegate d → e = .delegate d := by
  by_cases isDelegate : ∃ d, e = .delegate d
  · obtain ⟨d, rfl⟩ := isDelegate
    simp only [argument] at given
    split at given
    · rename_i marked
      split at given
      · cases given
      · rename_i fine
        cases given
        unfold delegateProblem? at fine
        split at fine
        · cases fine
        · rename_i arity
          refine ⟨⟨marked, not_not.mp arity, List.findSome?_eq_none_iff.mp fine⟩, ?_⟩
          rintro d ⟨⟩
          rfl
    · cases given
  · rw [argument_other fun d same => isDelegate ⟨d, same⟩] at given
    split at given
    · cases given
    · rename_i plain
      cases evaluated : evaluate e with
      | error fault =>
        rw [evaluated] at given
        cases given
      | ok v =>
        rw [evaluated] at given
        cases given
        refine ⟨plain, ?_⟩
        rintro d ⟨⟩

/-- A call that is made has one argument for each parameter, and the delegates among them are those of the call. -/
theorem fits_of_arguments {function : String} {position : Nat} {params : List Param} {exprs : List Expr}
    {args : List Arg} (count : exprs.length = params.length)
    (given : arguments evaluate function position params exprs = .ok args) :
    Fits params args ∧ ∀ d, .delegate d ∈ args → .delegate d ∈ exprs := by
  induction params generalizing position exprs args with
  | nil =>
    rw [List.length_nil, List.length_eq_zero_iff] at count
    subst count
    cases given
    exact ⟨.nil, by simp⟩
  | cons p params ih =>
    cases exprs with
    | nil => cases count
    | cons e exprs =>
      rw [arguments_cons] at given
      cases first : argument evaluate function position p e with
      | error fault =>
        rw [first] at given
        cases given
      | ok arg =>
        rw [first] at given
        simp only [Except.bind] at given
        cases others : arguments evaluate function (position + 1) params exprs with
        | error fault =>
          rw [others] at given
          cases given
        | ok rest =>
          rw [others] at given
          cases given
          obtain ⟨takes, own⟩ := takes_of_argument first
          obtain ⟨fits, theirs⟩ := ih (Nat.succ.inj count) others
          refine ⟨.cons takes fits, fun d member => ?_⟩
          rcases List.mem_cons.mp member with same | member
          · rw [own d same.symm]
            exact List.mem_cons_self
          · exact List.mem_cons_of_mem _ (theirs d member)

end Eval

/-- There is a frame for arguments that fit. -/
theorem Frame.exists_ofCall? {params : List Param} {args : List Arg} (fits : Fits params args) :
    ∃ frame, ofCall? params args = some frame := by
  induction fits with
  | nil => exact ⟨_, rfl⟩
  | @cons p arg params args takes _ ih =>
    obtain ⟨frame, found⟩ := ih
    rw [ofCall?, found]
    cases arg with
    | value v => exact ⟨_, if_neg takes⟩
    | delegate d => exact ⟨_, if_pos takes.1⟩

/-! ### Rules -/

/-- What the names of variables and functions mean in a scope, and which calls are refused. -/
structure Rules where
  value? : Scope → String → Option Value
  callee? : Scope → String → Option Eval.Callee
  refuses : Eval.Callee → List Arg → Bool

namespace Rules

/-- Evaluates the function of a call with its arguments. -/
def invoke (deeper : Evaluator) (scope : Scope) (args : List Arg) : Eval.Callee → Except Fault Value
  | .builtin f => f.run (Eval.host deeper scope) args
  | .user f => Eval.body deeper scope f args

/-- Evaluates a call. One that is refused counts as malformed. -/
def call (rules : Rules) (deeper : Evaluator) (scope : Scope) (name : String) (exprs : List Expr) :
    Except Fault Value :=
  match rules.callee? scope name with
  | none => .error (.misuse (.unknownFunction name))
  | some callee =>
    if exprs.length ≠ callee.params.length then
      .error (.ofArgument name 0 (.wrongCount callee.params.length exprs.length))
    else
      (Eval.arguments (deeper scope) name 1 callee.params exprs).bind fun args =>
        if rules.refuses callee args then .error (.breach .malformedCall) else invoke deeper scope args callee

/-- Evaluates an expression whose parts are evaluated by `deeper`. -/
def step (rules : Rules) (deeper : Evaluator) (scope : Scope) : Expr → Except Fault Value
  | .num x => .ok (.number x)
  | .var name =>
    match rules.value? scope name with
    | some v => .ok v
    | none => .error (.unbound name)
  | .binary op l r => (deeper scope l).bind fun left => (deeper scope r).bind fun right => op.apply left right
  | .list elems => (Eval.list (deeper scope) elems).map .list
  | .vector elems => (Eval.components (deeper scope) 1 elems).map .vector
  | .call name args => rules.call deeper scope name args
  | .delegate d => .error (.misuse (.loneDelegate d))

/-- Evaluates an expression with a depth that is left of a limit. -/
def run (rules : Rules) (limit : Nat) : (depth : Nat) → Evaluator
  | 0, _, _ => .error (.overflow limit)
  | depth + 1, scope, e => rules.step (run rules limit depth) scope e

/-- Evaluates a source text with the definitions of a context, but by these rules. -/
def evalText (rules : Rules) (ctx : Context) (source : String) : Except Fault Value :=
  match Expr.parse source with
  | .error e => .error (.parse e)
  | .ok e => rules.run ctx.limit ctx.limit (Scope.root ctx) e

/-- The rules of a context: variables before constants, built-in functions before others, and no call refused. -/
def ofContext (ctx : Context) : Rules where
  value? scope name := (scope.value? name).or (ctx.constant? name)
  callee? := Eval.callee?
  refuses _ _ := false

theorem step_ofContext (ctx : Context) (deeper : Evaluator) (scope : Scope) (e : Expr) :
    (ofContext ctx).step deeper scope e = Eval.step ctx deeper scope e := by
  cases e with
  | num | list | vector | delegate => rfl
  | var name =>
    simp only [step, Eval.step, ofContext]
    cases scope.value? name with
    | some v => rfl
    | none => cases ctx.constant? name <;> rfl
  | binary op l r =>
    simp only [step, Eval.step]
    cases deeper scope l with
    | error fault => rfl
    | ok left =>
      simp only [Except.bind]
      cases deeper scope r <;> rfl
  | call name args =>
    simp only [step, Eval.step, call, Eval.call, ofContext]
    cases Eval.callee? scope name with
    | none => rfl
    | some callee =>
      simp only
      split
      · rfl
      · cases Eval.arguments (deeper scope) name 1 callee.params args with
        | error fault => rfl
        | ok given => cases callee <;> rfl

/-- Evaluation by the rules of a context is evaluation in the context. -/
theorem run_ofContext (ctx : Context) (depth : Nat) : (ofContext ctx).run ctx.limit depth = Eval.run ctx depth := by
  induction depth with
  | zero => rfl
  | succ depth ih =>
    funext scope e
    rw [run, ih, step_ofContext, Eval.run]

theorem evalText_ofContext (ctx : Context) (source : String) :
    (ofContext ctx).evalText ctx source = ctx.evalText source := by
  rw [evalText, Context.evalText]
  cases Expr.parse source with
  | error e => rfl
  | ok e => rw [run_ofContext]; rfl

end Rules

/-! ### Simulation -/

/-- The expressions right below an expression. The body of a delegate is none, as it is not read. -/
def Expr.parts : Expr → List Expr
  | .binary _ left right => [left, right]
  | .call _ exprs | .list exprs | .vector exprs => exprs
  | .num _ | .var _ | .delegate _ => []

/-- Rules under which the evaluation of fine expressions in tied scopes follows that by other rules: names mean the
    same, parts and bodies are fine again, and a call is refused by neither, or by the first with an excuse, or fails
    with one by the first. -/
structure Simulates (broken : Breach → Prop) (excuse : Fault → Prop) (tied : Scope → Scope → Prop)
    (fine : Expr → Prop) (rules rules' : Rules) : Prop where
  parts : ∀ {e part : Expr}, fine e → part ∈ e.parts → fine part
  operation : ∀ {op : Op} {left right : Expr}, fine (.binary op left right) →
    ∀ v w : Value, BreaksOnly broken (op.apply v w)
  delegate : ∀ {d : Delegate} {body : Expr}, fine (.delegate d) → Host.read d.body = .ok body → fine body
  body : ∀ {scope scope' : Scope} {name : String} {f : Function} {body : Expr}, tied scope scope' →
    rules.callee? scope name = some (.user f) → Host.read f.body = .ok body → fine body
  value : ∀ {scope scope' : Scope} {name : String}, tied scope scope' → fine (.var name) →
    rules.value? scope name = rules'.value? scope' name
  callee : ∀ {scope scope' : Scope} {name : String} {exprs : List Expr}, tied scope scope' → fine (.call name exprs) →
    rules.callee? scope name = rules'.callee? scope' name
  builtin : ∀ {scope : Scope} {name : String} {f : Builtin}, rules.callee? scope name = some (.builtin f) →
    f ∈ Builtin.all
  invoke : ∀ {callee : Eval.Callee} {args : List Arg}, Fits callee.params args →
    (rules.refuses callee args = true ∧ excuse (.breach .malformedCall)) ∨
    (rules.refuses callee args = false ∧ rules'.refuses callee args = false ∧
      ∀ f promise, callee = .builtin f → f.Lapses args promise → broken promise) ∨
    (rules.refuses callee args = false ∧ ∃ f, callee = .builtin f ∧
      (f ∈ Builtin.all → ∀ host, ∃ fault, f.run host args = .error fault ∧ excuse fault))
  frame : ∀ {scope scope' : Scope} {name : String} {f : Function} {args : List Arg} {frame : Frame},
    tied scope scope' → rules.callee? scope name = some (.user f) → Fits f.params args →
    (∀ d, .delegate d ∈ args → fine (.delegate d)) → Frame.ofCall? f.params args = some frame →
    tied (frame :: scope) (frame :: scope')
  binding : ∀ {scope scope' : Scope} {param : String} (v : Value), tied scope scope' →
    Name.problem? param .param false = none → tied (⟨[(param, v)], []⟩ :: scope) (⟨[(param, v)], []⟩ :: scope')

namespace Simulates

variable {broken : Breach → Prop} {excuse : Fault → Prop} {tied : Scope → Scope → Prop} {fine : Expr → Prop}
  {rules rules' : Rules} {deeper deeper' : Evaluator} {scope scope' : Scope}

/-- A built-in function that is given what it takes follows itself, as it asks about the bodies of fine delegates
    only. -/
theorem follows_builtin (simulates : Simulates broken excuse tied fine rules rules')
    (below : ∀ {scope scope' e}, tied scope scope' → fine e → Follows broken excuse (deeper scope e) (deeper' scope' e))
    (link : tied scope scope') {f : Builtin} {args : List Arg} (asking : f.Asking) (fits : Fits f.params args)
    (delegates : ∀ d, .delegate d ∈ args → fine (.delegate d))
    (more : ∀ promise, f.Lapses args promise → broken promise) :
    Follows broken excuse (f.run (Eval.host deeper scope) args) (f.run (Eval.host deeper' scope') args) := by
  refine (asking args fits).follows more ?_
  intro d param body v known named read
  have valid : Name.problem? param .param false = none := fits.names known param (by simp [named])
  exact below (simulates.binding v link valid) (simulates.delegate (delegates d known) read)

theorem follows_body (simulates : Simulates broken excuse tied fine rules rules')
    (below : ∀ {scope scope' e}, tied scope scope' → fine e → Follows broken excuse (deeper scope e) (deeper' scope' e))
    (link : tied scope scope') {name : String} {f : Function} {args : List Arg}
    (known : rules.callee? scope name = some (.user f)) (fits : Fits f.params args)
    (delegates : ∀ d, .delegate d ∈ args → fine (.delegate d)) :
    Follows broken excuse (Eval.body deeper scope f args) (Eval.body deeper' scope' f args) := by
  obtain ⟨frame, called⟩ := Frame.exists_ofCall? fits
  simp only [Eval.body, called]
  cases read : Host.read f.body with
  | error fault =>
    have kept : BreaksOnly broken (Host.read f.body) := breaksOnly_read f.body
    rw [read] at kept
    exact .same kept.error
  | ok e => exact below (simulates.frame link known fits delegates called) (simulates.body link known read)

theorem follows_call (simulates : Simulates broken excuse tied fine rules rules')
    (below : ∀ {scope scope' e}, tied scope scope' → fine e → Follows broken excuse (deeper scope e) (deeper' scope' e))
    (link : tied scope scope') {name : String} {exprs : List Expr} (fit : fine (.call name exprs)) :
    Follows broken excuse (rules.call deeper scope name exprs) (rules'.call deeper' scope' name exprs) := by
  unfold Rules.call
  rw [← simulates.callee link fit]
  cases known : rules.callee? scope name with
  | none => exact .same (by rintro _ ⟨⟩)
  | some callee =>
    by_cases count : exprs.length = callee.params.length
    · simp only [ne_eq, count, not_true_eq_false, if_false]
      refine (Eval.follows_arguments (fun e member => below link (simulates.parts fit member)) name 1 _).bind ?_
      intro args given
      obtain ⟨fits, own⟩ := Eval.fits_of_arguments count given
      have delegates : ∀ d, .delegate d ∈ args → fine (.delegate d) :=
        fun d member => simulates.parts fit (own d member)
      rcases simulates.invoke fits with ⟨refused, excuses⟩ | ⟨admitted, admitted', more⟩ | ⟨admitted, f, rfl, fails⟩
      · rw [if_pos refused]
        exact .excused _ excuses
      · rw [if_neg (by simp [admitted]), if_neg (by simp [admitted'])]
        cases callee with
        | builtin f =>
          have asking := Builtin.asking_of_mem (simulates.builtin known)
          exact simulates.follows_builtin below link asking fits delegates fun promise => more f promise rfl
        | user f => exact simulates.follows_body below link known fits delegates
      · obtain ⟨fault, failed, excuses⟩ := fails (simulates.builtin known) (Eval.host deeper scope)
        rw [if_neg (by simp [admitted]), Rules.invoke, failed]
        exact .excused _ excuses
    · simp only [ne_eq, count, not_false_eq_true, if_true]
      exact .same (breaksOnly_argument _ _ _)

/-- One level of an evaluation follows the other if the levels below do. -/
theorem follows_step (simulates : Simulates broken excuse tied fine rules rules')
    (below : ∀ {scope scope' e}, tied scope scope' → fine e → Follows broken excuse (deeper scope e) (deeper' scope' e))
    (link : tied scope scope') {e : Expr} (fit : fine e) :
    Follows broken excuse (rules.step deeper scope e) (rules'.step deeper' scope' e) := by
  cases e with
  | num x => exact .same (breaksOnly_ok _)
  | var name =>
    simp only [Rules.step, simulates.value link fit]
    cases rules'.value? scope' name with
    | none => exact .same (by rintro _ ⟨⟩)
    | some v => exact .same (breaksOnly_ok v)
  | binary op left right =>
    refine (below link (simulates.parts fit (by simp [Expr.parts]))).bind fun v _ => ?_
    refine (below link (simulates.parts fit (by simp [Expr.parts]))).bind fun w _ => ?_
    exact .same (simulates.operation fit v w)
  | list elems => exact (Eval.follows_list fun e member => below link (simulates.parts fit member)).map _
  | vector elems => exact (Eval.follows_components (fun e member => below link (simulates.parts fit member)) 1).map _
  | call name exprs => exact simulates.follows_call below link fit
  | delegate d => exact .same (by rintro _ ⟨⟩)

/-- A whole evaluation follows another with some depth more, if an evaluation that is given up follows what the other
    gives with that depth. -/
theorem follows_run (simulates : Simulates broken excuse tied fine rules rules') {limit limit' extra : Nat}
    (base : ∀ {scope scope' e}, tied scope scope' → fine e →
      Follows broken excuse (.error (.overflow limit)) (rules'.run limit' extra scope' e))
    (depth : Nat) (link : tied scope scope') {e : Expr} (fit : fine e) :
    Follows broken excuse (rules.run limit depth scope e) (rules'.run limit' (depth + extra) scope' e) := by
  induction depth generalizing scope scope' e with
  | zero =>
    rw [Nat.zero_add]
    exact base link fit
  | succ depth ih =>
    rw [Nat.add_right_comm]
    refine simulates.follows_step ?_ link fit
    intro scope scope' e link fit
    exact ih link fit

/-- With the same limit and the same depth no more is to be shown. -/
theorem follows_limit (simulates : Simulates broken excuse tied fine rules rules') (limit : Nat)
    (link : tied scope scope') {e : Expr} (fit : fine e) :
    Follows broken excuse (rules.run limit limit scope e) (rules'.run limit limit scope' e) := by
  have base {scope scope' : Scope} {e : Expr} (_ : tied scope scope') (_ : fine e) :
      Follows broken excuse (.error (.overflow limit)) (rules'.run limit 0 scope' e) := .same (by rintro _ ⟨⟩)
  exact simulates.follows_run base limit link fit

end Simulates

/-! ### Depth -/

/-- By the same rules an evaluation follows itself with any excuse. -/
theorem Rules.simulates_ofContext (ctx : Context) (excuse : Fault → Prop) :
    Simulates (fun _ => True) excuse Eq (fun _ => True) (ofContext ctx) (ofContext ctx) where
  parts _ _ := trivial
  operation _ _ _ _ _ := trivial
  delegate _ _ := trivial
  body _ _ _ := trivial
  value link _ := by rw [link]
  callee link _ := by rw [link]
  builtin known := List.mem_of_find?_eq_some (Eval.find?_of_callee? known)
  invoke _ := .inr (.inl ⟨rfl, rfl, fun _ _ _ _ => trivial⟩)
  frame link _ _ _ _ := by rw [link]
  binding _ link _ := by rw [link]

namespace Context

/-- What an evaluation gives with some depth, be it a value or a fault, it gives with any greater depth, unless it was
    given up. -/
theorem eval_of_le (ctx : Context) (e : Expr) {depth depth' : Nat} (le : depth ≤ depth')
    (settled : ∀ limit, eval { ctx with limit := depth } e ≠ .error (.overflow limit)) :
    eval { ctx with limit := depth' } e = eval { ctx with limit := depth } e := by
  obtain ⟨extra, rfl⟩ := Nat.exists_eq_add_of_le le
  have follows : Follows (fun _ => True) (fun fault => ∃ limit, fault = .overflow limit)
      (eval { ctx with limit := depth } e) (eval { ctx with limit := depth + extra } e) := by
    simp only [eval, ← Rules.run_ofContext]
    refine (Rules.simulates_ofContext ctx _).follows_run ?_ depth rfl trivial
    intro _ _ _ _ _
    exact .excused _ ⟨_, rfl⟩
  rcases follows.same_or_excused with ⟨same, -⟩ | ⟨fault, failed, limit, rfl⟩
  · exact same
  · exact absurd failed (settled limit)

/-- With one function, which takes the first element off a list and calls itself. -/
def dwindling (depth : Nat) : Context :=
  ⟨.empty, Table.empty.insert "g" ⟨["g"], [.number "l"], "", "g(remove(l, 0))"⟩, 0, depth⟩

/-- The function ends at the empty list, with a depth of 6 and so with any greater one. -/
theorem eval_of_le_dwindling : let call : Expr := .call "g" [.list [.num 1, .num 2]]
    (∀ limit, eval (dwindling 6) call ≠ .error (.overflow limit)) ∧
      eval (dwindling 512) call = eval (dwindling 6) call := by
  intro call
  have ended : (match eval (dwindling 6) (.call "g" [.list [.num 1, .num 2]]) with
      | .error (.overflow _) => true
      | _ => false) = false := by decide +kernel
  have settled : ∀ limit, eval (dwindling 6) call ≠ .error (.overflow limit) := by
    intro limit failed
    rw [failed] at ended
    cases ended
  exact ⟨settled, eval_of_le (dwindling 512) call (by decide) settled⟩

end Context

end Reckon
