import Mathlib
import Reckon.Eval
import Reckon.Proofs.Indices

/-!
What functions ask of their hosts. A function is called with one argument for each of its parameters (`Fits`). With
such arguments a built-in function uses its host only to evaluate the bodies of the delegates among them, at values
for their parameters, one after another and up to the first fault (`Builtin.asking_of_mem`). Of the promises of the
program it breaks none itself, unless `get` or `remove` is called with an empty list and a place between -1 and 0.
-/

namespace Reckon

/-! ### Promises -/

/-- The promises that a computation breaks, if it breaks any, are of a kind. -/
def BreaksOnly {α : Type} (broken : Breach → Prop) (result : Except Fault α) : Prop :=
  ∀ promise, result = .error (.breach promise) → broken promise

section BreaksOnly

variable {α β : Type} {broken other : Breach → Prop}

theorem breaksOnly_ok (a : α) : BreaksOnly broken (.ok a) := by
  intro promise broke
  cases broke

/-- What is wrong with arguments is no broken promise. -/
theorem breaksOnly_argument (function : String) (position : Nat) (problem : ArgumentProblem) :
    BreaksOnly broken (.error (.ofArgument function position problem) : Except Fault α) := by
  intro promise broke
  cases broke

theorem BreaksOnly.mono {result : Except Fault α} (kept : BreaksOnly broken result)
    (more : ∀ promise, broken promise → other promise) : BreaksOnly other result := by
  intro promise broke
  exact more promise (kept promise broke)

theorem BreaksOnly.error {β : Type} {f : Fault} (kept : BreaksOnly broken (.error f : Except Fault α)) :
    BreaksOnly broken (.error f : Except Fault β) := by
  intro promise broke
  cases broke
  exact kept promise rfl

/-- A text that cannot be read breaks no promise. -/
theorem breaksOnly_read (source : String) : BreaksOnly broken (Host.read source) := by
  intro promise broke
  rw [Host.read] at broke
  cases found : Expr.parse source with
  | error e => rw [found] at broke; cases broke
  | ok e => rw [found] at broke; cases broke

end BreaksOnly

/-! ### Arguments -/

/-- An argument for a parameter: a delegate with as many parameters as declared, all under names that parameters may
    have, or a value. -/
def Param.Takes (p : Param) : Arg → Prop
  | .value _ => p.kind ≠ .delegate
  | .delegate d =>
    p.kind = .delegate ∧ (d.params.length : Int) = p.arity ∧ ∀ name ∈ d.params, Name.problem? name .param false = none

instance (p : Param) : DecidablePred p.Takes
  | .value _ => inferInstanceAs (Decidable (_ ≠ _))
  | .delegate _ => inferInstanceAs (Decidable (_ ∧ _ ∧ _))

/-- One argument for each parameter. -/
abbrev Fits (params : List Param) (args : List Arg) : Prop := List.Forall₂ Param.Takes params args

namespace Fits

variable {p : Param} {params : List Param} {args : List Arg}

theorem value (fits : Fits (p :: params) args) (plain : p.kind ≠ .delegate) :
    ∃ v rest, args = .value v :: rest ∧ Fits params rest := by
  cases fits with
  | @cons _ arg _ rest first others =>
    cases arg with
    | value v => exact ⟨v, rest, rfl, others⟩
    | delegate d => exact absurd first.1 plain

theorem delegate (fits : Fits (p :: params) args) (marked : p.kind = .delegate) :
    ∃ d rest, args = .delegate d :: rest ∧ (d.params.length : Int) = p.arity ∧ Fits params rest := by
  cases fits with
  | @cons _ arg _ rest first others =>
    cases arg with
    | value v => exact absurd marked first
    | delegate d => exact ⟨d, rest, rfl, first.2.1, others⟩

theorem eq_nil (fits : Fits [] args) : args = [] := by
  cases fits
  rfl

theorem names {d : Delegate} (fits : Fits params args) (given : .delegate d ∈ args) :
    ∀ name ∈ d.params, Name.problem? name .param false = none := by
  induction fits with
  | nil => cases given
  | cons first _ ih =>
    rcases List.mem_cons.mp given with rfl | given
    · exact first.2.2
    · exact ih given

end Fits

/-! ### Computations with a host -/

/-- A computation that uses its host only to evaluate the bodies of given delegates, each at a value for its one
    parameter, that stops at the first fault, and that breaks promises of a kind only. -/
inductive Asks (given : Delegate → Prop) (broken : Breach → Prop) {α : Type} : (Host → Except Fault α) → Prop
  | done {result : Except Fault α} (kept : BreaksOnly broken result) : Asks given broken fun _ => result
  | ask {d : Delegate} {param : String} {body : Expr} {next : Value → Host → Except Fault α} (known : given d)
      (named : d.params = [param]) (read : Host.read d.body = .ok body) (v : Value)
      (each : ∀ w, Asks given broken (next w)) :
      Asks given broken fun host => (host.evaluate [(param, v)] body).bind fun w => next w host

namespace Asks

variable {α β : Type} {given : Delegate → Prop} {broken : Breach → Prop}

theorem bind {computation : Host → Except Fault α} {next : α → Host → Except Fault β}
    (first : Asks given broken computation) (each : ∀ a, Asks given broken (next a)) :
    Asks given broken fun host => (computation host).bind fun a => next a host := by
  induction first with
  | @done result kept =>
    cases result with
    | error f => exact .done kept.error
    | ok a => exact each a
  | @ask d param body inner known named read v _ ih =>
    have regrouped : (fun host : Host => ((host.evaluate [(param, v)] body).bind fun w => inner w host).bind
        fun a => next a host) =
          fun host => (host.evaluate [(param, v)] body).bind fun w => (inner w host).bind fun a => next a host := by
      funext host
      cases host.evaluate [(param, v)] body <;> rfl
    rw [regrouped]
    exact .ask known named read v ih

theorem map {computation : Host → Except Fault α} (first : Asks given broken computation) (f : α → β) :
    Asks given broken fun host => (computation host).map f := by
  have sequence : (fun host => (computation host).map f) =
      fun host => (computation host).bind fun a => .ok (f a) := by
    funext host
    cases computation host <;> rfl
  rw [sequence]
  exact first.bind fun a => .done (breaksOnly_ok _)

end Asks

/-! ### Calculus -/

namespace Calculus

theorem sumFrom_succ (f : Unary) (count : Nat) (i : Int) (sum : Float) : sumFrom f (count + 1) i sum =
    (f.num (Float.ofInt i)).bind fun y => sumFrom f count (i + 1) (sum + y) := by
  rw [sumFrom]
  cases f.num (Float.ofInt i) <;> rfl

theorem addInner_succ (f : Unary) (lo dx : Float) (count i : Nat) (sum : Float) : addInner f lo dx (count + 1) i sum =
    (f.num (lo + Float.ofNat i * dx)).bind fun y => addInner f lo dx count (i + 1) (sum + 2 * y) := by
  rw [addInner]
  cases f.num (lo + Float.ofNat i * dx) <;> rfl

theorem addQuotients_cons (f : Unary) (x y dx : Float) (steps : List Float) (sum : Float) :
    addQuotients f x y (dx :: steps) sum =
      (f.num (x + dx)).bind fun moved => addQuotients f x y steps (sum + (moved - y) / dx) := by
  rw [addQuotients]
  cases f.num (x + dx) <;> rfl

theorem slope_eq (f : Unary) (x : Float) : slope f x = (f.num x).bind fun y =>
    (addQuotients f x y diffSteps 0).map (· / Float.ofNat diffSteps.length) := by
  rw [slope]
  cases f.num x <;> rfl

theorem addVectorQuotients_cons (f : Unary) (x : Float) (base : List Float) (dx : Float) (steps sums : List Float) :
    addVectorQuotients f x base (dx :: steps) sums = (f.value (x + dx)).bind fun moved =>
      if moved.comps.length ≠ base.length then .error (.ofArgument "diff" 1 .diffLengths)
      else addVectorQuotients f x base steps
        (List.zipWith (· + ·) sums (List.zipWith (fun c b => (c - b) / dx) moved.comps base)) := by
  rw [addVectorQuotients]
  cases f.value (x + dx) <;> rfl

theorem newton_zero (f : Unary) (x y : Float) : newton f 0 x y =
    if !(tolerance < y.abs) then .ok (round5 x) else .ok Double.nan := rfl

theorem newton_succ (f : Unary) (left : Nat) (x y : Float) : newton f (left + 1) x y =
    if !(tolerance < y.abs) then .ok (round5 x)
    else (slope f x).bind fun s =>
      let next := if round5 s == 0 then x + 1 else x - y / round5 s
      (f.num next).bind fun y => newton f left next y := by
  by_cases near : (!(tolerance < y.abs : Bool)) = true
  · rw [if_pos near]
    exact if_pos near
  · rw [if_neg near]
    refine (if_neg near).trans ?_
    cases slope f x with
    | error e => rfl
    | ok s =>
      simp only [Except.bind]
      cases f.num _ <;> rfl

theorem summation_eq (host : Host) (d : Delegate) (start stop : Int) : summation host d start stop =
    (Unary.ofDelegate host d).bind fun f => (sumFrom f (stop + 1 - start).toNat start 0).map .number := by
  rw [summation]
  cases Unary.ofDelegate host d <;> rfl

theorem integral_eq (host : Host) (d : Delegate) (lo hi : Float) : integral host d lo hi =
    (Unary.ofDelegate host d).bind fun f => (f.num lo).bind fun first => (f.num hi).bind fun last =>
      (addInner f lo ((hi - lo) / Float.ofNat integrationSteps) (integrationSteps - 1) 1 (first + last)).map fun sum =>
        .number (round5 (sum * ((hi - lo) / Float.ofNat integrationSteps) / 2)) := by
  rw [integral]
  cases Unary.ofDelegate host d with
  | error e => rfl
  | ok f =>
    simp only [Except.bind]
    cases f.num lo with
    | error e => rfl
    | ok first => cases f.num hi <;> rfl

theorem derivative_eq (host : Host) (d : Delegate) (x : Float) : derivative host d x =
    (Unary.ofDelegate host d).bind fun f => (f.value x).bind fun base =>
      if isVectorLiteral f.body || base.kind = .vector then vectorSlope f x base.comps
      else (slope f x).map fun s => .number (round5 s) := by
  rw [derivative]
  cases Unary.ofDelegate host d with
  | error e => rfl
  | ok f =>
    simp only [Except.bind]
    cases f.value x <;> rfl

theorem zero_eq (host : Host) (d : Delegate) (guess : Float) : zero host d guess =
    (Unary.ofDelegate host d).bind fun f => (f.num guess).bind fun y => (newton f newtonLimit guess y).map .number := by
  rw [zero]
  cases Unary.ofDelegate host d with
  | error e => rfl
  | ok f =>
    simp only [Except.bind]
    cases f.num guess <;> rfl

section Asking

variable {α : Type} {given : Delegate → Prop} {broken : Breach → Prop} {d : Delegate} {param : String} {body : Expr}

/-- A delegate of one parameter whose body is read before all else. -/
theorem asks_ofDelegate {next : Unary → Except Fault α} (named : d.params = [param])
    (each : ∀ body, Host.read d.body = .ok body → Asks given broken fun host => next ⟨host, param, body⟩) :
    Asks given broken fun host => (Unary.ofDelegate host d).bind next := by
  simp only [Unary.ofDelegate, named]
  cases read : Host.read d.body with
  | error f =>
    refine .done ?_
    have kept : BreaksOnly broken (Host.read d.body) := breaksOnly_read d.body
    rw [read] at kept
    exact kept.error
  | ok body => exact each body read

variable (known : given d) (named : d.params = [param]) (read : Host.read d.body = .ok body)
include known named read

theorem asks_apply (v : Value) : Asks given broken fun host => Unary.apply ⟨host, param, body⟩ v := by
  have sequence : (fun host => Unary.apply ⟨host, param, body⟩ v) =
      fun host : Host => (host.evaluate [(param, v)] body).bind fun w => .ok w := by
    funext host
    simp only [Unary.apply]
    cases host.evaluate [(param, v)] body <;> rfl
  rw [sequence]
  exact .ask known named read v fun w => .done (breaksOnly_ok w)

theorem asks_num (x : Float) : Asks given broken fun host => Unary.num ⟨host, param, body⟩ x :=
  (asks_apply known named read (.number x)).map Value.num

theorem asks_sumFrom (count : Nat) (i : Int) (sum : Float) :
    Asks given broken fun host => sumFrom ⟨host, param, body⟩ count i sum := by
  induction count generalizing i sum with
  | zero => exact .done (breaksOnly_ok sum)
  | succ count ih =>
    simp only [sumFrom_succ]
    exact (asks_num known named read _).bind fun y => ih _ _

theorem asks_addInner (lo dx : Float) (count i : Nat) (sum : Float) :
    Asks given broken fun host => addInner ⟨host, param, body⟩ lo dx count i sum := by
  induction count generalizing i sum with
  | zero => exact .done (breaksOnly_ok sum)
  | succ count ih =>
    simp only [addInner_succ]
    exact (asks_num known named read _).bind fun y => ih _ _

theorem asks_addQuotients (x y : Float) (steps : List Float) (sum : Float) :
    Asks given broken fun host => addQuotients ⟨host, param, body⟩ x y steps sum := by
  induction steps generalizing sum with
  | nil => exact .done (breaksOnly_ok sum)
  | cons dx steps ih =>
    simp only [addQuotients_cons]
    exact (asks_num known named read _).bind fun moved => ih _

theorem asks_slope (x : Float) : Asks given broken fun host => slope ⟨host, param, body⟩ x := by
  simp only [slope_eq]
  exact (asks_num known named read x).bind fun y => (asks_addQuotients known named read x y _ _).map _

theorem asks_addVectorQuotients (x : Float) (base steps sums : List Float) :
    Asks given broken fun host => addVectorQuotients ⟨host, param, body⟩ x base steps sums := by
  induction steps generalizing sums with
  | nil => exact .done (breaksOnly_ok sums)
  | cons dx steps ih =>
    simp only [addVectorQuotients_cons]
    refine (asks_apply known named read (.number (x + dx))).bind fun moved => ?_
    by_cases lengths : moved.comps.length ≠ base.length
    · simp only [if_pos lengths]
      exact .done (breaksOnly_argument _ _ _)
    · simp only [if_neg lengths]
      exact ih _

theorem asks_newton (left : Nat) (x y : Float) :
    Asks given broken fun host => newton ⟨host, param, body⟩ left x y := by
  induction left generalizing x y with
  | zero =>
    simp only [newton_zero]
    split
    · exact .done (breaksOnly_ok _)
    · exact .done (breaksOnly_ok _)
  | succ left ih =>
    simp only [newton_succ]
    split
    · exact .done (breaksOnly_ok _)
    · refine (asks_slope known named read x).bind fun s => ?_
      exact (asks_num known named read _).bind fun y => ih _ y

omit read

theorem asks_summation (start stop : Int) : Asks given broken fun host => summation host d start stop := by
  simp only [summation_eq]
  exact asks_ofDelegate named fun body read => (asks_sumFrom known named read _ _ _).map _

theorem asks_integral (lo hi : Float) : Asks given broken fun host => integral host d lo hi := by
  simp only [integral_eq]
  refine asks_ofDelegate named fun body read => ?_
  refine (asks_num known named read lo).bind fun first => ?_
  refine (asks_num known named read hi).bind fun last => ?_
  exact (asks_addInner known named read _ _ _ _ _).map _

theorem asks_derivative (x : Float) : Asks given broken fun host => derivative host d x := by
  simp only [derivative_eq]
  refine asks_ofDelegate named fun body read => ?_
  refine (asks_apply known named read (.number x)).bind fun base => ?_
  by_cases vector : (isVectorLiteral body || base.kind = .vector) = true
  · simp only [if_pos vector, vectorSlope]
    exact (asks_addVectorQuotients known named read x _ _ _).map _
  · simp only [if_neg vector]
    exact (asks_slope known named read x).map _

theorem asks_zero (guess : Float) : Asks given broken fun host => zero host d guess := by
  simp only [zero_eq]
  refine asks_ofDelegate named fun body read => ?_
  exact (asks_num known named read guess).bind fun y => (asks_newton known named read _ _ _).map _

end Asking

end Calculus

/-! ### Built-in functions -/

namespace Builtin

/-- A call of `get` or `remove` with an empty list and a place between -1 and 0, which passes the check of places. -/
def isVacant (f : Builtin) : List Arg → Bool
  | [.value list, .value place] =>
    (f.names = ["get"] || f.names = ["remove"]) && list.elems.isEmpty && -1 < place.num && place.num < 0
  | _ => false

/-- The promises that a function breaks itself. -/
def Lapses (f : Builtin) (args : List Arg) (promise : Breach) : Prop :=
  f.isVacant args = true ∧ (promise = .indexBeyond 0 0 ∨ promise = .negativeCapacity)

/-- A function that only asks its host, whatever arguments for its parameters it is called with. -/
def Asking (f : Builtin) : Prop :=
  ∀ args, Fits f.params args → Asks (fun d => .delegate d ∈ args) (f.Lapses args) fun host => f.run host args

theorem asking_ofValue {f : Function} {p : Param} {g : Value → Except Fault Value} (one : f.params = [p])
    (plain : p.kind ≠ .delegate) (kept : ∀ v, BreaksOnly (fun _ => False) (g v)) : Asking ⟨f, ofValue g⟩ := by
  intro args fits
  obtain ⟨v, rest, rfl, others⟩ := Fits.value (one ▸ fits) plain
  obtain rfl := others.eq_nil
  exact .done ((kept v).mono fun _ => False.elim)

theorem asking_ofValues {f : Function} {p q : Param} {g : Value → Value → Except Fault Value} (two : f.params = [p, q])
    (plain : p.kind ≠ .delegate) (plain' : q.kind ≠ .delegate)
    (kept : ∀ v w, BreaksOnly (Lapses ⟨f, ofValues g⟩ [.value v, .value w]) (g v w)) : Asking ⟨f, ofValues g⟩ := by
  intro args fits
  obtain ⟨v, rest, rfl, others⟩ := Fits.value (two ▸ fits) plain
  obtain ⟨w, rest, rfl, none⟩ := others.value plain'
  obtain rfl := none.eq_nil
  exact .done (kept v w)

theorem asking_ofNumber (names : List String) (name summary body : String) (g : Float → Float) :
    Asking ⟨⟨names, [.number name], summary, body⟩, ofNumber g⟩ :=
  asking_ofValue rfl Kind.noConfusion fun _ => breaksOnly_ok _

theorem asking_ofNumbers (names : List String) (first second summary body : String) (g : Float → Float → Float) :
    Asking ⟨⟨names, [.number first, .number second], summary, body⟩, ofNumbers g⟩ :=
  asking_ofValues rfl Kind.noConfusion Kind.noConfusion fun _ _ => breaksOnly_ok _

theorem asking_numbers : ∀ f ∈ numbers, f.Asking := by
  simp [numbers, numeric, asking_ofNumber, asking_ofNumbers]

theorem asking_summaries : ∀ f ∈ summaries, f.Asking := by
  have reduced (name : String) (g : Float → Float → Float) (v : Value) :
      BreaksOnly (fun _ => False) (reduce name g v) := by
    unfold reduce
    split
    · exact breaksOnly_argument _ _ _
    · exact breaksOnly_ok _
  simp only [summaries, List.forall_mem_cons]
  refine ⟨?max, ?min, ?avg, List.forall_mem_nil _⟩
  case max => exact asking_ofValue rfl (by decide) fun v => reduced _ _ v
  case min => exact asking_ofValue rfl (by decide) fun v => reduced _ _ v
  case avg =>
    refine asking_ofValue rfl (by decide) fun v => ?_
    unfold average
    split
    · exact breaksOnly_argument _ _ _
    · exact breaksOnly_ok _

/-- A delegate of the functions of calculus has one parameter. -/
theorem exists_param {d : Delegate} (arity : (d.params.length : Int) = 1) : ∃ param, d.params = [param] :=
  List.length_eq_one_iff.mp (by exact_mod_cast arity)

theorem asking_calculus : ∀ f ∈ calculus, f.Asking := by
  simp only [calculus, List.forall_mem_cons]
  refine ⟨?sum, ?int, ?diff, ?solve, ?solves, List.forall_mem_nil _⟩
  all_goals
    intro args fits
    obtain ⟨d, rest, rfl, arity, others⟩ := Fits.delegate fits rfl
    obtain ⟨param, named⟩ := exists_param arity
  case sum =>
    obtain ⟨start, rest, rfl, last⟩ := others.value (by decide)
    obtain ⟨stop, rest, rfl, none⟩ := last.value (by decide)
    obtain rfl := none.eq_nil
    exact Calculus.asks_summation (by simp) named _ _
  case int =>
    obtain ⟨lo, rest, rfl, last⟩ := others.value (by decide)
    obtain ⟨hi, rest, rfl, none⟩ := last.value (by decide)
    obtain rfl := none.eq_nil
    exact Calculus.asks_integral (by simp) named _ _
  case diff =>
    obtain ⟨x, rest, rfl, none⟩ := others.value (by decide)
    obtain rfl := none.eq_nil
    exact Calculus.asks_derivative (by simp) named _
  case solve =>
    obtain rfl := others.eq_nil
    exact Calculus.asks_zero (by simp) named _
  case solves =>
    obtain ⟨guess, rest, rfl, none⟩ := others.value (by decide)
    obtain rfl := none.eq_nil
    exact Calculus.asks_zero (by simp) named _

/-! #### Places in lists -/

theorem breaksOnly_get {f : Function} (name : f.names = ["get"]) (list place : Value) :
    BreaksOnly (Lapses ⟨f, ofValues get⟩ [.value list, .value place]) (get list place) := by
  unfold get
  rcases index_cases "get" 2 place.num list.elems.length with
    ⟨problem, failed⟩ | ⟨i, inside, found⟩ | ⟨empty, above, below, found⟩
  · rw [failed]
    exact breaksOnly_argument _ _ _
  · simp only [found, List.getElem?_eq_getElem inside]
    exact breaksOnly_ok _
  · have none := List.length_eq_zero_iff.mp empty
    rw [found]
    intro promise broke
    simp [none] at broke
    exact ⟨by simp [isVacant, name, none, above, below], .inl broke.symm⟩

theorem breaksOnly_remove {f : Function} (name : f.names = ["remove"]) (list place : Value) :
    BreaksOnly (Lapses ⟨f, ofValues remove⟩ [.value list, .value place]) (remove list place) := by
  unfold remove
  rcases index_cases "remove" 2 place.num list.elems.length with
    ⟨problem, failed⟩ | ⟨i, inside, found⟩ | ⟨empty, above, below, found⟩
  · rw [failed]
    exact breaksOnly_argument _ _ _
  · have some : list.elems.isEmpty = false := by
      rw [List.isEmpty_eq_false_iff, ← List.length_pos_iff]
      omega
    simp only [found, some, cutAt_eq inside.le, cutAt_eq inside]
    exact breaksOnly_ok _
  · have none := List.length_eq_zero_iff.mp empty
    rw [found]
    intro promise broke
    simp [none] at broke
    exact ⟨by simp [isVacant, name, none, above, below], .inr broke.symm⟩

theorem breaksOnly_insert (list element place : Value) :
    BreaksOnly (fun _ => False) (insert list element place) := by
  unfold insert
  rcases index_cases "insert" 3 place.num list.elems.length with
    ⟨problem, failed⟩ | ⟨i, inside, found⟩ | ⟨-, -, -, found⟩
  · rw [failed]
    exact breaksOnly_argument _ _ _
  · simp only [found, cutAt_eq inside.le]
    exact breaksOnly_ok _
  · simp only [found, cutAt_eq (Nat.zero_le _)]
    exact breaksOnly_ok _

theorem foreach_cons (host : Host) (d : Delegate) (v : Value) (rest : List Value) : foreach host d (v :: rest) =
    ((Calculus.Unary.ofDelegate host d).bind fun f => f.apply v).bind fun w =>
      (foreach host d rest).map (w :: ·) := by
  rw [foreach]
  cases (Calculus.Unary.ofDelegate host d).bind fun f => f.apply v with
  | error e => rfl
  | ok w =>
    simp only [Except.bind]
    cases foreach host d rest <;> rfl

theorem asks_foreach {given : Delegate → Prop} {broken : Breach → Prop} {d : Delegate} {param : String}
    (known : given d) (named : d.params = [param]) (elems : List Value) :
    Asks given broken fun host => foreach host d elems := by
  induction elems with
  | nil => exact .done (breaksOnly_ok [])
  | cons v rest ih =>
    simp only [foreach_cons]
    refine .bind ?_ fun w => ih.map _
    exact Calculus.asks_ofDelegate named fun body read => Calculus.asks_apply known named read v

theorem asking_lists : ∀ f ∈ lists, f.Asking := by
  simp only [lists, List.forall_mem_cons]
  refine ⟨?add, ?len, ?remove, ?get, ?insert, ?concat, ?intersect, ?less, ?indexof, ?foreach, ?join, ?toascii,
    List.forall_mem_nil _⟩
  case add => exact asking_ofValues rfl (by decide) (by decide) fun _ _ => breaksOnly_ok _
  case len => exact asking_ofValue rfl (by decide) fun _ => breaksOnly_ok _
  case remove => exact asking_ofValues rfl (by decide) (by decide) (breaksOnly_remove rfl)
  case get => exact asking_ofValues rfl (by decide) (by decide) (breaksOnly_get rfl)
  case insert =>
    intro args fits
    obtain ⟨list, rest, rfl, others⟩ := Fits.value fits (by decide)
    obtain ⟨element, rest, rfl, last⟩ := others.value (by decide)
    obtain ⟨place, rest, rfl, none⟩ := last.value (by decide)
    obtain rfl := none.eq_nil
    exact .done ((breaksOnly_insert list element place).mono fun _ => False.elim)
  case concat => exact asking_ofValues rfl (by decide) (by decide) fun _ _ => breaksOnly_ok _
  case intersect => exact asking_ofValues rfl (by decide) (by decide) fun _ _ => breaksOnly_ok _
  case less => exact asking_ofValues rfl (by decide) (by decide) fun _ _ => breaksOnly_ok _
  case indexof => exact asking_ofValues rfl (by decide) (by decide) fun _ _ => breaksOnly_ok _
  case foreach =>
    intro args fits
    obtain ⟨list, rest, rfl, others⟩ := Fits.value fits (by decide)
    obtain ⟨d, rest, rfl, arity, none⟩ := others.delegate rfl
    obtain ⟨param, named⟩ := exists_param arity
    obtain rfl := none.eq_nil
    exact (asks_foreach (by simp) named _).map _
  case join => exact asking_ofValue rfl (by decide) fun _ => breaksOnly_ok _
  case toascii => exact asking_ofNumber _ _ _ _ _

theorem asking_vectors : ∀ f ∈ vectors, f.Asking := by
  simp only [vectors, List.forall_mem_cons]
  refine ⟨?dot, ?cross, ?magnitude, List.forall_mem_nil _⟩
  case dot =>
    refine asking_ofValues rfl (by decide) (by decide) fun v w => ?_
    unfold dot
    split
    · exact breaksOnly_argument _ _ _
    · exact breaksOnly_ok _
  case cross =>
    refine asking_ofValues rfl (by decide) (by decide) fun v w => ?_
    unfold cross
    split
    · exact breaksOnly_ok _
    · exact breaksOnly_argument _ _ _
  case magnitude => exact asking_ofValue rfl (by decide) fun _ => breaksOnly_ok _

/-- Every built-in function only asks its host. -/
theorem asking_of_mem {f : Builtin} (member : f ∈ all) : f.Asking := by
  simp only [all, List.mem_append] at member
  rcases member with (((member | member) | member) | member) | member
  · exact asking_numbers f member
  · exact asking_summaries f member
  · exact asking_calculus f member
  · exact asking_lists f member
  · exact asking_vectors f member

end Builtin

end Reckon
