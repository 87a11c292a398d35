import Mathlib
import Reckon.Proofs.Agreement
import Reckon.Proofs.Integers
import Reckon.Proofs.RoundTrip

/-!
Sums and derivatives. A sum adds what `foreach` gives for a list of whole numbers (`Calculus.sum_foreach`). The
derivative of a vector has the derivatives of its components (`Calculus.diff_components`): in the vector a component is
evaluated with less depth than alone, and what has a value with some depth has it with more (`Eval.run_succ`).
-/

namespace Reckon

/-! ### Calls -/

namespace Context

variable (ctx : Context) (host : Host) (d : Delegate)

theorem callFor_sum (start stop : Value) : ctx.callFor host "sum" [.delegate d, .value start, .value stop] =
    Calculus.summation host d (Double.toInt start.num) (Double.toInt stop.num) := rfl

theorem callFor_foreach (list : Value) : ctx.callFor host "foreach" [.value list, .delegate d] =
    (Builtin.foreach host d list.elems).map .list := rfl

theorem callFor_diff (x : Value) : ctx.callFor host "diff" [.delegate d, .value x] =
    Calculus.derivative host d x.num := rfl

end Context

/-! ### Bodies -/

namespace Host

/-- A text is read as its tokens are. -/
theorem read_of_ofTokens {source : String} {e : Expr} (reads : Expr.ofTokens (Token.lex source) = .ok e) :
    read source = .ok e := by
  rw [read, Expr.parse_eq_ok_iff.mpr reads]
  rfl

/-- An operator between two words is read as an operation. -/
theorem read_operation {source : String} {first t second : Token} {op : Op} {left right : Expr}
    (tokens : Token.lex source = [first, t, second]) (operator : Op.ofSymbol? t.text = some op)
    (word : Token.isMark first.text = false) (reads : Expr.ofTokens [first] = .ok left)
    (word' : Token.isMark second.text = false) (reads' : Expr.ofTokens [second] = .ok right) :
    read source = .ok (.binary op left right) := by
  refine read_of_ofTokens ?_
  rw [tokens]
  exact Expr.ofTokens_binary (Form.ofTokens_operation (.word word) (.word word') operator) reads reads'

end Host

namespace Calculus

/-- A delegate of one parameter whose body can be read. -/
theorem Unary.ofDelegate_of_read {host : Host} {d : Delegate} {param : String} {e : Expr} (one : d.params = [param])
    (read : Host.read d.body = .ok e) : ofDelegate host d = .ok ⟨host, param, e⟩ := by
  simp only [ofDelegate, one, read]
  rfl

theorem Unary.num_eq {f : Unary} {x c : Float} (number : f.value x = .ok (.number c)) : f.num x = .ok c := by
  rw [num, number]
  rfl

/-! ### Sums -/

/-- The numbers from a whole number on. -/
def wholes (i : Int) (count : Nat) : List Value := (List.range count).map fun k : Nat => .number (Float.ofInt (i + k))

theorem wholes_succ (i : Int) (count : Nat) :
    wholes i (count + 1) = .number (Float.ofInt i) :: wholes (i + 1) count := by
  simp only [wholes, List.range_succ_eq_map, List.map_cons, List.map_map, Int.natCast_zero, add_zero]
  congr 2
  funext k
  simp only [Function.comp_apply, Nat.cast_succ]
  rw [add_assoc, add_comm (1 : Int)]

/-- The numbers of values added to a number from left to right. -/
def total (sum : Float) (values : List Value) : Float := values.foldl (fun sum v => sum + v.num) sum

/-- The counted sum adds what the delegate gives for each number in turn, up to the first fault. -/
theorem sumFrom_foreach {host : Host} {d : Delegate} {f : Unary} (read : Unary.ofDelegate host d = .ok f)
    (count : Nat) (i : Int) (sum : Float) :
    sumFrom f count i sum = (Builtin.foreach host d (wholes i count)).map (total sum) := by
  induction count generalizing i sum with
  | zero => rfl
  | succ count ih =>
    have first : f.num (Float.ofInt i) = (f.apply (.number (Float.ofInt i))).map Value.num := rfl
    rw [sumFrom_succ, wholes_succ, Builtin.foreach_cons, read, first]
    simp only [Except.bind]
    cases f.apply (.number (Float.ofInt i)) with
    | error fault => rfl
    | ok v =>
      simp only [Except.map]
      rw [ih]
      cases Builtin.foreach host d (wholes (i + 1) count) <;> rfl

/-- A sum over the whole numbers from one to another is the sum of what `foreach` gives for the list of these numbers,
    and fails as it does. -/
theorem sum_foreach (ctx : Context) (depth : Nat) (scope : Scope) (d : Delegate) {a b : Int} (le : a ≤ b)
    (first : a.natAbs < 2 ^ 53) (last : b.natAbs < 2 ^ 53) :
    let host := Eval.host (Eval.run ctx depth) scope
    ctx.callFor host "sum" [.delegate d, .value (.number (Float.ofInt a)), .value (.number (Float.ofInt b))] =
      (ctx.callFor host "foreach" [.value (.list (wholes a (b + 1 - a).toNat)), .delegate d]).map fun results =>
        .number (total 0 results.elems) := by
  intro host
  obtain ⟨count, some⟩ : ∃ count : Nat, (b + 1 - a).toNat = count + 1 := ⟨(b - a).toNat, by omega⟩
  rw [Context.callFor_sum, Context.callFor_foreach, Value.num, Value.num, Value.elems, Double.toInt_ofInt first,
    Double.toInt_ofInt last, summation_eq, some]
  cases read : Unary.ofDelegate host d with
  | error fault =>
    -- The list is not empty, so `foreach` reads the body as well.
    rw [wholes_succ, Builtin.foreach_cons, read]
    rfl
  | ok f =>
    simp only [Except.bind]
    rw [sumFrom_foreach read]
    cases Builtin.foreach host d (wholes a (count + 1)) <;> rfl

/-- The squares of the numbers from -1 to 2. -/
theorem sum_foreach_squares :
    let host := Eval.host (Eval.run (.new 0) 511) (Scope.root (.new 0))
    let squares : Delegate := ⟨["x"], "x*x"⟩
    let results := (Context.new 0).callFor host "foreach" [.value (.list (wholes (-1) 4)), .delegate squares]
    (-1 : Int) ≤ 2 ∧ Int.natAbs (-1) < 2 ^ 53 ∧ Int.natAbs 2 < 2 ^ 53 ∧
      (Context.new 0).callFor host "sum" [.delegate squares, .value (.number (Float.ofInt (-1))),
          .value (.number (Float.ofInt 2))] = results.map (fun results => .number (total 0 results.elems)) ∧
      results.toOption.map (fun results => total 0 results.elems) = some 6 :=
  ⟨by decide, by decide, by decide, sum_foreach (.new 0) 511 _ ⟨["x"], "x*x"⟩ (by decide) (by decide) (by decide),
    by decide +kernel⟩

end Calculus

/-! ### Depth -/

namespace Eval

/-- A value is the value with more depth as well. -/
theorem run_succ {ctx : Context} {depth : Nat} {scope : Scope} {e : Expr} {v : Value}
    (found : run ctx depth scope e = .ok v) : run ctx (depth + 1) scope e = .ok v := by
  have follows : Follows (fun _ => True) (fun fault => ∃ limit, fault = .overflow limit)
      (run ctx depth scope e) (run ctx (depth + 1) scope e) := by
    simp only [← Rules.run_ofContext]
    refine (Rules.simulates_ofContext ctx _).follows_run ?_ depth rfl trivial
    intro _ _ _ _ _
    exact .excused _ ⟨_, rfl⟩
  rcases follows.same_or_excused with ⟨same, -⟩ | ⟨fault, failed, -⟩
  · exact same.trans found
  · rw [failed] at found
    cases found

/-- The components of a vector are the numbers that its expressions give. -/
theorem forall₂_of_components {evaluate : Expr → Except Fault Value} {position : Nat} {exprs : List Expr}
    {xs : List Float} (found : components evaluate position exprs = .ok xs) :
    List.Forall₂ (fun e x => evaluate e = .ok (.number x)) exprs xs := by
  induction exprs generalizing position xs with
  | nil =>
    cases found
    exact .nil
  | cons e rest ih =>
    rw [components_cons] at found
    obtain ⟨v, first, others⟩ := Except.bind_eq_ok_iff.mp found
    cases v with
    | list | vector => cases others
    | number x =>
      obtain ⟨ys, tail, rfl⟩ := Except.map_eq_ok_iff.mp others
      exact .cons first (ih tail)

/-- What is written as a vector has a vector as its value, and each of the expressions has its component as its
    value. -/
theorem forall₂_of_vector {ctx : Context} {depth : Nat} {scope : Scope} {exprs : List Expr} {v : Value}
    (found : run ctx depth scope (.vector exprs) = .ok v) :
    ∃ xs, v = .vector xs ∧ List.Forall₂ (fun e x => run ctx depth scope e = .ok (.number x)) exprs xs := by
  cases depth with
  | zero => cases found
  | succ depth =>
    rw [run, step] at found
    obtain ⟨xs, given, rfl⟩ := Except.map_eq_ok_iff.mp found
    -- In the vector the expressions had one level less than they have alone.
    exact ⟨xs, rfl, (forall₂_of_components given).imp fun _ _ => run_succ⟩

end Eval

namespace Calculus

/-! ### Derivatives of vectors -/

/-- Wherever a delegate has a value, another has the component at a place as its value. -/
def HasComponent (f : Unary) (place : Nat) (part : Unary) : Prop :=
  ∀ x v, f.value x = .ok v → ∃ c, v.comps[place]? = some c ∧ part.value x = .ok (.number c)

theorem hasComponent_vector (ctx : Context) (depth : Nat) (scope : Scope) (param : String) {exprs : List Expr}
    {place : Nat} (inside : place < exprs.length) :
    let host := Eval.host (Eval.run ctx depth) scope
    HasComponent ⟨host, param, .vector exprs⟩ place ⟨host, param, exprs.get ⟨place, inside⟩⟩ := by
  intro host x v found
  obtain ⟨xs, rfl, each⟩ := Eval.forall₂_of_vector found
  have inside' : place < xs.length := each.length_eq ▸ inside
  exact ⟨xs.get ⟨place, inside'⟩, List.getElem?_eq_getElem inside', each.get inside inside'⟩

namespace HasComponent

variable {f part : Unary} {place : Nat} {x y : Float} {base sums result : List Float}

/-- The quotients of the component are the components of the quotients. -/
theorem addQuotients (has : HasComponent f place part) (before : base[place]? = some y) {steps : List Float}
    {sum : Float} (start : sums[place]? = some sum) (found : addVectorQuotients f x base steps sums = .ok result) :
    ∃ s, result[place]? = some s ∧ addQuotients part x y steps sum = .ok s := by
  induction steps generalizing sums sum with
  | nil =>
    cases found
    exact ⟨sum, start, rfl⟩
  | cons dx steps ih =>
    rw [addVectorQuotients_cons] at found
    obtain ⟨v, moved, found⟩ := Except.bind_eq_ok_iff.mp found
    obtain ⟨c, after, alone⟩ := has _ v moved
    split at found
    · cases found
    · rw [addQuotients_cons, Unary.num_eq alone]
      refine ih ?_ found
      simp only [List.getElem?_zipWith, start, after, before]

/-- The derivative of the component is the component of the derivative. -/
theorem slope (has : HasComponent f place part) {v : Value} (value : f.value x = .ok v)
    (found : addVectorQuotients f x v.comps diffSteps (v.comps.map fun _ => 0) = .ok sums) :
    ∃ s, sums[place]? = some s ∧ slope part x = .ok (s / Float.ofNat diffSteps.length) := by
  obtain ⟨c, before, alone⟩ := has x v value
  have start : (v.comps.map fun _ => (0 : Float))[place]? = some 0 := by rw [List.getElem?_map, before]; rfl
  obtain ⟨s, after, added⟩ := has.addQuotients before start found
  refine ⟨s, after, ?_⟩
  rw [slope_eq, Unary.num_eq alone]
  exact Except.map_eq_ok_iff.mpr ⟨s, added, rfl⟩

end HasComponent

section Derivative

variable {ctx : Context} {depth : Nat} {scope : Scope} {d : Delegate} {param : String} {x : Float}

theorem derivative_of_read {host : Host} {e : Expr} (one : d.params = [param]) (read : Host.read d.body = .ok e) :
    let f : Unary := ⟨host, param, e⟩
    derivative host d x = (f.value x).bind fun base =>
      if isVectorLiteral e || base.kind = .vector then vectorSlope f x base.comps
      else (slope f x).map fun s => .number (round5 s) := by
  rw [derivative_eq, Unary.ofDelegate_of_read one read]
  rfl

/-- The derivative of what is a number, and so is not written as a vector, is taken as a number. -/
theorem derivative_of_number {e : Expr} {c : Float} (one : d.params = [param]) (read : Host.read d.body = .ok e) :
    let f : Unary := ⟨Eval.host (Eval.run ctx depth) scope, param, e⟩
    f.value x = .ok (.number c) → derivative f.host d x = (slope f x).map fun s => .number (round5 s) := by
  intro f number
  have plain : isVectorLiteral e = false := by
    cases e with
    | vector exprs =>
      obtain ⟨xs, vector, -⟩ := Eval.forall₂_of_vector number
      cases vector
    | num | var | binary | call | list | delegate => rfl
  rw [derivative_of_read one read, number, plain]
  rfl

/-- The derivative of what is written as a vector is found from its value and the sums of the quotients. -/
theorem derivative_of_vector {exprs : List Expr} {s : List Float} (one : d.params = [param])
    (read : Host.read d.body = .ok (.vector exprs)) :
    let f : Unary := ⟨Eval.host (Eval.run ctx depth) scope, param, .vector exprs⟩
    derivative f.host d x = .ok (.vector s) →
      ∃ xs sums, f.value x = .ok (.vector xs) ∧ xs.length = exprs.length ∧
        addVectorQuotients f x xs diffSteps (xs.map fun _ => 0) = .ok sums ∧
        s = sums.map fun sum => round5 (sum / Float.ofNat diffSteps.length) := by
  intro f found
  rw [derivative_of_read one read] at found
  obtain ⟨v, value, sloped⟩ := Except.bind_eq_ok_iff.mp found
  obtain ⟨xs, rfl, each⟩ := Eval.forall₂_of_vector value
  obtain ⟨sums, added, same⟩ := Except.map_eq_ok_iff.mp sloped
  cases same
  exact ⟨xs, sums, value, each.length_eq.symm, added, rfl⟩

end Derivative

/-- The derivative of a vector, if there is one, has the derivatives of the components of the vector. -/
theorem diff_components (ctx : Context) (depth : Nat) (scope : Scope) {d : Delegate} {param : String}
    {exprs : List Expr} {x : Float} {s : List Float} (one : d.params = [param])
    (read : Host.read d.body = .ok (.vector exprs)) :
    let host := Eval.host (Eval.run ctx depth) scope
    ctx.callFor host "diff" [.delegate d, .value (.number x)] = .ok (.vector s) →
      List.Forall₂ (fun e c => ∀ d' : Delegate, d'.params = [param] → Host.read d'.body = .ok e →
        ctx.callFor host "diff" [.delegate d', .value (.number x)] = .ok (.number c)) exprs s := by
  intro host found
  rw [Context.callFor_diff, Value.num] at found
  obtain ⟨xs, sums, value, length, added, rfl⟩ := derivative_of_vector one read found
  have length' : sums.length = xs.length := length_addVectorQuotients _ _ _ _ (by simp) _ added
  refine List.forall₂_of_length_eq_of_get (by simp [length', length]) fun i inside inside' d' one' read' => ?_
  have has := hasComponent_vector ctx depth scope param inside
  obtain ⟨c, -, number⟩ := has x _ value
  obtain ⟨sum, after, sloped⟩ := has.slope value added
  obtain ⟨_, rfl⟩ := List.getElem?_eq_some_iff.mp after
  rw [Context.callFor_diff, Value.num, derivative_of_number one' read' number, sloped]
  simp [Except.map]

/-- A result is known by the kind and the components of its value. -/
theorem eq_ok_vector {result : Except Fault Value} {comps : List Float}
    (shown : result.toOption.map (fun v => (v.kind, v.comps)) = some (.vector, comps)) :
    result = .ok (.vector comps) := by
  cases result with
  | error fault => cases shown
  | ok v =>
    cases v with
    | number | list => cases shown
    | vector =>
      cases shown
      rfl

/-- The derivative of a number and its square at one. -/
theorem diff_components_square :
    let host := Eval.host (Eval.run (.new 0) 511) (Scope.root (.new 0))
    let square : Expr := .binary .mul (.var "t") (.var "t")
    Host.read "<t, (t * t)>" = .ok (.vector [.var "t", square]) ∧ Host.read "t*t" = .ok square ∧
      (Context.new 0).callFor host "diff" [.delegate ⟨["t"], "<t, (t * t)>"⟩, .value (.number 1)] =
        .ok (.vector [1, 2]) ∧
      (Context.new 0).callFor host "diff" [.delegate ⟨["t"], "t*t"⟩, .value (.number 1)] = .ok (.number 2) := by
  intro host square
  have readVector : Host.read "<t, (t * t)>" = .ok (.vector [.var "t", square]) := by
    have name : Expr.Proper (.var "t") := .var (by decide) (by decide)
    have proper : Expr.Proper (.vector [.var "t", square]) :=
      .vector (by simp) (by simpa using ⟨name, .binary (by simp) name name⟩)
    have spelled := proper.spelled (by simp [square, Expr.numbers, Expr.allNumbers])
    exact Host.read_of_ofTokens (Expr.readsAs_words spelled proper.balanced.1 spelled.texts_lex).1
  have readSquare : Host.read "t*t" = .ok square := by
    have tokens : Token.lex "t*t" = [⟨"t", 1⟩, ⟨"*", 2⟩, ⟨"t", 3⟩] := by decide
    exact Host.read_operation tokens (by decide) (by decide) (Expr.ofTokens_name (by decide) (by decide)) (by decide)
      (Expr.ofTokens_name (by decide) (by decide))
  have found : (Context.new 0).callFor host "diff" [.delegate ⟨["t"], "<t, (t * t)>"⟩, .value (.number 1)] =
      .ok (.vector [1, 2]) := by
    refine eq_ok_vector ?_
    decide +kernel
  have each := diff_components (.new 0) 511 (Scope.root (.new 0)) (d := ⟨["t"], "<t, (t * t)>"⟩) rfl readVector found
  cases each with
  | cons _ others =>
    cases others with
    | cons last _ => exact ⟨readVector, readSquare, found, last ⟨["t"], "t*t"⟩ rfl readSquare⟩

end Calculus

end Reckon
