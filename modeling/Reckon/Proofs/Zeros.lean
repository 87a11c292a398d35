import Mathlib
import Reckon.Proofs.Calculus
import Reckon.Proofs.Order

/-!
Zeros. A search for a zero of a delegate ends at a value that is not greater than the tolerance, which is one near to
zero or no number at all (`Double.not_lt_iff`). So a number that a search gives is a zero unless the delegate is no
number where the search has ended (`Calculus.solve_iff`).
-/

namespace Reckon

namespace Calculus

/-! ### Searches for zeros -/

/-- A value at which a search ends. The test for going on fails for what is near to zero, but for what is no number as
    well. -/
def Settles (y : Float) : Prop := ¬ tolerance < y.abs

theorem settles_iff {y : Float} : Settles y ↔ y.isNaN = true ∨ y.abs ≤ tolerance := by
  rw [Settles, Double.not_lt_iff (by decide), Double.isNaN_abs]

/-- Where the iteration goes from a number with a value and a derivative there. -/
def next (x y slope : Float) : Float := if round5 slope == 0 then x + 1 else x - y / round5 slope

/-- The iteration comes in some steps from a number and the value there to another, past values that do not end it. -/
inductive Reaches (f : Unary) : (steps : Nat) → (x y x' y' : Float) → Prop
  | here (x y : Float) : Reaches f 0 x y x y
  | step {steps : Nat} {x y s z x' y' : Float} (far : ¬ Settles y) (rise : slope f x = .ok s)
      (value : f.num (next x y s) = .ok z) (rest : Reaches f steps (next x y s) z x' y') :
      Reaches f (steps + 1) x y x' y'

/-- A search from a guess ends at a number with a value there, before it is given up. -/
def Ends (f : Unary) (guess x y : Float) : Prop :=
  ∃ start steps, f.num guess = .ok start ∧ steps ≤ newtonLimit ∧ Reaches f steps guess start x y ∧ Settles y

section Newton

variable {f : Unary} {left steps : Nat} {x y x' y' : Float}

theorem newton_settles (settles : Settles y) : newton f left x y = .ok (round5 x) := by
  have done : (!(tolerance < y.abs : Bool)) = true := by simpa [Settles] using settles
  cases left with
  | zero => rw [newton_zero, if_pos done]
  | succ left => rw [newton_succ, if_pos done]

theorem newton_given_up (far : ¬ Settles y) : newton f 0 x y = .ok Double.nan := by
  rw [newton_zero, if_neg (by simpa [Settles] using far)]

theorem newton_far (far : ¬ Settles y) : newton f (left + 1) x y =
    (slope f x).bind fun s => (f.num (next x y s)).bind fun z => newton f left (next x y s) z := by
  rw [newton_succ, if_neg (by simpa [Settles] using far)]
  rfl

namespace Reaches

theorem newton (reaches : Reaches f steps x y x' y') (settles : Settles y') (few : steps ≤ left) :
    newton f left x y = .ok (round5 x') := by
  induction reaches generalizing left with
  | here => exact newton_settles settles
  | @step steps _ _ _ _ _ _ far rise value _ ih =>
    obtain ⟨left, rfl⟩ := Nat.exists_eq_add_of_le' (Nat.le_of_add_left_le few)
    rw [newton_far far]
    refine Except.bind_eq_ok_iff.mpr ⟨_, rise, Except.bind_eq_ok_iff.mpr ⟨_, value, ?_⟩⟩
    exact ih settles (Nat.le_of_succ_le_succ few)

/-- The iteration carries along what the delegate is. -/
theorem value (reaches : Reaches f steps x y x' y') (value : f.num x = .ok y) : f.num x' = .ok y' := by
  induction reaches with
  | here => exact value
  | step _ _ moved _ ih => exact ih moved

/-- The iteration ends at one number only. -/
theorem unique {steps' : Nat} {x'' y'' : Float} (reaches : Reaches f steps x y x' y') (settles : Settles y')
    (reaches' : Reaches f steps' x y x'' y'') (settles' : Settles y'') : x' = x'' ∧ y' = y'' := by
  induction reaches generalizing steps' with
  | here =>
    cases reaches' with
    | here => exact ⟨rfl, rfl⟩
    | step far => exact absurd settles far
  | step far rise value _ ih =>
    cases reaches' with
    | here => exact absurd settles' far
    | step _ rise' value' rest' =>
      -- Both have the same derivative and the same value after it, so they go on from one number.
      cases rise.symm.trans rise'
      cases value.symm.trans value'
      exact ih settles rest'

end Reaches

/-- If the iteration gives a number, it is where a value has ended it. -/
theorem exists_reaches {r : Float} (found : newton f left x y = .ok r) (number : r.isNaN = false) :
    ∃ steps x' y', steps ≤ left ∧ Reaches f steps x y x' y' ∧ Settles y' ∧ r = round5 x' := by
  induction left generalizing x y with
  | zero =>
    by_cases settles : Settles y
    · rw [newton_settles settles] at found
      cases found
      exact ⟨0, x, y, Nat.le_refl 0, .here x y, settles, rfl⟩
    · rw [newton_given_up settles] at found
      cases found
      cases number
  | succ left ih =>
    by_cases settles : Settles y
    · rw [newton_settles settles] at found
      cases found
      exact ⟨0, x, y, Nat.zero_le _, .here x y, settles, rfl⟩
    · rw [newton_far settles] at found
      obtain ⟨s, rise, found⟩ := Except.bind_eq_ok_iff.mp found
      obtain ⟨z, value, found⟩ := Except.bind_eq_ok_iff.mp found
      obtain ⟨steps, x', y', few, rest, done, rfl⟩ := ih found
      exact ⟨steps + 1, x', y', Nat.succ_le_succ few, .step settles rise value rest, done, rfl⟩

end Newton

namespace Ends

variable {f : Unary} {guess x y x' y' : Float}

theorem value (ends : Ends f guess x y) : f.num x = .ok y := by
  obtain ⟨start, steps, first, -, reaches, -⟩ := ends
  exact reaches.value first

theorem settles (ends : Ends f guess x y) : Settles y := by
  obtain ⟨start, steps, -, -, -, settles⟩ := ends
  exact settles

theorem unique (ends : Ends f guess x y) (ends' : Ends f guess x' y') : x = x' ∧ y = y' := by
  obtain ⟨start, steps, first, -, reaches, settles⟩ := ends
  obtain ⟨start', steps', first', -, reaches', settles'⟩ := ends'
  cases first.symm.trans first'
  exact reaches.unique settles reaches' settles'

end Ends

/-- A number that a search gives is where it has ended, rounded. -/
theorem zero_eq_ok_iff {host : Host} {d : Delegate} {guess r : Float} (number : r.isNaN = false) :
    zero host d guess = .ok (.number r) ↔
      ∃ f x y, Unary.ofDelegate host d = .ok f ∧ Ends f guess x y ∧ r = round5 x := by
  rw [zero_eq]
  constructor
  · intro found
    obtain ⟨f, read, found⟩ := Except.bind_eq_ok_iff.mp found
    obtain ⟨start, first, found⟩ := Except.bind_eq_ok_iff.mp found
    obtain ⟨_, found, same⟩ := Except.map_eq_ok_iff.mp found
    cases same
    obtain ⟨steps, x, y, few, reaches, settles, rfl⟩ := exists_reaches found number
    exact ⟨f, x, y, read, ⟨start, steps, first, few, reaches, settles⟩, rfl⟩
  · rintro ⟨f, x, y, read, ⟨start, steps, first, few, reaches, settles⟩, rfl⟩
    refine Except.bind_eq_ok_iff.mpr ⟨f, read, Except.bind_eq_ok_iff.mpr ⟨start, first, ?_⟩⟩
    exact Except.map_eq_ok_iff.mpr ⟨_, reaches.newton settles few, rfl⟩

/-- What `solve` and `solves` find, if it is a number, is a zero of the delegate up to the tolerance and rounding,
    exactly if the search does not end at a number where the delegate is none. -/
theorem solve_iff (ctx : Context) (host : Host) (d : Delegate) (guess : Value) :
    ctx.callFor host "solve" [.delegate d] = ctx.callFor host "solves" [.delegate d, .value (.number 0)] ∧
      ((∀ r, ctx.callFor host "solves" [.delegate d, .value guess] = .ok (.number r) → r.isNaN = false →
        ∃ f x y, Unary.ofDelegate host d = .ok f ∧ Ends f guess.num x y ∧ f.num x = .ok y ∧ r = round5 x ∧
          y.isNaN = false ∧ y.abs ≤ tolerance) ↔
      ∀ f x y, Unary.ofDelegate host d = .ok f → Ends f guess.num x y → y.isNaN = true → (round5 x).isNaN = true) := by
  have searched : ctx.callFor host "solves" [.delegate d, .value guess] = zero host d guess.num := rfl
  refine ⟨rfl, ?_⟩
  rw [searched]
  constructor
  · intro sound f x y read ends none
    by_contra number
    rw [Bool.not_eq_true] at number
    obtain ⟨f', x', y', read', ends', -, -, number', -⟩ :=
      sound _ ((zero_eq_ok_iff number).mpr ⟨f, x, y, read, ends, rfl⟩) number
    cases read.symm.trans read'
    obtain ⟨-, rfl⟩ := ends.unique ends'
    rw [none] at number'
    cases number'
  · intro never r found number
    obtain ⟨f, x, y, read, ends, rfl⟩ := (zero_eq_ok_iff number).mp found
    have number' : y.isNaN = false := by
      by_contra none
      rw [Bool.not_eq_false] at none
      rw [never f x y read ends none] at number
      cases number
    have near := (settles_iff.mp ends.settles).resolve_left (Bool.eq_false_iff.mp number')
    exact ⟨f, x, y, read, ends, ends.value, rfl, number', near⟩

/-- The zero that is found of a delegate that is no number anywhere. -/
theorem solve_nowhere :
    let host := Eval.host (Eval.run (.new 0) 511) (Scope.root (.new 0))
    let d : Delegate := ⟨["x"], "0/0"⟩
    (Context.new 0).callFor host "solve" [.delegate d] = .ok (.number 0) ∧ Float.isNaN 0 = false ∧
      ∀ f x y, Unary.ofDelegate host d = .ok f → f.num x = .ok y → y.isNaN = true := by
  intro host d
  have read : Host.read d.body = .ok (.binary .div (.num 0) (.num 0)) := by
    have tokens : Token.lex d.body = [⟨"0", 1⟩, ⟨"/", 2⟩, ⟨"0", 3⟩] := by decide
    exact Host.read_operation tokens (by decide) (by decide) (Expr.ofTokens_number (by decide)) (by decide)
      (Expr.ofTokens_number (by decide))
  have everywhere : ∀ x, Unary.num ⟨host, "x", .binary .div (.num 0) (.num 0)⟩ x = .ok (0 / 0) := fun x => rfl
  have none : Float.isNaN (0 / 0) = true := by decide +kernel
  have known : Unary.ofDelegate host d = .ok _ := Unary.ofDelegate_of_read rfl read
  refine ⟨?_, by decide, fun f x y found value => ?_⟩
  · refine (zero_eq_ok_iff (by decide)).mpr ⟨_, 0, 0 / 0, known, ?_, by decide +kernel⟩
    exact ⟨_, 0, everywhere 0, Nat.zero_le _, .here _ _, settles_iff.mpr (.inl none)⟩
  · cases known.symm.trans found
    cases (everywhere x).symm.trans value
    exact none

end Calculus

end Reckon
