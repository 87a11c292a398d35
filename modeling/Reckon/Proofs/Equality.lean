import Mathlib
import Reckon.Value
import Reckon.Proofs.Order

/-!
Equality of values. Values are the same if they are of one kind and have the same contents, which is what `Value.equal`
decides (`Value.same_number_iff`, `Value.same_list_iff`, `Value.same_vector_iff`). This is symmetric and transitive, and
a value is the same as itself unless it holds what is no number. The same values are also the same when they are viewed
as another kind (`Value.equal_laws`).
-/

namespace Reckon.Value

/-- What is true of numbers and of vectors, and of a list if it is true of its elements, is true of all values. -/
theorem induction_elems {motive : Value → Prop} (number : ∀ x, motive (.number x))
    (list : ∀ elems, (∀ v ∈ elems, motive v) → motive (.list elems))
    (vector : ∀ comps, motive (.vector comps)) : ∀ v, motive v
  | .number x => number x
  | .list elems => list elems fun v _ => induction_elems number list vector v
  | .vector comps => vector comps

/-! ### The numbers in a value -/

/-- A number is in a value, at any depth. -/
inductive Holds (x : Float) : Value → Prop
  | number : Holds x (.number x)
  | list {elems : List Value} {v : Value} (member : v ∈ elems) (inside : Holds x v) : Holds x (.list elems)
  | vector {comps : List Float} (member : x ∈ comps) : Holds x (.vector comps)

section Holds

variable {x : Float}

theorem holds_number {y : Float} : Holds x (.number y) ↔ x = y := by
  constructor
  · rintro ⟨⟩
    rfl
  · rintro rfl
    exact .number

theorem holds_list {elems : List Value} : Holds x (.list elems) ↔ ∃ v ∈ elems, Holds x v := by
  constructor
  · rintro ⟨⟩
    exact ⟨_, ‹_›, ‹_›⟩
  · rintro ⟨v, member, inside⟩
    exact .list member inside

theorem holds_vector {comps : List Float} : Holds x (.vector comps) ↔ x ∈ comps := by
  constructor
  · rintro ⟨⟩
    assumption
  · exact .vector

end Holds

/-! ### The same contents -/

/-- Two numbers are equal as numbers, so that what is no number equals nothing. -/
def SameNumber (x y : Float) : Prop := (x == y) = true

/-- Two values are equal. -/
def Same (v w : Value) : Prop := v.equal w = true

theorem sameComps_iff {xs ys : List Float} : sameComps xs ys = true ↔ List.Forall₂ SameNumber xs ys := by
  induction xs generalizing ys with
  | nil => cases ys <;> simp [sameComps]
  | cons x xs ih => cases ys <;> simp [sameComps, SameNumber, ih]

theorem equalAll_iff {vs ws : List Value} : equalAll vs ws = true ↔ List.Forall₂ Same vs ws := by
  induction vs generalizing ws with
  | nil => cases ws <;> simp [equalAll]
  | cons v vs ih => cases ws <;> simp [equalAll, Same, ih]

theorem same_number_iff {x : Float} {w : Value} : Same (.number x) w ↔ ∃ y, w = .number y ∧ SameNumber x y := by
  cases w <;> simp [Same, equal, SameNumber]

theorem same_list_iff {vs : List Value} {w : Value} :
    Same (.list vs) w ↔ ∃ ws, w = .list ws ∧ List.Forall₂ Same vs ws := by
  cases w <;> simp [Same, equal, equalAll_iff]

theorem same_vector_iff {xs : List Float} {w : Value} :
    Same (.vector xs) w ↔ ∃ ys, w = .vector ys ∧ List.Forall₂ SameNumber xs ys := by
  cases w <;> simp [Same, equal, sameComps_iff]

/-! ### Laws -/

section Laws

variable {x y z : Float} {a b c : Value}

theorem SameNumber.symm (same : SameNumber x y) : SameNumber y x := by
  rwa [SameNumber, Double.beq_comm]

theorem SameNumber.trans (first : SameNumber x y) (second : SameNumber y z) : SameNumber x z :=
  Double.beq_trans first second

theorem sameNumber_self_iff : SameNumber x x ↔ x.isNaN = false := Double.beq_self_iff

theorem Same.symm (same : Same a b) : Same b a := by
  induction a using induction_elems generalizing b with
  | number x =>
    obtain ⟨y, rfl, numbers⟩ := same_number_iff.mp same
    exact same_number_iff.mpr ⟨x, rfl, numbers.symm⟩
  | list vs ih =>
    obtain ⟨ws, rfl, all⟩ := same_list_iff.mp same
    -- The elements are turned one by one: what is known of those of the first list is put beside their equality.
    have turned : List.Forall₂ (flip Same) vs ws :=
      ((List.forall₂_and_left vs ws).mpr ⟨fun v member w => ih v member (b := w), all⟩).imp
        fun v w ⟨turn, same⟩ => turn w same
    exact same_list_iff.mpr ⟨vs, rfl, turned.flip⟩
  | vector xs =>
    obtain ⟨ys, rfl, all⟩ := same_vector_iff.mp same
    have turned : List.Forall₂ (flip SameNumber) xs ys := all.imp fun x y => SameNumber.symm
    exact same_vector_iff.mpr ⟨xs, rfl, turned.flip⟩

/-- Relations between lists are composed element by element. -/
theorem forall₂_trans {α : Type} {R : α → α → Prop} {xs ys zs : List α}
    (trans : ∀ x ∈ xs, ∀ y z, R x y → R y z → R x z) (first : List.Forall₂ R xs ys) (second : List.Forall₂ R ys zs) :
    List.Forall₂ R xs zs := by
  rw [List.forall₂_iff_get] at first second ⊢
  obtain ⟨lengths, first⟩ := first
  obtain ⟨lengths', second⟩ := second
  refine ⟨lengths.trans lengths', fun i inside inside' => ?_⟩
  exact trans _ (List.get_mem _ _) _ _ (first i inside (lengths ▸ inside)) (second i _ inside')

theorem Same.trans (first : Same a b) (second : Same b c) : Same a c := by
  induction a using induction_elems generalizing b c with
  | number x =>
    obtain ⟨y, rfl, numbers⟩ := same_number_iff.mp first
    obtain ⟨z, rfl, numbers'⟩ := same_number_iff.mp second
    exact same_number_iff.mpr ⟨z, rfl, numbers.trans numbers'⟩
  | list vs ih =>
    obtain ⟨ws, rfl, all⟩ := same_list_iff.mp first
    obtain ⟨us, rfl, all'⟩ := same_list_iff.mp second
    exact same_list_iff.mpr ⟨us, rfl, forall₂_trans (fun v member _ _ => ih v member) all all'⟩
  | vector xs =>
    obtain ⟨ys, rfl, all⟩ := same_vector_iff.mp first
    obtain ⟨zs, rfl, all'⟩ := same_vector_iff.mp second
    exact same_vector_iff.mpr ⟨zs, rfl, forall₂_trans (fun _ _ _ _ => SameNumber.trans) all all'⟩

/-- A value is the same as itself if it holds numbers only. -/
theorem same_self_iff : Same a a ↔ ∀ x, Holds x a → x.isNaN = false := by
  induction a using induction_elems with
  | number x => simp [same_number_iff, holds_number, sameNumber_self_iff]
  | list vs ih =>
    have inside : Same (.list vs) (.list vs) ↔ ∀ v ∈ vs, Same v v := by
      simp [same_list_iff, List.forall₂_same]
    rw [inside]
    constructor
    · intro same x held
      obtain ⟨v, member, held⟩ := holds_list.mp held
      exact (ih v member).mp (same v member) x held
    · intro numbers v member
      exact (ih v member).mpr fun x held => numbers x (.list member held)
  | vector xs => simp [same_vector_iff, holds_vector, List.forall₂_same, sameNumber_self_iff]

theorem Same.kind_eq (same : Same a b) : a.kind = b.kind := by
  cases a with
  | number x =>
    obtain ⟨y, rfl, -⟩ := same_number_iff.mp same
    rfl
  | list vs =>
    obtain ⟨ws, rfl, -⟩ := same_list_iff.mp same
    rfl
  | vector xs =>
    obtain ⟨ys, rfl, -⟩ := same_vector_iff.mp same
    rfl

theorem sameNumber_ofNat {m n : Nat} (same : m = n) : SameNumber (Float.ofNat m) (Float.ofNat n) := by
  rw [same]
  exact sameNumber_self_iff.mpr (Double.isNaN_ofNat n)

/-- The same values are the same as numbers. -/
theorem Same.num (same : Same a b) : SameNumber a.num b.num := by
  cases a with
  | number x =>
    obtain ⟨y, rfl, numbers⟩ := same_number_iff.mp same
    exact numbers
  | list vs =>
    obtain ⟨ws, rfl, all⟩ := same_list_iff.mp same
    exact sameNumber_ofNat all.length_eq
  | vector xs =>
    obtain ⟨ys, rfl, all⟩ := same_vector_iff.mp same
    exact sameNumber_ofNat all.length_eq

/-- The same values are the same as lists. -/
theorem Same.elems (same : Same a b) : List.Forall₂ Same a.elems b.elems := by
  cases a with
  | number x =>
    obtain ⟨y, rfl, -⟩ := same_number_iff.mp same
    exact .cons same .nil
  | list vs =>
    obtain ⟨ws, rfl, all⟩ := same_list_iff.mp same
    exact all
  | vector xs =>
    obtain ⟨ys, rfl, all⟩ := same_vector_iff.mp same
    have numbers : List.Forall₂ (fun x y => Same (.number x) (.number y)) xs ys :=
      all.imp fun x y same => same_number_iff.mpr ⟨y, rfl, same⟩
    exact List.forall₂_map_left_iff.mpr (List.forall₂_map_right_iff.mpr numbers)

/-- The same values are the same as vectors. -/
theorem Same.comps (same : Same a b) : List.Forall₂ SameNumber a.comps b.comps := by
  cases a with
  | number x =>
    obtain ⟨y, rfl, numbers⟩ := same_number_iff.mp same
    exact .cons numbers .nil
  | list vs =>
    obtain ⟨ws, rfl, all⟩ := same_list_iff.mp same
    exact List.forall₂_map_left_iff.mpr (List.forall₂_map_right_iff.mpr (all.imp fun v w => Same.num))
  | vector xs =>
    obtain ⟨ys, rfl, all⟩ := same_vector_iff.mp same
    exact all

end Laws

/-- Equality of values is symmetric and transitive, and reflexive where there are numbers only. It is equality of kinds,
    numbers, elements and components. -/
theorem equal_laws (a b c : Value) :
    (Same a b → Same b a) ∧ (Same a b → Same b c → Same a c) ∧ (Same a a ↔ ∀ x, Holds x a → x.isNaN = false) ∧
      (Same a b → a.kind = b.kind ∧ SameNumber a.num b.num ∧ List.Forall₂ Same a.elems b.elems ∧
        List.Forall₂ SameNumber a.comps b.comps) :=
  ⟨Same.symm, Same.trans, same_self_iff, fun same => ⟨same.kind_eq, same.num, same.elems, same.comps⟩⟩

end Reckon.Value
