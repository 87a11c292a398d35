import Mathlib
import Reckon.Eval
import Reckon.Proofs.Equality
import Reckon.Proofs.Numbers

/-!
What `intersect` and `less` make of two lists. Each element of the first list goes to one of them, in the order of the
list (`Builtin.Splits`): to `intersect` if `indexof` finds it in the second list, and to `less` otherwise
(`Builtin.intersect_less`).
-/

namespace Reckon

namespace Builtin

/-! ### Splitting a list -/

/-- A list is split in two, element by element and in its order: what satisfies a condition goes into the first list,
    and everything else into the second. -/
inductive Splits (P : Value → Prop) : List Value → List Value → List Value → Prop
  | nil : Splits P [] [] []
  | left {v : Value} {both only all : List Value} (inside : P v) (rest : Splits P both only all) :
    Splits P (v :: both) only (v :: all)
  | right {v : Value} {both only all : List Value} (outside : ¬ P v) (rest : Splits P both only all) :
    Splits P both (v :: only) (v :: all)

namespace Splits

variable {P : Value → Prop} {both only all : List Value}

theorem sublist_left (splits : Splits P both only all) : both.Sublist all := by
  induction splits with
  | nil => exact .refl []
  | left _ _ ih => exact ih.cons_cons _
  | right _ _ ih => exact ih.cons _

theorem sublist_right (splits : Splits P both only all) : only.Sublist all := by
  induction splits with
  | nil => exact .refl []
  | left _ _ ih => exact ih.cons _
  | right _ _ ih => exact ih.cons_cons _

/-- No element is lost or added. -/
theorem perm (splits : Splits P both only all) : (both ++ only).Perm all := by
  induction splits with
  | nil => exact .nil
  | left _ _ ih => exact ih.cons _
  | right _ _ ih => exact List.perm_middle.trans (ih.cons _)

theorem inside (splits : Splits P both only all) : ∀ v ∈ both, P v := by
  induction splits with
  | nil => simp
  | left inside _ ih => exact List.forall_mem_cons.mpr ⟨inside, ih⟩
  | right _ _ ih => exact ih

theorem outside (splits : Splits P both only all) : ∀ v ∈ only, ¬ P v := by
  induction splits with
  | nil => simp
  | left _ _ ih => exact ih
  | right outside _ ih => exact List.forall_mem_cons.mpr ⟨outside, ih⟩

theorem mem_left_iff (splits : Splits P both only all) {v : Value} : v ∈ both ↔ v ∈ all ∧ P v := by
  constructor
  · intro member
    exact ⟨splits.sublist_left.subset member, splits.inside v member⟩
  · rintro ⟨member, inside⟩
    rcases List.mem_append.mp (splits.perm.mem_iff.mpr member) with left | right
    · exact left
    · exact absurd inside (splits.outside v right)

theorem mem_right_iff (splits : Splits P both only all) {v : Value} : v ∈ only ↔ v ∈ all ∧ ¬ P v := by
  constructor
  · intro member
    exact ⟨splits.sublist_right.subset member, splits.outside v member⟩
  · rintro ⟨member, outside⟩
    rcases List.mem_append.mp (splits.perm.mem_iff.mpr member) with left | right
    · exact absurd (splits.inside v left) outside
    · exact right

end Splits

/-- A list is split by what a test keeps and what it leaves out. -/
theorem splits_filter {P : Value → Prop} {test : Value → Bool} (decides : ∀ v, test v = true ↔ P v)
    (all : List Value) : Splits P (all.filter test) (all.filter fun v => !test v) all := by
  induction all with
  | nil => exact .nil
  | cons v all ih =>
    cases tested : test v with
    | true =>
      rw [List.filter_cons_of_pos tested, List.filter_cons_of_neg (by simp [tested])]
      exact .left ((decides v).mp tested) ih
    | false =>
      rw [List.filter_cons_of_neg (by simp [tested]), List.filter_cons_of_pos (by simp [tested])]
      refine .right (fun inside => ?_) ih
      rw [(decides v).mpr inside] at tested
      cases tested

/-! ### Finding elements -/

/-- A list has an element that is equal to a value. -/
def Has (list v : Value) : Prop := ∃ w ∈ list.elems, w.Same v

theorem isSome_indexOf?_iff {list v : Value} : (indexOf? list.elems v).isSome = true ↔ Has list v := by
  simp [indexOf?, Has, Value.Same]

/-- A place in a list is not -1. -/
theorem ofNat_ne_neg_one (i : Nat) : Float.ofNat i ≠ -1 := by
  intro same
  have positive : Double.isNegative (Float.ofNat i) = false := Double.isNegative_ofScientific i false 0
  rw [same] at positive
  exact absurd positive (by decide)

/-- The first place of an element is -1, exactly if there is none. -/
theorem exists_callFor_indexof (ctx : Context) (host : Host) (list v : Value) :
    ∃ x, ctx.callFor host "indexof" [.value list, .value v] = .ok (.number x) ∧ (Has list v ↔ x ≠ -1) := by
  refine ⟨_, rfl, ?_⟩
  rw [← isSome_indexOf?_iff]
  cases indexOf? list.elems v with
  | none => simp
  | some i => simpa using ofNat_ne_neg_one i

/-! ### Both functions -/

section Select

variable (list others : Value)

theorem select_true : select true list others =
    .ok (.list (list.elems.filter fun v => (indexOf? others.elems v).isSome)) := by
  simp [select]

theorem select_false : select false list others =
    .ok (.list (list.elems.filter fun v => !(indexOf? others.elems v).isSome)) := by
  simp [select]

/-- What is selected once is selected again, and leaves nothing over. -/
theorem exists_select : ∃ both only,
    select true list others = .ok (.list both) ∧ select false list others = .ok (.list only) ∧
      Splits (Has others) both only list.elems ∧
      select true (.list both) others = .ok (.list both) ∧ select false (.list only) others = .ok (.list only) ∧
      select false (.list both) others = .ok (.list []) := by
  have elems_list (vs : List Value) : (Value.list vs).elems = vs := rfl
  refine ⟨_, _, select_true list others, select_false list others, splits_filter (fun _ => isSome_indexOf?_iff) _,
    ?_, ?_, ?_⟩
  · simp [select_true, elems_list]
  · simp [select_false, elems_list]
  · simp [select_false, elems_list]

end Select

/-- `intersect` and `less` split a list into what has an equal element in another list, which is what `indexof` finds
    there, and what has none. What is selected again stays as it is. -/
theorem intersect_less (ctx : Context) (host : Host) (a b : Value) :
    let intersect (list others : Value) := ctx.callFor host "intersect" [.value list, .value others]
    let less (list others : Value) := ctx.callFor host "less" [.value list, .value others]
    ∃ both only, intersect a b = .ok (.list both) ∧ less a b = .ok (.list only) ∧
      both.Sublist a.elems ∧ only.Sublist a.elems ∧ (both ++ only).Perm a.elems ∧
      Splits (Has b) both only a.elems ∧
      (∀ v, v ∈ both ↔ v ∈ a.elems ∧ Has b v) ∧ (∀ v, v ∈ only ↔ v ∈ a.elems ∧ ¬ Has b v) ∧
      (∀ v, ∃ x, ctx.callFor host "indexof" [.value b, .value v] = .ok (.number x) ∧ (Has b v ↔ x ≠ -1)) ∧
      intersect (.list both) b = intersect a b ∧ less (.list only) b = less a b ∧
      less (.list both) b = .ok (.list []) := by
  intro intersect less
  obtain ⟨both, only, kept, left, splits, keptAgain, leftAgain, none⟩ := exists_select a b
  refine ⟨both, only, kept, left, splits.sublist_left, splits.sublist_right, splits.perm, splits,
    fun _ => splits.mem_left_iff, fun _ => splits.mem_right_iff, exists_callFor_indexof ctx host b, ?_, ?_, none⟩
  · exact keptAgain.trans kept.symm
  · exact leftAgain.trans left.symm

end Builtin

end Reckon
