import Mathlib
import Reckon.Eval
import Reckon.Proofs.Order

/-!
Indices and what is done with them. The whole part of a number that may be an index into a list is a place in the list,
or the first one if the list is empty (`Builtin.InRange.exists_place`). So `insert`, `get` and `remove` edit a list at
one place, and undo each other, unless the list is empty (`Builtin.edits_iff`).
-/

namespace Reckon

/-! ### Whole parts -/

namespace Double
open Float.Model (UnpackedFloat)

/-- The whole part of a number is not more than its magnitude. -/
theorem wholePart_le (x : Float) : (wholePart x : ℚ) ≤ mantissa x * 2 ^ exponent x := by
  rw [wholePart]
  cases exponent x with
  | ofNat e =>
    simp [Nat.shiftLeft_eq]
  | negSucc e =>
    have quotient : (((mantissa x / 2 ^ (e + 1) : ℕ)) : ℚ) ≤ mantissa x / (2 ^ (e + 1) : ℕ) := Nat.cast_div_le
    rw [zpow_negSucc, ← div_eq_mul_inv]
    simpa [Nat.shiftRight_eq_div_pow] using quotient

theorem wholePart_of_mantissa {x : Float} (none : mantissa x = 0) : wholePart x = 0 := by
  rw [wholePart, none]
  split <;> simp

/-- A number with a sign that is greater than -1 has no whole part. -/
theorem wholePart_of_above {x : Float} (negative : isNegative x = true) (above : -1 < x) : wholePart x = 0 := by
  obtain ⟨-, number, order⟩ := lt_iff.mp above
  have one : place (-1 : Float).toModel.unpack = toLex (-1, toLex (52, -2 ^ 52)) := by decide
  have sign := wordSign_eq x
  rw [negative, if_pos rfl] at sign
  rw [one] at order
  cases finite : x.isFinite with
  | false =>
    rw [unpack_infinite (isInf_of_not_finite finite number), sign] at order
    exact absurd order (by decide)
  | true =>
    by_cases none : mantissa x = 0
    · exact wholePart_of_mantissa none
    · obtain ⟨canonical, -, parts⟩ := unpack_parts finite none
      rw [parts, sign] at order
      change _ < toLex (-1, toLex (-exponent x, -(mantissa x : ℤ))) at order
      rw [Prod.Lex.toLex_lt_toLex, Prod.Lex.toLex_lt_toLex] at order
      have small := canonical.small
      have full := canonical.full
      simp only [lt_self_iff_false, true_and, false_or] at order
      obtain ⟨e, place, far⟩ : ∃ e : Nat, exponent x = .negSucc e ∧ 52 ≤ e :=
        ⟨(-exponent x - 1).toNat, by rw [Int.negSucc_eq]; omega, by omega⟩
      rw [wholePart, place]
      change mantissa x >>> (e + 1) = 0
      rw [Nat.shiftRight_eq_div_pow]
      exact Nat.div_eq_of_lt (small.trans_le (Nat.pow_le_pow_right (by decide) (by omega)))

/-- The whole part of a number above -1 is not negative. -/
theorem toInt_of_above {x : Float} (above : -1 < x) :
    ∃ i : Nat, toInt x = i ∧ (i = 0 ∨ i = wholePart x ∧ x.isFinite = true ∧ isNegative x = false) := by
  rw [toInt]
  cases finite : isFinite x with
  | false => exact ⟨0, rfl, .inl rfl⟩
  | true =>
    cases negative : isNegative x with
    | false =>
      have finite' : x.isFinite = true := by
        rw [isFinite_eq]
        exact finite
      exact ⟨wholePart x, rfl, .inr ⟨rfl, finite', rfl⟩⟩
    | true =>
      rw [wholePart_of_above negative above]
      exact ⟨0, rfl, .inl rfl⟩

end Double

namespace Builtin

/-! ### Places in lists -/

/-- A number that may be an index into a list of a length: above -1 and below the length. -/
def InRange (x : Float) (length : Nat) : Prop := -1 < x ∧ x < Float.ofNat length

section Index

variable {name : String} {position : Nat} {x : Float} {length : Nat}

theorem index_of_inRange (inRange : InRange x length) : index name position x length = .ok (Double.toInt x).toNat := by
  rw [index, if_pos]
  simpa [InRange] using inRange

theorem index_of_not_inRange (outside : ¬ InRange x length) :
    index name position x length = .error (.ofArgument name position (.indexOutOfRange x length)) := by
  rw [index, if_neg]
  simpa [InRange] using outside

/-- A number in range is in range of a longer list. -/
theorem InRange.longer (inRange : InRange x length) : InRange x (length + 1) := by
  refine ⟨inRange.1, ?_⟩
  obtain ⟨number, -, below⟩ := Double.lt_iff.mp inRange.2
  obtain ⟨-, number', above⟩ := Double.le_iff.mp (Double.ofNat_le_ofNat (Nat.le_succ length))
  exact Double.lt_iff.mpr ⟨number, number', below.trans_le above⟩

/-- The whole part of a number in range is a place in the list, or the first one if the list is empty. -/
theorem InRange.exists_place (inRange : InRange x length) :
    ∃ i : Nat, Double.toInt x = i ∧ (i < length ∨ length = 0 ∧ i = 0) := by
  obtain ⟨i, whole, first | ⟨rfl, finite, positive⟩⟩ := Double.toInt_of_above inRange.1
  · exact ⟨i, whole, by omega⟩
  · refine ⟨Double.wholePart x, whole, ?_⟩
    by_contra beyond
    have filled : Double.mantissa x ≠ 0 := by
      intro none
      rw [Double.wholePart_of_mantissa none] at beyond
      omega
    have pos : 0 < length := by
      by_contra none
      rw [Nat.le_zero.mp (Nat.not_lt.mp none)] at inRange
      have negative := (Double.lt_zero_iff.mp inRange.2).1
      rw [positive] at negative
      cases negative
    refine Double.not_lt_ofNat positive finite filled pos ?_ inRange.2
    refine le_trans ?_ (Double.wholePart_le x)
    exact_mod_cast (show length ≤ Double.wholePart x by omega)

/-- What the check of an index can give: none, one in the list, or 0 for an empty list and a number between -1 and 0. -/
theorem index_cases (name : String) (position : Nat) (x : Float) (length : Nat) :
    (∃ problem, index name position x length = .error (.ofArgument name position problem)) ∨
      (∃ i, i < length ∧ index name position x length = .ok i) ∨
      (length = 0 ∧ -1 < x ∧ x < 0 ∧ index name position x length = .ok 0) := by
  by_cases inRange : InRange x length
  · obtain ⟨i, whole, inside | ⟨rfl, rfl⟩⟩ := inRange.exists_place
    · exact .inr (.inl ⟨i, inside, by rw [index_of_inRange inRange, whole, Int.toNat_natCast]⟩)
    · exact .inr (.inr ⟨rfl, inRange.1, inRange.2, by rw [index_of_inRange inRange, whole, Int.toNat_natCast]⟩)
  · exact .inl ⟨_, index_of_not_inRange inRange⟩

end Index

theorem cutAt_eq {elems : List Value} {place : Nat} (inside : place ≤ elems.length) :
    cutAt elems place = .ok (elems.take place, elems.drop place) := by
  rw [cutAt, if_pos inside]

/-! ### Editing lists -/

/-- The arguments of a call are refused. -/
def Refused (result : Except Fault Value) : Prop := ∃ error, result = .error (.argument error)

/-- What `get`, `remove` and `insert` make of a list at a place, if the place is in range: they find, leave out and put
    in one element there, keep all others in order, and undo each other. Otherwise they refuse the place. -/
structure Edits (get remove : Value → Value → Except Fault Value) (insert : Value → Value → Value → Except Fault Value)
    (list element place : Value) : Prop where
  inserted : InRange place.num list.elems.length → ∃ before after, list.elems = before ++ after ∧
    Double.toInt place.num = before.length ∧ insert list element place = .ok (.list (before ++ element :: after))
  removed : InRange place.num list.elems.length → ∃ before found after, list.elems = before ++ found :: after ∧
    Double.toInt place.num = before.length ∧ get list place = .ok found ∧
      remove list place = .ok (.list (before ++ after))
  get_inserted : InRange place.num list.elems.length →
    (insert list element place).bind (get · place) = .ok element
  remove_inserted : InRange place.num list.elems.length →
    (insert list element place).bind (remove · place) = .ok (list.as .list)
  insert_removed : InRange place.num list.elems.length → InRange place.num (list.elems.length - 1) →
    ((remove list place).bind fun shorter => (get list place).bind fun found => insert shorter found place) =
      .ok (list.as .list)
  refused_get : Refused (get list place) ↔ ¬ InRange place.num list.elems.length
  refused_remove : Refused (remove list place) ↔ ¬ InRange place.num list.elems.length
  refused_insert : Refused (insert list element place) ↔ ¬ InRange place.num list.elems.length

section Edits

variable {list element place found : Value} {before after : List Value}

theorem insert_cut (element : Value) (cut : list.elems = before ++ after)
    (whole : Double.toInt place.num = before.length) (inRange : InRange place.num list.elems.length) :
    insert list element place = .ok (.list (before ++ element :: after)) := by
  rw [insert, index_of_inRange inRange, whole, cut]
  simp [cutAt_eq]

theorem get_cut (cut : list.elems = before ++ found :: after) (whole : Double.toInt place.num = before.length)
    (inRange : InRange place.num list.elems.length) : get list place = .ok found := by
  rw [get, index_of_inRange inRange, whole, cut]
  simp

theorem remove_cut (cut : list.elems = before ++ found :: after) (whole : Double.toInt place.num = before.length)
    (inRange : InRange place.num list.elems.length) : remove list place = .ok (.list (before ++ after)) := by
  rw [remove, index_of_inRange inRange, whole, cut]
  simp [cutAt_eq]

/-- A place in range of a list with elements has an element. -/
theorem exists_cut (filled : list.elems ≠ []) (inRange : InRange place.num list.elems.length) :
    ∃ before found after, list.elems = before ++ found :: after ∧ Double.toInt place.num = before.length := by
  obtain ⟨i, whole, inside⟩ := inRange.exists_place
  have inside : i < list.elems.length := by
    have := List.length_pos_iff.mpr filled
    omega
  refine ⟨list.elems.take i, list.elems[i], list.elems.drop (i + 1), ?_, ?_⟩
  · rw [List.cons_getElem_drop_succ, List.take_append_drop]
  · rw [whole, List.length_take_of_le inside.le]

theorem not_refused {v : Value} : ¬ Refused (.ok v) := by
  rintro ⟨error, ⟨⟩⟩

theorem edits_of_inRange (filled : list.elems ≠ []) (inRange : InRange place.num list.elems.length) :
    Edits get remove insert list element place := by
  obtain ⟨before, found, after, cut, whole⟩ := exists_cut filled inRange
  have inserted := insert_cut element cut whole inRange
  have got := get_cut cut whole inRange
  have removed := remove_cut cut whole inRange
  -- What is in range of a list is in range of the list with the element.
  have longer : InRange place.num (Value.list (before ++ element :: found :: after)).elems.length := by
    have := inRange.longer
    rw [cut] at this
    simpa [Value.elems, Nat.add_assoc] using this
  constructor
  case inserted => exact fun _ => ⟨before, found :: after, cut, whole, inserted⟩
  case removed => exact fun _ => ⟨before, found, after, cut, whole, got, removed⟩
  case get_inserted =>
    intro _
    rw [inserted]
    exact get_cut rfl whole longer
  case remove_inserted =>
    intro _
    rw [inserted, Value.as, cut]
    exact remove_cut rfl whole longer
  case insert_removed =>
    intro _ shorter
    rw [removed, got, Value.as, cut]
    refine insert_cut found rfl whole ?_
    rw [cut] at shorter
    simpa [Value.elems] using shorter
  case refused_get => simp [got, not_refused, inRange]
  case refused_remove => simp [removed, not_refused, inRange]
  case refused_insert => simp [inserted, not_refused, inRange]

theorem edits_of_outside (outside : ¬ InRange place.num list.elems.length) :
    Edits get remove insert list element place := by
  have refused {result : Except Fault Value} {name : String} {position : Nat} {problem : ArgumentProblem}
      (failed : result = .error (.ofArgument name position problem)) :
      Refused result ↔ ¬ InRange place.num list.elems.length := ⟨fun _ => outside, fun _ => ⟨_, failed⟩⟩
  constructor
  case refused_get => exact refused (by rw [get, index_of_not_inRange outside])
  case refused_remove => exact refused (by rw [remove, index_of_not_inRange outside])
  case refused_insert => exact refused (by rw [insert, index_of_not_inRange outside])
  all_goals exact fun inRange => absurd inRange outside

/-- An empty list has no element at a place that is in range of it. -/
theorem not_edits_of_vacant (empty : list.elems = []) (inRange : InRange place.num 0) :
    ¬ Edits get remove insert list element place := by
  intro edits
  obtain ⟨before, found, after, cut, -⟩ := edits.removed (by rwa [empty])
  rw [empty] at cut
  simp at cut

/-- The built-in functions edit a list, exactly if the list is not empty or the place is out of its range: above -1, and
    below 0, a place is in range of an empty list. -/
theorem edits_iff (ctx : Context) (host : Host) (list element place : Value) :
    Edits (fun list place => ctx.callFor host "get" [.value list, .value place])
      (fun list place => ctx.callFor host "remove" [.value list, .value place])
      (fun list element place => ctx.callFor host "insert" [.value list, .value element, .value place])
      list element place ↔ ¬ (list.elems = [] ∧ InRange place.num 0) := by
  change Edits get remove insert list element place ↔ _
  constructor
  · rintro edits ⟨empty, inRange⟩
    exact not_edits_of_vacant empty inRange edits
  · intro other
    by_cases inRange : InRange place.num list.elems.length
    · refine edits_of_inRange (fun empty => other ⟨empty, ?_⟩) inRange
      rwa [empty] at inRange
    · exact edits_of_outside inRange

/-- A place before the first of an empty list is in range, but there is nothing to remove. -/
theorem remove_vacant :
    let ctx := Context.new 0
    let host := Context.detachedHost 0
    let list := Value.list []
    let place := Value.number (-0.5)
    InRange place.num list.elems.length ∧
      ctx.callFor host "remove" [.value list, .value place] = .error (.breach .negativeCapacity) ∧
      ¬ Edits (fun list place => ctx.callFor host "get" [.value list, .value place])
        (fun list place => ctx.callFor host "remove" [.value list, .value place])
        (fun list element place => ctx.callFor host "insert" [.value list, .value element, .value place])
        list (.number 1) place := by
  intro ctx host list place
  have inRange : InRange place.num list.elems.length := ⟨by decide, by decide⟩
  refine ⟨inRange, ?_, not_edits_of_vacant rfl inRange⟩
  change remove list place = _
  rw [remove, index_of_inRange inRange]
  rfl

end Edits

end Builtin

end Reckon
