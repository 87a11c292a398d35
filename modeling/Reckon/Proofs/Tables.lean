import Mathlib
import Reckon.Table

/-!
What tables hold. A table is a map (`Table.get?_insert`, `Table.get?_erase`) and the list of its entries
(`Table.get?_eq_some_iff`), and it is put together again from these (`Table.ofList_entries`). Tables with the same
names and related entries stay so when both are changed at the same name (`Table.Matches`).
-/

namespace Reckon.Table

/-! ### Maps -/

section Maps

variable {α : Type}

/-- A name has one entry at most. -/
theorem get?_eq_some_iff (table : Table α) {name : String} {entry : α} :
    table.get? name = some entry ↔ (name, entry) ∈ table.entries := by
  constructor
  · intro found
    obtain ⟨before, after, same, -⟩ := List.lookup_eq_some_iff.mp found
    rw [same]
    exact List.mem_append_right _ List.mem_cons_self
  · intro member
    obtain ⟨before, after, same⟩ := List.append_of_mem member
    have sorted := table.sorted
    rw [same] at sorted
    refine List.lookup_eq_some_iff.mpr ⟨before, after, same, fun other inside => ?_⟩
    have less := (List.pairwise_append.mp sorted).2.2 other inside _ List.mem_cons_self
    simpa using ne_of_gt less

theorem get?_insert_of_ne (table : Table α) {name other : String} (distinct : other ≠ name) (entry : α) :
    (table.insert name entry).get? other = table.get? other := by
  have apart : (other == name) = false := beq_eq_false_iff_ne.mpr distinct
  have sorted (entries : List (String × α)) :
      (insertSorted name entry entries).lookup other = entries.lookup other := by
    induction entries with
    | nil => simp [insertSorted, List.lookup_cons, apart]
    | cons first rest ih =>
      obtain ⟨key, value⟩ := first
      simp only [insertSorted]
      split
      · simp only [List.lookup_cons, apart]
      · split
        · rename_i same
          have same : name = key := same
          subst same
          simp only [List.lookup_cons, apart]
        · simp only [List.lookup_cons, ih]
  exact sorted table.entries

theorem get?_erase_of_ne (table : Table α) {name other : String} (distinct : other ≠ name) :
    (table.erase name).get? other = table.get? other := by
  have apart : (other == name) = false := beq_eq_false_iff_ne.mpr distinct
  have filtered (entries : List (String × α)) :
      (entries.filter fun entry => entry.1 ≠ name).lookup other = entries.lookup other := by
    induction entries with
    | nil => rfl
    | cons first rest ih =>
      obtain ⟨key, value⟩ := first
      rw [List.filter_cons]
      split
      · simp only [List.lookup_cons, ih]
      · rename_i same
        obtain rfl : key = name := by simpa using same
        rw [ih]
        simp only [List.lookup_cons, apart]
  exact filtered table.entries

theorem mem_insert (table : Table α) (name : String) (entry : α) :
    (name, entry) ∈ (table.insert name entry).entries := by
  have sorted (entries : List (String × α)) : (name, entry) ∈ insertSorted name entry entries := by
    induction entries with
    | nil => exact List.mem_cons_self
    | cons first rest ih =>
      rw [insertSorted]
      split
      · exact List.mem_cons_self
      · split
        · exact List.mem_cons_self
        · exact List.mem_cons_of_mem _ ih
  exact sorted table.entries

theorem get?_insert (table : Table α) (name : String) (entry : α) :
    (table.insert name entry).get? = Function.update table.get? name (some entry) := by
  funext other
  by_cases same : other = name
  · subst same
    rw [Function.update_self, get?_eq_some_iff]
    exact mem_insert table other entry
  · rw [Function.update_of_ne same, get?_insert_of_ne table same]

theorem get?_erase (table : Table α) (name : String) :
    (table.erase name).get? = Function.update table.get? name none := by
  funext other
  by_cases same : other = name
  · subst same
    rw [Function.update_self]
    refine Option.eq_none_iff_forall_ne_some.mpr fun entry found => ?_
    have member := List.of_mem_filter ((get?_eq_some_iff _).mp found)
    simp at member
  · rw [Function.update_of_ne same, get?_erase_of_ne table same]

end Maps

/-! ### Lists -/

section Lists

variable {α : Type}

theorem insertSorted_last {name : String} {entry : α} {entries : List (String × α)}
    (below : ∀ other ∈ entries, other.1 < name) : insertSorted name entry entries = entries ++ [(name, entry)] := by
  induction entries with
  | nil => rfl
  | cons first rest ih =>
    have less := below first List.mem_cons_self
    rw [insertSorted, if_neg (String.lt_asymm less), if_neg (ne_of_gt less),
      ih fun other member => below other (List.mem_cons_of_mem _ member), List.cons_append]

/-- Entries in ascending order are put one after another. -/
theorem entries_foldl_insert (table : Table α) {rest : List (String × α)}
    (sorted : (table.entries ++ rest).Pairwise fun a b => a.1 < b.1) :
    (rest.foldl (fun table entry => table.insert entry.1 entry.2) table).entries = table.entries ++ rest := by
  induction rest generalizing table with
  | nil => rw [List.foldl_nil, List.append_nil]
  | cons entry rest ih =>
    have below : ∀ other ∈ table.entries, other.1 < entry.1 := fun other member =>
      (List.pairwise_append.mp sorted).2.2 other member entry List.mem_cons_self
    have last : (table.insert entry.1 entry.2).entries = table.entries ++ [entry] := insertSorted_last below
    rw [List.foldl_cons, ih _ (by rwa [last, List.append_assoc]), last, List.append_assoc, List.singleton_append]

theorem entries_ofList {entries : List (String × α)} (sorted : entries.Pairwise fun a b => a.1 < b.1) :
    (ofList entries).entries = entries :=
  entries_foldl_insert empty sorted

theorem ofList_entries (table : Table α) : ofList table.entries = table := by
  have same := entries_ofList table.sorted
  cases table
  cases listed : ofList _
  simp only [listed] at same
  subst same
  rfl

/-- A list in ascending order that has what a table has is the list of its entries. -/
theorem eq_entries (table : Table α) {entries : List (String × α)} (sorted : entries.Pairwise fun a b => a.1 < b.1)
    (walked : ∀ name entry, (name, entry) ∈ entries ↔ table.get? name = some entry) : entries = table.entries := by
  have : Std.Asymm fun a b : String × α => a.1 < b.1 := ⟨fun _ _ => String.lt_asymm⟩
  exact sorted.eq_of_mem_iff table.sorted fun entry => (walked _ _).trans (get?_eq_some_iff table)

end Lists

/-! ### Tables with the same names -/

section Matches

variable {α β : Type} {R : String → α → β → Prop}

/-- Two tables have the same names, and their entries are related. -/
def Matches (R : String → α → β → Prop) (first : Table α) (second : Table β) : Prop :=
  List.Forall₂ (fun a b => a.1 = b.1 ∧ R a.1 a.2 b.2) first.entries second.entries

theorem Matches.insert {first : Table α} {second : Table β} (same : Matches R first second) {name : String} {a : α}
    {b : β} (related : R name a b) : Matches R (first.insert name a) (second.insert name b) := by
  have sorted : ∀ {xs : List (String × α)} {ys : List (String × β)},
      List.Forall₂ (fun a b => a.1 = b.1 ∧ R a.1 a.2 b.2) xs ys →
        List.Forall₂ (fun a b => a.1 = b.1 ∧ R a.1 a.2 b.2) (insertSorted name a xs) (insertSorted name b ys) := by
    intro xs ys same
    induction same with
    | nil => exact .cons ⟨rfl, related⟩ .nil
    | cons here rest ih =>
      simp only [insertSorted, ← here.1]
      split
      · exact .cons ⟨rfl, related⟩ (.cons here rest)
      · split
        · exact .cons ⟨rfl, related⟩ rest
        · exact .cons here ih
  exact sorted same

theorem Matches.erase {first : Table α} {second : Table β} (same : Matches R first second) (name : String) :
    Matches R (first.erase name) (second.erase name) := by
  have filtered : ∀ {xs : List (String × α)} {ys : List (String × β)},
      List.Forall₂ (fun a b => a.1 = b.1 ∧ R a.1 a.2 b.2) xs ys →
        List.Forall₂ (fun a b => a.1 = b.1 ∧ R a.1 a.2 b.2) (xs.filter fun entry => entry.1 ≠ name)
          (ys.filter fun entry => entry.1 ≠ name) := by
    intro xs ys same
    induction same with
    | nil => exact .nil
    | cons here rest ih =>
      simp only [List.filter_cons, ← here.1]
      split
      · exact .cons here ih
      · exact ih
  exact filtered same

theorem Matches.contains_eq {first : Table α} {second : Table β} (same : Matches R first second) (name : String) :
    first.contains name = second.contains name := by
  have found : ∀ {xs : List (String × α)} {ys : List (String × β)},
      List.Forall₂ (fun a b => a.1 = b.1 ∧ R a.1 a.2 b.2) xs ys →
        (xs.lookup name).isSome = (ys.lookup name).isSome := by
    intro xs ys same
    induction same with
    | nil => rfl
    | @cons x y xs ys here rest ih =>
      obtain ⟨key, a⟩ := x
      obtain ⟨other, b⟩ := y
      obtain rfl : key = other := here.1
      simp only [List.lookup_cons]
      split
      · rfl
      · exact ih
  exact found same

end Matches

end Reckon.Table
