/-!
# Tables

A table maps names to entries and lists them in ascending order of their names,
each name once. The order of names is that of their characters, which is also that
of their bytes. Where an order is left open, each of some elements is visited once.
-/

namespace Reckon

/-- The entries of a table, in strictly ascending order of names. -/
structure Table (α : Type) where
  entries : List (String × α)
  sorted : entries.Pairwise fun a b => a.1 < b.1

namespace Table

variable {α : Type}

/-- The table without entries. -/
def empty : Table α := ⟨[], .nil⟩

instance : Inhabited (Table α) := ⟨empty⟩

/-- The entry of a name. -/
def get? (table : Table α) (name : String) : Option α := table.entries.lookup name

/-- A name has an entry. -/
def contains (table : Table α) (name : String) : Bool := (table.get? name).isSome

/-- The names in ascending order. -/
def names (table : Table α) : List String := table.entries.map Prod.fst

/-- Puts an entry in its place, instead of one of the same name. -/
def insertSorted (name : String) (entry : α) : List (String × α) → List (String × α)
  | [] => [(name, entry)]
  | first :: rest =>
    if name < first.1 then (name, entry) :: first :: rest
    else if name = first.1 then (name, entry) :: rest
    else first :: insertSorted name entry rest

theorem mem_insertSorted {name : String} {entry : α} {entries : List (String × α)}
    {found : String × α} (h : found ∈ insertSorted name entry entries) :
    found = (name, entry) ∨ found ∈ entries := by
  induction entries with
  | nil => simpa [insertSorted] using h
  | cons first rest ih =>
    simp only [insertSorted] at h
    split at h
    · simpa using h
    · split at h
      · rcases List.mem_cons.1 h with h | h
        · exact .inl h
        · exact .inr (List.mem_cons_of_mem _ h)
      · rcases List.mem_cons.1 h with h | h
        · exact .inr (by simp [h])
        · exact (ih h).imp_right (List.mem_cons_of_mem _)

theorem pairwise_insertSorted (name : String) (entry : α) {entries : List (String × α)}
    (h : entries.Pairwise fun a b => a.1 < b.1) :
    (insertSorted name entry entries).Pairwise fun a b => a.1 < b.1 := by
  induction h with
  | nil => simp [insertSorted]
  | @cons first rest below _ ih =>
    simp only [insertSorted]
    split
    · rename_i less
      refine .cons ?_ (.cons below ‹_›)
      intro other hother
      rcases List.mem_cons.1 hother with rfl | hother
      · exact less
      · exact String.lt_trans less (below other hother)
    · rename_i notLess
      split
      · rename_i same
        exact .cons (fun other hother => same ▸ below other hother) ‹_›
      · rename_i different
        refine .cons ?_ ih
        intro other hother
        rcases mem_insertSorted hother with rfl | hother
        · exact Std.lt_of_le_of_ne (String.not_lt.1 notLess) (Ne.symm different)
        · exact below other hother

/-- A table with an entry for a name, instead of one it may have. -/
def insert (table : Table α) (name : String) (entry : α) : Table α :=
  ⟨insertSorted name entry table.entries, pairwise_insertSorted name entry table.sorted⟩

/-- A table without an entry for a name. -/
def erase (table : Table α) (name : String) : Table α :=
  ⟨table.entries.filter fun entry => entry.1 ≠ name, table.sorted.filter _⟩

/-- A table with the given entries, of which the last of a name counts. -/
def ofList (entries : List (String × α)) : Table α :=
  entries.foldl (fun table entry => table.insert entry.1 entry.2) empty

end Table

/-- An order in which each of some elements is visited once. -/
structure Visit {α : Type} (all : List α) where
  order : List α
  perm : order.Perm all

/-- The order in which the elements are listed. -/
def Visit.listed {α : Type} {all : List α} : Visit all := ⟨all, .refl all⟩

end Reckon
