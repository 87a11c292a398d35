import Reckon.Files.Path
import Reckon.Proofs.Definitions

/-!
Paths from a directory. Names that stand for themselves (`Path.IsName`) are kept when a path is cleaned, so that joining
them to a directory leads to the place that they name inside of it (`Path.join_names`).
-/

namespace Reckon.Path

/-- A name that leads one place further: it has no slash, and it is not that of a place itself or of the one around
    it. -/
structure IsName (name : String) : Prop where
  whole : '/' ∉ name.toList
  filled : name ≠ ""
  notHere : name ≠ "."
  notAround : name ≠ ".."

instance (name : String) : Decidable (IsName name) :=
  decidable_of_iff ('/' ∉ name.toList ∧ name ≠ "" ∧ name ≠ "." ∧ name ≠ "..")
    ⟨fun ⟨whole, filled, here, around⟩ => ⟨whole, filled, here, around⟩,
      fun ⟨whole, filled, here, around⟩ => ⟨whole, filled, here, around⟩⟩

theorem parts_append (front back : String) : parts (front ++ "/" ++ back) = parts front ++ parts back := by
  have chars : (front ++ "/" ++ back).toList = front.toList ++ '/' :: back.toList := by simp
  simp only [parts, Text.splitChars_eq_splitOn, chars, List.splitOn_append_cons_self, List.map_append]

theorem parts_name {name : String} (isName : IsName name) : parts name = [name] := by
  rw [parts, Text.splitChars_eq_splitOn, List.splitOn_eq_singleton isName.whole, List.map_singleton,
    String.ofList_toList]

theorem step_name {name : String} (isName : IsName name) (rooted : Bool) (taken : List String) :
    step rooted taken name = name :: taken := by
  simp [step, isName.filled, isName.notHere, isName.notAround]

theorem ne_empty_of_cleanParts {directory : String} (inside : cleanParts directory ≠ []) : directory ≠ "" := by
  rintro rfl
  exact inside (by decide)

theorem isRooted_append {front : String} (filled : front ≠ "") (back : String) :
    isRooted (front ++ back) = isRooted front := by
  obtain ⟨c, cs, chars⟩ := List.exists_cons_of_ne_nil (mt String.toList_eq_nil_iff.mp filled)
  simp [isRooted, chars]

section Names

variable {directory name : String}

/-- A name leads one place further than its directory. -/
theorem cleanParts_name (filled : directory ≠ "") (isName : IsName name) :
    cleanParts (directory ++ "/" ++ name) = cleanParts directory ++ [name] := by
  have rooted : isRooted (directory ++ "/" ++ name) = isRooted directory := by
    rw [String.append_assoc, isRooted_append filled]
  rw [cleanParts, rooted, parts_append, parts_name isName, List.foldl_append, List.foldl_cons, List.foldl_nil,
    step_name isName, List.reverse_cons, cleanParts]

theorem clean_name (inside : cleanParts directory ≠ []) (isName : IsName name) :
    clean (directory ++ "/" ++ name) = clean directory ++ "/" ++ name := by
  have filled := ne_empty_of_cleanParts inside
  have rooted : isRooted (directory ++ "/" ++ name) = isRooted directory := by
    rw [String.append_assoc, isRooted_append filled]
  have last : "/".intercalate (cleanParts directory ++ [name]) =
      "/".intercalate (cleanParts directory) ++ "/" ++ name := by
    rw [String.intercalate_append_of_ne_nil inside (List.cons_ne_nil _ _), String.intercalate_singleton]
  rw [clean, clean, rooted, cleanParts_name filled isName, ofParts, ofParts, last]
  cases isRooted directory with
  | true => simp [String.append_assoc]
  | false => simp [inside]

end Names

/-- Names are kept when the path from a directory to what they name is cleaned. -/
theorem clean_names {directory : String} (inside : cleanParts directory ≠ []) {names : List String}
    (each : ∀ name ∈ names, IsName name) :
    clean ("/".intercalate (directory :: names)) = "/".intercalate (clean directory :: names) := by
  induction names generalizing directory with
  | nil => rw [String.intercalate_singleton, String.intercalate_singleton]
  | cons name names ih =>
    have isName := each name List.mem_cons_self
    have further : cleanParts (directory ++ "/" ++ name) ≠ [] := by
      rw [cleanParts_name (ne_empty_of_cleanParts inside) isName]
      exact List.append_ne_nil_of_right_ne_nil _ (List.cons_ne_nil _ _)
    have joined (place : String) :
        "/".intercalate (place :: name :: names) = "/".intercalate ((place ++ "/" ++ name) :: names) := by
      rw [String.intercalate_cons_cons, String.intercalate_cons_append]
    rw [joined, joined, ih further fun name member => each name (List.mem_cons_of_mem _ member),
      clean_name inside isName]

/-- Names that are joined to a directory name places inside of it. -/
theorem join_names {directory : String} (inside : cleanParts directory ≠ []) {names : List String}
    (each : ∀ name ∈ names, IsName name) : join (directory :: names) = "/".intercalate (clean directory :: names) := by
  rw [join, List.dropWhile_cons_of_neg (by simpa using ne_empty_of_cleanParts inside)]
  exact clean_names inside each

end Reckon.Path
