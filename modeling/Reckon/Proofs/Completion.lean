import Reckon.Proofs.Engine
import Reckon.Proofs.Lines
import Reckon.Proofs.Shadowing

/-!
How a line is completed. The names that are offered are those that something has (`Shell.Offers`), each of them once.
A line is completed by the ones that start with the word at its end, in the order of bytes
(`Shell.completions_offered`).
-/

namespace Reckon

/-! ### Names -/

namespace Table

variable {α : Type}

theorem mem_names_iff (table : Table α) {name : String} : name ∈ table.names ↔ (table.get? name).isSome = true := by
  simp only [names, List.mem_map, Option.isSome_iff_exists, get?_eq_some_iff]
  constructor
  · rintro ⟨⟨_, entry⟩, member, rfl⟩
    exact ⟨entry, member⟩
  · rintro ⟨entry, member⟩
    exact ⟨_, member, rfl⟩

/-- The names are in ascending order, and so all different. -/
theorem sorted_names (table : Table α) : table.names.Pairwise (· < ·) := List.pairwise_map.mpr table.sorted

theorem mem_names_insert (table : Table α) {name other : String} (entry : α) :
    other ∈ (table.insert name entry).names ↔ other = name ∨ other ∈ table.names := by
  rw [mem_names_iff, mem_names_iff, get?_insert]
  by_cases same : other = name
  · simp [same]
  · simp [same]

theorem mem_names_foldl (table : Table α) (entries : List (String × α)) {name : String} :
    name ∈ (entries.foldl (fun table entry => table.insert entry.1 entry.2) table).names ↔
      name ∈ table.names ∨ name ∈ entries.map Prod.fst := by
  induction entries generalizing table with
  | nil => simp
  | cons entry entries ih =>
    rw [List.foldl_cons, ih, mem_names_insert, List.map_cons, List.mem_cons]
    tauto

theorem mem_names_ofList {entries : List (String × α)} {name : String} :
    name ∈ (ofList entries).names ↔ name ∈ entries.map Prod.fst := by
  rw [ofList, mem_names_foldl]
  simp [empty, names]

end Table

/-- The order of texts is that of what follows a head that they share. -/
theorem Text.append_lt_of_lt {first second : String} (less : first < second) (head : String) :
    head ++ first < head ++ second := by
  rw [String.lt_iff_toList_lt] at less ⊢
  rw [String.toList_append, String.toList_append]
  exact append_lt_append_left less head.toList

/-! ### The word at the end of a line -/

namespace Shell

/-- A line is a head and the longest word of letters and underscores that it ends with. -/
structure EndsWith (line head word : String) : Prop where
  whole : line = head ++ word
  letters : ∀ c ∈ word.toList, c = '_' ∨ Text.isLetter c = true
  longest : ∀ head' word', line = head' ++ word' → (∀ c ∈ word'.toList, c = '_' ∨ Text.isLetter c = true) →
    word'.length ≤ word.length

theorem isNameEnd_iff {c : Char} : isNameEnd c = true ↔ c = '_' ∨ Text.isLetter c = true := by
  simp [isNameEnd]

theorem endsWith_word (line : String) : EndsWith line (String.ofList (line.toList.rdropWhile isNameEnd))
    (String.ofList (line.toList.rtakeWhile isNameEnd)) := by
  constructor
  case whole =>
    rw [← String.ofList_append, List.rdropWhile_append_rtakeWhile, String.ofList_toList]
  case letters =>
    intro c member
    rw [String.toList_ofList] at member
    exact isNameEnd_iff.mp (List.mem_rtakeWhile_imp member)
  case longest =>
    rintro head word rfl letters
    -- From the end of the line another word of letters is taken as a whole, and maybe more of what is before it.
    have all : ∀ c ∈ word.toList.reverse, isNameEnd c = true := fun c member =>
      isNameEnd_iff.mpr (letters c (List.mem_reverse.mp member))
    rw [String.toList_append, List.rtakeWhile, List.reverse_append, List.takeWhile_append_of_pos all]
    simp

/-! ### The names that are offered -/

/-- A name is offered after a head: something has it, which is a command only if the head is blank. -/
inductive Offers (shell : Shell) (head name : String) : Prop
  | builtin (named : Builtin.isName name = true)
  | function {f : Function} (defined : f ∈ shell.context.userFunctions) (named : name ∈ f.names)
  | variableName (set : shell.context.vars.contains name = true)
  | constant {v : Value} (known : shell.context.constant? name = some v)
  | command {arg : String} {outcome : Outcome} (blank : ∀ c ∈ head.toList, Text.isBlank c = true)
    (runs : shell.command? name arg = some outcome)

variable {shell : Shell} {head name : String}

/-- The commands are those that run something. -/
theorem mem_commands_iff : name ∈ commands ↔ ∃ arg outcome, shell.command? name arg = some outcome := by
  constructor
  · intro member
    refine ⟨"", Option.isSome_iff_exists.mp ?_⟩
    simp only [commands, List.mem_cons, List.not_mem_nil, or_false] at member
    rcases member with rfl | rfl | rfl | rfl | rfl | rfl | rfl | rfl | rfl | rfl <;> rfl
  · rintro ⟨arg, outcome, runs⟩
    by_contra other
    rw [command?_eq_none other] at runs
    cases runs

/-- The reserved names are those of the constants. -/
theorem mem_reserved_iff {ctx : Context} : name ∈ Name.reserved ↔ ∃ v, ctx.constant? name = some v := by
  constructor
  · intro member
    simp only [Name.reserved, List.mem_cons, List.not_mem_nil, or_false] at member
    rcases member with rfl | rfl | rfl | rfl <;> exact ⟨_, rfl⟩
  · rintro ⟨v, known⟩
    by_contra free
    rw [Context.constant?_eq_none free] at known
    cases known

theorem isName_iff : Builtin.isName name = true ↔ ∃ f ∈ Builtin.all, name ∈ f.names := by
  simp [Builtin.isName]

theorem mem_knownNames_iff : name ∈ shell.knownNames (head.toList.all Text.isBlank) ↔ shell.Offers head name := by
  simp only [knownNames, List.mem_append, List.mem_flatMap]
  constructor
  · rintro ((((command | ⟨f, member, named⟩) | ⟨f, defined, named⟩) | set) | reserved)
    · split at command
      · rename_i blank
        obtain ⟨arg, outcome, runs⟩ := mem_commands_iff.mp command
        exact .command (List.all_eq_true.mp blank) runs
      · cases command
    · exact .builtin (isName_iff.mpr ⟨f, member, named⟩)
    · exact .function defined named
    · exact .variableName ((Table.mem_names_iff _).mp set)
    · obtain ⟨v, known⟩ := mem_reserved_iff.mp reserved
      exact .constant known
  · rintro (named | ⟨defined, named⟩ | set | known | ⟨blank, runs⟩)
    · exact .inl (.inl (.inl (.inr (isName_iff.mp named))))
    · exact .inl (.inl (.inr ⟨_, defined, named⟩))
    · exact .inl (.inr ((Table.mem_names_iff _).mpr set))
    · exact .inr (mem_reserved_iff.mpr ⟨_, known⟩)
    · rw [if_pos (List.all_eq_true.mpr blank)]
      exact .inl (.inl (.inl (.inl (mem_commands_iff.mpr ⟨_, _, runs⟩))))

/-! ### Completions -/

/-- The offered names in ascending order, each of them once. -/
def offered (shell : Shell) (head : String) : List String :=
  (Table.ofList ((shell.knownNames (head.toList.all Text.isBlank)).map fun name => (name, ()))).names

theorem mem_offered_iff : name ∈ shell.offered head ↔ shell.Offers head name := by
  rw [offered, Table.mem_names_ofList, ← mem_knownNames_iff]
  simp

/-- The names that start with a word are put in its place. -/
theorem completions_eq (shell : Shell) (line : String) :
    shell.completions line =
      let head := String.ofList (line.toList.rdropWhile isNameEnd)
      let word := line.toList.rtakeWhile isNameEnd
      if word.isEmpty then []
      else ((shell.offered head).filter fun name => word.isPrefixOf name.toList).map fun name => head ++ name := by
  simp only [offered, String.toList_ofList]
  rfl

/-- A line that ends with a word is completed by all names that are offered and start with it, in the order of bytes. -/
theorem completions_offered (shell : Shell) (line : String) : ∃ head word, EndsWith line head word ∧
    (word = "" → shell.completions line = []) ∧
    (word ≠ "" → (shell.completions line).Pairwise (fun first second => Text.bytes first < Text.bytes second) ∧
      (shell.completions line).Nodup ∧
      ∀ completed, completed ∈ shell.completions line ↔
        ∃ name, shell.Offers head name ∧ word.toList <+: name.toList ∧ completed = head ++ name) := by
  refine ⟨_, _, endsWith_word line, fun none => ?_, fun some => ?_⟩
  · have none : line.toList.rtakeWhile isNameEnd = [] := by simpa using none
    simp [completions_eq, none]
  · have some : line.toList.rtakeWhile isNameEnd ≠ [] := by simpa using some
    have sorted : (shell.completions line).Pairwise (· < ·) := by
      rw [completions_eq]
      simp only [List.isEmpty_iff, some, if_false]
      exact List.pairwise_map.mpr (((Table.sorted_names _).filter _).imp fun less => Text.append_lt_of_lt less _)
    refine ⟨sorted.imp Text.bytes_lt_iff.mpr, sorted.imp ne_of_lt, fun completed => ?_⟩
    rw [completions_eq]
    simp only [List.isEmpty_iff, some, if_false, List.mem_map, List.mem_filter, mem_offered_iff,
      List.isPrefixOf_iff_prefix, String.toList_ofList]
    constructor
    · rintro ⟨name, ⟨offers, starts⟩, rfl⟩
      exact ⟨name, offers, starts, rfl⟩
    · rintro ⟨name, offers, starts, rfl⟩
      exact ⟨name, ⟨offers, starts⟩, rfl⟩

end Shell

end Reckon
