import Reckon.Proofs.Effects
import Reckon.Proofs.Stores

/-!
What a store holds: a map from names to texts, and one from names to parameters and bodies (`Contents`). A store in an
engine that keeps maps in transactions refuses an operation as these maps do, or does what they do
(`Engine.Store.Holds.perform`), so that after any operations on a new store it lists what the maps after them have
(`Engine.Store.lists_foldl`).
-/

namespace Reckon

/-! ### Operations -/

/-- What can be done with a store: it is changed, or closed and opened again. -/
inductive Operation
  | setVariable (name text : String)
  | deleteVariable (name : String)
  | clearVariables
  | setFunction (f : StoredFunction)
  | deleteFunction (name : String)
  | clearFunctions
  | reopen (visit : Visit StoreBucket.all)

namespace Engine.Store

variable {engine : Engine}

/-- What an operation on the store at a path answers, and what it makes of the store. -/
def perform (path : String) (store : engine.Store) : Operation → Except StoreError Unit × engine.Store
  | .setVariable name text => store.setVariable name text
  | .deleteVariable name => store.deleteVariable name
  | .clearVariables => store.clearVariables
  | .setFunction f => store.setFunction f
  | .deleteFunction name => store.deleteFunction name
  | .clearFunctions => store.clearFunctions
  | .reopen visit => store.reopen path visit

/-- The store after an operation. -/
def after (path : String) (store : engine.Store) (operation : Operation) : engine.Store :=
  (store.perform path operation).2

end Engine.Store

/-! ### Two maps -/

/-- Two maps: from the names of variables to their texts, and from the names of functions to their parameters and
    their bodies. -/
structure Contents where
  vars : String → Option String
  functions : String → Option (String × String)

namespace Contents

/-- Maps without entries. -/
def empty : Contents := ⟨fun _ => none, fun _ => none⟩

/-- Why an operation is refused, if it is. -/
def refusal? (contents : Contents) : Operation → Option StoreError
  | .setVariable name text => Maps.refusal? name (Text.bytes text).length
  | .deleteVariable name => if contents.vars name = none then some .notFound else none
  | .setFunction f =>
    if ' ' ∈ f.params.toList ∨ '\t' ∈ f.params.toList ∨ '\n' ∈ f.params.toList then
      some (.spacedParams f.name f.params)
    -- The parameters and the body are kept together, with a space between them.
    else Maps.refusal? f.name ((Text.bytes f.params).length + 1 + (Text.bytes f.body).length)
  | .deleteFunction name => if contents.functions name = none then some .notFound else none
  | .clearVariables | .clearFunctions | .reopen _ => none

/-- What an operation answers. -/
def answer (contents : Contents) (operation : Operation) : Except StoreError Unit :=
  match contents.refusal? operation with
  | some error => .error error
  | none => .ok ()

/-- What an operation that is not refused makes of the maps. -/
def perform (contents : Contents) : Operation → Contents
  | .setVariable name text => { contents with vars := Function.update contents.vars name (some text) }
  | .deleteVariable name => { contents with vars := Function.update contents.vars name none }
  | .clearVariables => { contents with vars := fun _ => none }
  | .setFunction f =>
    { contents with functions := Function.update contents.functions f.name (some (f.params, f.body)) }
  | .deleteFunction name => { contents with functions := Function.update contents.functions name none }
  | .clearFunctions => { contents with functions := fun _ => none }
  | .reopen _ => contents

/-- The maps after an operation. One that is refused changes nothing. -/
def after (contents : Contents) (operation : Operation) : Contents :=
  if contents.refusal? operation = none then contents.perform operation else contents

section Answers

variable {contents : Contents} {operation : Operation}

theorem answer_of_refused {error : StoreError} (refused : contents.refusal? operation = some error) :
    contents.answer operation = .error error ∧ contents.after operation = contents := by
  rw [answer, after, refused]
  exact ⟨rfl, if_neg (Option.some_ne_none error)⟩

theorem answer_of_accepted (accepted : contents.refusal? operation = none) :
    contents.answer operation = .ok () ∧ contents.after operation = contents.perform operation := by
  rw [answer, after, accepted]
  exact ⟨rfl, if_pos rfl⟩

end Answers

/-! ### What is kept of them -/

/-- The texts that are kept in the buckets of a store. -/
def kept (contents : Contents) : StoreBucket → String → Option String
  | .vars => contents.vars
  | .functions => Option.map (fun f => f.1 ++ " " ++ f.2) ∘ contents.functions

theorem kept_empty : empty.kept = fun _ _ => none := by
  funext bucket
  cases bucket <;> rfl

theorem kept_vars (contents : Contents) (vars : String → Option String) :
    kept { contents with vars := vars } = Function.update contents.kept .vars vars := by
  funext bucket
  cases bucket <;> rfl

theorem kept_functions (contents : Contents) (functions : String → Option (String × String)) :
    kept { contents with functions := functions } =
      Function.update contents.kept .functions (Option.map (fun f => f.1 ++ " " ++ f.2) ∘ functions) := by
  funext bucket
  cases bucket <;> rfl

/-- The parameters of functions have no spaces. -/
def Whole (contents : Contents) : Prop :=
  ∀ name params body, contents.functions name = some (params, body) → ' ' ∉ params.toList

theorem Whole.update {contents : Contents} (whole : contents.Whole) (name : String) {f? : Option (String × String)}
    (free : ∀ params body, f? = some (params, body) → ' ' ∉ params.toList) :
    Whole { contents with functions := Function.update contents.functions name f? } := by
  intro other params body found
  by_cases same : other = name
  · subst same
    simp only [Function.update_self] at found
    exact free params body found
  · simp only [Function.update_of_ne same] at found
    exact whole other params body found

end Contents

/-- The text of a function has the bytes of its parameters, of its body and of a space. -/
theorem StoredFunction.length_bytes_text (f : StoredFunction) :
    (Text.bytes f.text).length = (Text.bytes f.params).length + 1 + (Text.bytes f.body).length := by
  have space : " ".toList.flatMap String.utf8EncodeChar = [32] := by decide
  simp only [text, Text.bytes_eq, String.toList_append, List.flatMap_append, space, List.length_append,
    List.length_singleton]

namespace Engine.Store

variable {engine : Engine} {reading : engine.Reading} {store : engine.Store} {contents : Contents}

/-! ### One operation -/

/-- A store keeps two maps. -/
structure Holds (reading : engine.Reading) (store : engine.Store) (contents : Contents) : Prop where
  has : store.Has reading contents.kept
  whole : contents.Whole

/-- A store that has the same maps after a refusal has answered it and holds the same. -/
theorem Holds.refused (holds : store.Holds reading contents) (operation : Operation) {error : StoreError}
    (refused : contents.refusal? operation = some error) {result : Except StoreError Unit × engine.Store}
    (kept : ∃ after : engine.Store, result = (.error error, after) ∧ after.Has reading contents.kept) :
    ∃ after : engine.Store, result = (contents.answer operation, after) ∧
      after.Holds reading (contents.after operation) := by
  obtain ⟨after, same, has⟩ := kept
  obtain ⟨answered, unchanged⟩ := Contents.answer_of_refused refused
  rw [answered, unchanged]
  exact ⟨after, same, has, holds.whole⟩

/-- A store that has the maps after an operation that is not refused has answered it and holds them. -/
theorem holds_accepted (operation : Operation) (accepted : contents.refusal? operation = none)
    (whole : (contents.perform operation).Whole) {result : Except StoreError Unit × engine.Store}
    (changed : ∃ after : engine.Store, result = (.ok (), after) ∧
      after.Has reading (contents.perform operation).kept) :
    ∃ after : engine.Store, result = (contents.answer operation, after) ∧
      after.Holds reading (contents.after operation) := by
  obtain ⟨after, same, has⟩ := changed
  obtain ⟨answered, done⟩ := Contents.answer_of_accepted accepted
  rw [answered, done]
  exact ⟨after, same, has, whole⟩

theorem any_isSpacing {cs : List Char} :
    cs.any isSpacing = true ↔ ' ' ∈ cs ∨ '\t' ∈ cs ∨ '\n' ∈ cs := by
  simp [isSpacing, or_assoc, and_or_left, exists_or]

theorem Holds.setVariable (lawful : reading.Lawful) (holds : store.Holds reading contents) (path name text : String) :
    ∃ after : engine.Store, store.perform path (.setVariable name text) =
        (contents.answer (.setVariable name text), after) ∧
      after.Holds reading (contents.after (.setVariable name text)) := by
  cases refusal : Maps.refusal? name (Text.bytes text).length with
  | some error => exact holds.refused (.setVariable name text) refusal (holds.has.set_error lawful .vars refusal)
  | none =>
    refine holds_accepted (.setVariable name text) refusal holds.whole ?_
    rw [Contents.perform, Contents.kept_vars]
    exact holds.has.set_ok lawful .vars refusal

theorem Holds.deleteVariable (lawful : reading.Lawful) (holds : store.Holds reading contents) (path name : String) :
    ∃ after : engine.Store, store.perform path (.deleteVariable name) =
        (contents.answer (.deleteVariable name), after) ∧
      after.Holds reading (contents.after (.deleteVariable name)) := by
  by_cases missing : contents.vars name = none
  · exact holds.refused (.deleteVariable name) (if_pos missing) (holds.has.delete_error lawful .vars missing)
  · refine holds_accepted (.deleteVariable name) (if_neg missing) holds.whole ?_
    rw [Contents.perform, Contents.kept_vars]
    exact holds.has.delete_ok lawful .vars missing

theorem Holds.setFunction (lawful : reading.Lawful) (holds : store.Holds reading contents) (path : String)
    (f : StoredFunction) :
    ∃ after : engine.Store, store.perform path (.setFunction f) = (contents.answer (.setFunction f), after) ∧
      after.Holds reading (contents.after (.setFunction f)) := by
  rw [perform, Store.setFunction]
  by_cases spaced : f.params.toList.any isSpacing = true
  · rw [if_pos spaced]
    refine holds.refused (.setFunction f) ?_ ⟨store, rfl, holds.has⟩
    rw [Contents.refusal?, if_pos (any_isSpacing.mp spaced)]
  · have unspaced := mt any_isSpacing.mpr spaced
    rw [if_neg spaced]
    cases refusal : Maps.refusal? f.name (Text.bytes f.text).length with
    | some error =>
      refine holds.refused (.setFunction f) ?_ (holds.has.set_error lawful .functions refusal)
      rw [Contents.refusal?, if_neg unspaced, ← f.length_bytes_text, refusal]
    | none =>
      refine holds_accepted (.setFunction f) ?_ (holds.whole.update f.name ?_) ?_
      · rw [Contents.refusal?, if_neg unspaced, ← f.length_bytes_text, refusal]
      · rintro params body ⟨⟩ member
        exact unspaced (.inl member)
      · rw [Contents.perform, Contents.kept_functions, Function.comp_update]
        exact holds.has.set_ok lawful .functions refusal

theorem Holds.deleteFunction (lawful : reading.Lawful) (holds : store.Holds reading contents) (path name : String) :
    ∃ after : engine.Store, store.perform path (.deleteFunction name) =
        (contents.answer (.deleteFunction name), after) ∧
      after.Holds reading (contents.after (.deleteFunction name)) := by
  by_cases missing : contents.functions name = none
  · refine holds.refused (.deleteFunction name) (if_pos missing) (holds.has.delete_error lawful .functions ?_)
    exact Option.map_eq_none_iff.mpr missing
  · refine holds_accepted (.deleteFunction name) (if_neg missing) (holds.whole.update name fun _ _ => nofun) ?_
    rw [Contents.perform, Contents.kept_functions, Function.comp_update]
    exact holds.has.delete_ok lawful .functions (mt Option.map_eq_none_iff.mp missing)

/-- An operation is answered as the two maps answer it, and the store holds the maps after it. -/
theorem Holds.perform (lawful : reading.Lawful) (holds : store.Holds reading contents) (path : String)
    (operation : Operation) :
    ∃ after : engine.Store, store.perform path operation = (contents.answer operation, after) ∧
      after.Holds reading (contents.after operation) := by
  cases operation with
  | setVariable name text => exact holds.setVariable lawful path name text
  | deleteVariable name => exact holds.deleteVariable lawful path name
  | clearVariables =>
    refine holds_accepted .clearVariables rfl holds.whole ?_
    rw [Contents.perform, Contents.kept_vars]
    exact holds.has.clear_ok lawful .vars
  | setFunction f => exact holds.setFunction lawful path f
  | deleteFunction name => exact holds.deleteFunction lawful path name
  | clearFunctions =>
    refine holds_accepted .clearFunctions rfl (fun _ _ _ => nofun) ?_
    rw [Contents.perform, Contents.kept_functions]
    exact holds.has.clear_ok lawful .functions
  | reopen visit => exact holds_accepted (.reopen visit) rfl holds.whole (holds.has.reopen lawful path visit)

/-! ### Any operations -/

/-- After any operations a store holds the maps after them. -/
theorem Holds.foldl (lawful : reading.Lawful) (path : String) (holds : store.Holds reading contents)
    (operations : List Operation) :
    (operations.foldl (after path) store).Holds reading (operations.foldl Contents.after contents) := by
  induction operations generalizing store contents with
  | nil => exact holds
  | cons operation rest ih =>
    obtain ⟨later, performed, again⟩ := holds.perform lawful path operation
    have same : store.after path operation = later := congrArg Prod.snd performed
    rw [List.foldl_cons, List.foldl_cons, same]
    exact ih again

/-- A store lists two maps, in ascending order of the bytes of the names. -/
def Lists (store : engine.Store) (contents : Contents) : Prop :=
  ∃ vars functions, store.listVariables = .ok vars ∧ store.listFunctions = .ok functions ∧
    vars.Pairwise (fun a b => Text.bytes a.1 < Text.bytes b.1) ∧
    (∀ name text, (name, text) ∈ vars ↔ contents.vars name = some text) ∧
    functions.Pairwise (fun f g => Text.bytes f.name < Text.bytes g.name) ∧
    ∀ f, f ∈ functions ↔ contents.functions f.name = some (f.params, f.body)

/-- A function is read back from what is kept of it. -/
theorem Holds.mem_map_ofText (holds : store.Holds reading contents) {entries : List (String × String)}
    (walked : ∀ name text, (name, text) ∈ entries ↔ contents.kept .functions name = some text) (f : StoredFunction) :
    f ∈ entries.map (fun entry => .ofText entry.1 entry.2) ↔ contents.functions f.name = some (f.params, f.body) := by
  rw [List.mem_map]
  constructor
  · rintro ⟨⟨name, text⟩, member, rfl⟩
    obtain ⟨⟨params, body⟩, found, rfl⟩ := Option.map_eq_some_iff.mp ((walked name text).mp member)
    rw [StoredFunction.ofText, Text.cut_space (holds.whole name params body found)]
    exact found
  · intro found
    refine ⟨(f.name, f.text), (walked f.name f.text).mpr ?_, ?_⟩
    · exact Option.map_eq_some_iff.mpr ⟨_, found, rfl⟩
    · exact StoredFunction.ofText_text (holds.whole _ _ _ found)

/-- A store lists the maps that it holds. -/
theorem Holds.lists (lawful : reading.Lawful) (holds : store.Holds reading contents) : store.Lists contents := by
  obtain ⟨vars, listed, sorted, walked⟩ := holds.has.exists_list lawful .vars
  obtain ⟨kept, keptListed, keptSorted, keptWalked⟩ := holds.has.exists_list lawful .functions
  refine ⟨vars, _, listed, ?_, sorted, walked, ?_, holds.mem_map_ofText keptWalked⟩
  · rw [listFunctions, keptListed]
    rfl
  · exact List.pairwise_map.mpr keptSorted

/-- In an engine that keeps maps in transactions, a store is made in a new file. After any operations it lists the two
    maps after them, and it answers any further operation as they do. -/
theorem lists_foldl (lawful : reading.Lawful) (path : String) (visit : Visit StoreBucket.all) :
    ∃ store : engine.Store, openFile path visit engine.newFile = .ok store ∧ ∀ operations : List Operation,
      let later := operations.foldl (after path) store
      let contents := operations.foldl Contents.after .empty
      later.Lists contents ∧ ∀ operation, (later.perform path operation).1 = contents.answer operation := by
  obtain ⟨store, opened, has⟩ := exists_openFile lawful lawful.empty path visit
  have holds : store.Holds reading .empty := ⟨Contents.kept_empty ▸ has, fun _ _ _ => nofun⟩
  refine ⟨store, opened, fun operations => ?_⟩
  have later := holds.foldl lawful path operations
  refine ⟨later.lists lawful, fun operation => ?_⟩
  obtain ⟨next, performed, -⟩ := later.perform lawful path operation
  exact congrArg Prod.fst performed

/-- A store of tables, whose buckets are made the other way round when it is opened again: what is refused leaves it,
    a function is replaced, and its body keeps its blanks. -/
theorem lists_foldl_reopened :
    ∃ store : Reckon.Store, openFile "reckon.db" .listed Tables.engine.newFile = .ok store ∧
      let swapped : Visit StoreBucket.all := ⟨[.functions, .vars], .swap ..⟩
      let operations : List Operation :=
        [.setVariable "é" "", .setVariable "b" "1", .setVariable "" "2", .setFunction ⟨"f", "", "1"⟩,
          .deleteVariable "c", .reopen swapped, .setFunction ⟨"f", "x,y", "  x y "⟩, .setFunction ⟨"g", "x,\ty", "x+y"⟩,
          .deleteVariable "b"]
      let later := operations.foldl (after "reckon.db") store
      ∃ vars functions, later.listVariables = .ok vars ∧ later.listFunctions = .ok functions ∧
        ("é", "") ∈ vars ∧ ("b", "1") ∉ vars ∧ ⟨"f", "x,y", "  x y "⟩ ∈ functions ∧ ⟨"f", "", "1"⟩ ∉ functions ∧
        (later.perform "reckon.db" (.deleteVariable "b")).1 = .error .notFound ∧
        (later.perform "reckon.db" (.setVariable "" "2")).1 = .error .keyRequired ∧
        (later.perform "reckon.db" (.deleteFunction "f")).1 = .ok () := by
  obtain ⟨store, opened, lists⟩ := lists_foldl Tables.lawful "reckon.db" .listed
  refine ⟨store, opened, ?_⟩
  intro swapped operations later
  obtain ⟨⟨vars, functions, listed, defined, -, walked, -, each⟩, answers⟩ := lists operations
  refine ⟨vars, functions, listed, defined, ?_, ?_, ?_, ?_, ?_, ?_, ?_⟩
  · exact (walked "é" "").mpr (by decide +kernel)
  · exact mt (walked "b" "1").mp (by decide +kernel)
  · exact (each ⟨"f", "x,y", "  x y "⟩).mpr (by decide +kernel)
  · exact mt (each ⟨"f", "", "1"⟩).mp (by decide +kernel)
  · exact (answers (.deleteVariable "b")).trans (by decide +kernel)
  · exact (answers (.setVariable "" "2")).trans (by decide +kernel)
  · exact (answers (.deleteFunction "f")).trans (by decide +kernel)

end Engine.Store

end Reckon
