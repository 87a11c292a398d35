import Mathlib
import Reckon.Shell

/-!
What a line does. A line leaves the shell as it is, or it makes one edit of the definitions, first
in the context and then in the store, which may refuse it (`Shell.effect_run`). A line that fails for
any other reason changes nothing (`Shell.run_failed`).
-/

namespace Reckon

/-- What stands before the first separator has none. -/
theorem Text.not_mem_cut (separator : Char) (text : String) : separator ∉ (cut separator text).1.toList := by
  intro member
  rw [cut, cutChars, String.toList_ofList] at member
  have other := List.mem_takeWhile_imp member
  simp at other

/-- A text is cut at the first space. -/
theorem Text.cut_space {before : String} (free : ' ' ∉ before.toList) (after : String) :
    cut ' ' (before ++ " " ++ after) = (before, after) := by
  have word : ∀ c ∈ before.toList, decide (c ≠ ' ') = true := by
    intro c member
    rw [decide_eq_true_eq]
    rintro rfl
    exact free member
  have chars : (before ++ " " ++ after).toList = before.toList ++ ' ' :: after.toList := by simp
  simp only [cut, cutChars, chars, List.takeWhile_append_of_pos word, List.dropWhile_append_of_pos word]
  simp

/-- A function whose parameters have no space is read back from its text. -/
theorem StoredFunction.ofText_text {f : StoredFunction} (whole : ' ' ∉ f.params.toList) : ofText f.name f.text = f := by
  rw [ofText, text, Text.cut_space whole]

/-- The text of a function that can be defined, and the parameters that it names. -/
structure StoredFunction.Defines (f : StoredFunction) (params : List Param) : Prop where
  named : Name.problem? f.name .func true = none
  new : Builtin.isName f.name = false
  listed : Param.parse f.name f.params = .ok params
  reads : ∃ e, Expr.parse? f.body = .ok (some e)

/-- What a text of a function defines. -/
def StoredFunction.function (f : StoredFunction) (params : List Param) : Function := ⟨[f.name], params, "", f.body⟩

theorem Context.defineFunction_eq_ok_iff {ctx after : Context} {f : StoredFunction} :
    ctx.defineFunction f.name f.params f.body = .ok after ↔
      ∃ params, f.Defines params ∧ after = { ctx with functions := ctx.functions.insert f.name (f.function params) } := by
  constructor
  · intro defined
    simp only [defineFunction] at defined
    split at defined
    · cases defined
    · rename_i named
      split at defined
      · cases defined
      · rename_i new
        split at defined
        · cases defined
        · rename_i params listed
          split at defined
          · cases defined
          · cases defined
          · rename_i e reads
            cases defined
            exact ⟨params, ⟨named, by simpa using new, listed, e, reads⟩, rfl⟩
  · rintro ⟨params, ⟨named, new, listed, e, reads⟩, rfl⟩
    simp only [defineFunction, named, new, listed, reads]
    rfl

/-- A change of the definitions. -/
inductive Edit
  | setVariable (name : String) (value : Value)
  | deleteVariable (name : String)
  | clearVariables
  | defineFunction (f : StoredFunction) (params : List Param)
  | deleteFunction (name : String)
  | clearFunctions

namespace Edit

/-- What an edit does to a context. -/
def inContext (ctx : Context) : Edit → Context
  | setVariable name value => ctx.setVariable name value
  | deleteVariable name => { ctx with vars := ctx.vars.erase name }
  | clearVariables => ctx.clearVariables
  | defineFunction f params => { ctx with functions := ctx.functions.insert f.name (f.function params) }
  | deleteFunction name => { ctx with functions := ctx.functions.erase name }
  | clearFunctions => ctx.clearFunctions

/-- What is done in a store to save an edit. -/
def save (edit : Edit) (store : Store) : Except StoreError Unit × Store :=
  match edit with
  | setVariable name value => store.setVariable name value.text
  | deleteVariable name => Shell.ignoreNotFound (store.deleteVariable name)
  | clearVariables => store.clearVariables
  | defineFunction f _ => store.setFunction f
  | deleteFunction name => Shell.ignoreNotFound (store.deleteFunction name)
  | clearFunctions => store.clearFunctions

/-- What an edit makes of a store, or why the store refuses it. -/
def inStore (edit : Edit) (store : Store) : Except StoreError Store :=
  match edit.save store with
  | (.error e, _) => .error e
  | (.ok (), after) => .ok after

/-- An edit that a line makes in a context: a variable is set to the value of an expression, what is deleted is
    there, and the text of a function defines one. -/
inductive Allowed (ctx : Context) : Edit → Prop
  | setVariable {name source : String} {value : Value} (named : Name.problem? name .var false = none)
      (evaluated : ctx.evalText source = .ok value) : Allowed ctx (.setVariable name value)
  | deleteVariable {name : String} (known : ctx.vars.contains name = true) : Allowed ctx (.deleteVariable name)
  | clearVariables : Allowed ctx .clearVariables
  | defineFunction {f : StoredFunction} {params : List Param} (defines : f.Defines params)
      (whole : ' ' ∉ f.params.toList) : Allowed ctx (.defineFunction f params)
  | deleteFunction {name : String} (known : ctx.functions.contains name = true) : Allowed ctx (.deleteFunction name)
  | clearFunctions : Allowed ctx .clearFunctions

end Edit

/-! ### Refusals of the store -/

/-- A transaction that fails changes nothing. -/
theorem Tables.update_eq_error {α : Type} {db after : Database} {action : Action Buckets α} {error : StoreError}
    (failed : update db action = (.error error, after)) : after = db := by
  rw [update] at failed
  split at failed
  · split at failed
    · cases failed
      rfl
    · cases failed
  · cases failed
    rfl

namespace Store
open Engine.Store

/-- A change that is refused changes nothing. -/
theorem change_eq_error {store after : Store} {action : Action Tables.Buckets Unit} {error : StoreError}
    (refused : store.change action = (.error error, after)) : after = store := by
  obtain ⟨result, kept⟩ := Prod.mk.inj refused
  rw [← kept]
  exact congrArg Engine.Store.mk (Tables.update_eq_error (Prod.ext result rfl))

theorem ignoreNotFound_eq_error {store : Store} {result : Except StoreError Unit × Store} {error : StoreError}
    (refused : Shell.ignoreNotFound result = (.error error, store)) : result = (.error error, store) := by
  unfold Shell.ignoreNotFound at refused
  split at refused
  · cases refused
  · exact refused

end Store

namespace Edit

/-- An edit that the store refuses changes nothing in it. -/
theorem save_eq_error {edit : Edit} {store after : Store} {error : StoreError}
    (refused : edit.save store = (.error error, after)) : after = store := by
  cases edit with
  | setVariable name value => exact Store.change_eq_error refused
  | deleteVariable name => exact Store.change_eq_error (Store.ignoreNotFound_eq_error refused)
  | clearVariables => exact Store.change_eq_error refused
  | defineFunction f params =>
    simp only [save, Engine.Store.setFunction] at refused
    split at refused
    · cases refused
      rfl
    · exact Store.change_eq_error refused
  | deleteFunction name => exact Store.change_eq_error (Store.ignoreNotFound_eq_error refused)
  | clearFunctions => exact Store.change_eq_error refused

end Edit

/-- A line fails because the store refuses an edit. -/
def ShellError.isSaving : ShellError → Bool
  | saving _ => true
  | _ => false

namespace Shell

/-- A shell with an edit in its context. -/
def edited (shell : Shell) (edit : Edit) : Shell := { shell with context := edit.inContext shell.context }

/-- What a line does. It changes nothing, and then it prints nothing if it fails, or it makes an edit that is
    saved, or one that the store refuses. -/
inductive Effect (shell : Shell) : Outcome → Prop
  | printed (output : String) : Effect shell ⟨shell, output, none⟩
  | failed {error : ShellError} (other : error.isSaving = false) : Effect shell ⟨shell, "", some error⟩
  | saved {edit : Edit} {after : Shell} (allowed : edit.Allowed shell.context)
      (saved : (shell.edited edit).save edit.save = (.ok (), after)) (output : String) :
      Effect shell ⟨after, output, none⟩
  | unsaved {edit : Edit} {after : Shell} {error : ShellError} (allowed : edit.Allowed shell.context)
      (refused : (shell.edited edit).save edit.save = (.error error, after)) (output : String) :
      Effect shell ⟨after, output, some error⟩

/-- A line that makes an edit says so only once it is saved. -/
theorem effect_save {shell : Shell} {edit : Edit} (allowed : edit.Allowed shell.context) (text : String) :
    Effect shell (match (shell.edited edit).save edit.save with
      | (.error e, unsaved) => unsaved.fail e
      | (.ok (), saved) => saved.say text) := by
  rcases result : (shell.edited edit).save edit.save with ⟨e | ⟨⟩, after⟩
  · exact .unsaved allowed result _
  · exact .saved allowed result _

theorem effect_evaluate (shell : Shell) (source : String) : Effect shell (shell.evaluate source) := by
  simp only [evaluate]
  split
  · exact .failed rfl
  · rename_i v evaluated
    have named : Name.problem? ans .var false = none := by decide
    simp only [Context.defineVariable, named]
    have allowed : (Edit.setVariable ans v).Allowed shell.context := .setVariable named evaluated
    -- The value is printed before it is saved, so a refusal comes with an output.
    split
    · rename_i refused
      exact .unsaved allowed refused _
    · rename_i result
      exact .saved allowed result _

theorem effect_assign (shell : Shell) (name source : String) : Effect shell (shell.assign name source) := by
  simp only [assign]
  split
  · exact .failed rfl
  · rename_i v evaluated
    simp only [Context.defineVariable]
    split
    · exact .failed rfl
    · rename_i ctx defined
      split at defined
      · cases defined
      · rename_i named
        cases defined
        exact effect_save (.setVariable named evaluated) _

theorem effect_deleteVariable (shell : Shell) (name : String) : Effect shell (shell.deleteVariable name) := by
  simp only [deleteVariable]
  split
  · exact .failed rfl
  · split
    · exact effect_save .clearVariables _
    · simp only [Context.deleteVariable]
      split
      · exact .failed rfl
      · rename_i ctx deleted
        split at deleted
        · rename_i known
          cases deleted
          exact effect_save (.deleteVariable known) _
        · cases deleted

theorem effect_deleteFunction (shell : Shell) (name : String) : Effect shell (shell.deleteFunction name) := by
  simp only [deleteFunction]
  split
  · exact .failed rfl
  · split
    · exact effect_save .clearFunctions _
    · simp only [Context.deleteFunction]
      split
      · exact .failed rfl
      · rename_i ctx deleted
        split at deleted
        · rename_i known
          cases deleted
          exact effect_save (.deleteFunction known) _
        · cases deleted

theorem effect_defineFunction (shell : Shell) (arg : String) : Effect shell (shell.defineFunction arg) := by
  simp only [defineFunction]
  split
  · exact .failed rfl
  · -- The parameters end at the first space, which is where the store cuts them off again.
    have whole := Text.not_mem_cut ' ' (Text.trim (Text.cut ' ' arg).2)
    generalize (Text.cut ' ' (Text.trim (Text.cut ' ' arg).2)).1 = params at *
    generalize (Text.cut ' ' arg).1 = name
    generalize Text.trim (Text.cut ' ' (Text.trim (Text.cut ' ' arg).2)).2 = body
    split
    · exact .failed rfl
    · rename_i ctx defined
      obtain ⟨parsed, defines, rfl⟩ := Context.defineFunction_eq_ok_iff (f := ⟨name, params, body⟩) |>.mp defined
      exact effect_save (.defineFunction defines whole) _

theorem effect_display (shell : Shell) (source : String) : Effect shell (shell.display source) := by
  simp only [display]
  split
  · exact .failed rfl
  · split
    · exact .failed rfl
    · exact .printed _
    · exact .printed _

theorem effect_dump (shell : Shell) : Effect shell shell.dump := by
  simp only [dump]
  split
  · exact .failed rfl
  · split
    · exact .failed rfl
    · exact .printed _

theorem effect_command {shell : Shell} {name arg : String} {outcome : Outcome}
    (found : shell.command? name arg = some outcome) : Effect shell outcome := by
  simp only [command?] at found
  split at found <;> cases found
  · exact .printed _
  · exact .printed _
  · exact .printed _
  · exact .printed _
  · exact .printed _
  · exact effect_dump shell
  · exact effect_display shell arg
  · exact effect_deleteVariable shell arg
  · exact effect_deleteFunction shell arg
  · exact effect_defineFunction shell arg

/-- What a line does to a shell. -/
theorem effect_run (shell : Shell) (line : String) : Effect shell (shell.run line) := by
  simp only [run]
  split
  · exact .printed _
  · split
    · rename_i found
      exact effect_command found
    · split
      · exact effect_assign shell _ _
      · exact effect_evaluate shell _

/-- Saving changes nothing but the store. -/
theorem exists_store_of_save {shell after : Shell} {operation : Store → Except StoreError Unit × Store}
    {result : Except ShellError Unit} (saved : shell.save operation = (result, after)) :
    ∃ store, after = { shell with store := store } := by
  rw [save] at saved
  split at saved
  · cases saved
    exact ⟨shell.store, rfl⟩
  · split at saved <;> cases saved <;> exact ⟨_, rfl⟩

/-- What is saved is an edit of the store that is there, if there is one. -/
theorem save_eq_ok {shell after : Shell} {edit : Edit} (saved : shell.save edit.save = (.ok (), after)) :
    shell.store = none ∧ after = shell ∨ ∃ store stored, shell.store = some store ∧
      edit.inStore store = .ok stored ∧ after = { shell with store := some stored } := by
  simp only [save] at saved
  split at saved
  · cases saved
    exact .inl ⟨‹_›, rfl⟩
  · rename_i store present
    split at saved
    · cases saved
    · rename_i stored accepted
      cases saved
      exact .inr ⟨store, stored, present, by rw [Edit.inStore, accepted], rfl⟩

/-- Only the store refuses an edit, and then nothing is stored. -/
theorem save_eq_error {shell after : Shell} {edit : Edit} {error : ShellError}
    (refused : shell.save edit.save = (.error error, after)) :
    after = shell ∧ ∃ store cause, shell.store = some store ∧ edit.inStore store = .error cause ∧
      error = .saving cause := by
  simp only [save] at refused
  split at refused
  · cases refused
  · rename_i store present
    split at refused
    · rename_i cause kept refusal
      cases refused
      obtain rfl := Edit.save_eq_error refusal
      refine ⟨?_, kept, cause, present, by rw [Edit.inStore, refusal], rfl⟩
      rw [← present]
    · cases refused

/-- A line that fails stores nothing. Unless it fails because the store refuses an edit, it changes nothing and
    prints nothing, and if it does, the edit stays in the context. -/
theorem run_failed {shell : Shell} {line : String} {error : ShellError} (failed : (shell.run line).error = some error) :
    (shell.run line).shell.store = shell.store ∧
      (error.isSaving = false → (shell.run line).shell = shell ∧ (shell.run line).output = "") ∧
      (error.isSaving = true → ∃ edit store cause, edit.Allowed shell.context ∧ shell.store = some store ∧
        edit.inStore store = .error cause ∧ error = .saving cause ∧ (shell.run line).shell = shell.edited edit) := by
  have effect := shell.effect_run line
  generalize shell.run line = outcome at effect failed
  cases effect with
  | printed output => cases failed
  | saved _ _ output => cases failed
  | failed other =>
    cases failed
    refine ⟨rfl, fun _ => ⟨rfl, rfl⟩, fun saving => ?_⟩
    rw [other] at saving
    cases saving
  | @unsaved edit after found allowed refused output =>
    cases failed
    obtain ⟨rfl, store, cause, present, refusal, rfl⟩ := save_eq_error refused
    refine ⟨rfl, fun other => ?_, fun _ => ⟨edit, store, cause, allowed, present, refusal, rfl, rfl⟩⟩
    cases other

/-- A line that names a variable that is not there changes nothing. -/
theorem run_failed_unknown :
    let shell : Shell := ⟨.new 0, some .empty, false, false⟩
    (shell.run "delvar x").error = some (.noVariable "x") ∧ (shell.run "delvar x").shell = shell ∧
      (shell.run "delvar x").output = "" := by
  intro shell
  have failed : (shell.run "delvar x").error = some (.noVariable "x") := rfl
  exact ⟨failed, (run_failed failed).2.1 rfl⟩

/-- A function whose parameters have a tab between them is refused by the store and stays in the context. -/
theorem run_refused :
    let shell : Shell := ⟨.new 0, some .empty, false, false⟩
    (shell.run "function f x,\ty x+y").error.map ShellError.message =
        some "saving: parameters of f contain spaces: \"x,\\ty\"" ∧
      shell.context.functions.names = [] ∧
      (shell.run "function f x,\ty x+y").shell.context.functions.names = ["f"] := by
  decide +kernel

end Shell

end Reckon
