import Reckon.Proofs.Effects
import Reckon.Proofs.Stores
import Reckon.Proofs.Tables

/-!
The store mirrors the context. In a session that begins without definitions, and in which the store
refuses nothing, the store holds the texts of the variables and functions of the context after every
line (`Shell.Session.mirrors`): an edit that is saved is the same one on both sides
(`Store.Mirrors.edit`).
-/

namespace Reckon

/-! ### Stores -/

namespace Store
open Engine.Store

/-- The texts that are in the buckets of a store when these are tables. -/
def kept (tables : StoreBucket → Table String) : StoreBucket → String → Option String := fun bucket =>
  (tables bucket).get?

theorem kept_update (tables : StoreBucket → Table String) (bucket : StoreBucket) (table : Table String) :
    kept (Function.update tables bucket table) = Function.update (kept tables) bucket table.get? :=
  Function.comp_update Table.get? tables bucket table

section Changes

variable {store after : Store} {tables : StoreBucket → Table String}

/-- A text that is stored is in its place in the table. -/
theorem has_set (has : store.Has Tables.reading (kept tables)) {bucket : StoreBucket} {name text : String}
    (stored : store.set bucket name text = (.ok (), after)) :
    after.Has Tables.reading (kept (Function.update tables bucket ((tables bucket).insert name text))) := by
  cases refusal : Maps.refusal? name (Text.bytes text).length with
  | some error =>
    obtain ⟨later, refused, -⟩ := has.set_error Tables.lawful bucket refusal
    rw [refused] at stored
    cases stored
  | none =>
    obtain ⟨later, saved, hasLater⟩ := has.set_ok Tables.lawful bucket refusal
    rw [saved] at stored
    cases stored
    rwa [kept_update, Table.get?_insert]

/-- What is in a table is deleted from it. -/
theorem has_delete (has : store.Has Tables.reading (kept tables)) {bucket : StoreBucket} {name : String}
    (known : (tables bucket).contains name = true)
    (stored : Shell.ignoreNotFound (store.delete bucket name) = (.ok (), after)) :
    after.Has Tables.reading (kept (Function.update tables bucket ((tables bucket).erase name))) := by
  obtain ⟨later, deleted, hasLater⟩ := has.delete_ok Tables.lawful bucket (Option.isSome_iff_ne_none.mp known)
  rw [deleted] at stored
  cases stored
  rwa [kept_update, Table.get?_erase]

theorem has_clear (has : store.Has Tables.reading (kept tables)) {bucket : StoreBucket}
    (stored : store.clear bucket = (.ok (), after)) :
    after.Has Tables.reading (kept (Function.update tables bucket .empty)) := by
  obtain ⟨later, cleared, hasLater⟩ := has.clear_ok Tables.lawful bucket
  rw [cleared] at stored
  cases stored
  rwa [kept_update]

/-- A bucket is listed as its table. -/
theorem list_eq (has : store.Has Tables.reading (kept tables)) (bucket : StoreBucket) :
    store.list bucket = .ok (tables bucket).entries := by
  obtain ⟨entries, listed, sorted, walked⟩ := has.exists_list Tables.lawful bucket
  rw [listed, (tables bucket).eq_entries (sorted.imp Text.bytes_lt_iff.mp) walked]

end Changes

/-- A stored text of a function of a context. -/
def Keeps (name text : String) (function : Function) : Prop :=
  ∃ (f : StoredFunction) (params : List Param), f.name = name ∧ f.Defines params ∧ ' ' ∉ f.params.toList ∧
    text = f.text ∧ function = f.function params

/-- The tables in the buckets of a store hold the texts of what a context defines. -/
structure MirrorsIn (tables : StoreBucket → Table String) (store : Store) (ctx : Context) : Prop where
  has : store.Has Tables.reading (kept tables)
  vars : Table.Matches (fun _ text value => text = value.text) (tables .vars) ctx.vars
  functions : Table.Matches Keeps (tables .functions) ctx.functions

/-- A store holds the texts of what a context defines. -/
def Mirrors (store : Store) (ctx : Context) : Prop := ∃ tables, store.MirrorsIn tables ctx

/-- The store of a first session is the one that is made in a new file. -/
theorem openFile_newFile (path : String) : openFile path .listed Tables.engine.newFile = .ok Store.empty := rfl

theorem mirrors_empty (clock : Int) (limit : Nat) : Mirrors .empty ⟨.empty, .empty, clock, limit⟩ := by
  obtain ⟨store, opened, has⟩ := exists_openFile Tables.lawful Tables.lawful.empty "" .listed
  rw [openFile_newFile] at opened
  cases opened
  exact ⟨fun _ => .empty, has, .nil, .nil⟩

/-- An edit that a store accepts is made in it. -/
theorem save_of_inStore {edit : Edit} {store after : Store} (stored : edit.inStore store = .ok after) :
    edit.save store = (.ok (), after) := by
  rw [Edit.inStore] at stored
  split at stored
  · cases stored
  · cases stored
    assumption

/-- An edit that a mirror of the context accepts leaves a mirror of the context after the edit. -/
theorem Mirrors.edit {store after : Store} {ctx : Context} (mirrors : store.Mirrors ctx) {edit : Edit}
    (allowed : edit.Allowed ctx) (stored : edit.inStore store = .ok after) : after.Mirrors (edit.inContext ctx) := by
  obtain ⟨tables, has, vars, functions⟩ := mirrors
  have saved := save_of_inStore stored
  cases allowed with
  | setVariable named evaluated => exact ⟨_, has_set has saved, vars.insert rfl, functions⟩
  | deleteVariable known =>
    -- What the context has is stored, so that the store never misses what is deleted.
    rw [← vars.contains_eq] at known
    exact ⟨_, has_delete has known saved, vars.erase _, functions⟩
  | clearVariables => exact ⟨_, has_clear has saved, .nil, functions⟩
  | @defineFunction f params defines whole =>
    rw [Edit.save, setFunction] at saved
    split at saved
    · cases saved
    · exact ⟨_, has_set has saved, vars, functions.insert ⟨f, params, rfl, defines, whole, rfl, rfl⟩⟩
  | deleteFunction known =>
    rw [← functions.contains_eq] at known
    exact ⟨_, has_delete has known saved, vars, functions.erase _⟩
  | clearFunctions => exact ⟨_, has_clear has saved, vars, .nil⟩

/-- The variables are listed with the texts of their values. -/
theorem Mirrors.listVariables {store : Store} {ctx : Context} (mirrors : store.Mirrors ctx) :
    store.listVariables = .ok (ctx.vars.entries.map fun entry => (entry.1, entry.2.text)) := by
  obtain ⟨tables, has, same, -⟩ := mirrors
  rw [Engine.Store.listVariables, list_eq has]
  congr 1
  unfold Table.Matches at same
  generalize (tables .vars).entries = stored at same
  generalize ctx.vars.entries = entries at same
  induction same with
  | nil => rfl
  | @cons x y xs ys here rest ih =>
    rw [List.map_cons, ← ih]
    congr 1
    exact Prod.ext here.1 here.2

/-- The functions are listed with their names and bodies, and with texts that name their parameters. -/
theorem Mirrors.listFunctions {store : Store} {ctx : Context} (mirrors : store.Mirrors ctx) :
    ∃ stored, store.listFunctions = .ok stored ∧
      List.Forall₂ (fun f entry => ∃ params, f.Defines params ∧ entry = (f.name, f.function params)) stored
        ctx.functions.entries := by
  obtain ⟨tables, has, -, functions⟩ := mirrors
  refine ⟨(tables .functions).entries.map fun entry => .ofText entry.1 entry.2, ?_,
    List.forall₂_map_left_iff.mpr (functions.imp ?_)⟩
  · rw [Engine.Store.listFunctions, list_eq has]
    rfl
  · rintro ⟨name, text⟩ ⟨other, function⟩ ⟨rfl, f, params, rfl, defines, whole, rfl, rfl⟩
    rw [StoredFunction.ofText_text whole]
    exact ⟨params, defines, rfl⟩

end Store

/-! ### Sessions -/

namespace Shell

/-- A shell of a first session. -/
def fresh (limit : Nat) (clock : Int) (color muted : Bool) : Shell :=
  ⟨⟨.empty, .empty, clock, limit⟩, some .empty, color, muted⟩

/-- What a shell becomes by lines, which may fail, but not because the store refuses an edit. The clock moves on
    between them. -/
inductive Session (start : Shell) : Shell → Prop
  | start : Session start start
  | line {shell : Shell} (before : Session start shell) (line : String)
      (saved : ∀ error ∈ (shell.run line).error, error.isSaving = false) : Session start (shell.run line).shell
  | wait {shell : Shell} (before : Session start shell) (clock : Int) :
      Session start { shell with context := { shell.context with clock := clock } }

/-- A line leaves a mirror of the context, unless the store refuses an edit. -/
theorem mirrors_run {shell : Shell} {store : Store} (present : shell.store = some store)
    (mirrors : store.Mirrors shell.context) {line : String}
    (saved : ∀ error ∈ (shell.run line).error, error.isSaving = false) :
    ∃ after, (shell.run line).shell.store = some after ∧ after.Mirrors (shell.run line).shell.context := by
  have effect := shell.effect_run line
  generalize shell.run line = outcome at effect saved
  cases effect with
  | printed output => exact ⟨store, present, mirrors⟩
  | failed other => exact ⟨store, present, mirrors⟩
  | @saved edit after allowed result output =>
    have there : (shell.edited edit).store = some store := present
    rcases save_eq_ok result with ⟨absent, -⟩ | ⟨found, stored, same, accepted, rfl⟩
    · cases there.symm.trans absent
    · cases there.symm.trans same
      exact ⟨stored, rfl, mirrors.edit allowed accepted⟩
  | @unsaved edit after error allowed refused output =>
    obtain ⟨-, store, cause, -, -, rfl⟩ := save_eq_error refused
    cases saved _ rfl

/-- In a session there is a store that mirrors the context. -/
theorem Session.exists_mirror {limit : Nat} {clock : Int} {color muted : Bool} {shell : Shell}
    (session : Session (fresh limit clock color muted) shell) :
    ∃ store, shell.store = some store ∧ store.Mirrors shell.context := by
  induction session with
  | start => exact ⟨.empty, rfl, Store.mirrors_empty clock limit⟩
  | line _ line saved ih =>
    obtain ⟨store, present, mirrors⟩ := ih
    exact mirrors_run present mirrors saved
  | wait _ clock ih =>
    obtain ⟨store, present, tables, mirrors⟩ := ih
    exact ⟨store, present, tables, mirrors.has, mirrors.vars, mirrors.functions⟩

/-- After every line of a session the store lists the variables of the context with the texts of their values, and
    functions with the names and the bodies of those of the context, whose parameters are read as theirs. -/
theorem Session.mirrors {limit : Nat} {clock : Int} {color muted : Bool} {shell : Shell}
    (session : Session (fresh limit clock color muted) shell) :
    ∃ store stored, shell.store = some store ∧
      store.listVariables = .ok (shell.context.vars.entries.map fun entry => (entry.1, entry.2.text)) ∧
      store.listFunctions = .ok stored ∧
      List.Forall₂ (fun f entry => entry.1 = f.name ∧ entry.2.names = [f.name] ∧ entry.2.body = f.body ∧
        Param.parse f.name f.params = .ok entry.2.params) stored shell.context.functions.entries := by
  obtain ⟨store, present, mirrors⟩ := session.exists_mirror
  obtain ⟨stored, functions, each⟩ := mirrors.listFunctions
  refine ⟨store, stored, present, mirrors.listVariables, functions, each.imp ?_⟩
  rintro f entry ⟨params, defines, rfl⟩
  exact ⟨rfl, rfl, rfl, defines.listed⟩

/-- A function is defined, a variable that is not there is deleted, which fails, and another is set. -/
theorem Session.mirrors_three_lines :
    let defined := (fresh 512 0 false false).run "function f x x+x"
    let failed := defined.shell.run "delvar y"
    let assigned := failed.shell.run "a=<f(2),-1>"
    Session (fresh 512 0 false false) assigned.shell ∧
      failed.error.map ShellError.message = some "the variable \"y\" does not exist" ∧
      ∃ store stored, assigned.shell.store = some store ∧ store.listVariables = .ok [("a", "<4,-1>")] ∧
        store.listFunctions = .ok stored ∧ stored.map StoredFunction.name = ["f"] := by
  intro defined failed assigned
  have session : Session (fresh 512 0 false false) assigned.shell := by
    refine .line (.line (.line .start _ ?_) _ ?_) _ ?_
    all_goals decide +kernel
  obtain ⟨store, stored, present, vars, functions, each⟩ := session.mirrors
  have entries : (assigned.shell.context.vars.entries.map fun entry => (entry.1, entry.2.text)) = [("a", "<4,-1>")] := by
    decide +kernel
  have names : assigned.shell.context.functions.entries.map Prod.fst = ["f"] := by
    decide +kernel
  rw [entries] at vars
  have same : stored.map StoredFunction.name = assigned.shell.context.functions.entries.map Prod.fst := by
    rw [← List.forall₂_eq_eq_eq, List.forall₂_map_left_iff, List.forall₂_map_right_iff]
    exact each.imp fun _ _ related => related.1.symm
  exact ⟨session, by decide +kernel, store, stored, present, vars, functions, same.trans names⟩

end Shell

end Reckon
