import Mathlib
import Reckon.Proofs.Filling
import Reckon.Proofs.Mirror
import Reckon.Proofs.Order

/-!
A new shell on the store of a session. Loading defines all functions again, and the variables whose
values are not higher than the depth to which an evaluation may nest, and reports the others
(`Shell.Session.load_restart`). So the session is restored if there are no others, and only then
(`Shell.Session.restored_iff`): a value that is built up in steps may be higher than what one evaluation
allows.
-/

namespace Reckon

/-! ### Values that agree -/

/-- Numbers are equal, or neither is a number. -/
def Number.Agrees (x y : Float) : Prop := (x == y) = true ∨ x.isNaN = true ∧ y.isNaN = true

theorem Number.agrees_plain (x : Float) : Agrees (plain x) x := by
  rw [plain]
  split
  · rename_i zero
    rw [Double.beq_comm] at zero
    exact .inl zero
  · cases none : x.isNaN with
    | true => exact .inr ⟨none, none⟩
    | false => exact .inl (Double.beq_self_iff.mpr none)

/-- Values have the same kind and contents, where what is no number agrees with what is none. -/
inductive Value.Agrees : Value → Value → Prop
  | number {x y : Float} (same : Number.Agrees x y) : Agrees (.number x) (.number y)
  | list {xs ys : List Value} (each : List.Forall₂ Agrees xs ys) : Agrees (.list xs) (.list ys)
  | vector {xs ys : List Float} (each : List.Forall₂ Number.Agrees xs ys) : Agrees (.vector xs) (.vector ys)

theorem Value.Filled.agrees_plain {v : Value} (filled : v.Filled) : v.plain.Agrees v := by
  induction filled with
  | number x => exact .number (Number.agrees_plain x)
  | list _ ih =>
    rw [plain, allPlain_eq]
    exact .list (List.forall₂_map_left_iff.mpr (List.forall₂_same.mpr ih))
  | vector _ =>
    exact .vector (List.forall₂_map_left_iff.mpr (List.forall₂_same.mpr fun x _ => Number.agrees_plain x))

/-! ### Variables of a session -/

/-- The variables of a context have names that they may have and hold no empty vectors. -/
def Context.Assigned (ctx : Context) : Prop :=
  ∀ entry ∈ ctx.vars.entries, Name.problem? entry.1 .var false = none ∧ entry.2.Filled

theorem Context.Assigned.edit {ctx : Context} (assigned : ctx.Assigned) {edit : Edit} (allowed : edit.Allowed ctx) :
    (edit.inContext ctx).Assigned := by
  intro entry member
  cases allowed with
  | setVariable named evaluated =>
    rcases Table.mem_insertSorted member with rfl | member
    · exact ⟨named, ctx.yields_evalText (fun entry member => (assigned entry member).2) _ _ evaluated⟩
    · exact assigned entry member
  | deleteVariable known => exact assigned entry (List.mem_of_mem_filter member)
  | clearVariables => cases member
  | defineFunction defines whole => exact assigned entry member
  | deleteFunction known => exact assigned entry member
  | clearFunctions => exact assigned entry member

namespace Shell

theorem save_context {shell after : Shell} {operation : Store → Except StoreError Unit × Store}
    {result : Except ShellError Unit} (saved : shell.save operation = (result, after)) :
    after.context = shell.context := by
  obtain ⟨store, rfl⟩ := exists_store_of_save saved
  rfl

/-- A line leaves the context as it is or makes an edit. -/
theorem context_run (shell : Shell) (line : String) :
    (shell.run line).shell.context = shell.context ∨
      ∃ edit : Edit, edit.Allowed shell.context ∧ (shell.run line).shell.context = edit.inContext shell.context := by
  have effect := shell.effect_run line
  generalize shell.run line = outcome at effect
  cases effect with
  | printed output => exact .inl rfl
  | failed other => exact .inl rfl
  | saved allowed result output => exact .inr ⟨_, allowed, save_context result⟩
  | unsaved allowed refused output => exact .inr ⟨_, allowed, save_context refused⟩

theorem Session.assigned {limit : Nat} {clock : Int} {color muted : Bool} {shell : Shell}
    (session : Session (fresh limit clock color muted) shell) : shell.context.Assigned := by
  induction session with
  | start =>
    intro entry member
    cases member
  | @line shell _ line saved ih =>
    rcases shell.context_run line with same | ⟨edit, allowed, same⟩
    · rw [same]
      exact ih
    · rw [same]
      exact ih.edit allowed
  | wait _ clock ih => exact ih

/-! ### Loading -/

/-- The functions that are stored are defined again. -/
theorem foldl_loadFunction {stored : List StoredFunction} {entries : List (String × Function)}
    (each : List.Forall₂ (fun f entry => ∃ params, f.Defines params ∧ entry = (f.name, f.function params)) stored entries)
    (ctx : Context) (log : String) : stored.foldl loadFunction (ctx, log) =
      ({ ctx with functions := entries.foldl (fun table entry => table.insert entry.1 entry.2) ctx.functions }, log) := by
  induction each generalizing ctx with
  | nil => rfl
  | @cons f entry _ _ here _ ih =>
    obtain ⟨params, defines, rfl⟩ := here
    have defined : ctx.defineFunction f.name f.params f.body = .ok _ :=
      Context.defineFunction_eq_ok_iff.mpr ⟨params, defines, rfl⟩
    simp only [List.foldl_cons, loadFunction, defined]
    exact ih _

/-- What is reported of a variable whose value is too high. -/
def skipped (limit : Nat) (name : String) : String :=
  "skipping stored variable " ++ name ++ ": " ++ (Fault.overflow limit).message ++ "\n"

theorem loadVariable_text (ctx : Context) (log : String) {name : String} {v : Value}
    (named : Name.problem? name .var false = none) (filled : v.Filled) :
    loadVariable (ctx, log) (name, v.text) =
      if v.height ≤ ctx.limit then (ctx.setVariable name v.plain, log) else (ctx, log ++ skipped ctx.limit name) := by
  simp only [loadVariable, Context.evalText, filled.parse, Context.eval, Eval.run_expr _ _ _ filled]
  by_cases low : v.height ≤ ctx.limit
  · simp only [low, if_true, Except.bind, Context.defineVariable, named]
  · -- Regrouping the message itself would unfold its literals.
    have regrouped (a b c d e f : String) : a ++ b ++ c ++ d ++ e ++ f = a ++ (b ++ c ++ d ++ e ++ f) := by
      simp only [String.append_assoc]
    simp only [low, if_false, Except.bind]
    exact congrArg (Prod.mk ctx) (regrouped _ _ _ _ _ _)

/-- The variables that loading defines. -/
def kept (limit : Nat) (entries : List (String × Value)) : List (String × Value) :=
  (entries.filter fun entry => entry.2.height ≤ limit).map fun entry => (entry.1, entry.2.plain)

/-- What loading reports of the others. -/
def report (limit : Nat) (entries : List (String × Value)) : String :=
  String.join ((entries.filter fun entry => limit < entry.2.height).map fun entry => skipped limit entry.1)

theorem kept_cons (limit : Nat) (entry : String × Value) (rest : List (String × Value)) :
    kept limit (entry :: rest) =
      if entry.2.height ≤ limit then (entry.1, entry.2.plain) :: kept limit rest else kept limit rest := by
  by_cases low : entry.2.height ≤ limit <;> simp [kept, low]

theorem report_cons (limit : Nat) (entry : String × Value) (rest : List (String × Value)) :
    report limit (entry :: rest) =
      if entry.2.height ≤ limit then report limit rest else skipped limit entry.1 ++ report limit rest := by
  by_cases low : entry.2.height ≤ limit
  · simp [report, low]
  · simp [report, low, not_le.mp low]

theorem foldl_loadVariable {entries : List (String × Value)}
    (each : ∀ entry ∈ entries, Name.problem? entry.1 .var false = none ∧ entry.2.Filled) (ctx : Context) (log : String) :
    (entries.map fun entry => (entry.1, entry.2.text)).foldl loadVariable (ctx, log) =
      ({ ctx with vars := (kept ctx.limit entries).foldl (fun table entry => table.insert entry.1 entry.2) ctx.vars },
        log ++ report ctx.limit entries) := by
  induction entries generalizing ctx log with
  | nil => simp [kept, report]
  | cons entry rest ih =>
    have others := ih fun entry member => each entry (List.mem_cons_of_mem _ member)
    obtain ⟨named, filled⟩ := each entry List.mem_cons_self
    rw [List.map_cons, List.foldl_cons, loadVariable_text ctx log named filled, kept_cons, report_cons]
    by_cases low : entry.2.height ≤ ctx.limit
    · rw [if_pos low, if_pos low, if_pos low, others]
      rfl
    · rw [if_neg low, if_neg low, if_neg low, others, String.append_assoc]

/-- Nothing is reported if and only if no value is too high. -/
theorem report_eq_empty_iff {limit : Nat} {entries : List (String × Value)} :
    report limit entries = "" ↔ ∀ entry ∈ entries, entry.2.height ≤ limit := by
  induction entries with
  | nil => simp [report]
  | cons entry rest ih =>
    rw [report_cons, List.forall_mem_cons]
    by_cases low : entry.2.height ≤ limit
    · rw [if_pos low, ih]
      exact ⟨fun each => ⟨low, each⟩, fun each => each.2⟩
    · rw [if_neg low]
      refine ⟨fun none => ?_, fun each => absurd each.1 low⟩
      have empty := (String.append_eq_empty_iff.mp none).1
      exact absurd (String.append_eq_empty_iff.mp empty).2 (by decide)

theorem kept_eq_map {limit : Nat} {entries : List (String × Value)} (low : ∀ entry ∈ entries, entry.2.height ≤ limit) :
    kept limit entries = entries.map fun entry => (entry.1, entry.2.plain) := by
  rw [kept, List.filter_eq_self.mpr fun entry member => decide_eq_true (low entry member)]

theorem sorted_kept (limit : Nat) {entries : List (String × Value)}
    (sorted : entries.Pairwise fun a b => a.1 < b.1) : (kept limit entries).Pairwise fun a b => a.1 < b.1 :=
  List.pairwise_map.mpr (sorted.filter _)

/-! ### Restarts -/

/-- A new shell without definitions on the store of another. -/
def restart (shell : Shell) (limit : Nat) (clock : Int) (color : Bool) : Shell :=
  ⟨⟨.empty, .empty, clock, limit⟩, shell.store, color, false⟩

/-- What loading does after a session. -/
theorem Session.load_restart {limit : Nat} {clock : Int} {color muted : Bool} {shell : Shell}
    (session : Session (fresh limit clock color muted) shell) (later : Int) (bright : Bool) :
    (shell.restart limit later bright).load =
      ⟨⟨⟨.ofList (kept limit shell.context.vars.entries), shell.context.functions, later, limit⟩, shell.store, bright,
        false⟩, report limit shell.context.vars.entries, none⟩ := by
  obtain ⟨store, present, mirrors⟩ := session.exists_mirror
  obtain ⟨stored, functions, each⟩ := mirrors.listFunctions
  have tables := Table.ofList_entries shell.context.functions
  simp only [Table.ofList] at tables
  simp only [load, restart, present, functions, mirrors.listVariables, foldl_loadFunction each,
    foldl_loadVariable session.assigned, tables]
  simp [Table.ofList]

end Shell

/-- A context has the definitions of another: the same names, values that agree, and the same functions. -/
structure Context.Restores (after before : Context) : Prop where
  vars : Table.Matches (fun _ value former => value.Agrees former) after.vars before.vars
  functions : after.functions = before.functions

namespace Shell

/-- After a session, a new shell with the same limit loads the definitions of the session without a report if and
    only if no variable holds a value that is higher than the limit. -/
theorem Session.restored_iff {limit : Nat} {clock : Int} {color muted : Bool} {shell : Shell}
    (session : Session (fresh limit clock color muted) shell) (later : Int) (bright : Bool) :
    ((shell.restart limit later bright).load.error = none ∧ (shell.restart limit later bright).load.log = "" ∧
        (shell.restart limit later bright).load.shell.context.Restores shell.context) ↔
      ∀ entry ∈ shell.context.vars.entries, entry.2.height ≤ limit := by
  rw [session.load_restart later bright]
  constructor
  · rintro ⟨-, silent, -⟩
    exact report_eq_empty_iff.mp silent
  · intro low
    refine ⟨rfl, report_eq_empty_iff.mpr low, ?_, rfl⟩
    have sorted := sorted_kept limit shell.context.vars.sorted
    rw [Table.Matches, Table.entries_ofList sorted, kept_eq_map low]
    refine List.forall₂_map_left_iff.mpr (List.forall₂_same.mpr fun entry member => ⟨rfl, ?_⟩)
    exact (session.assigned entry member).2.agrees_plain

/-- A function and a vector with a zero that has a sign are restored. -/
theorem Session.restored_two_lines :
    let shell := (((fresh 4 0 false false).run "function f x x*x").shell.run "v=<f(2),0*(0-1),0-1>").shell
    let loaded := (shell.restart 4 1 false).load
    Session (fresh 4 0 false false) shell ∧ shell.context.vars.names = ["v"] ∧ loaded.log = "" ∧
      loaded.shell.context.Restores shell.context := by
  intro shell loaded
  have session : Session (fresh 4 0 false false) shell := by
    refine .line (.line .start _ ?_) _ ?_
    all_goals decide +kernel
  have low : ∀ entry ∈ shell.context.vars.entries, entry.2.height ≤ 4 := by decide +kernel
  exact ⟨session, by decide +kernel, ((session.restored_iff 1 false).mpr low).2⟩

/-- A list in a list that is built up in two lines is too high for one evaluation at depth two. -/
theorem Session.skipped_two_lines :
    let shell := (((fresh 2 0 false false).run "a=\x7b1\x7d").shell.run "b=\x7ba\x7d").shell
    let loaded := (shell.restart 2 0 false).load
    Session (fresh 2 0 false false) shell ∧ shell.context.vars.names = ["a", "b"] ∧
      loaded.log = "skipping stored variable b: evaluation exceeded depth 2\n" ∧
      loaded.shell.context.vars.names = ["a"] := by
  intro shell loaded
  refine ⟨.line (.line .start _ ?_) _ ?_, ?_, ?_, ?_⟩
  all_goals decide +kernel

end Shell

end Reckon
