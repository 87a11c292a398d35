import Mathlib
import Reckon.Proofs.Lines
import Reckon.Proofs.Restart

/-!
How functions are shown. Without colours, a line that defines a function shows its body as the line has it
(`Shell.run_function`), and the functions of the user are listed with their bodies (`Shell.run_functions`): the names
and parameters around a body have no markers in them, and the body is escaped.
-/

namespace Reckon
open Markup (marker)

/-! ### Texts without markers -/

namespace Text

theorem unmarked_blank {cs : List Char} (each : ∀ c ∈ cs, isBlank c = true) : marker ∉ cs :=
  fun member => absurd (each marker member) (by decide)

theorem unmarked_of_trimChars {cs : List Char} (unmarked : marker ∉ trimChars cs) : marker ∉ cs := by
  obtain ⟨front, back, same, blankFront, blankBack⟩ := exists_trimChars cs
  rw [same]
  simp [unmarked, unmarked_blank blankFront, unmarked_blank blankBack]

theorem unmarked_of_readDigits {base value n : Nat} {cs : List Char} (read : readDigits base false cs value = .ok n) :
    marker ∉ cs := by
  induction cs generalizing value with
  | nil => exact List.not_mem_nil
  | cons c rest ih =>
    simp only [readDigits, Bool.and_false, Bool.false_eq_true, if_false] at read
    split at read
    · cases read
    · rename_i digit found
      split at read
      · cases read
      · split at read
        · cases read
        · have other : marker ≠ c := by
            rintro rfl
            have none : digitOf? marker = none := by decide
            rw [none] at found
            cases found
          simpa using ⟨other, ih read⟩

/-- An integer is read of a sign and digits. -/
theorem unmarked_of_readDecimal {cs : List Char} {n : Int} (read : readDecimal cs = .ok n) : marker ∉ cs := by
  simp only [readDecimal] at read
  split at read
  · cases read
  · obtain ⟨magnitude, found, -⟩ := Except.bind_eq_ok_iff.mp read
    have digits := unmarked_of_readDigits found
    unfold splitSign at digits
    split at digits
    · simpa using ⟨by decide, digits⟩
    · simpa using ⟨by decide, digits⟩
    · exact digits

end Text

theorem Name.Valid.unmarked {lettersOnly : Bool} {name : String} (valid : Valid lettersOnly name) :
    marker ∉ name.toList := by
  intro member
  rcases valid.letters marker member with letter | ⟨underscore, -⟩
  · exact absurd letter (by decide)
  · exact absurd underscore (by decide)

namespace Param

theorem unmarked_of_ofChars {spec : List Char} {p : Param} (read : ofChars spec = .ok p)
    (valid : Name.Valid (p.kind = .delegate) p.name) : marker ∉ spec := by
  have named := valid.unmarked
  cases declares_of_ofChars read with
  | number => rwa [number, String.toList_ofList] at named
  | delegate name arity count =>
    rw [String.toList_ofList] at named
    have digits := Text.unmarked_of_trimChars (Text.unmarked_of_readDecimal count)
    simp only [List.mem_append, List.mem_cons, List.not_mem_nil, or_false, not_or]
    exact ⟨⟨Text.unmarked_of_trimChars named, by decide, digits⟩, by decide⟩

theorem unmarked_of_readAll {function : String} {position : Nat} {seen : List String} {specs : List (List Char)}
    {params : List Param} (read : readAll function position seen specs = .ok params) :
    ∀ spec ∈ specs, marker ∉ spec := by
  induction specs generalizing position seen params with
  | nil => exact List.forall_mem_nil _
  | cons spec specs ih =>
    obtain ⟨p, others, rfl, first, fine, rest⟩ := exists_of_readAll read
    obtain ⟨valid, -⟩ := problem?_eq_none_iff.mp fine
    exact List.forall_mem_cons.mpr ⟨Text.unmarked_of_trimChars (unmarked_of_ofChars first valid), ih rest⟩

/-- Parameters are read of a text without markers. -/
theorem unmarked_of_parse {function spec : String} {params : List Param} (read : parse function spec = .ok params) :
    marker ∉ spec.toList := by
  refine Text.unmarked_of_trimChars ?_
  simp only [parse] at read
  split at read
  · rename_i empty
    rw [List.isEmpty_iff.mp empty]
    exact List.not_mem_nil
  · have each := unmarked_of_readAll read
    rw [Text.splitChars_eq_splitOn] at each
    have whole : [','].intercalate ((Text.trimChars spec.toList).splitOn ',') = Text.trimChars spec.toList :=
      List.intercalate_splitOn ','
    rw [← whole]
    intro member
    rcases Text.mem_intercalate member with comma | ⟨piece, known, member⟩
    · exact absurd (List.mem_singleton.mp comma) (by decide)
    · exact each piece known member

theorem Sound.unmarked_label {p : Param} (sound : p.Sound) : marker ∉ (p.label true).toList := by
  cases sound with
  | number =>
    change marker ∉ "var".toList
    decide
  | @delegate name arity =>
    have digits : ((arity : Int).repr).toList = Nat.toDigits 10 arity := Nat.toList_repr
    have free : marker ∉ Nat.toDigits 10 arity := by
      intro member
      have digit : marker.isDigit = true := Nat.isDigit_of_mem_toDigits (by decide) (by decide) member
      exact absurd digit (by decide)
    have label : (label true ⟨name, .delegate, arity⟩).toList =
        "lambda[".toList ++ Nat.toDigits 10 arity ++ "]".toList := by
      simp [label, digits]
    rw [label]
    simp only [List.mem_append, not_or]
    exact ⟨⟨by decide, free⟩, by decide⟩

end Param

theorem Function.Sound.unmarked_signature {key : String} {f : Function} (sound : f.Sound key) :
    marker ∉ (f.signature true).toList := by
  have params : marker ∉ (", ".intercalate (f.params.map fun p => p.label true ++ " " ++ p.name)).toList := by
    rw [String.toList_intercalate]
    intro member
    rcases Text.mem_intercalate member with separator | ⟨piece, known, member⟩
    · exact absurd separator (by decide)
    · simp only [List.map_map, List.mem_map] at known
      obtain ⟨p, own, rfl⟩ := known
      have sound := sound.params p own
      simp [sound.unmarked_label, sound.valid.unmarked] at member
      exact absurd member (by decide)
  have name := sound.valid.unmarked
  simp only [signature, sound.named, String.toList_append, List.mem_append, not_or]
  exact ⟨⟨⟨by simpa using name, by decide⟩, params⟩, by decide⟩

/-! ### Cutting lines -/

namespace Text

theorem getLast?_trim (text : String) : ∀ c ∈ (trim text).toList.getLast?, isBlank c = false := by
  intro c last
  rw [trim, String.toList_ofList, trimChars, List.getLast?_reverse] at last
  have first := List.head?_dropWhile_not isBlank (text.toList.dropWhile isBlank).reverse
  rw [Option.mem_def.mp last] at first
  exact first

/-- A text that does not end in a blank is what stands before its first space, the space, blanks, and the rest without
    blanks around it, if anything is left of it. -/
theorem exists_gap {text : String} (ends : ∀ c ∈ text.toList.getLast?, isBlank c = false)
    (filled : trim (cut ' ' text).2 ≠ "") : ∃ gap : String, (∀ c ∈ gap.toList, isBlank c = true) ∧
      text = (cut ' ' text).1 ++ " " ++ gap ++ trim (cut ' ' text).2 := by
  have parts := List.takeWhile_append_dropWhile (p := fun c => decide (c ≠ ' ')) (l := text.toList)
  have opens := List.head?_dropWhile_not (fun c => decide (c ≠ ' ')) text.toList
  cases behind : text.toList.dropWhile fun c => decide (c ≠ ' ') with
  | nil =>
    refine absurd ?_ filled
    simp only [trim, cut, cutChars, behind, List.drop_nil, String.toList_ofList]
    rfl
  | cons c after =>
    rw [behind] at parts opens
    obtain rfl : c = ' ' := by simpa using opens
    obtain ⟨front, back, same, blankFront, blankBack⟩ := exists_trimChars after
    have closed : back = [] := by
      by_contra more
      have last : text.toList.getLast? = some (back.getLast more) := by
        rw [← parts, same, ← List.cons_append, ← List.append_assoc, List.getLast?_append_of_ne_nil _ more,
          List.getLast?_eq_some_getLast more]
      have blank := blankBack _ (List.getLast_mem more)
      rw [ends _ last] at blank
      cases blank
    refine ⟨String.ofList front, by simpa using blankFront, ?_⟩
    rw [closed, List.append_nil] at same
    rw [← String.toList_inj]
    simp only [String.toList_append, cut, cutChars, trim, String.toList_ofList, behind, List.drop_one, List.tail_cons]
    simpa [← same] using parts.symm

end Text

namespace Shell

/-! ### Messages of definitions -/

/-- A line has the texts of a function, with blanks between them. -/
def Writes (line : String) (f : StoredFunction) : Prop :=
  ∃ first second third : String, (∀ gap ∈ [first, second, third], ∀ c ∈ gap.toList, Text.isBlank c = true) ∧
    Text.trim line = "function " ++ first ++ f.name ++ " " ++ second ++ f.params ++ " " ++ third ++ f.body

/-- The texts of a function in the argument of the command that defines one. -/
def written (arg : String) : StoredFunction :=
  let listed := Text.cut ' ' (Text.trim (Text.cut ' ' arg).2)
  ⟨(Text.cut ' ' arg).1, listed.1, Text.trim listed.2⟩

theorem writes_written {line : String} (command : (Text.cut ' ' (Text.trim line)).1 = "function")
    (filled : (written (Text.trim (Text.cut ' ' (Text.trim line)).2)).body ≠ "") :
    Writes line (written (Text.trim (Text.cut ' ' (Text.trim line)).2)) := by
  have nothing : Text.trim (Text.cut ' ' "").2 = "" := by decide
  have argEnds := Text.getLast?_trim (Text.cut ' ' (Text.trim line)).2
  generalize isArg : Text.trim (Text.cut ' ' (Text.trim line)).2 = arg at filled argEnds ⊢
  have restEnds := Text.getLast?_trim (Text.cut ' ' arg).2
  simp only [written] at filled ⊢
  generalize isRest : Text.trim (Text.cut ' ' arg).2 = rest at filled restEnds ⊢
  -- What is left of the line is not empty after each cut, as the body is not.
  have restFilled : Text.trim (Text.cut ' ' arg).2 ≠ "" := by
    rw [isRest]
    intro none
    rw [none, nothing] at filled
    exact filled rfl
  have argFilled : Text.trim (Text.cut ' ' (Text.trim line)).2 ≠ "" := by
    rw [isArg]
    intro none
    rw [none, nothing] at restFilled
    exact restFilled rfl
  obtain ⟨first, blankFirst, isLine⟩ := Text.exists_gap (Text.getLast?_trim line) argFilled
  obtain ⟨second, blankSecond, whole⟩ := Text.exists_gap argEnds restFilled
  obtain ⟨third, blankThird, last⟩ := Text.exists_gap restEnds filled
  refine ⟨first, second, third, by simpa using ⟨blankFirst, blankSecond, blankThird⟩, ?_⟩
  have space : "function " = "function" ++ " " := rfl
  rw [isLine, command, isArg, space]
  nth_rewrite 1 [whole]
  rw [isRest]
  nth_rewrite 1 [last]
  simp only [String.append_assoc]

theorem message_defined {shell : Shell} (plain : shell.color = false) {f : StoredFunction} {params : List Param}
    (defines : f.Defines params) :
    shell.message ("Defined function " ++ f.name ++ "(" ++ f.params ++ ")=" ++ Markup.escapeMarkers f.body) =
      indent ("Defined function " ++ f.name ++ "(" ++ f.params ++ ")=" ++ f.body) ++ "\n" := by
  have heading : marker ∉ ("Defined function " ++ f.name ++ "(" ++ f.params ++ ")=").toList := by
    have name := defines.sound.valid.unmarked
    have listed := Param.unmarked_of_parse defines.listed
    simp only [String.toList_append, List.mem_append, not_or]
    exact ⟨⟨⟨⟨by decide, name⟩, by decide⟩, listed⟩, by decide⟩
  rw [message, plain, Markup.render_append (Markup.dangles_unmarked heading), Markup.render_unmarked heading,
    Markup.render_escapeMarkers]

theorem defineFunction_eq (shell : Shell) (arg : String) : shell.defineFunction arg =
    let f := written arg
    if f.name = "" || f.params = "" || f.body = "" then shell.fail (.usage "function NAME PARAMS EXPR")
    else
      match shell.context.defineFunction f.name f.params f.body with
      | .error e => shell.fail (.fault e)
      | .ok ctx =>
        let defined := { shell with context := ctx }
        match defined.save fun store => store.setFunction f with
        | (.error e, unsaved) => unsaved.fail e
        | (.ok (), saved) =>
          saved.say ("Defined function " ++ f.name ++ "(" ++ f.params ++ ")=" ++ Markup.escapeMarkers f.body) := rfl

/-- A line that defines a function shows its body as the line has it. -/
theorem run_function {shell : Shell} (plain : shell.color = false) (loud : shell.muted = false) {line : String}
    (command : (Text.cut ' ' (Text.trim line)).1 = "function") (succeeds : (shell.run line).error = none) :
    ∃ f params, Writes line f ∧ f.Defines params ∧
      (shell.run line).shell.context = Edit.inContext shell.context (.defineFunction f params) ∧
      (shell.run line).output =
        indent ("Defined function " ++ f.name ++ "(" ++ f.params ++ ")=" ++ f.body) ++ "\n" := by
  have writes := writes_written command
  rw [run_command command rfl, defineFunction_eq] at succeeds ⊢
  generalize written (Text.trim (Text.cut ' ' (Text.trim line)).2) = f at writes succeeds ⊢
  dsimp only at succeeds ⊢
  split at succeeds
  · cases succeeds
  · rename_i whole
    rw [if_neg whole]
    split at succeeds
    · cases succeeds
    · rename_i ctx defined
      obtain ⟨params, defines, rfl⟩ := Context.defineFunction_eq_ok_iff.mp defined
      split at succeeds
      · cases succeeds
      · rename_i after saved
        obtain ⟨store, rfl⟩ := exists_store_of_save saved
        simp only [say, print, loud, Bool.false_eq_true, if_false]
        refine ⟨f, params, writes ?_, defines, rfl, message_defined plain defines⟩
        intro none
        simp [none] at whole

/-! ### Listings -/

/-- What stands before the functions of the user in the listing. -/
def builtinListing : String :=
  let columns := Builtin.all.foldl (fun most f => max most (Text.width (f.signature false))) 0
  "Pre-Defined Functions\n" ++ String.join (Builtin.all.map (builtinLine columns)) ++ "User-Defined Functions"

theorem dangles_builtinListing : Markup.dangles builtinListing.toList = false := by
  have heading (front : String) : Markup.dangles (front ++ "User-Defined Functions").toList = false := by
    have last : "User-Defined Functions".toList = "User-Defined Function".toList ++ ['s'] := by decide
    rw [String.toList_append, last, ← List.append_assoc]
    exact Markup.dangles_concat _ (by decide)
  exact heading _

/-- How a function of the user is listed: on a line of its own, with its body as it was written. -/
def listed (f : Function) : String := "\n\t" ++ f.signature true ++ ": " ++ f.body

theorem render_userLine {key : String} {f : Function} (sound : f.Sound key) :
    Markup.render (userLine f) false = listed f ∧ Markup.dangles (userLine f).toList = false := by
  have heading : marker ∉ ("\n\t" ++ f.signature true ++ ": ").toList := by
    simp only [String.toList_append, List.mem_append, not_or]
    exact ⟨⟨by decide, sound.unmarked_signature⟩, by decide⟩
  have gray : Markup.dangles ("\n\t" ++ f.signature true ++ ": " ++ "§7").toList = false := by
    rw [String.toList_append, Markup.dangles_append (Markup.dangles_unmarked heading)]
    rfl
  have whole : userLine f = "\n\t" ++ f.signature true ++ ": " ++ "§7" ++ Markup.escapeMarkers f.body ++ "§f" := by
    have colored : ": §7" = ": " ++ "§7" := by decide
    rw [userLine, colored, ← String.append_assoc]
  rw [whole]
  constructor
  · have verbatim := (Markup.render_escaped_iff _).mp gray f.body "§f"
    rw [verbatim, Markup.render_append (Markup.dangles_unmarked heading), Markup.render_unmarked heading, listed]
    have none : Markup.render "§7" false = "" ∧ Markup.render "§f" false = "" := by decide +kernel
    rw [none.1, none.2, String.append_empty, String.append_empty]
  · rw [String.toList_append, String.toList_append, List.append_assoc, Markup.dangles_append gray,
      Markup.dangles_append (Markup.dangles_escapeMarkers f.body)]
    rfl

theorem listFunctions_eq (shell : Shell) :
    shell.listFunctions = shell.say (builtinListing ++ String.join (shell.context.userFunctions.map userLine)) := rfl

/-- Without colours the functions of the user are shown as they are listed. -/
theorem render_userLines {entries : List (String × Function)} (sound : ∀ entry ∈ entries, entry.2.Sound entry.1) :
    Markup.render (String.join ((entries.map Prod.snd).map userLine)) false =
      String.join ((entries.map Prod.snd).map listed) := by
  induction entries with
  | nil => rfl
  | cons entry rest ih =>
    obtain ⟨first, others⟩ := List.forall_mem_cons.mp sound
    obtain ⟨shown, settled⟩ := render_userLine first
    simp only [List.map_cons, String.join_cons]
    rw [Markup.render_append settled, shown, ih others]

theorem run_functions {shell : Shell} (plain : shell.color = false) (loud : shell.muted = false)
    (sound : shell.context.Sound) {line : String} (command : (Text.cut ' ' (Text.trim line)).1 = "functions") :
    shell.run line = ⟨shell, indent (Markup.render builtinListing false ++
      String.join (shell.context.userFunctions.map listed)) ++ "\n", none⟩ := by
  rw [run_command command rfl, listFunctions_eq, say, print, if_neg (by simp [loud]), message, plain,
    Markup.render_append dangles_builtinListing, Context.userFunctions, render_userLines sound.functions]

end Shell

/-! ### Shells -/

/-- An edit that a line makes leaves a context sound. -/
theorem Context.Sound.edit {ctx : Context} (sound : ctx.Sound) {edit : Edit} (allowed : edit.Allowed ctx) :
    (edit.inContext ctx).Sound := by
  cases allowed with
  | @setVariable name _ value named evaluated =>
    have defined : ctx.defineVariable name value = .ok (ctx.setVariable name value) := by
      rw [Context.defineVariable, named]
    exact sound.defineVariable defined
  | deleteVariable known => exact sound.deleteVariable (if_pos known)
  | clearVariables => exact ⟨by rintro _ ⟨⟩, sound.functions⟩
  | defineFunction defines => exact sound.defineFunction (defineFunction_eq_ok_iff.mpr ⟨_, defines, rfl⟩)
  | deleteFunction known => exact sound.deleteFunction (if_pos known)
  | clearFunctions => exact ⟨sound.vars, by rintro _ ⟨⟩⟩

namespace Shell

/-- What a shell can become. It begins with a context of which anything was asked, and runs lines while the clock moves
    on. -/
inductive Reached : Shell → Prop
  | start (clock : Int) (requests : List Context.Request) (store : Option Store) (color muted : Bool) :
      Reached ⟨Context.after clock requests, store, color, muted⟩
  | line {shell : Shell} (before : Reached shell) (line : String) : Reached (shell.run line).shell
  | wait {shell : Shell} (before : Reached shell) (clock : Int) :
      Reached { shell with context := { shell.context with clock := clock } }

theorem Reached.sound {shell : Shell} (reached : Reached shell) : shell.context.Sound := by
  induction reached with
  | start clock requests => exact Context.sound_after clock requests
  | @line shell _ line ih =>
    rcases shell.context_run line with same | ⟨edit, allowed, same⟩
    · rw [same]
      exact ih
    · rw [same]
      exact ih.edit allowed
  | wait _ clock ih => exact ⟨ih.vars, ih.functions⟩

/-- A line is printed after a tab. -/
theorem indent_of_line {line : String} (whole : '\n' ∉ line.toList) : indent line = "\t" ++ line := by
  have unbroken : (line.toList.flatMap fun c => if c = '\n' then ['\n', '\t'] else [c]) = line.toList := by
    refine (List.flatMap_congr fun c member => ?_).trans (List.flatMap_singleton' _)
    exact if_neg (ne_of_mem_of_not_mem member whole)
  rw [indent, unbroken, ← String.toList_inj]
  simp

/-- Each line is printed after a tab of its own. -/
theorem indent_newline (first rest : String) :
    indent (first ++ "\n" ++ rest) = indent first ++ "\n" ++ indent rest := by
  rw [← String.toList_inj]
  simp [indent]

/-- Without colours an escaped text is shown as it is after every message that does not dangle, and only after such. So
    a line that defines a function shows the body as the line has it, and the functions of the user are listed with the
    bodies that they have, each line after a tab. -/
theorem shows_bodies :
    (∀ a : String, Markup.dangles a.toList = false ↔ ∀ text b,
      Markup.render (a ++ Markup.escapeMarkers text ++ b) false =
        Markup.render a false ++ text ++ Markup.render b false) ∧
    (∀ text color, Markup.render (Markup.escapeMarkers text) color = text) ∧
    ∀ shell, Reached shell → shell.color = false → shell.muted = false → ∀ line,
      ((Text.cut ' ' (Text.trim line)).1 = "function" → (shell.run line).error = none →
        ∃ f params, Writes line f ∧ f.Defines params ∧
          (shell.run line).shell.context = Edit.inContext shell.context (.defineFunction f params) ∧
          (shell.run line).output =
            indent ("Defined function " ++ f.name ++ "(" ++ f.params ++ ")=" ++ f.body) ++ "\n") ∧
      ((Text.cut ' ' (Text.trim line)).1 = "functions" →
        shell.run line = ⟨shell, indent (Markup.render builtinListing false ++
          String.join (shell.context.userFunctions.map listed)) ++ "\n", none⟩) :=
  ⟨Markup.render_escaped_iff, Markup.render_escapeMarkers, fun _ reached plain loud _ =>
    ⟨run_function plain loud, run_functions plain loud reached.sound⟩⟩

/-- A body of two lines with markers in it is shown as it was written. -/
theorem shows_bodies_marked :
    let shell : Shell := ⟨.new 0, none, false, false⟩
    let line := " function f  x §7x§+\n1 "
    let defined := (shell.run line).shell
    (∃ f, Writes line f ∧ f.body = "§7x§+\n1" ∧
      (shell.run line).output = "\tDefined function f(x)=§7x§+\n\t1\n") ∧
    (defined.run "functions").output =
      indent (Markup.render builtinListing false) ++ "\n\t\tf(var x): §7x§+\n\t1\n" := by
  intro shell line defined
  have reached : Reached shell := .start 0 [] none false false
  obtain ⟨-, -, shows⟩ := shows_bodies
  constructor
  · obtain ⟨f, params, writes, -, context, output⟩ :=
      (shows shell reached rfl rfl line).1 (by decide +kernel) (by decide +kernel)
    have known : ((shell.run line).shell.context.functions.entries.map fun entry => entry.2.body) = ["§7x§+\n1"] := by
      decide +kernel
    have body : f.body = "§7x§+\n1" := by
      rw [context] at known
      exact List.singleton_inj.mp known
    refine ⟨f, writes, body, ?_⟩
    decide +kernel
  · have plain : defined.color = false ∧ defined.muted = false := by decide +kernel
    have listing := (shows defined (reached.line line) plain.1 plain.2 "functions").2 (by decide +kernel)
    have listed : String.join (defined.context.userFunctions.map listed) =
        "\n" ++ ("\tf(var x): §7x§+" ++ "\n" ++ "1") := by
      decide +kernel
    have first : '\n' ∉ "\tf(var x): §7x§+".toList := by decide
    have second : '\n' ∉ "1".toList := by decide
    rw [listing, listed, ← String.append_assoc, indent_newline, indent_newline, indent_of_line first,
      indent_of_line second]
    simp only [String.append_assoc]
    rfl

end Shell

end Reckon
