import Mathlib
import Reckon.Proofs.Integers
import Reckon.Proofs.Lines
import Reckon.Proofs.Order
import Reckon.Proofs.Relexing

/-!
What is displayed of a text. A text between quotes is a single token, which is read as the list of the codes of its
characters (`Expr.parse_literal`), and each code stands for its character again (`Shell.charOf_code`), but for one that
stands for the marker of colours (`Shell.run_display`). A text without the character of that code and without markers is
displayed as it is (`Shell.run_display_verbatim`).
-/

namespace Reckon

/-! ### Codes of characters -/

namespace Shell

/-- The code of a character stands for the character. -/
theorem charOf_code (c : Char) : charOf (Float.ofNat c.toNat) = c := by
  have valid : c.toNat < 0xD800 ∨ 0xDFFF < c.toNat ∧ c.toNat < 0x110000 := c.valid
  have same : (Double.toInt (Float.ofNat c.toNat)).toNat = c.toNat := by
    rw [Double.toInt_ofNat (by omega), Int.toNat_natCast]
  have notLow : ¬ Float.ofNat c.toNat < 0 := Double.not_ofNat_lt (Nat.zero_le _)
  have notHigh : ¬ (0x10FFFF : Float) < Float.ofNat c.toNat :=
    Double.not_ofNat_lt (a := 0x10FFFF) (by omega)
  have noSurrogate : (decide (0xD800 ≤ c.toNat) && decide (c.toNat ≤ 0xDFFF)) = false := by
    simp only [Bool.and_eq_false_iff, decide_eq_false_iff_not]
    omega
  simp only [charOf, same, Double.isNaN_ofNat c.toNat, notLow, notHigh, noSurrogate, decide_false,
    Bool.or_false, Bool.false_eq_true, if_false, Char.ofNat_toNat]

/-- Only one character has the code that stands for the marker of colours. -/
theorem code_beq_markerCode (c : Char) : (Float.ofNat c.toNat == markerCode) = decide (c = '\u0080') := by
  have bound : c.toNat < 2 ^ 53 := by
    have valid : c.toNat < 0xD800 ∨ 0xDFFF < c.toNat ∧ c.toNat < 0x110000 := c.valid
    omega
  by_cases same : c = '\u0080'
  · subst same
    decide +kernel
  · rw [decide_eq_false same, ← Bool.not_eq_true]
    intro equal
    rcases Nat.eq_zero_or_pos c.toNat with zero | pos
    · rw [zero] at equal
      exact absurd equal (by decide)
    · have code : c.toNat = 128 := Double.eq_of_ofNat_beq pos bound (by decide) (by decide) equal
      exact same (Char.ext (UInt32.toNat_inj.mp code))

end Shell

/-! ### Literals of texts -/

theorem Token.texts_literal {text : String} (unquoted : '"' ∉ text.toList) :
    texts (lex ("\"" ++ text ++ "\"")) = quoteMark :: held text.toList.reverse ++ [quoteMark] := by
  have chars : ("\"" ++ text ++ "\"").toList = '"' :: (text.toList ++ ['"']) := by simp
  rw [texts_lex, chars, cut, if_neg (by simp [goesOn]), if_pos rfl, cut_literal unquoted, cut, if_pos rfl, cut,
    List.append_nil]
  rfl

/-- A text between quotes is read as the list of its codes. -/
theorem Expr.parse_literal {text : String} (unquoted : '"' ∉ text.toList) :
    parse ("\"" ++ text ++ "\"") = .ok (.ofText text) := by
  have same := Token.texts_literal unquoted
  obtain ⟨opener, rest, tokens, opens, tail⟩ := List.map_eq_cons_iff.mp same
  obtain ⟨inner, last, rfl, inside, closes⟩ := List.map_eq_append_iff.mp tail
  obtain ⟨closer, rfl, closes⟩ := List.map_eq_singleton_iff.mp closes
  have literal : Token.Literal opener inner closer := by
    refine ⟨opens, (List.cons.inj closes).1, ?_⟩
    rw [Token.texts, inside]
    intro member
    have unheld : '"' ∉ Token.chars (Token.held text.toList.reverse) := by
      rwa [Token.chars_held, List.reverse_reverse]
    exact unheld (List.mem_flatMap.mpr ⟨Token.quoteMark, member, by decide⟩)
  have whole : Token.joined inner = text := by
    rw [← String.toList_inj, Token.toList_joined, Token.texts, inside, Token.chars_held, List.reverse_reverse]
  rw [parse_eq_ok_iff, tokens, ofTokens_eq, ← List.cons_append, Form.ofTokens_literal literal, whole]
  rfl

/-- The literal of a text is evaluated to its codes if two levels are left. -/
theorem Eval.run_ofText (ctx : Context) (depth : Nat) (scope : Scope) (text : String) :
    run ctx (depth + 2) scope (.ofText text) =
      .ok (.list (text.toList.map fun c => .number (Float.ofNat c.toNat))) := by
  have each (cs : List Char) : list (run ctx (depth + 1) scope) (cs.map fun c => .num (Float.ofNat c.toNat)) =
      .ok (cs.map fun c => .number (Float.ofNat c.toNat)) := by
    induction cs with
    | nil => rfl
    | cons c cs ih =>
      rw [List.map_cons, list, ih]
      rfl
  rw [Expr.ofText, run, step, each]
  rfl

theorem Context.evalText_literal {ctx : Context} (deep : 2 ≤ ctx.limit) {text : String}
    (unquoted : '"' ∉ text.toList) :
    ctx.evalText ("\"" ++ text ++ "\"") = .ok (.list (text.toList.map fun c => .number (Float.ofNat c.toNat))) := by
  obtain ⟨depth, limit⟩ := Nat.exists_eq_add_of_le' deep
  have evaluated := Eval.run_ofText ctx depth (Scope.root ctx) text
  rw [← limit] at evaluated
  rw [evalText, Expr.parse_literal unquoted]
  exact evaluated

/-! ### Lines -/

namespace Shell

/-- A text between quotes is displayed as a message, with markers for the characters whose code stands for one. -/
theorem display_literal {shell : Shell} (deep : 2 ≤ shell.context.limit) {text : String}
    (unquoted : '"' ∉ text.toList) : shell.display ("\"" ++ text ++ "\"") =
      shell.say (String.ofList (text.toList.map fun c => if c = '\u0080' then Markup.marker else c)) := by
  have filled : "\"" ++ text ++ "\"" ≠ "" := by simp
  have each (c : Char) : (if Float.ofNat c.toNat == markerCode then Markup.marker
      else charOf (Float.ofNat c.toNat)) = if c = '\u0080' then Markup.marker else c := by
    rw [code_beq_markerCode, charOf_code]
    simp
  have codes : (text.toList.map fun c => Value.number (Float.ofNat c.toNat)).map Value.num =
      text.toList.map fun c => Float.ofNat c.toNat := List.map_map ..
  simp only [display, filled, if_false, Context.evalText_literal deep unquoted, Value.comps, codes, List.map_map,
    Function.comp_def, each]

theorem run_display {shell : Shell} (deep : 2 ≤ shell.context.limit) {text : String} (unquoted : '"' ∉ text.toList) :
    shell.run ("display \"" ++ text ++ "\"") =
      shell.say (String.ofList (text.toList.map fun c => if c = '\u0080' then Markup.marker else c)) := by
  have quoted : ("\"" ++ text ++ "\"").toList = '"' :: text.toList ++ ['"'] := by simp
  have whole : ("display \"" ++ text ++ "\"").toList = 'd' :: ("isplay \"".toList ++ text.toList) ++ ['"'] := by simp
  have argument : Text.trim ("\"" ++ text ++ "\"") = "\"" ++ text ++ "\"" :=
    Text.trim_between (by decide) (by decide) quoted
  have line : Text.trim ("display \"" ++ text ++ "\"") = "display \"" ++ text ++ "\"" :=
    Text.trim_between (by decide) (by decide) whole
  have parts : Text.cut ' ' ("display \"" ++ text ++ "\"") = ("display", "\"" ++ text ++ "\"") := by
    have spaced : "display \"" ++ text ++ "\"" = "display" ++ " " ++ ("\"" ++ text ++ "\"") := by
      have front : "display \"" = "display" ++ " " ++ "\"" := by decide
      rw [front]
      simp only [String.append_assoc]
    rw [spaced, Text.cut_space (by decide)]
  have command : (Text.cut ' ' (Text.trim ("display \"" ++ text ++ "\""))).1 = "display" := by rw [line, parts]
  refine run_command command ?_
  rw [line, parts, argument]
  exact congrArg some (display_literal deep unquoted)

/-- A text between quotes is displayed as it is, each of its lines after a tab, unless it has a marker or the character
    whose code stands for one. The shell stays as it is. -/
theorem run_display_verbatim {shell : Shell} (deep : 2 ≤ shell.context.limit) {text : String}
    (unquoted : '"' ∉ text.toList) (unmarked : Markup.marker ∉ text.toList) (other : '\u0080' ∉ text.toList) :
    shell.run ("display \"" ++ text ++ "\"") = ⟨shell, if shell.muted then "" else indent text ++ "\n", none⟩ := by
  have same : (text.toList.map fun c => if c = '\u0080' then Markup.marker else c) = text.toList := by
    have each : ∀ c ∈ text.toList, (if c = '\u0080' then Markup.marker else c) = id c := by
      intro c member
      refine if_neg ?_
      rintro rfl
      exact other member
    rw [List.map_congr_left each, List.map_id]
  rw [run_display deep unquoted, same, String.ofList_toList, say, print, message, Markup.render_unmarked unmarked]

/-- A coloured shell whose evaluations nest to depth two displays a text of two lines with blanks at its ends. -/
theorem run_display_verbatim_lines :
    let shell : Shell := ⟨(Context.new 0).withLimit 2, none, true, false⟩
    2 ≤ shell.context.limit ∧ shell.run "display \" = é\n😀 \"" = ⟨shell, "\t = é\n\t😀 \n", none⟩ := by
  intro shell
  have deep : 2 ≤ shell.context.limit := by decide
  have line : "display \" = é\n😀 \"" = "display \"" ++ " = é\n😀 " ++ "\"" := by decide
  have shown : indent " = é\n😀 " ++ "\n" = "\t = é\n\t😀 \n" := by decide +kernel
  refine ⟨deep, ?_⟩
  rw [line, run_display_verbatim deep (by decide) (by decide) (by decide), shown]
  rfl

end Shell

end Reckon
