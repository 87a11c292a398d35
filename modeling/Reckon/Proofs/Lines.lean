import Mathlib
import Reckon.Proofs.Definitions
import Reckon.Proofs.Filling
import Reckon.Proofs.Markers

/-!
Which lines are evaluated. The text of a value is printed as it is (`Shell.message_text`), as its characters are those
of numerals and brackets. A line in which the first equals sign follows a name never has a value, however its rest is
read (`Expr.Equated.stuck`), so that a line with a value, if it has an equals sign at all, is not an assignment that
succeeds either. Hence a line without one that has a value is evaluated, and a line with one fails
(`Shell.run_evaluated`).
-/

namespace Reckon

/-! ### The characters of numerals -/

namespace Decimal
open Token

/-- A character that can stand in a numeral. -/
def Spells (c : Char) : Prop := isPlain c = true ∨ c = '_' ∨ isSign c = true

instance (c : Char) : Decidable (Spells c) := inferInstanceAs (Decidable (_ ∨ _ ∨ _))

theorem isPlain_of_lower {c : Char} (plain : isPlain (lower c) = true) : isPlain c = true := by
  by_cases upper : 'A' ≤ c ∧ c ≤ 'Z'
  · exact isPlain_letter (by simp [isAsciiLetter, upper])
  · have same : lower c = c := dif_neg upper
    rwa [same] at plain

theorem spells_of_lower {cs : List Char} {word : String} (same : String.ofList (cs.map lower) = word)
    (plain : word.toList.all isPlain = true) : ∀ c ∈ cs, Spells c := by
  intro c member
  have whole : word.toList = cs.map lower := by rw [← same, String.toList_ofList]
  refine .inl (isPlain_of_lower (List.all_eq_true.mp plain (lower c) ?_))
  rw [whole]
  exact List.mem_map_of_mem member

theorem spells_digitOf {hexadecimal : Bool} {c : Char} (digit : isDigitOf hexadecimal c = true) : Spells c := by
  simp only [isDigitOf, Bool.or_eq_true, Bool.and_eq_true, decide_eq_true_eq] at digit
  rcases digit with digit | ⟨-, first, last⟩
  · exact .inl (isPlain_digit digit)
  · have letter : isAsciiLetter (lower c) = true := by
      simp only [isAsciiLetter, Bool.or_eq_true, Bool.and_eq_true, decide_eq_true_eq]
      exact .inl ⟨first, last.trans (by decide)⟩
    exact .inl (isPlain_of_lower (isPlain_letter letter))

theorem spells_exponent {hexadecimal : Bool} {cs : List Char} {e : Int}
    (read : readExponent? hexadecimal cs = some e) : ∀ c ∈ cs, Spells c := by
  have digits {ds : List Char} (all : ds.all (fun c => c.isDigit || c = '_') = true) : ∀ c ∈ ds, Spells c := by
    intro c member
    have each : c.isDigit = true ∨ c = '_' := by simpa using List.all_eq_true.mp all c member
    rcases each with digit | underscore
    · exact .inl (isPlain_digit digit)
    · exact .inr (.inl underscore)
  unfold readExponent? at read
  split at read
  · exact List.forall_mem_nil _
  · rename_i marker rest
    by_cases marks : lower marker = if hexadecimal then 'p' else 'e'
    · rw [if_neg (not_not.mpr marks)] at read
      have first : Spells marker := by
        refine .inl (isPlain_of_lower ?_)
        rw [marks]
        cases hexadecimal <;> decide
      refine List.forall_mem_cons.mpr ⟨first, ?_⟩
      split at read
      rename_i negative ds signed
      split at read
      · rename_i fit
        simp only [Bool.and_eq_true] at fit
        split at signed
        · obtain ⟨-, rfl⟩ := Prod.mk.inj signed
          exact List.forall_mem_cons.mpr ⟨.inr (.inr (by decide)), digits fit.2⟩
        · obtain ⟨-, rfl⟩ := Prod.mk.inj signed
          exact List.forall_mem_cons.mpr ⟨.inr (.inr (by decide)), digits fit.2⟩
        · obtain ⟨-, rfl⟩ := Prod.mk.inj signed
          exact digits fit.2
      · cases read
    · rw [if_pos marks] at read
      cases read

theorem spells_unsigned {hexadecimal : Bool} {cs : List Char} {x : Float}
    (read : readUnsigned? hexadecimal cs = some x) : ∀ c ∈ cs, Spells c := by
  simp only [readUnsigned?] at read
  split at read
  · cases read
  · split at read
    · cases read
    · rename_i e exponent
      have parts := List.takeWhile_append_dropWhile (p := fun c => isDigitOf hexadecimal c || c = '_' || c = '.') (l := cs)
      intro c member
      rw [← parts] at member
      rcases List.mem_append.mp member with member | member
      · have each := List.mem_takeWhile_imp member
        simp only [Bool.or_eq_true, decide_eq_true_eq] at each
        rcases each with (digit | underscore) | rfl
        · exact spells_digitOf digit
        · exact .inr (.inl underscore)
        · exact .inl (by decide)
      · exact spells_exponent exponent c member

theorem spells_magnitude {cs : List Char} {x : Float} (read : readMagnitude? cs = some x) : ∀ c ∈ cs, Spells c := by
  simp only [readMagnitude?] at read
  split at read
  · rename_i word
    simp only [Bool.or_eq_true, decide_eq_true_eq] at word
    rcases word with word | word
    · exact spells_of_lower word (by decide)
    · exact spells_of_lower word (by decide)
  · split at read
    · rename_i mark c rest
      split at read
      · rename_i hexadecimal
        refine List.forall_mem_cons.mpr ⟨.inl (by decide), List.forall_mem_cons.mpr ⟨?_, spells_unsigned read⟩⟩
        exact .inl (isPlain_of_lower (by rw [hexadecimal]; decide))
      · exact spells_unsigned read
    · exact spells_unsigned read

/-- What is read as a number has characters of numerals only. -/
theorem spells_of_read? {text : String} {x : Float} (read : Number.read? text = some x) :
    ∀ c ∈ text.toList, Spells c := by
  simp only [Number.read?, Decimal.read?] at read
  split at read
  · rename_i cs same
    obtain ⟨y, read, -⟩ := Option.map_eq_some_iff.mp read
    rw [same]
    exact List.forall_mem_cons.mpr ⟨.inr (.inr (by decide)), spells_magnitude read⟩
  · rename_i cs same
    rw [same]
    exact List.forall_mem_cons.mpr ⟨.inr (.inr (by decide)), spells_magnitude read⟩
  · split at read
    · rename_i word
      exact spells_of_lower word (by decide)
    · exact spells_magnitude read

end Decimal

theorem Number.spells_resultText (x : Float) : ∀ c ∈ (resultText x).toList, Decimal.Spells c := by
  by_cases below : x < 0
  · obtain ⟨negative, number, filled⟩ := Double.lt_zero_iff.mp below
    have read := Decimal.spells_of_read? (read?_unsigned (Double.isNegative_abs x))
    have signed : (resultText x).toList = '-' :: (text x.abs).toList := by
      simp [resultText, filled, text_eq_abs negative number]
    rw [signed]
    exact List.forall_mem_cons.mpr ⟨by decide, read⟩
  · exact Decimal.spells_of_read? (isWord_resultText below).2

/-! ### Printed values -/

/-- A character that a message shows as it is, on the same line. -/
def Shown (c : Char) : Prop := c ≠ Markup.marker ∧ c ≠ '\n'

theorem Decimal.Spells.shown {c : Char} (spells : Spells c) : Shown c := by
  constructor
  · rintro rfl
    exact absurd spells (by decide)
  · rintro rfl
    exact absurd spells (by decide)

theorem shown_commas {texts : List String} (each : ∀ text ∈ texts, ∀ c ∈ text.toList, Shown c) :
    ∀ c ∈ (",".intercalate texts).toList, Shown c := by
  intro c member
  rw [String.toList_intercalate] at member
  rcases Text.mem_intercalate member with comma | ⟨piece, listed, member⟩
  · obtain rfl := List.mem_singleton.mp comma
    exact ⟨by decide, by decide⟩
  · obtain ⟨text, known, rfl⟩ := List.mem_map.mp listed
    exact each text known c member

theorem shown_between (opener closer : Char) (opens : Shown opener) (closes : Shown closer) {inner : String}
    (each : ∀ c ∈ inner.toList, Shown c) :
    ∀ c ∈ (String.singleton opener ++ inner ++ String.singleton closer).toList, Shown c := by
  simp only [String.toList_append, String.toList_singleton, List.forall_mem_append, List.forall_mem_singleton]
  exact ⟨⟨opens, each⟩, closes⟩

/-- The text of a value is shown as it is. -/
theorem Value.shown_text : (v : Value) → ∀ c ∈ v.text.toList, Shown c
  | .number x => fun c member => (Number.spells_resultText x c member).shown
  | .list elems => by
    have each : ∀ elem ∈ elems, ∀ c ∈ elem.text.toList, Shown c := fun elem _ => shown_text elem
    rw [text, texts_eq]
    exact shown_between '\x7b' '\x7d' ⟨by decide, by decide⟩ ⟨by decide, by decide⟩
      (shown_commas (List.forall_mem_map.mpr each))
  | .vector comps => by
    rw [text]
    refine shown_between '<' '>' ⟨by decide, by decide⟩ ⟨by decide, by decide⟩
      (shown_commas (List.forall_mem_map.mpr fun x _ c member => ?_))
    exact (Number.spells_resultText x c member).shown

/-- A text without markers and line ends is printed after a tab. -/
theorem Shell.message_shown (shell : Shell) {text : String} (each : ∀ c ∈ text.toList, Shown c) :
    shell.message text = "\t" ++ text ++ "\n" := by
  have whole : (text.toList.flatMap fun c => if c = '\n' then ['\n', '\t'] else [c]) = text.toList := by
    rw [List.flatMap_congr (g := fun c => [c]) fun c member => if_neg (each c member).2, List.flatMap_singleton']
  have unmarked : Markup.marker ∉ text.toList := fun member => (each Markup.marker member).1 rfl
  simp only [message, Markup.render_unmarked unmarked, indent, whole]
  rw [← String.toList_inj]
  simp

/-! ### Names before an equals sign -/

namespace Expr
open Token

/-- Texts of tokens that begin with a name and an equals sign: one word with the sign in it, or two if a blank follows
    the name. -/
inductive Equated : List String → Prop
  | joined {word : String} (equals : '=' ∈ word.toList) (rest : List String) : Equated (word :: rest)
  | apart {name word : String} (unmarked : isMark name = false) (equals : '=' ∈ word.toList) (rest : List String) :
      Equated (name :: word :: rest)

theorem isMark_equals {word : String} (equals : '=' ∈ word.toList) : isMark word = false := by
  simp only [isMark]
  split
  · rename_i c single
    rw [single] at equals
    rw [← List.mem_singleton.mp equals]
    decide
  · rfl

theorem Equated.head {text : String} {rest : List String} (equated : Equated (text :: rest)) : isMark text = false := by
  cases equated with
  | joined equals => exact isMark_equals equals
  | apart unmarked => exact unmarked

/-- The first operand of an operation has the sign too. -/
theorem Equated.left {left right : List String} {mark : String} (filled : left ≠ []) (marked : isMark mark = true)
    (equated : Equated (left ++ mark :: right)) : Equated left := by
  obtain ⟨first, others, rfl⟩ := List.exists_cons_of_ne_nil filled
  generalize same : first :: others ++ mark :: right = whole at equated
  cases equated with
  | joined equals =>
    obtain ⟨rfl, -⟩ := List.cons.inj same
    exact .joined equals others
  | apart unmarked equals =>
    obtain ⟨rfl, tail⟩ := List.cons.inj same
    cases others with
    | nil =>
      obtain ⟨rfl, -⟩ := List.cons.inj tail
      rw [isMark_equals equals] at marked
      cases marked
    | cons second others =>
      obtain ⟨rfl, -⟩ := List.cons.inj tail
      exact .apart unmarked equals others

theorem isMark_ofSymbol? {text : String} {op : Op} (operator : Op.ofSymbol? text = some op) : isMark text = true := by
  cases marked : isMark text with
  | true => rfl
  | false =>
    rw [ofSymbol?_unmarked marked] at operator
    cases operator

/-- No name that can be given has an equals sign in it. -/
theorem unbound_equals {ctx : Context} (named : ∀ entry ∈ ctx.vars.entries, Name.Valid false entry.1) {name : String}
    (equals : '=' ∈ name.toList) : (Scope.root ctx).value? name = none ∧ ctx.constant? name = none := by
  have other {word : String} (free : '=' ∉ word.toList) : name ≠ word := by
    rintro rfl
    exact free equals
  constructor
  · cases found : (Scope.root ctx).value? name with
    | none => rfl
    | some v =>
      obtain ⟨frame, member, found⟩ := List.exists_of_findSome?_eq_some found
      obtain ⟨before, after, same, -⟩ := List.lookup_eq_some_iff.mp found
      have own : (name, v) ∈ frame.vars := by simp [same]
      rw [List.mem_singleton.mp member] at own
      have valid := named (name, v) own
      rcases valid.letters '=' equals with letter | ⟨underscore, -⟩
      · exact absurd letter (by decide)
      · exact absurd underscore (by decide)
  · simp [Context.constant?, other (show '=' ∉ "PI".toList by decide), other (show '=' ∉ "E".toList by decide),
      other (show '=' ∉ "INF".toList by decide), other (show '=' ∉ "MILLIS".toList by decide)]

/-- What is read of a name and an equals sign, and of whatever follows, has no value. -/
theorem Equated.stuck {ctx : Context} (named : ∀ entry ∈ ctx.vars.entries, Name.Valid false entry.1)
    {tokens : List Token} {e : Expr} (read : ofTokens tokens = .ok e) :
    Equated (Token.texts tokens) → ∀ depth v, Eval.run ctx depth (Scope.root ctx) e ≠ .ok v := by
  refine reads_induction (motive := fun tokens e => Equated (Token.texts tokens) →
    ∀ depth v, Eval.run ctx depth (Scope.root ctx) e ≠ .ok v) ?_ read
  intro tokens e reading equated
  -- A bracket or a quote in front is no name.
  have opened {t : Token} {rest : List Token} {mark : String} (same : tokens = t :: rest) (opens : t.text = mark)
      (marked : isMark mark = true) : False := by
    rw [same, texts_cons, opens] at equated
    rw [equated.head] at marked
    cases marked
  cases reading with
  | @number t x value =>
    cases equated with
    | joined equals => exact absurd (Decimal.spells_of_read? value '=' equals) (by decide)
  | @name t word unmarked =>
    cases equated with
    | joined equals =>
      obtain ⟨unbound, other⟩ := unbound_equals named equals
      intro depth v evaluated
      cases depth with
      | zero => cases evaluated
      | succ depth => simp [Eval.run, Eval.step, unbound, other] at evaluated
  | parens span inside => exact (opened rfl span.opens (by decide)).elim
  | literal literal => exact (opened rfl literal.opens (by decide)).elim
  | list span each => exact (opened rfl span.opens (by decide)).elim
  | vector span each => exact (opened rfl span.opens (by decide)).elim
  | delegate span cut names filled => exact (opened rfl span.opens (by decide)).elim
  | @call name opener closer inner args letters span each =>
    have plain : '=' ∉ name.text.toList := by
      simp only [isLetters, Bool.and_eq_true] at letters
      intro equals
      exact absurd (List.all_eq_true.mp letters.2 '=' equals) (by decide)
    have opens : '=' ∉ opener.text.toList := by
      rw [span.opens]
      decide
    cases equated with
    | joined equals => exact absurd equals plain
    | apart _ equals => exact absurd equals opens
  | @binary _ whole left right t op l r operation parted operator first second =>
    cases operation with
    | negated operand sign nought => exact (opened rfl sign (by decide)).elim
    | captured operand sign nought opens closes => exact (opened rfl sign (by decide)).elim
    | plain =>
      subst parted
      have filled : Token.texts left ≠ [] := by
        intro none
        obtain rfl : left = [] := List.map_eq_nil_iff.mp none
        rw [ofTokens_nil] at first
        cases first.1
      rw [texts_append, texts_cons] at equated
      have front := equated.left filled (isMark_ofSymbol? operator)
      intro depth v evaluated
      cases depth with
      | zero => cases evaluated
      | succ depth =>
        rw [Eval.run, Eval.step] at evaluated
        split at evaluated
        · cases evaluated
        · rename_i value found
          exact first.2 front depth value found

end Expr

namespace Text

/-- Only blanks are taken off at both ends. -/
theorem exists_trimChars (cs : List Char) : ∃ front back, cs = front ++ trimChars cs ++ back ∧
    (∀ c ∈ front, isBlank c = true) ∧ ∀ c ∈ back, isBlank c = true := by
  have first := List.takeWhile_append_dropWhile (p := isBlank) (l := cs)
  have last := List.takeWhile_append_dropWhile (p := isBlank) (l := (cs.dropWhile isBlank).reverse)
  have whole : cs.dropWhile isBlank = trimChars cs ++ ((cs.dropWhile isBlank).reverse.takeWhile isBlank).reverse := by
    rw [trimChars, ← List.reverse_append, last, List.reverse_reverse]
  refine ⟨cs.takeWhile isBlank, ((cs.dropWhile isBlank).reverse.takeWhile isBlank).reverse, ?_, ?_, ?_⟩
  · rw [List.append_assoc, ← whole, first]
  · exact fun c member => List.mem_takeWhile_imp member
  · exact fun c member => List.mem_takeWhile_imp (List.mem_reverse.mp member)

end Text

namespace Token

theorem cut_blanks {blanks : List Char} (each : ∀ c ∈ blanks, Text.isBlank c = true) (rest : List Char) :
    cut (.word []) (blanks ++ rest) = cut (.word []) rest := by
  induction blanks with
  | nil => rfl
  | cons c blanks ih =>
    obtain ⟨blank, others⟩ := List.forall_mem_cons.mp each
    have quote : c ≠ '"' := by
      rintro rfl
      exact absurd blank (by decide)
    rw [List.cons_append, cut, stops_blank blank [], if_neg (by simp), if_neg quote, if_pos blank, ih others]
    rfl

/-- A character that is no quote, blank or mark goes on with every word. -/
theorem goesOn_ordinary {c : Char} (ordinary : (c = '"' || Text.isBlank c || isPunctuation c || isSign c) = false)
    (w : List Char) : goesOn w c = true := by
  simp only [Bool.or_eq_false_iff] at ordinary
  simp [goesOn, ordinary]

theorem continues_name {lettersOnly : Bool} {name : String} (valid : Name.Valid lettersOnly name) :
    continues [] name.toList = true := by
  have each : ∀ c ∈ name.toList, ∀ w, goesOn w c = true := by
    intro c member w
    rcases valid.letters c member with letter | ⟨rfl, -⟩
    · exact goesOn_plain (isPlain_letter letter) w
    · exact goesOn_ordinary (by decide) w
  generalize name.toList = cs at each
  suffices ∀ w, continues w cs = true from this []
  induction cs with
  | nil => exact fun _ => rfl
  | cons c cs ih =>
    intro w
    obtain ⟨first, others⟩ := List.forall_mem_cons.mp each
    rw [continues, first w, ih others]
    rfl

theorem isMark_name {lettersOnly : Bool} {name : String} (valid : Name.Valid lettersOnly name) : isMark name = false :=
  (isWord_iff.mpr ⟨valid.filled, continues_name valid⟩).2

/-- A line in which the first equals sign follows a name is cut into tokens that begin with them. -/
theorem equated_lex {line : String} (equals : '=' ∈ line.toList) {lettersOnly : Bool}
    (valid : Name.Valid lettersOnly (Text.trim (Text.cut '=' line).1)) : Expr.Equated (texts (lex line)) := by
  obtain ⟨before, after, whole, free⟩ := List.eq_append_cons_of_mem equals
  have isBefore : line.toList.takeWhile (· ≠ '=') = before := by
    have other : ∀ c ∈ before, decide (c ≠ '=') = true := fun c member =>
      decide_eq_true fun same => free (same ▸ member)
    rw [whole, List.takeWhile_append_of_pos other]
    simp
  obtain ⟨front, back, parts, blankFront, blankBack⟩ := Text.exists_trimChars before
  generalize isName : Text.trim (Text.cut '=' line).1 = name at valid
  have named : name.toList = Text.trimChars before := by
    simp only [← isName, Text.trim, Text.cut, Text.cutChars, isBefore, String.toList_ofList]
  have filled : name.toList.reverse ≠ [] := by simpa using valid.filled
  -- The equals sign goes on with the word in front of it, or begins one.
  have sign (w : List Char) : ∃ more rest,
      cut (.word w) ('=' :: after) = String.ofList (w.reverse ++ '=' :: more) :: rest := by
    obtain ⟨more, rest, same⟩ := cut_head (w := '=' :: w) (by simp) after
    refine ⟨more, rest, ?_⟩
    rw [cut, if_pos (goesOn_ordinary (by decide) w), same]
    simp
  rw [texts_lex, whole, parts, ← named, List.append_assoc, List.append_assoc, cut_blanks blankFront,
    cut_continues (continues_name valid), List.append_nil]
  cases back with
  | nil =>
    obtain ⟨more, rest, same⟩ := sign name.toList.reverse
    rw [List.nil_append, same]
    exact .joined (by simp) rest
  | cons b back =>
    obtain ⟨blank, others⟩ := List.forall_mem_cons.mp blankBack
    obtain ⟨more, rest, same⟩ := sign []
    rw [List.cons_append, breaks_cons (stops_blank blank), ← List.cons_append, cut_blanks blankBack, same,
      held_reverse valid.filled]
    exact .apart (isMark_name valid) (by simp) rest

end Token

/-! ### Lines -/

namespace Context

theorem evalText_empty (ctx : Context) : ctx.evalText "" = .error (.parse (.empty 0 "")) := rfl

theorem defineVariable_ans (ctx : Context) (v : Value) :
    ctx.defineVariable Shell.ans v = .ok (ctx.setVariable Shell.ans v) := by
  have named : Name.problem? Shell.ans .var false = none := by decide
  rw [defineVariable, named]

/-- A line in which the first equals sign follows a name has no value, in a context whose variables have names that can
    be given. -/
theorem evalText_equated {ctx : Context} (named : ∀ entry ∈ ctx.vars.entries, Name.Valid false entry.1) {line : String}
    (equals : '=' ∈ line.toList) (valid : Name.Valid false (Text.trim (Text.cut '=' line).1)) (v : Value) :
    ctx.evalText line ≠ .ok v := by
  intro evaluated
  rw [evalText] at evaluated
  split at evaluated
  · cases evaluated
  · rename_i e read
    have stuck := Expr.Equated.stuck named (Expr.parse_eq_ok_iff.mp read) (Token.equated_lex equals valid)
    exact stuck ctx.limit v evaluated

end Context

namespace Shell

/-- What is done with a value: it is printed on a line of its own, and the variable for the last result holds it. All
    else stays as it is. -/
def answered (shell : Shell) (v : Value) : Outcome :=
  ⟨{ shell with context := shell.context.setVariable ans v }, if shell.muted then "" else "\t" ++ v.text ++ "\n", none⟩

theorem command?_eq_none {shell : Shell} {name arg : String} (other : name ∉ commands) :
    shell.command? name arg = none := by
  unfold command?
  split
  case h_11 => rfl
  all_goals exact absurd (by decide) other

/-- A line that begins with the name of a command runs the command. -/
theorem run_command {shell : Shell} {line name : String} (command : (Text.cut ' ' (Text.trim line)).1 = name)
    {outcome : Outcome} (found : shell.command? name (Text.trim (Text.cut ' ' (Text.trim line)).2) = some outcome) :
    shell.run line = outcome := by
  have filled : Text.trim line ≠ "" := by
    rintro none
    rw [none] at command
    obtain rfl : name = "" := command.symm.trans (by decide)
    cases found
  simp only [run, filled, if_false, command, found]

theorem evaluate_eq_answered {shell : Shell} (bare : shell.store = none) {source : String} {v : Value}
    (evaluated : shell.context.evalText source = .ok v) : shell.evaluate source = shell.answered v := by
  simp only [evaluate, evaluated, Context.defineVariable_ans, save, bare, say, print, answered,
    message_shown shell v.shown_text]

/-- An assignment to a name that cannot be given fails and leaves the shell as it is. -/
theorem assign_refused (shell : Shell) {name : String} (refused : ¬ Name.Valid false name) (source : String) :
    ∃ fault, shell.assign name source = shell.fail (.fault fault) := by
  rw [assign]
  split
  · exact ⟨_, rfl⟩
  · rename_i v evaluated
    cases found : Name.problem? name .var false with
    | none => exact absurd (Name.problem?_eq_none_iff.mp found) refused
    | some problem =>
      have undefined : shell.context.defineVariable name v = .error (.ofArgument "" 0 problem) := by
        rw [Context.defineVariable, found]
      exact ⟨.ofArgument "" 0 problem, by simp only [undefined]⟩

/-- What a line does that is not a command and has a value: it is evaluated if it has no equals sign anywhere, and
    otherwise it fails as an assignment. -/
theorem run_evaluated {shell : Shell} (bare : shell.store = none)
    (named : ∀ entry ∈ shell.context.vars.entries, Name.Valid false entry.1) {line : String}
    (other : (Text.cut ' ' (Text.trim line)).1 ∉ commands) {v : Value}
    (evaluated : shell.context.evalText (Text.trim line) = .ok v) :
    (shell.run line = shell.answered v ↔ '=' ∉ (Text.trim line).toList) ∧
      ('=' ∈ (Text.trim line).toList → ∃ fault, shell.run line = shell.fail (.fault fault)) := by
  have filled : Text.trim line ≠ "" := by
    intro none
    rw [none, Context.evalText_empty] at evaluated
    cases evaluated
  have fails (equals : '=' ∈ (Text.trim line).toList) : ∃ fault, shell.run line = shell.fail (.fault fault) := by
    have refused : ¬ Name.Valid false (Text.trim (Text.cut '=' (Text.trim line)).1) :=
      fun valid => Context.evalText_equated named equals valid v evaluated
    obtain ⟨fault, failed⟩ := shell.assign_refused refused (Text.cut '=' (Text.trim line)).2
    refine ⟨fault, ?_⟩
    simp only [run, filled, if_false, command?_eq_none other, List.contains_iff_mem, equals, if_true, failed]
  refine ⟨⟨?_, ?_⟩, fails⟩
  · intro answers equals
    obtain ⟨fault, failed⟩ := fails equals
    rw [failed] at answers
    cases congrArg Outcome.error answers
  · intro free
    simp only [run, filled, if_false, command?_eq_none other, List.contains_iff_mem, free,
      evaluate_eq_answered bare evaluated]

/-- A coloured shell prints a vector and keeps it, with the variable that the line names. -/
theorem run_evaluated_vector :
    let shell : Shell := ⟨(Context.new 0).setVariable "a" (.number 2), none, true, false⟩
    let line := "  <a, -a * 3> "
    (∀ entry ∈ shell.context.vars.entries, Name.Valid false entry.1) ∧ (Text.cut ' ' (Text.trim line)).1 ∉ commands ∧
      ∃ v, shell.context.evalText (Text.trim line) = .ok v ∧ v.text = "<2,-6>" ∧ shell.run line = shell.answered v := by
  intro shell line
  have named : ∀ entry ∈ shell.context.vars.entries, Name.Valid false entry.1 :=
    List.forall_mem_singleton.mpr ((@Name.problem?_eq_none_iff _ .var _).mp (by decide))
  have other : (Text.cut ' ' (Text.trim line)).1 ∉ commands := by decide +kernel
  have shown : (shell.context.evalText (Text.trim line)).toOption.map Value.text = some "<2,-6>" := by decide +kernel
  cases evaluated : shell.context.evalText (Text.trim line) with
  | error fault =>
    rw [evaluated] at shown
    cases shown
  | ok v =>
    rw [evaluated] at shown
    have free : '=' ∉ (Text.trim line).toList := by decide +kernel
    exact ⟨named, other, v, rfl, Option.some.inj shown, (run_evaluated rfl named other evaluated).1.mpr free⟩

/-- A text with an equals sign is not printed but taken for an assignment to what stands before the sign. -/
theorem run_text_equals :
    let shell : Shell := ⟨.new 0, none, false, false⟩
    let line := "\"a=b\""
    (Text.cut ' ' (Text.trim line)).1 ∉ commands ∧
      (shell.context.evalText (Text.trim line)).toOption.map Value.text = some "\x7b97,61,98\x7d" ∧
      (shell.run line).error.map ShellError.message = some "2: open bracket \" with no close bracket \"" ∧
      (shell.run line).output = "" ∧ (shell.run line).shell.context.vars.names = [] := by
  decide +kernel

end Shell

end Reckon
