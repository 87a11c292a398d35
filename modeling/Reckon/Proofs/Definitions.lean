import Mathlib
import Reckon.Proofs.Effects
import Reckon.Proofs.Words

/-!
What can be defined. However a context comes about, its variables and functions have names that they may have, the
parameters of a function are distinct, and its body can be read (`Context.sound_after`). The parameters are written in
a form from which they are read again, whatever spaces and signs they were given with
(`Function.Sound.parse_paramSpec`), so that every function can be defined again, in any context, from what is listed of
it (`Context.redefines_after`).
-/

namespace Reckon

/-! ### Texts -/

namespace Text

theorem trimChars_of_solid {cs : List Char} (solid : ∀ c ∈ cs, isBlank c = false) : trimChars cs = cs := by
  have kept {cs : List Char} (solid : ∀ c ∈ cs, isBlank c = false) : cs.dropWhile isBlank = cs := by
    rw [List.dropWhile_eq_self_iff]
    intro filled
    rw [solid _ (List.getElem_mem filled)]
    decide
  rw [trimChars, kept solid, kept (by simpa using solid), List.reverse_reverse]

/-- Nothing is taken off a text that begins and ends with characters that are no blanks. -/
theorem trim_between {c d : Char} (first : isBlank c = false) (last : isBlank d = false) {text : String}
    {inner : List Char} (chars : text.toList = c :: inner ++ [d]) : trim text = text := by
  have kept : trimChars (c :: inner ++ [d]) = c :: inner ++ [d] := by simp [trimChars, first, last]
  rw [trim, chars, kept, ← chars, String.ofList_toList]

theorem splitChars_eq_splitOn (separator : Char) (cs : List Char) :
    splitChars separator cs = cs.splitOn separator := by
  induction cs with
  | nil => rfl
  | cons c rest ih =>
    rw [splitChars, ih, List.splitOn_eq_splitOnP, List.splitOn_eq_splitOnP, List.splitOnP_cons_eq_if_modifyHead]
    by_cases here : c = separator
    · simp [here]
    · cases pieces : rest.splitOnP (· == separator) with
      | nil => exact absurd pieces (List.splitOnP_ne_nil _ _)
      | cons piece pieces => simp [here]

theorem mem_intercalate {separator : List Char} {c : Char} {pieces : List (List Char)}
    (member : c ∈ separator.intercalate pieces) : c ∈ separator ∨ ∃ piece ∈ pieces, c ∈ piece := by
  induction pieces with
  | nil => cases member
  | cons piece rest ih =>
    cases rest with
    | nil => exact .inr ⟨piece, by simp, by simpa using member⟩
    | cons second rest =>
      simp only [List.intercalate_cons_cons, List.mem_append] at member
      rcases member with (member | same) | member
      · exact .inr ⟨piece, by simp, member⟩
      · exact .inl same
      · exact (ih member).imp_right fun ⟨piece, known, inside⟩ => ⟨piece, List.mem_cons_of_mem _ known, inside⟩

/-- Digits are read as the number they stand for, if 64 bits hold it. -/
theorem readDigits_eq {digits : List Char} (each : ∀ c ∈ digits, c.isDigit = true) {value : Nat}
    (small : Nat.ofDigitChars 10 digits value < 2 ^ 64) :
    readDigits 10 false digits value = .ok (Nat.ofDigitChars 10 digits value) := by
  induction digits generalizing value with
  | nil => rfl
  | cons c rest ih =>
    have digit := each c List.mem_cons_self
    have below : c.toNat - '0'.toNat < 10 := by
      simp only [Char.isDigit, Bool.and_eq_true, decide_eq_true_eq, UInt32.le_iff_toNat_le] at digit
      change 48 ≤ c.toNat ∧ c.toNat ≤ 57 at digit
      change c.toNat - 48 < 10
      omega
    -- The number of the first digits is not greater than that of all.
    have first : 10 * value + (c.toNat - '0'.toNat) ≤ Nat.ofDigitChars 10 (c :: rest) value := by
      rw [Nat.ofDigitChars_cons, Nat.ofDigitChars_eq_ofDigitChars_zero]
      exact le_add_right (Nat.le_mul_of_pos_left _ (by positivity))
    rw [Nat.ofDigitChars_cons] at small first ⊢
    have value_eq : digitOf? c = some (c.toNat - '0'.toNat) := if_pos digit
    simp only [readDigits, value_eq]
    rw [if_neg (by simp), if_neg (by omega), if_neg (by rw [Nat.mul_comm]; exact Nat.not_le.mpr (first.trans_lt small)),
      Nat.mul_comm value]
    exact ih (fun c member => each c (List.mem_cons_of_mem _ member)) small

/-- What is read in base ten has 63 bits and a sign. -/
theorem lt_of_readDecimal {cs : List Char} {n : Nat} (read : readDecimal cs = .ok (n : Int)) : n < 2 ^ 63 := by
  simp only [readDecimal] at read
  split at read
  · cases read
  · cases digits : readDigits 10 false (splitSign cs).2 0 with
    | error fault =>
      rw [digits] at read
      cases read
    | ok magnitude =>
      rw [digits] at read
      change signedInteger (splitSign cs).1 magnitude = .ok (n : Int) at read
      unfold signedInteger at read
      split at read
      · split at read
        · cases read
        · have negative : -(magnitude : Int) = n := Except.ok.inj read
          omega
      · split at read
        · cases read
        · rename_i small
          cases read
          exact Nat.not_le.mp small

/-- A letter or a digit is no blank and separates nothing. -/
theorem solid_of_isPlain {c : Char} (plain : Token.isPlain c = true) : c ≠ '(' ∧ c ≠ ',' ∧ isBlank c = false := by
  refine ⟨?_, ?_, ?_⟩
  · rintro rfl
    revert plain
    decide
  · rintro rfl
    revert plain
    decide
  · have inside := Token.goesOn_plain plain []
    simp only [Token.goesOn, Bool.not_eq_eq_eq_not, Bool.not_true, Bool.or_eq_false_iff] at inside
    exact inside.1.1.2

theorem solid_toDigits (n : Nat) : ∀ c ∈ Nat.toDigits 10 n, c ≠ '(' ∧ c ≠ ',' ∧ isBlank c = false := by
  intro c member
  have digit : c.isDigit = true := Nat.isDigit_of_mem_toDigits (by decide) (by decide) member
  exact solid_of_isPlain (Token.isPlain_digit digit)

/-- A number of 63 bits is read from its digits. -/
theorem readDecimal_toDigits {n : Nat} (small : n < 2 ^ 63) : readDecimal (Nat.toDigits 10 n) = .ok n := by
  have each : ∀ c ∈ Nat.toDigits 10 n, c.isDigit = true :=
    fun c member => Nat.isDigit_of_mem_toDigits (by decide) (by decide) member
  have unsigned : splitSign (Nat.toDigits 10 n) = (false, Nat.toDigits 10 n) := by
    cases digits : Nat.toDigits 10 n with
    | nil => rfl
    | cons c rest =>
      have digit := each c (by simp [digits])
      unfold splitSign
      -- No digit is a sign.
      split
      · rename_i same
        cases same
        exact absurd digit (by decide)
      · rename_i same
        cases same
        exact absurd digit (by decide)
      · rfl
  have filled : Nat.toDigits 10 n ≠ [] := Nat.toDigits_ne_nil
  have value : Nat.ofDigitChars 10 (Nat.toDigits 10 n) 0 = n := Nat.ofDigitChars_ten_toDigits
  have read : readDigits 10 false (Nat.toDigits 10 n) 0 = .ok n := by
    rw [readDigits_eq each (by omega), value]
  simp only [readDecimal, unsigned, List.isEmpty_iff, filled, if_false, read]
  exact if_neg (Nat.not_le.mpr small)

end Text

/-! ### Names -/

namespace Name

/-- A name that can be given: a word of letters, with underscores unless it is for something that is called, and not
    that of a constant. -/
structure Valid (lettersOnly : Bool) (name : String) : Prop where
  filled : name ≠ ""
  letters : ∀ c ∈ name.toList, Token.isAsciiLetter c = true ∨ (c = '_' ∧ lettersOnly = false)
  unreserved : name ∉ reserved

theorem problem?_eq_none_iff {name : String} {role : Role} {lettersOnly : Bool} :
    problem? name role lettersOnly = none ↔ Valid lettersOnly name := by
  unfold problem?
  constructor
  · intro fine
    split at fine
    · cases fine
    · rename_i filled
      split at fine
      · cases fine
      · rename_i spelled
        split at fine
        · cases fine
        · rename_i unreserved
          refine ⟨filled, ?_, by simpa using unreserved⟩
          intro c member
          by_cases letter : Token.isAsciiLetter c = true
          · exact .inl letter
          · have char : isNameChar lettersOnly c = true := List.all_eq_true.mp (by simpa using spelled) c member
            exact .inr (by simpa [isNameChar, letter] using char)
  · rintro ⟨filled, letters, unreserved⟩
    have spelled : name.toList.all (isNameChar lettersOnly) = true := by
      rw [List.all_eq_true]
      intro c member
      rcases letters c member with letter | ⟨rfl, rfl⟩
      · simp [isNameChar, letter]
      · simp [isNameChar]
    rw [if_neg filled, if_neg (by simp [spelled]), if_neg (by simpa using unreserved)]

theorem Valid.solid {lettersOnly : Bool} {name : String} (valid : Valid lettersOnly name) :
    ∀ c ∈ name.toList, c ≠ '(' ∧ c ≠ ',' ∧ Text.isBlank c = false := by
  intro c member
  rcases valid.letters c member with letter | ⟨rfl, -⟩
  · exact Text.solid_of_isPlain (Token.isPlain_letter letter)
  · decide

end Name

/-! ### Parameters -/

namespace Param

/-- A parameter that can be declared: one for a value, or one for a delegate of some number of parameters. -/
inductive Sound : Param → Prop
  | number {name : String} (valid : Name.Valid false name) : Sound (.number name)
  | delegate {name : String} {arity : Nat} (valid : Name.Valid true name) (new : Builtin.isName name = false)
      (small : arity < 2 ^ 63) : Sound ⟨name, .delegate, arity⟩

theorem Sound.valid {p : Param} (sound : p.Sound) : Name.Valid (p.kind = .delegate) p.name := by
  cases sound with
  | number valid => exact valid
  | delegate valid => exact valid

theorem toList_spec {name : String} {arity : Nat} :
    (spec ⟨name, .delegate, arity⟩).toList = name.toList ++ '(' :: (Nat.toDigits 10 arity ++ [')']) := by
  have digits : (arity : Int).repr.toList = Nat.toDigits 10 arity := Nat.toList_repr
  simp [spec, digits]

theorem Sound.filled {p : Param} (sound : p.Sound) : p.spec.toList ≠ [] := by
  cases sound with
  | @number name valid =>
    intro none
    exact valid.filled (String.toList_eq_nil_iff.mp none)
  | delegate => simp [toList_spec]

/-- The text of a parameter has no blanks and no commas. -/
theorem Sound.solid {p : Param} (sound : p.Sound) : ∀ c ∈ p.spec.toList, c ≠ ',' ∧ Text.isBlank c = false := by
  intro c member
  cases sound with
  | number valid => exact (valid.solid c member).2
  | delegate valid =>
    simp only [toList_spec, List.mem_append, List.mem_cons, List.not_mem_nil, or_false] at member
    rcases member with member | rfl | member | rfl
    · exact (valid.solid c member).2
    · decide
    · exact (Text.solid_toDigits _ c member).2
    · decide

/-- A parameter is read from its text. -/
theorem ofChars_spec {p : Param} (sound : p.Sound) : ofChars p.spec.toList = .ok p := by
  cases sound with
  | @number name valid =>
    have none : name.toList.dropWhile (· ≠ '(') = [] := by
      rw [List.dropWhile_eq_nil_iff]
      intro c member
      simpa using (valid.solid c member).1
    change ofChars name.toList = _
    simp only [ofChars, none, String.ofList_toList]
  | @delegate name arity valid new small =>
    have before : ∀ c ∈ name.toList, decide (c ≠ '(') = true := fun c member => by simpa using (valid.solid c member).1
    have digits : Text.trimChars (Nat.toDigits 10 arity) = Nat.toDigits 10 arity :=
      Text.trimChars_of_solid fun c member => (Text.solid_toDigits arity c member).2.2
    have whole : Text.trimChars name.toList = name.toList :=
      Text.trimChars_of_solid fun c member => (valid.solid c member).2.2
    rw [toList_spec, ofChars, List.dropWhile_append_of_pos before, List.takeWhile_append_of_pos before]
    simp [digits, whole, Text.readDecimal_toDigits small, new]

theorem problem?_eq_none_iff {seen : List String} {p : Param} :
    p.problem? seen = none ↔ Name.Valid (p.kind = .delegate) p.name ∧ p.name ∉ seen := by
  rw [problem?, ← @Name.problem?_eq_none_iff _ .param]
  cases Name.problem? p.name .param (p.kind = .delegate) with
  | some problem => simp
  | none => simp

/-- What a text declares: a number by its name, or a delegate by its name and the number of its parameters. -/
inductive Declares : List Char → Param → Prop
  | number (spec : List Char) : Declares spec (.number (String.ofList spec))
  | delegate (name arity : List Char) {n : Nat} (count : Text.readDecimal (Text.trimChars arity) = .ok (n : Int))
      (new : Builtin.isName (String.ofList (Text.trimChars name)) = false) :
      Declares (name ++ '(' :: arity ++ [')']) ⟨String.ofList (Text.trimChars name), .delegate, n⟩

theorem declares_of_ofChars {spec : List Char} {p : Param} (read : ofChars spec = .ok p) : Declares spec p := by
  have parts := List.takeWhile_append_dropWhile (p := fun c => decide (c ≠ '(')) (l := spec)
  unfold ofChars at read
  split at read
  · cases read
    exact .number spec
  · rename_i opener arity cut
    split at read
    · cases read
    · rename_i closed
      split at read
      · cases read
      · rename_i n count
        split at read
        · cases read
        · rename_i nonnegative
          simp only at read
          split at read
          · cases read
          · rename_i new
            cases read
            obtain ⟨n, rfl⟩ := Int.eq_ofNat_of_zero_le (Int.not_lt.mp nonnegative)
            obtain rfl : opener = '(' := by
              have first := List.head?_dropWhile_not (fun c => decide (c ≠ '(')) spec
              rw [cut] at first
              simpa using first
            have closes : arity.dropLast ++ [')'] = arity := List.dropLast_append_getLast? ')' (not_not.mp closed)
            have declares := Declares.delegate (spec.takeWhile fun c => decide (c ≠ '(')) arity.dropLast count
              (by simpa using new)
            rwa [List.append_assoc, List.cons_append, closes, ← cut, parts] at declares

/-- What is read is declared as it may be. -/
theorem sound_of_ofChars {spec : List Char} {p : Param} (read : ofChars spec = .ok p)
    (valid : Name.Valid (p.kind = .delegate) p.name) : p.Sound := by
  cases declares_of_ofChars read with
  | number => exact .number valid
  | delegate name arity count new => exact .delegate valid new (Text.lt_of_readDecimal count)

/-- Parameters are read one by one. -/
theorem exists_of_readAll {function : String} {position : Nat} {seen : List String} {spec : List Char}
    {specs : List (List Char)} {params : List Param}
    (read : readAll function position seen (spec :: specs) = .ok params) :
    ∃ p others, params = p :: others ∧ ofChars (Text.trimChars spec) = .ok p ∧ p.problem? seen = none ∧
      readAll function (position + 1) (p.name :: seen) specs = .ok others := by
  simp only [readAll] at read
  split at read
  · cases read
  · rename_i p first
    split at read
    · cases read
    · rename_i fine
      cases rest : readAll function (position + 1) (p.name :: seen) specs with
      | error fault =>
        rw [rest] at read
        cases read
      | ok others =>
        rw [rest] at read
        cases read
        exact ⟨p, others, rfl, first, fine, rest⟩

/-- The parameters that are read are sound and distinct, from each other and from those before. -/
theorem sound_of_readAll {function : String} {position : Nat} {seen : List String} {specs : List (List Char)}
    {params : List Param} (read : readAll function position seen specs = .ok params) :
    (∀ p ∈ params, p.Sound) ∧ (params.map name).Nodup ∧ ∀ p ∈ params, p.name ∉ seen := by
  induction specs generalizing position seen params with
  | nil =>
    cases read
    simp
  | cons spec specs ih =>
    obtain ⟨p, others, rfl, first, fine, rest⟩ := exists_of_readAll read
    obtain ⟨valid, fresh⟩ := problem?_eq_none_iff.mp fine
    obtain ⟨sound, distinct, new⟩ := ih rest
    refine ⟨?_, ?_, ?_⟩
    · simpa using ⟨sound_of_ofChars first valid, sound⟩
    · simp only [List.map_cons, List.nodup_cons, List.mem_map, not_exists, not_and]
      exact ⟨fun q member same => new q member (by simp [same]), distinct⟩
    · simp only [List.mem_cons, forall_eq_or_imp]
      exact ⟨fresh, fun q member known => new q member (List.mem_cons_of_mem _ known)⟩

theorem sound_of_parse {function spec : String} {params : List Param} (read : parse function spec = .ok params) :
    (∀ p ∈ params, p.Sound) ∧ (params.map name).Nodup := by
  simp only [parse] at read
  split at read
  · cases read
    simp
  · obtain ⟨sound, distinct, -⟩ := sound_of_readAll read
    exact ⟨sound, distinct⟩

/-- Sound parameters that are distinct are read from their texts. -/
theorem readAll_spec (function : String) (position : Nat) {seen : List String} {params : List Param}
    (sound : ∀ p ∈ params, p.Sound) (distinct : (params.map name).Nodup) (new : ∀ p ∈ params, p.name ∉ seen) :
    readAll function position seen (params.map fun p => p.spec.toList) = .ok params := by
  induction params generalizing position seen with
  | nil => rfl
  | cons p params ih =>
    have first := sound p List.mem_cons_self
    have trimmed : Text.trimChars p.spec.toList = p.spec.toList :=
      Text.trimChars_of_solid fun c member => (first.solid c member).2
    have fine : p.problem? seen = none := problem?_eq_none_iff.mpr ⟨first.valid, new p List.mem_cons_self⟩
    rw [List.map_cons, List.nodup_cons] at distinct
    have others : readAll function (position + 1) (p.name :: seen) (params.map fun p => p.spec.toList) = .ok params := by
      refine ih _ (fun q member => sound q (List.mem_cons_of_mem _ member)) distinct.2 ?_
      intro q member known
      rcases List.mem_cons.mp known with same | known
      · exact distinct.1 (same ▸ List.mem_map_of_mem member)
      · exact new q (List.mem_cons_of_mem _ member) known
    simp only [List.map_cons, readAll, trimmed, ofChars_spec first, fine, others]
    rfl

end Param

/-! ### Functions -/

namespace Function

/-- A function of the user under its one name, which is not that of a built-in one. Its parameters are distinct, and its
    body can be read. -/
structure Sound (key : String) (f : Function) : Prop where
  named : f.names = [key]
  valid : Name.Valid true key
  new : Builtin.isName key = false
  params : ∀ p ∈ f.params, p.Sound
  distinct : (f.params.map Param.name).Nodup
  summary : f.summary = ""
  reads : ∃ e, Expr.parse? f.body = .ok (some e)

/-- The parameters are read from their texts with commas between them. -/
theorem Sound.parse_paramSpec {key : String} {f : Function} (sound : f.Sound key) (function : String) :
    Param.parse function f.paramSpec = .ok f.params := by
  by_cases none : f.params = []
  · rw [paramSpec, none]
    rfl
  · have pieces : f.paramSpec.toList = [','].intercalate (f.params.map fun p => p.spec.toList) := by
      rw [paramSpec, String.toList_intercalate, List.map_map]
      rfl
    have whole : Text.trimChars f.paramSpec.toList = f.paramSpec.toList := by
      refine Text.trimChars_of_solid fun c member => ?_
      rw [pieces] at member
      rcases Text.mem_intercalate member with comma | ⟨piece, known, member⟩
      · rw [List.mem_singleton.mp comma]
        decide
      · obtain ⟨p, own, rfl⟩ := List.mem_map.mp known
        exact ((sound.params p own).solid c member).2
    have split : Text.splitChars ',' f.paramSpec.toList = f.params.map fun p => p.spec.toList := by
      rw [Text.splitChars_eq_splitOn, pieces]
      refine List.splitOn_intercalate ',' ?_ (by simpa using none)
      intro piece known comma
      obtain ⟨p, own, rfl⟩ := List.mem_map.mp known
      exact ((sound.params p own).solid ',' comma).1 rfl
    have filled : f.paramSpec.toList.isEmpty = false := by
      rw [Bool.eq_false_iff, ne_eq, List.isEmpty_iff]
      intro blank
      obtain ⟨p, own⟩ := List.exists_mem_of_ne_nil _ none
      have piece : p.spec.toList ∈ Text.splitChars ',' f.paramSpec.toList := by
        rw [split]
        exact List.mem_map_of_mem own
      rw [blank] at piece
      exact (sound.params p own).filled (by simpa [Text.splitChars] using piece)
    simp only [Param.parse, whole, filled, split]
    exact Param.readAll_spec function 1 sound.params sound.distinct (by simp)

end Function

/-- What a definition defines is sound. -/
theorem StoredFunction.Defines.sound {f : StoredFunction} {params : List Param} (defines : f.Defines params) :
    (f.function params).Sound f.name where
  named := rfl
  valid := Name.problem?_eq_none_iff.mp defines.named
  new := defines.new
  params := (Param.sound_of_parse defines.listed).1
  distinct := (Param.sound_of_parse defines.listed).2
  summary := rfl
  reads := defines.reads

namespace Context

/-- A sound function is defined again, the same, from what is listed of it. -/
theorem defineFunction_paramSpec {key : String} {f : Function} (sound : f.Sound key) (ctx : Context) :
    ctx.defineFunction key f.paramSpec f.body = .ok { ctx with functions := ctx.functions.insert key f } := by
  have defines : StoredFunction.Defines ⟨key, f.paramSpec, f.body⟩ f.params :=
    ⟨Name.problem?_eq_none_iff.mpr sound.valid, sound.new, sound.parse_paramSpec key, sound.reads⟩
  refine defineFunction_eq_ok_iff.mpr ⟨f.params, defines, ?_⟩
  obtain ⟨names, params, summary, body⟩ := f
  cases sound.named
  cases sound.summary
  rfl

/-! ### Contexts -/

/-- All names of a context are names that can be given, and all its functions are sound. -/
structure Sound (ctx : Context) : Prop where
  vars : ∀ entry ∈ ctx.vars.entries, Name.Valid false entry.1
  functions : ∀ entry ∈ ctx.functions.entries, entry.2.Sound entry.1

/-- What can be asked of a context. A copy may have another clock and another limit. -/
inductive Request
  | copy (clock depth : Option Int)
  | defineVariable (name : String) (value : Value)
  | deleteVariable (name : String)
  | clearVariables
  | defineFunction (name params body : String)
  | deleteFunction (name : String)
  | clearFunctions
  | load (store : Store)

/-- The context after a request. One that fails leaves it as it is. -/
def Request.run (ctx : Context) : Request → Context
  | copy clock depth =>
    let copied := { ctx with clock := clock.getD ctx.clock }
    depth.elim copied copied.withLimit
  | defineVariable name value => (ctx.defineVariable name value).toOption.getD ctx
  | deleteVariable name => (ctx.deleteVariable name).toOption.getD ctx
  | clearVariables => ctx.clearVariables
  | defineFunction name params body => (ctx.defineFunction name params body).toOption.getD ctx
  | deleteFunction name => (ctx.deleteFunction name).toOption.getD ctx
  | clearFunctions => ctx.clearFunctions
  | load store => (Shell.load ⟨ctx, some store, false, true⟩).shell.context

/-- The context after requests to a new one. -/
def after (clock : Int) (requests : List Request) : Context := requests.foldl Request.run (new clock)

namespace Sound

variable {ctx next : Context}

theorem defineVariable (sound : ctx.Sound) {name : String} {value : Value}
    (defined : ctx.defineVariable name value = .ok next) : next.Sound := by
  unfold Context.defineVariable at defined
  split at defined
  · cases defined
  · rename_i named
    cases defined
    refine ⟨?_, sound.functions⟩
    intro entry member
    rcases Table.mem_insertSorted member with rfl | member
    · exact Name.problem?_eq_none_iff.mp named
    · exact sound.vars entry member

theorem defineFunction (sound : ctx.Sound) {f : StoredFunction}
    (defined : ctx.defineFunction f.name f.params f.body = .ok next) : next.Sound := by
  obtain ⟨params, defines, rfl⟩ := defineFunction_eq_ok_iff.mp defined
  refine ⟨sound.vars, ?_⟩
  intro entry member
  rcases Table.mem_insertSorted member with rfl | member
  · exact defines.sound
  · exact sound.functions entry member

theorem deleteVariable (sound : ctx.Sound) {name : String} (deleted : ctx.deleteVariable name = .ok next) :
    next.Sound := by
  unfold Context.deleteVariable at deleted
  split at deleted
  · cases deleted
    exact ⟨fun entry member => sound.vars entry (List.mem_of_mem_filter member), sound.functions⟩
  · cases deleted

theorem deleteFunction (sound : ctx.Sound) {name : String} (deleted : ctx.deleteFunction name = .ok next) :
    next.Sound := by
  unfold Context.deleteFunction at deleted
  split at deleted
  · cases deleted
    exact ⟨sound.vars, fun entry member => sound.functions entry (List.mem_of_mem_filter member)⟩
  · cases deleted

theorem loadFunction {state : Context × String} (sound : state.1.Sound) (f : StoredFunction) :
    (Shell.loadFunction state f).1.Sound := by
  unfold Shell.loadFunction
  split
  · rename_i defined
    exact sound.defineFunction defined
  · exact sound

theorem loadVariable {state : Context × String} (sound : state.1.Sound) (v : String × String) :
    (Shell.loadVariable state v).1.Sound := by
  unfold Shell.loadVariable
  split
  · rename_i defined
    cases evaluated : state.1.evalText v.2 with
    | error fault =>
      rw [evaluated] at defined
      cases defined
    | ok value =>
      rw [evaluated] at defined
      exact sound.defineVariable defined
  · exact sound

/-- The definitions of a store are checked like any others. -/
theorem load {shell : Shell} (sound : shell.context.Sound) : shell.load.shell.context.Sound := by
  have functions (stored : List StoredFunction) : (stored.foldl Shell.loadFunction (shell.context, "")).1.Sound :=
    List.foldlRecOn (motive := fun state : Context × String => state.1.Sound) stored _ sound
      fun _ sound f _ => sound.loadFunction f
  unfold Shell.load
  cases shell.store with
  | none => exact sound
  | some store =>
    dsimp only
    cases store.listFunctions with
    | error e => exact sound
    | ok stored =>
      dsimp only
      cases store.listVariables with
      | error e => exact functions stored
      | ok vars =>
        exact List.foldlRecOn (motive := fun state : Context × String => state.1.Sound) vars _ (functions stored)
          fun _ sound v _ => sound.loadVariable v

theorem kept (sound : ctx.Sound) {result : Except Fault Context} (each : ∀ next, result = .ok next → next.Sound) :
    (result.toOption.getD ctx).Sound := by
  cases result with
  | error fault => exact sound
  | ok next => exact each next rfl

/-- A request leaves a context sound, whether it fails or not. -/
theorem run (sound : ctx.Sound) (request : Request) : (request.run ctx).Sound := by
  cases request with
  | copy clock depth => cases depth <;> exact ⟨sound.vars, sound.functions⟩
  | defineVariable name value => exact sound.kept fun _ defined => sound.defineVariable defined
  | deleteVariable name => exact sound.kept fun _ deleted => sound.deleteVariable deleted
  | clearVariables => exact ⟨by rintro _ ⟨⟩, sound.functions⟩
  | defineFunction name params body =>
    exact sound.kept fun _ defined => @defineFunction _ _ sound ⟨name, params, body⟩ defined
  | deleteFunction name => exact sound.kept fun _ deleted => sound.deleteFunction deleted
  | clearFunctions => exact ⟨sound.vars, by rintro _ ⟨⟩⟩
  | load store => exact sound.load

end Sound

/-- What is asked of a new context leaves it sound. -/
theorem sound_after (clock : Int) (requests : List Request) : (after clock requests).Sound := by
  have empty : (new clock).Sound := ⟨by rintro _ ⟨⟩, by rintro _ ⟨⟩⟩
  exact List.foldlRecOn requests _ empty fun _ sound request _ => sound.run request

/-- A context is sound after any requests, and each of its functions is defined again, the same, in any context from
    what is listed of it. -/
theorem redefines_after (clock : Int) (requests : List Request) : (after clock requests).Sound ∧
    ∀ key f, (key, f) ∈ (after clock requests).functions.entries → ∀ other : Context,
      other.defineFunction key f.paramSpec f.body =
        .ok { other with functions := other.functions.insert key f } := by
  have sound := sound_after clock requests
  refine ⟨sound, ?_⟩
  intro key f member other
  exact defineFunction_paramSpec (sound.functions (key, f) member) other

/-- Of these requests one defines a function, with spaces and a sign among its parameters, and one a variable. The
    others change nothing. -/
theorem redefines_after_spaced :
    let ctx := after 0 [.defineFunction "apply" " g( +1 ) ,x" "g(x)", .defineVariable "PI" (.number 3),
      .defineVariable "top_speed" (.number 3), .defineFunction "sin" "x" "x", .defineFunction "same" "x,x" "x",
      .deleteVariable "missing", .deleteFunction "missing", .copy none none]
    let apply : Function := ⟨["apply"], [⟨"g", .delegate, 1⟩, .number "x"], "", "g(x)"⟩
    ctx.vars.names = ["top_speed"] ∧ Name.Valid false "top_speed" ∧ ctx.functions.entries = [("apply", apply)] ∧
      apply.Sound "apply" ∧ apply.paramSpec = "g(1),x" ∧
      ∀ other : Context, other.defineFunction "apply" "g(1),x" "g(x)" =
        .ok { other with functions := other.functions.insert "apply" apply } := by
  intro ctx apply
  have names : ctx.vars.names = ["top_speed"] := by decide +kernel
  have entries : ctx.functions.entries = [("apply", apply)] := by decide +kernel
  obtain ⟨sound, redefines⟩ : ctx.Sound ∧ _ := redefines_after 0 _
  have defined : ("apply", apply) ∈ ctx.functions.entries := by
    rw [entries]
    exact List.mem_singleton_self _
  obtain ⟨entry, set, named⟩ : ∃ entry ∈ ctx.vars.entries, entry.1 = "top_speed" := by
    have listed : "top_speed" ∈ ctx.vars.names := by
      rw [names]
      exact List.mem_singleton_self _
    exact List.mem_map.mp listed
  refine ⟨names, named ▸ sound.vars entry set, entries, sound.functions _ defined, by decide +kernel, ?_⟩
  exact redefines "apply" apply defined

end Context

end Reckon
