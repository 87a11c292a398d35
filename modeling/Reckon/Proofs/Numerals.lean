import Mathlib
import Reckon.Number
import Reckon.Proofs.Numbers
import Reckon.Proofs.Shortest

/-!
Numerals. The text of a decimal is read as a decimal of the same value, with its point in place or
with a power of ten (`Decimal.read?_text`), and so the text of a finite number is read as the number
(`Number.read?_text`).
-/

namespace Reckon.Decimal

theorem digitValue_of_isDigit {c : Char} (digit : c.isDigit = true) : digitValue c = c.toNat - '0'.toNat := if_pos digit

theorem foldl_digitValue {digits : List Char} (each : ∀ c ∈ digits, c.isDigit = true) (init : Nat) :
    digits.foldl (fun value c => value * 10 + digitValue c) init = Nat.ofDigitChars 10 digits init := by
  rw [Nat.ofDigitChars_eq_foldl]
  induction digits generalizing init with
  | nil => rfl
  | cons c rest ih =>
    rw [List.foldl_cons, List.foldl_cons, digitValue_of_isDigit (each c (List.mem_cons_self ..)), Nat.mul_comm init]
    exact ih (fun d mem => each d (List.mem_cons_of_mem c mem)) _

/-- An exponent that is not past any use is read as it is. -/
theorem exponentValue_eq {digits : List Char} (each : ∀ c ∈ digits, c.isDigit = true)
    (small : Nat.ofDigitChars 10 digits 0 < 10000) : exponentValue digits = Nat.ofDigitChars 10 digits 0 := by
  rw [exponentValue, List.filter_eq_self.mpr each]
  induction digits using List.reverseRecOn with
  | nil => rfl
  | append_singleton digits c ih =>
    rw [Nat.ofDigitChars_append, Nat.ofDigitChars_cons, Nat.ofDigitChars_nil] at small ⊢
    rw [List.foldl_append, ih (fun d mem => each d (List.mem_append_left _ mem)) (by omega), List.foldl_cons,
      List.foldl_nil, if_pos (by omega), digitValue_of_isDigit (each c (by simp)), Nat.mul_comm]

theorem underscoresFit_of_not_mem {cs : List Char} (none : '_' ∉ cs) {last : Seen} (fits : last ≠ .underscore) :
    underscoresFit false last cs = true := by
  induction cs generalizing last with
  | nil => exact decide_eq_true fits
  | cons c rest ih =>
    rw [List.mem_cons, not_or] at none
    rw [underscoresFit, if_neg (show ¬c = '_' from fun same => none.1 same.symm)]
    split
    · exact ih none.2 (by decide)
    · rw [ih none.2 (by decide), Bool.and_true]
      exact decide_eq_true fits

/-- Digits around a point, if any come after it. -/
def pointed (whole fraction : List Char) : List Char := whole ++ if fraction.isEmpty then [] else '.' :: fraction

section
variable {whole fraction : List Char} (first : ∀ c ∈ whole, c.isDigit = true) (last : ∀ c ∈ fraction, c.isDigit = true)
include first last

theorem isDigit_or_of_mem_pointed : ∀ c ∈ pointed whole fraction, c.isDigit = true ∨ c = '.' := by
  intro c mem
  rw [pointed, List.mem_append] at mem
  rcases mem with mem | mem
  · exact .inl (first c mem)
  · split at mem
    · cases mem
    · rcases List.mem_cons.mp mem with rfl | mem
      · exact .inr rfl
      · exact .inl (last c mem)

theorem filter_pointed : (pointed whole fraction).filter Char.isDigit = whole ++ fraction := by
  rw [pointed, List.filter_append, List.filter_eq_self.mpr first]
  congr 1
  split
  · rename_i none
    rw [List.isEmpty_iff.mp none]
    rfl
  · rw [List.filter_cons_of_neg (by decide), List.filter_eq_self.mpr last]

theorem filter_dropWhile_pointed :
    ((pointed whole fraction).dropWhile (fun c => decide (c ≠ '.'))).filter Char.isDigit = fraction := by
  have before : ∀ c ∈ whole, decide (c ≠ '.') = true := by
    intro c mem
    rw [decide_eq_true_eq]
    rintro rfl
    exact absurd (first '.' mem) (by decide)
  rw [pointed, List.dropWhile_append_of_pos before]
  split
  · rename_i none
    rw [List.isEmpty_iff.mp none]
    rfl
  · rw [List.dropWhile_cons_of_neg (by decide), List.filter_cons_of_neg (by decide), List.filter_eq_self.mpr last]

theorem count_pointed : (pointed whole fraction).count '.' ≤ 1 := by
  have none {digits : List Char} (each : ∀ c ∈ digits, c.isDigit = true) : digits.count '.' = 0 := by
    refine List.count_eq_zero.mpr fun mem => ?_
    exact absurd (each '.' mem) (by decide)
  rw [pointed, List.count_append, none first]
  split
  · exact Nat.zero_le 1
  · rw [List.count_cons_self, none last]

/-- The digits around a point are read, and those after it are counted. -/
theorem readUnsigned?_pointed {tail : List Char} {e : Int} (filled : whole ≠ [])
    (exponent : readExponent? false tail = some e) (ends : ∀ c ∈ tail.head?, c.isDigit = false ∧ c ≠ '_' ∧ c ≠ '.')
    (none : '_' ∉ tail) :
    readUnsigned? false (pointed whole fraction ++ tail) =
      ofDecimal? (Nat.ofDigitChars 10 (whole ++ fraction) 0) (e - fraction.length) := by
  have isDigitOf_eq : isDigitOf false = Char.isDigit := by
    funext c
    simp [isDigitOf]
  have plain := isDigit_or_of_mem_pointed first last
  have inside : ∀ c ∈ pointed whole fraction, (c.isDigit || decide (c = '_') || decide (c = '.')) = true := by
    intro c mem
    rcases plain c mem with digit | rfl
    · rw [digit]
      rfl
    · rfl
  have stops : tail.takeWhile (fun c => c.isDigit || decide (c = '_') || decide (c = '.')) = [] ∧
      tail.dropWhile (fun c => c.isDigit || decide (c = '_') || decide (c = '.')) = tail := by
    cases tail with
    | nil => exact ⟨rfl, rfl⟩
    | cons c rest =>
      obtain ⟨digit, underscore, point⟩ := ends c rfl
      constructor
      · exact List.takeWhile_cons_of_neg (by simp [digit, underscore, point])
      · exact List.dropWhile_cons_of_neg (by simp [digit, underscore, point])
  have underscores : '_' ∉ pointed whole fraction ++ tail := by
    rw [List.mem_append, not_or]
    refine ⟨fun mem => ?_, none⟩
    rcases plain '_' mem with digit | point
    · exact absurd digit (by decide)
    · exact absurd point (by decide)
  have digits : ∀ c ∈ whole ++ fraction, c.isDigit = true := by
    intro c mem
    rcases List.mem_append.mp mem with mem | mem
    · exact first c mem
    · exact last c mem
  simp only [readUnsigned?, isDigitOf_eq, List.takeWhile_append_of_pos inside, List.dropWhile_append_of_pos inside,
    stops.1, stops.2, List.append_nil, filter_pointed first last, filter_dropWhile_pointed first last, exponent,
    Bool.false_eq_true, ↓reduceIte, underscoresFit_of_not_mem underscores (show Seen.other ≠ .underscore by decide),
    foldl_digitValue digits]
  rw [if_neg]
  · rfl
  · have := count_pointed first last
    simp [filled]
    omega

end

theorem lower_of_isDigit {c : Char} (digit : c.isDigit = true) : lower c = c := by
  simp only [Char.isDigit, Bool.and_eq_true, decide_eq_true_eq] at digit
  rw [lower, Char.toLower, dif_neg]
  intro upper
  exact absurd (UInt32.le_trans upper.1 digit.2) (by decide)

/-- What begins with a digit and is not hexadecimal is read as a decimal numeral. -/
theorem read?_eq {c : Char} {cs : List Char} (digit : c.isDigit = true) (decimal : ∀ d ∈ cs, lower d ≠ 'x') :
    read? (String.ofList (c :: cs)) = readUnsigned? false (c :: cs) := by
  have other {w : String} {d : Char} {rest : List Char} (letters : w.toList = d :: rest) (letter : d.isDigit = false) :
      String.ofList ((c :: cs).map lower) ≠ w := by
    rintro rfl
    rw [String.toList_ofList, List.map_cons, lower_of_isDigit digit] at letters
    cases letters
    rw [digit] at letter
    cases letter
  have magnitude : readMagnitude? (c :: cs) = readUnsigned? false (c :: cs) := by
    simp only [readMagnitude?]
    rw [if_neg]
    · split
      · rename_i mark d rest same
        cases same
        rw [if_neg (decimal mark (List.mem_cons_self ..))]
      · rfl
    · rw [Bool.or_eq_true, decide_eq_true_eq, decide_eq_true_eq, not_or]
      exact ⟨other rfl (by decide), other rfl (by decide)⟩
  simp only [read?, String.toList_ofList]
  split
  · rename_i same
    cases same
    cases digit
  · rename_i same
    cases same
    cases digit
  · rw [if_neg (other rfl (by decide)), magnitude]

/-- The power of ten after the digits. -/
def power (first : Int) : List Char :=
  'e' :: (if first < 0 then '-' else '+') ::
    (zeros (2 - (digitChars first.natAbs).length) ++ digitChars first.natAbs)

theorem isDigit_or_of_mem_power {first : Int} :
    ∀ c ∈ power first, c.isDigit = true ∨ c = 'e' ∨ c = '-' ∨ c = '+' := by
  intro c mem
  rw [power, List.mem_cons, List.mem_cons, List.mem_append] at mem
  rcases mem with rfl | rfl | mem | mem
  · exact .inr (.inl rfl)
  · split
    · exact .inr (.inr (.inl rfl))
    · exact .inr (.inr (.inr rfl))
  · exact .inl (isDigit_zeros _ c mem)
  · exact .inl (isDigit_digitChars _ c mem)

/-- The exponent is read from behind its mark. -/
theorem readExponent?_power {first : Int} (small : first.natAbs < 10000) :
    readExponent? false (power first) = some first := by
  have digits : ∀ c ∈ zeros (2 - (digitChars first.natAbs).length) ++ digitChars first.natAbs, c.isDigit = true := by
    intro c mem
    rcases List.mem_append.mp mem with mem | mem
    · exact isDigit_zeros _ c mem
    · exact isDigit_digitChars _ c mem
  have value : Nat.ofDigitChars 10 (zeros (2 - (digitChars first.natAbs).length) ++ digitChars first.natAbs) 0 =
      first.natAbs := by
    rw [Nat.ofDigitChars_append, zeros, Nat.ofDigitChars_replicate_zero, Nat.mul_zero, digitChars,
      Nat.ofDigitChars_ten_toDigits]
  have some : zeros (2 - (digitChars first.natAbs).length) ++ digitChars first.natAbs ≠ [] := by
    rw [Ne, List.append_eq_nil_iff, not_and]
    intro _
    exact Nat.toDigits_ne_nil
  have exponent := exponentValue_eq digits (by rw [value]; exact small)
  rw [value] at exponent
  rw [power]
  generalize zeros (2 - (digitChars first.natAbs).length) ++ digitChars first.natAbs = chars at *
  obtain ⟨c, rest, rfl⟩ := List.exists_cons_of_ne_nil some
  have head := digits c (List.mem_cons_self ..)
  have all : (c :: rest).all (fun c => c.isDigit || decide (c = '_')) = true :=
    List.all_eq_true.mpr fun d mem => by rw [digits d mem, Bool.true_or]
  have accepted : (Option.any Char.isDigit (c :: rest).head? && (c :: rest).all fun c => c.isDigit || decide (c = '_')) =
      true := by
    rw [all, Bool.and_true]
    exact head
  by_cases below : first < 0
  · rw [if_pos below]
    simp only [readExponent?]
    rw [if_neg (by decide), if_pos accepted, if_pos trivial, exponent, Int.ofNat_eq_natCast]
    congr 1
    omega
  · rw [if_neg below]
    simp only [readExponent?]
    rw [if_neg (by decide), if_pos accepted, if_neg (by decide), exponent]
    congr 1
    omega

/-- Digits around a point are read, with a power of ten or without. -/
theorem read?_pointed {whole fraction : List Char} (first : ∀ c ∈ whole, c.isDigit = true)
    (last : ∀ c ∈ fraction, c.isDigit = true) (filled : whole ≠ []) :
    read? (String.ofList (pointed whole fraction)) =
        ofDecimal? (Nat.ofDigitChars 10 (whole ++ fraction) 0) (-fraction.length) ∧
      ∀ place : Int, place.natAbs < 10000 → read? (String.ofList (pointed whole fraction ++ power place)) =
        ofDecimal? (Nat.ofDigitChars 10 (whole ++ fraction) 0) (place - fraction.length) := by
  obtain ⟨c, rest, rfl⟩ := List.exists_cons_of_ne_nil filled
  have digit := first c (List.mem_cons_self ..)
  have small {d : Char} (plain : d.isDigit = true ∨ d = '.' ∨ d = 'e' ∨ d = '-' ∨ d = '+') : lower d ≠ 'x' := by
    rcases plain with digit | rfl | rfl | rfl | rfl
    · rw [lower_of_isDigit digit]
      rintro rfl
      exact absurd digit (by decide)
    all_goals decide
  have begin : pointed (c :: rest) fraction = c :: pointed rest fraction := rfl
  have inside := isDigit_or_of_mem_pointed first last
  rw [begin] at inside
  constructor
  · have none : readExponent? false [] = some 0 := rfl
    have whole := readUnsigned?_pointed first last filled none (by simp) (by simp)
    rw [List.append_nil, zero_sub] at whole
    rw [← whole, begin]
    refine read?_eq digit fun d mem => small ?_
    rcases inside d (List.mem_cons_of_mem c mem) with digit | point
    · exact .inl digit
    · exact .inr (.inl point)
  · intro place bound
    have underscore : '_' ∉ power place := by
      intro mem
      rcases isDigit_or_of_mem_power _ mem with digit | same | same | same
      · exact absurd digit (by decide)
      all_goals exact absurd same (by decide)
    have mark : ∀ c ∈ (power place).head?, c.isDigit = false ∧ c ≠ '_' ∧ c ≠ '.' := by
      intro c same
      cases same
      decide
    have whole := readUnsigned?_pointed first last filled (readExponent?_power bound) mark underscore
    rw [← whole, begin, List.cons_append]
    refine read?_eq digit fun d mem => small ?_
    rcases List.mem_append.mp mem with mem | mem
    · rcases inside d (List.mem_cons_of_mem c mem) with digit | point
      · exact .inl digit
      · exact .inr (.inl point)
    · rcases isDigit_or_of_mem_power d mem with digit | mark
      · exact .inl digit
      · exact .inr (.inr mark)

/-- The text of a decimal is read as a decimal of the same value. -/
theorem read?_text (layout : Layout) {n : Nat} {p : Int} (pos : 0 < n)
    (small : (p + (digitChars n).length - 1).natAbs < 10000) :
    ∃ n' p', read? (text layout ⟨n, p⟩) = ofDecimal? n' p' ∧ (n' : ℚ) * 10 ^ p' = n * 10 ^ p ∧ 0 < n' ∧
      p'.natAbs ≤ p.natAbs := by
  have digits := isDigit_digitChars n
  have value : Nat.ofDigitChars 10 (digitChars n) 0 = n := Nat.ofDigitChars_ten_toDigits
  have filled : 0 < (digitChars n).length := Nat.length_toDigits_pos
  simp only [text, Int.ofNat_eq_natCast]
  generalize place : p + (digitChars n).length - 1 = first at *
  generalize digitChars n = chars at *
  have some : chars ≠ [] := List.length_pos_iff.mp filled
  have before {k : Nat} : ∀ c ∈ chars.take k, c.isDigit = true := fun c mem => digits c (List.mem_of_mem_take mem)
  have after {k : Nat} : ∀ c ∈ chars.drop k, c.isDigit = true := fun c mem => digits c (List.mem_of_mem_drop mem)
  split
  · have shape : scientific chars first = pointed (chars.take 1) (chars.drop 1) ++ power first := by
      simp only [scientific, pointed, power, List.append_assoc, List.cons_append, List.nil_append]
    refine ⟨n, p, ?_, rfl, pos, le_rfl⟩
    rw [shape, (read?_pointed before after (by simpa using some)).2 first small, List.take_append_drop, value,
      List.length_drop]
    congr 1
    omega
  · simp only [positional]
    split
    · have shape : '0' :: '.' :: zeros (first.natAbs - 1) ++ chars = pointed ['0'] (zeros (first.natAbs - 1) ++ chars) := by
        simp [pointed, some]
      have fraction : ∀ c ∈ zeros (first.natAbs - 1) ++ chars, c.isDigit = true := by
        intro c mem
        rcases List.mem_append.mp mem with mem | mem
        · exact isDigit_zeros _ c mem
        · exact digits c mem
      have nought : ∀ c ∈ ['0'], c.isDigit = true := by simp
      refine ⟨n, p, ?_, rfl, pos, le_rfl⟩
      rw [shape, (read?_pointed nought fraction (by simp)).1, ← List.append_assoc, Nat.ofDigitChars_append,
        List.length_append, zeros, List.length_replicate, List.singleton_append, ← List.replicate_succ,
        Nat.ofDigitChars_replicate_zero, Nat.mul_zero, value]
      congr 1
      omega
    · split
      · rename_i whole fits
        obtain ⟨k, rfl⟩ : ∃ k : Nat, p = k := ⟨p.toNat, by omega⟩
        have shape : chars ++ zeros (first.toNat + 1 - chars.length) = pointed (chars ++ zeros k) [] := by
          have count : first.toNat + 1 - chars.length = k := by omega
          rw [pointed, count]
          exact (List.append_nil _).symm
        have whole : ∀ c ∈ chars ++ zeros k, c.isDigit = true := by
          intro c mem
          rcases List.mem_append.mp mem with mem | mem
          · exact digits c mem
          · exact isDigit_zeros _ c mem
        refine ⟨10 ^ k * n, 0, ?_, ?_, by positivity, by omega⟩
        · rw [shape, (read?_pointed whole (by simp) (by simp [some])).1, List.append_nil, Nat.ofDigitChars_append, value,
            zeros, Nat.ofDigitChars_replicate_zero]
          rfl
        · push_cast
          rw [mul_one, zpow_natCast, mul_comm]
      · rename_i whole long
        have shape : chars.take (first.toNat + 1) ++ '.' :: chars.drop (first.toNat + 1) =
            pointed (chars.take (first.toNat + 1)) (chars.drop (first.toNat + 1)) := by
          rw [pointed, if_neg]
          rw [List.isEmpty_iff, List.drop_eq_nil_iff]
          exact long
        refine ⟨n, p, ?_, rfl, pos, le_rfl⟩
        rw [shape, (read?_pointed before after (by simpa using some)).1, List.take_append_drop, value, List.length_drop]
        congr 1
        omega

/-- The size of a decimal, by its digits and its exponent. -/
theorem size_bounds {n : Nat} {p : Int} (pos : 0 < n) {low high : Int} (above : (10 : ℚ) ^ low ≤ n * 10 ^ p)
    (below : (n : ℚ) * 10 ^ p < 10 ^ high) :
    low < (digitChars n).length + p ∧ (digitChars n).length + p ≤ high := by
  have filled : 0 < (digitChars n).length := Nat.length_toDigits_pos
  have tens : (0 : ℚ) < 10 ^ p := zpow_pos (by norm_num) p
  have most : n < 10 ^ (digitChars n).length := (Nat.length_toDigits_le_iff (by decide) filled).mp le_rfl
  have least : 10 ^ ((digitChars n).length - 1) ≤ n := by
    by_contra less
    rcases Nat.eq_zero_or_pos ((digitChars n).length - 1) with one | more
    · rw [one] at less
      omega
    · have := (Nat.length_toDigits_le_iff (n := n) (by decide) more).mpr (Nat.not_le.mp less)
      change (digitChars n).length ≤ _ at this
      omega
  generalize (digitChars n).length = count at *
  have most : (n : ℚ) < 10 ^ (count : Int) := by rw [zpow_natCast]; exact_mod_cast most
  have least : (10 : ℚ) ^ ((count : Int) - 1) ≤ n := by
    rw [show (count : Int) - 1 = ((count - 1 : ℕ) : Int) by omega, zpow_natCast]
    exact_mod_cast least
  have base : (1 : ℚ) < 10 := by norm_num
  constructor
  · rw [← zpow_lt_zpow_iff_right₀ base, zpow_add₀ (by norm_num)]
    exact above.trans_lt (mul_lt_mul_of_pos_right most tens)
  · have : (10 : ℚ) ^ ((count : Int) - 1 + p) < 10 ^ high := by
      rw [zpow_add₀ (by norm_num)]
      exact (mul_le_mul_of_nonneg_right least tens.le).trans_lt below
    have := (zpow_lt_zpow_iff_right₀ base).mp this
    omega

end Reckon.Decimal

namespace Reckon.Number
open Double (Near Canonical)

/-- A decimal near to a number is read as the number. -/
theorem ofDecimal?_eq {x : Float} (positive : Double.isNegative x = false) (finite : x.isFinite = true)
    (filled : Double.mantissa x ≠ 0) {n : Nat} {p : Int} (pos : 0 < n) (bound : p.natAbs ≤ 2048)
    (near : Near (n * 10 ^ p) (Double.mantissa x) (Double.exponent x)) : Decimal.ofDecimal? n p = some x := by
  obtain ⟨canonical, fits, -⟩ := Double.unpack_parts finite filled
  obtain ⟨above, below⟩ := Decimal.near_bounds canonical fits near
  obtain ⟨large, small⟩ := Decimal.size_bounds pos above below
  simp only [Decimal.ofDecimal?, Double.ofScientific_eq positive finite filled pos bound near,
    Double.isInf_of_isFinite finite]
  rw [if_neg, if_neg]
  · rfl
  · simp only [Int.ofNat_eq_natCast]
    change ¬(400 : Int) < (Decimal.digitChars n).length + p
    omega
  · simp only [Int.ofNat_eq_natCast, Bool.or_eq_true, decide_eq_true_eq]
    change ¬(n = 0 ∨ ((Decimal.digitChars n).length : Int) + p < -400)
    omega

/-- The text of a finite number without a sign is read as the number. -/
theorem read?_text {x : Float} (positive : Double.isNegative x = false) (finite : x.isFinite = true) :
    read? (text x) = some x := by
  simp only [text, Double.isNaN_of_isFinite finite, Double.isInf_of_isFinite finite, positive, magnitudeText,
    Bool.false_eq_true, if_false]
  split
  · rename_i none
    rw [Double.eq_zero none positive]
    decide
  · rename_i filled
    obtain ⟨canonical, fits, -⟩ := Double.unpack_parts finite filled
    obtain ⟨near, bound⟩ := Decimal.near_shortest canonical fits
    generalize Decimal.shortest (Double.mantissa x) (Double.exponent x) = decimal at *
    obtain ⟨n, p⟩ := decimal
    simp only at near bound
    obtain ⟨above, below⟩ := Decimal.near_bounds canonical fits near
    have pos : 0 < n := by
      rcases Nat.eq_zero_or_pos n with rfl | pos
      · rw [Nat.cast_zero, zero_mul] at above
        exact absurd (zpow_pos (by norm_num) _) above.not_gt
      · exact pos
    obtain ⟨large, small⟩ := Decimal.size_bounds pos above below
    obtain ⟨n', p', read, value, pos', bound'⟩ := Decimal.read?_text layout (p := p) pos (by omega)
    rw [read?, read]
    refine ofDecimal?_eq positive finite filled pos' (by omega) ?_
    rw [value]
    exact near

/-- The text of a number with a sign is that of its magnitude after a minus. -/
theorem text_eq_abs {x : Float} (negative : Double.isNegative x = true) (number : x.isNaN = false) :
    text x = "-" ++ text x.abs := by
  have unsigned := Double.isNegative_abs x
  cases finite : x.isFinite with
  | true =>
    have same := Double.isFinite_abs x
    rw [finite] at same
    simp only [text, magnitudeText, number, Double.isNaN_abs, negative, unsigned, Double.isInf_of_isFinite finite,
      Double.isInf_of_isFinite same, Double.mantissa_abs, Double.exponent_abs]
    rfl
  | false =>
    have infinite := Double.isInf_of_not_finite finite number
    have magnitude : text Double.inf = "INF" := by decide
    rw [Double.abs_eq_inf infinite, magnitude]
    simp only [text, number, infinite, negative]
    rfl

end Reckon.Number
