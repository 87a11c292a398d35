import Mathlib
import Reckon.Double.Integer
import Reckon.Proofs.Rounding

/-!
Whole numbers as doubles. A whole number that fits into the mantissa is a double with its value
(`Double.ofNat_value`), so it is found again when the double is converted back (`Double.toInt_ofInt`).
-/

namespace Reckon.Double
open Float.Model (Format UnpackedFloat totalExponent)
open Float.Model.UnpackedFloat

/-! ### Negation -/

/-- The words of a number and of its opposite differ in the sign only. -/
theorem word_neg (x : Float) : wordField (-x).toBits.toBitVec = wordField x.toBits.toBitVec ∧
    wordFraction (-x).toBits.toBitVec = wordFraction x.toBits.toBitVec := by
  have word : (-x).toBits.toBitVec = pack Format.binary64 x.toModel.unpack.neg := rfl
  have same : x.toModel.unpack.neg.abs = x.toModel.unpack.abs := by cases x.toModel.unpack <;> rfl
  have opposite := word_pack_abs x.toModel.unpack.neg
  have own := word_pack_abs x.toModel.unpack
  rw [same] at opposite
  rw [word, toBits_eq x]
  exact ⟨opposite.1.symm.trans own.1, opposite.2.symm.trans own.2⟩

theorem mantissa_neg (x : Float) : mantissa (-x) = mantissa x := by
  rw [mantissa_eq, mantissa_eq, (word_neg x).1, (word_neg x).2]

theorem exponent_neg (x : Float) : exponent (-x) = exponent x := by
  rw [exponent_eq, exponent_eq, (word_neg x).1]

theorem isFinite_neg (x : Float) : (-x).isFinite = x.isFinite := by
  rw [isFinite_eq, isFinite_eq, (word_neg x).1]

/-- The opposite of a positive number has a sign. -/
theorem isNegative_neg {x : Float} (positive : isNegative x = false) (finite : x.isFinite = true)
    (filled : mantissa x ≠ 0) : isNegative (-x) = true := by
  obtain ⟨canonical, fits, parts⟩ := unpack_parts finite filled
  rw [wordSign_eq, positive] at parts
  have word : (-x).toBits.toBitVec = pack Format.binary64 x.toModel.unpack.neg := rfl
  have sign : wordSign (-x).toBits.toBitVec = .negative := by
    rw [word, parts]
    change wordSign (pack Format.binary64 (.finite .negative _ _ canonical.pos)) = .negative
    rw [pack_finite canonical fits]
    split
    · exact wordSign_packComponents _ _ _
    · exact wordSign_packComponents _ _ _
  rw [wordSign_eq] at sign
  by_contra unsigned
  rw [if_neg unsigned] at sign
  cases sign

/-! ### Whole numbers -/

/-- A positive whole number that fits into the mantissa is a double with its value. -/
theorem ofNat_value {n : Nat} (pos : 0 < n) (small : n < 2 ^ 53) :
    isNegative (Float.ofNat n) = false ∧ (Float.ofNat n).isFinite = true ∧ mantissa (Float.ofNat n) ≠ 0 ∧
      (mantissa (Float.ofNat n) : ℚ) * 2 ^ exponent (Float.ofNat n) = n := by
  obtain ⟨m, e, some, unpacked, value, -⟩ := unpack_toFloat pos small
  have positive : isNegative n.toUInt64.toFloat = false := isNegative_toFloat _
  generalize n.toUInt64.toFloat = x at unpacked positive
  have finite : x.isFinite = true := by
    change UnpackedFloat.isFinite x.toModel.unpack = true
    rw [unpacked]
    rfl
  have filled : mantissa x ≠ 0 := by
    intro none
    rw [unpack_zero none] at unpacked
    cases unpacked
  obtain ⟨canonical, -, parts⟩ := unpack_parts finite filled
  obtain ⟨-, rfl, rfl⟩ : _ ∧ mantissa x = m ∧ exponent x = e := by
    rw [parts] at unpacked
    simpa using unpacked
  have whole : Float.ofNat n = x := by
    refine ofScientific_eq positive finite filled (p := 0) pos (by decide) ?_
    rw [zpow_zero, mul_one, ← value]
    exact near_self _ _
  rw [whole]
  exact ⟨positive, finite, filled, value⟩

/-- The whole part of a number with the value of a whole number is that number. -/
theorem wholePart_eq {x : Float} {n : Nat} (value : (mantissa x : ℚ) * 2 ^ exponent x = n) : wholePart x = n := by
  rw [wholePart]
  cases place : exponent x with
  | ofNat e =>
    rw [place, Int.ofNat_eq_natCast, zpow_natCast] at value
    change mantissa x <<< e = n
    rw [Nat.shiftLeft_eq]
    exact_mod_cast value
  | negSucc e =>
    rw [place, zpow_negSucc, ← div_eq_mul_inv, div_eq_iff (by positivity)] at value
    have same : mantissa x = n * 2 ^ (e + 1) := by exact_mod_cast value
    change mantissa x >>> (e + 1) = n
    rw [Nat.shiftRight_eq_div_pow, same]
    exact Nat.mul_div_cancel n (by positivity)

/-- The number that is found in a finite double with a sign and a whole part. -/
theorem toInt_of_isFinite {x : Float} (finite : x.isFinite = true) :
    toInt x = if isNegative x then -(wholePart x : Int) else wholePart x := by
  rw [isFinite_eq] at finite
  have finite : isFinite x = true := finite
  rw [toInt, finite]
  rfl

/-- A whole number whose magnitude fits into the mantissa is found again in its double. -/
theorem toInt_ofInt {a : Int} (small : a.natAbs < 2 ^ 53) : toInt (Float.ofInt a) = a := by
  cases a with
  | ofNat n =>
    rcases Nat.eq_zero_or_pos n with rfl | pos
    · decide
    · obtain ⟨positive, finite, -, value⟩ := ofNat_value pos (by simpa using small)
      rw [Float.ofInt, toInt_of_isFinite finite, positive, wholePart_eq value]
      rfl
  | negSucc n =>
    obtain ⟨positive, finite, filled, value⟩ := ofNat_value n.succ_pos (by simpa using small)
    have negative := isNegative_neg positive finite filled
    have opposite : wholePart (-Float.ofNat (n + 1)) = n + 1 := by
      refine wholePart_eq ?_
      rw [mantissa_neg, exponent_neg]
      exact value
    rw [← isFinite_neg] at finite
    change toInt (-Float.ofNat (n + 1)) = _
    rw [toInt_of_isFinite finite, negative, opposite]
    rfl

theorem toInt_ofNat {n : Nat} (small : n < 2 ^ 53) : toInt (Float.ofNat n) = n := toInt_ofInt (a := n) small

/-- Positive numbers are equal if their exponents and their mantissas are. -/
theorem beq_iff_parts {x y : Float} {m m' : Nat} {e e' : Int} {pos : 0 < m} {pos' : 0 < m'}
    (first : x.toModel.unpack = .finite .positive m e pos) (second : y.toModel.unpack = .finite .positive m' e' pos') :
    (x == y) = true ↔ e = e' ∧ m = m' := by
  have equal : (x == y) = UnpackedFloat.beq x.toModel.unpack y.toModel.unpack := rfl
  rw [equal, first, second]
  simp [UnpackedFloat.beq, UnpackedFloat.compare, Ordering.then_eq_eq]

/-- Positive whole numbers that fit into the mantissa are different doubles if they are different. -/
theorem eq_of_ofNat_beq {a b : Nat} (posA : 0 < a) (smallA : a < 2 ^ 53) (posB : 0 < b) (smallB : b < 2 ^ 53)
    (equal : (Float.ofNat a == Float.ofNat b) = true) : a = b := by
  obtain ⟨positive, finite, filled, value⟩ := ofNat_value posA smallA
  obtain ⟨positive', finite', filled', value'⟩ := ofNat_value posB smallB
  obtain ⟨canonical, -, parts⟩ := unpack_parts finite filled
  obtain ⟨canonical', -, parts'⟩ := unpack_parts finite' filled'
  rw [wordSign_eq, positive] at parts
  rw [wordSign_eq, positive'] at parts'
  obtain ⟨exponents, mantissas⟩ := (beq_iff_parts parts parts').mp equal
  rw [exponents, mantissas, value'] at value
  exact_mod_cast value.symm

end Reckon.Double
