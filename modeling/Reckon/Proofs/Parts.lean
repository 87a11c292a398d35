import Mathlib
import Reckon.Proofs.Numbers

/-!
Numbers and the words that hold them. A number is found again in the word that is made for it
(`Double.unpack_pack`, `Double.pack_unpack`), and what is found are its mantissa and its exponent
(`Double.unpack_parts`). The negative numbers are those with a sign, zero apart
(`Double.lt_zero_iff`), and zero less the magnitude of one is the number (`Double.zero_sub_abs`).
-/

namespace Reckon.Double
open Float.Model (Format UnpackedFloat totalExponent)
open Float.Model.UnpackedFloat

/-- The mantissa and the exponent of a finite number other than zero, if the exponent is not too
    large: the mantissa has all its digits, or the exponent is the least. -/
structure Canonical (m : Nat) (e : Int) : Prop where
  pos : 0 < m
  small : m < 2 ^ 53
  least : -1074 ≤ e
  full : 2 ^ 52 ≤ m ∨ e = -1074

/-- The sign of a word. -/
def wordSign (b : BitVec 64) : Sign := .ofBitVec (@unpackSign Format.binary64 b)

/-- The field of a word for its exponent. -/
def wordField (b : BitVec 64) : Nat := b.toNat / 2 ^ 52 % 2 ^ 11

/-- The field of a word for its mantissa. -/
def wordFraction (b : BitVec 64) : Nat := b.toNat % 2 ^ 52

theorem toNat_packComponents (sign : Sign) (exponent : BitVec 11) (mantissa : BitVec 52) :
    (packComponents Format.binary64 sign exponent mantissa).toNat =
      sign.toBitVec.toNat * 2 ^ 63 + exponent.toNat * 2 ^ 52 + mantissa.toNat := by
  change (sign.toBitVec ++ exponent ++ mantissa).toNat = _
  rw [BitVec.toNat_append, BitVec.toNat_append, ← Nat.shiftLeft_add_eq_or_of_lt exponent.isLt,
    ← Nat.shiftLeft_add_eq_or_of_lt mantissa.isLt, Nat.shiftLeft_eq, Nat.shiftLeft_eq]
  omega

theorem toNat_unpackMantissa (b : BitVec 64) : (@unpackMantissa Format.binary64 b).toNat = wordFraction b := by
  simp [unpackMantissa, wordFraction]

theorem toNat_unpackExponent (b : BitVec 64) : (@unpackExponent Format.binary64 b).toNat = wordField b := by
  simp [unpackExponent, wordField, Nat.shiftRight_eq_div_pow]

theorem toNat_wordSign (b : BitVec 64) : (wordSign b).toBitVec.toNat = b.toNat / 2 ^ 63 := by
  have whole (bit : BitVec 1) : (Sign.ofBitVec bit).toBitVec = bit := by
    revert bit
    decide
  have := b.isLt
  rw [wordSign, whole]
  simp [unpackSign, Nat.shiftRight_eq_div_pow]
  omega

theorem wordSign_packComponents (sign : Sign) (exponent : BitVec 11) (mantissa : BitVec 52) :
    wordSign (packComponents Format.binary64 sign exponent mantissa) = sign := by
  have same := toNat_wordSign (packComponents Format.binary64 sign exponent mantissa)
  rw [toNat_packComponents] at same
  have := exponent.isLt
  have := mantissa.isLt
  generalize wordSign _ = found at same ⊢
  cases sign <;> cases found <;> first | rfl | (simp [Sign.toBitVec] at same; omega)

theorem unpack_word (b : BitVec 64) : unpack Format.binary64 b =
    if wordField b = 2047 then if wordFraction b = 0 then .infinity (wordSign b) else .notANumber
    else if wordField b = 0 then
      if filled : wordFraction b = 0 then .zero (wordSign b)
      else .finite (wordSign b) (wordFraction b) (-1074) (Nat.pos_of_ne_zero filled)
    else .finite (wordSign b) (wordFraction b + 2 ^ 52) (wordField b - 1075) (by omega) := by
  have most : @unpackExponent Format.binary64 b = -1#_ ↔ wordField b = 2047 := by
    rw [← BitVec.toNat_inj, toNat_unpackExponent]
    rfl
  have least : @unpackExponent Format.binary64 b = 0#_ ↔ wordField b = 0 := by
    rw [← BitVec.toNat_inj, toNat_unpackExponent]
    rfl
  have empty : @unpackMantissa Format.binary64 b = 0#_ ↔ wordFraction b = 0 := by
    rw [← BitVec.toNat_inj, toNat_unpackMantissa]
    rfl
  have mantissa : (1#1 ++ @unpackMantissa Format.binary64 b).toNat = wordFraction b + 2 ^ 52 := by
    rw [BitVec.toNat_append, ← Nat.shiftLeft_add_eq_or_of_lt (BitVec.isLt _), toNat_unpackMantissa]
    simp
    omega
  have bias : ((Format.exponentBias Format.binary64 : Nat) : Int) +
      (Format.mantissaBitsWithoutImplicit Format.binary64 : Nat) = 1075 := rfl
  simp only [unpack, most, least, empty, mantissa, toNat_unpackExponent, toNat_unpackMantissa, bias]
  split
  · rfl
  · split
    · rename_i zero
      simp only [zero]
      rfl
    · rfl


theorem wordField_packComponents (sign : Sign) (exponent : BitVec 11) (mantissa : BitVec 52) :
    wordField (packComponents Format.binary64 sign exponent mantissa) = exponent.toNat := by
  have := exponent.isLt
  have := mantissa.isLt
  rw [wordField, toNat_packComponents]
  omega

theorem wordFraction_packComponents (sign : Sign) (exponent : BitVec 11) (mantissa : BitVec 52) :
    wordFraction (packComponents Format.binary64 sign exponent mantissa) = mantissa.toNat := by
  have := mantissa.isLt
  rw [wordFraction, toNat_packComponents]
  omega

private theorem finite_congr {sign : Sign} {m m' : Nat} {e e' : Int} {pos : 0 < m} {pos' : 0 < m'} (same : m = m')
    (place : e = e') : UnpackedFloat.finite sign m e pos = .finite sign m' e' pos' := by
  subst same place
  rfl

/-- The word of a number that fits. -/
theorem pack_finite {sign : Sign} {m : Nat} {e : Int} (canonical : Canonical m e) (fits : e ≤ 971) :
    pack Format.binary64 (.finite sign m e canonical.pos) =
      if 2 ^ 52 ≤ m then packComponents Format.binary64 sign (.ofNat 11 (e + 1075).toNat) (.ofNat 52 m)
      else packComponents Format.binary64 sign 0#11 (.ofNat 52 m) := by
  obtain ⟨pos, small, least, full⟩ := canonical
  have biased : (e + (Format.binary64.exponentBias : Int) + (Format.binary64.mantissaBitsWithoutImplicit : Int)).toNat =
      (e + 1075).toNat := by
    rw [add_assoc]
    rfl
  have digits : m.log2 + 1 = Format.binary64.mantissaBits ↔ 2 ^ 52 ≤ m := by
    change m.log2 + 1 = 52 + 1 ↔ _
    rw [Nat.add_right_cancel_iff, Nat.log2_eq_iff pos.ne']
    exact and_iff_left small
  simp only [pack, biased, digits]
  rw [if_neg (show ¬2 ^ 11 ≤ (e + 1075).toNat + 1 by omega)]

/-- A number that fits into a word is found in it again. -/
theorem unpack_pack {sign : Sign} {m : Nat} {e : Int} (canonical : Canonical m e) (fits : e ≤ 971) :
    (Float.Model.pack (.finite sign m e canonical.pos)).unpack = .finite sign m e canonical.pos := by
  change unpack Format.binary64 (pack Format.binary64 (.finite sign m e canonical.pos)) = _
  rw [pack_finite canonical fits, unpack_word]
  obtain ⟨pos, small, least, full⟩ := canonical
  split
  · rename_i normal
    simp only [wordField_packComponents, wordFraction_packComponents, wordSign_packComponents, BitVec.toNat_ofNat]
    rw [if_neg (by omega), if_neg (by omega)]
    exact finite_congr (by omega) (by omega)
  · rename_i subnormal
    simp only [wordField_packComponents, wordFraction_packComponents, wordSign_packComponents, BitVec.toNat_ofNat,
      Nat.mod_eq_of_lt (show m < 2 ^ 52 by omega), pos.ne']
    exact finite_congr rfl (full.resolve_left subnormal).symm

/-- A word is made up of its fields. -/
theorem packComponents_eq {b : BitVec 64} {exponent : BitVec 11} {mantissa : BitVec 52}
    (field : exponent.toNat = wordField b) (fraction : mantissa.toNat = wordFraction b) :
    packComponents Format.binary64 (wordSign b) exponent mantissa = b := by
  apply BitVec.eq_of_toNat_eq
  have := b.isLt
  rw [toNat_packComponents, toNat_wordSign, field, fraction, wordField, wordFraction]
  omega

theorem mantissa_eq (x : Float) : mantissa x =
    if wordField x.toBits.toBitVec = 0 then wordFraction x.toBits.toBitVec
    else wordFraction x.toBits.toBitVec + 2 ^ 52 := rfl

theorem exponent_eq (x : Float) : exponent x =
    if wordField x.toBits.toBitVec = 0 then -1074 else (wordField x.toBits.toBitVec : Int) - 1075 := rfl

/-- The parts of a finite number are those that its word holds. -/
theorem unpack_parts {x : Float} (finite : x.isFinite = true) (filled : mantissa x ≠ 0) :
    ∃ canonical : Canonical (mantissa x) (exponent x), exponent x ≤ 971 ∧
      x.toModel.unpack = .finite (wordSign x.toBits.toBitVec) (mantissa x) (exponent x) canonical.pos := by
  have word : x.toModel.unpack = unpack Format.binary64 x.toBits.toBitVec := rfl
  change UnpackedFloat.isFinite x.toModel.unpack = true at finite
  rw [word, unpack_word] at finite
  have bound : wordField x.toBits.toBitVec < 2 ^ 11 := Nat.mod_lt _ (by decide)
  have short : wordFraction x.toBits.toBitVec < 2 ^ 52 := Nat.mod_lt _ (by decide)
  have canonical : Canonical (mantissa x) (exponent x) := by
    rw [mantissa_eq] at filled
    refine ⟨by rw [mantissa_eq]; omega, ?_, ?_, ?_⟩
    · rw [mantissa_eq]
      split <;> omega
    · rw [exponent_eq]
      split <;> omega
    · rw [mantissa_eq, exponent_eq]
      split <;> omega
  have notMost : wordField x.toBits.toBitVec ≠ 2047 := by
    intro most
    rw [if_pos most] at finite
    split at finite <;> cases finite
  refine ⟨canonical, ?_, ?_⟩
  · rw [exponent_eq]
    split <;> omega
  · rw [mantissa_eq] at filled
    rw [word, unpack_word, if_neg notMost]
    split
    · rename_i least
      rw [if_pos least] at filled
      rw [dif_neg filled]
      exact finite_congr (by rw [mantissa_eq, if_pos least]) (by rw [exponent_eq, if_pos least])
    · rename_i more
      exact finite_congr (by rw [mantissa_eq, if_neg more]) (by rw [exponent_eq, if_neg more])

theorem unpack_infinite {x : Float} (infinite : x.isInf = true) :
    x.toModel.unpack = .infinity (wordSign x.toBits.toBitVec) := by
  have word : x.toModel.unpack = unpack Format.binary64 x.toBits.toBitVec := rfl
  change UnpackedFloat.isInf x.toModel.unpack = true at infinite
  rw [word, unpack_word] at infinite ⊢
  split at infinite
  · split at infinite
    · rename_i most empty
      rw [if_pos most, if_pos empty]
    · cases infinite
  · split at infinite
    · split at infinite <;> cases infinite
    · cases infinite

theorem isNaN_of_isFinite {x : Float} (finite : x.isFinite = true) : x.isNaN = false := by
  change UnpackedFloat.isFinite x.toModel.unpack = true at finite
  change UnpackedFloat.isNaN x.toModel.unpack = false
  cases unpacked : x.toModel.unpack with
  | notANumber => rw [unpacked] at finite; cases finite
  | infinity | zero | finite => rfl

theorem isInf_of_isFinite {x : Float} (finite : x.isFinite = true) : x.isInf = false := by
  change UnpackedFloat.isFinite x.toModel.unpack = true at finite
  change UnpackedFloat.isInf x.toModel.unpack = false
  cases unpacked : x.toModel.unpack with
  | infinity => rw [unpacked] at finite; cases finite
  | notANumber | zero | finite => rfl

/-- Without a mantissa there is only a sign. -/
theorem unpack_zero {x : Float} (none : mantissa x = 0) : x.toModel.unpack = .zero (wordSign x.toBits.toBitVec) := by
  have word : x.toModel.unpack = unpack Format.binary64 x.toBits.toBitVec := rfl
  rw [mantissa_eq] at none
  have least : wordField x.toBits.toBitVec = 0 := by
    by_contra more
    rw [if_neg more] at none
    omega
  rw [if_pos least] at none
  rw [word, unpack_word, if_neg (by omega), if_pos least, dif_pos none]

theorem mantissa_ne_zero {x : Float} (filled : (x == 0) = false) : mantissa x ≠ 0 := by
  intro none
  change UnpackedFloat.beq x.toModel.unpack (0 : Float).toModel.unpack = false at filled
  rw [unpack_zero none] at filled
  cases filled

/-- What is found in the word of a number makes up the number. -/
theorem pack_unpack (x : Float) : Float.ofModel (.pack x.toModel.unpack) = x := by
  cases none : x.isNaN with
  | true =>
    rw [eq_nan none]
    decide
  | false =>
    suffices same : pack Format.binary64 (unpack Format.binary64 x.toBits.toBitVec) = x.toBits.toBitVec by
      obtain ⟨⟨bits, valid⟩⟩ := x
      have : UInt64.ofBitVec (pack Format.binary64 (unpack Format.binary64 bits.toBitVec)) = bits :=
        UInt64.toBitVec_inj.mp same
      simp only [Float.Model.pack, Float.Model.unpack, this]
    change UnpackedFloat.isNaN (unpack Format.binary64 x.toBits.toBitVec) = false at none
    rw [unpack_word] at none ⊢
    split
    · rename_i most
      rw [if_pos most] at none
      split
      · rename_i empty
        exact packComponents_eq (by rw [most]; rfl) (by rw [empty]; rfl)
      · rename_i filled
        rw [if_neg filled] at none
        cases none
    · rename_i notMost
      have bound : wordField x.toBits.toBitVec < 2 ^ 11 := Nat.mod_lt _ (by decide)
      have short : wordFraction x.toBits.toBitVec < 2 ^ 52 := Nat.mod_lt _ (by decide)
      split
      · rename_i least
        split
        · rename_i empty
          exact packComponents_eq (by rw [least]; rfl) (by rw [empty]; rfl)
        · rename_i filled
          rw [pack_finite ⟨Nat.pos_of_ne_zero filled, by omega, by omega, .inr rfl⟩ (by omega), if_neg (by omega)]
          exact packComponents_eq (by rw [least]; rfl) (Nat.mod_eq_of_lt short)
      · rw [pack_finite ⟨by omega, by omega, by omega, .inl (by omega)⟩ (by omega), if_pos (by omega)]
        refine packComponents_eq ?_ ?_
        · rw [BitVec.toNat_ofNat]
          omega
        · rw [BitVec.toNat_ofNat]
          omega

/-- The sign of a number is that of its word. -/
theorem wordSign_eq (x : Float) : wordSign x.toBits.toBitVec = if isNegative x then .negative else .positive := by
  have same := toNat_wordSign x.toBits.toBitVec
  have bound := x.toBits.toBitVec.isLt
  change _ = x.toBits.toNat / 2 ^ 63 at same
  change x.toBits.toNat < 2 ^ 64 at bound
  simp only [isNegative, twoTo, Nat.pow_eq, ge_iff_le, decide_eq_true_eq]
  generalize wordSign x.toBits.toBitVec = sign at same ⊢
  split
  · cases sign
    · rfl
    · simp [Sign.toBitVec] at same
      omega
  · cases sign
    · simp [Sign.toBitVec] at same
      omega
    · rfl

/-- What is found in the word of a number has the sign of the number. -/
theorem sign_unpack (x : Float) :
    match x.toModel.unpack with
    | .notANumber => True
    | .infinity sign | .zero sign | .finite sign _ _ _ => sign = if isNegative x then .negative else .positive := by
  have word : x.toModel.unpack = unpack Format.binary64 x.toBits.toBitVec := rfl
  rw [word, ← wordSign_eq, unpack_word]
  by_cases most : wordField x.toBits.toBitVec = 2047
  · rw [if_pos most]
    by_cases empty : wordFraction x.toBits.toBitVec = 0
    · rw [if_pos empty]
    · rw [if_neg empty]
      trivial
  · rw [if_neg most]
    by_cases least : wordField x.toBits.toBitVec = 0
    · rw [if_pos least]
      by_cases empty : wordFraction x.toBits.toBitVec = 0
      · rw [dif_pos empty]
      · rw [dif_neg empty]
    · rw [if_neg least]

/-- The negative numbers are those with a sign, zero apart. -/
theorem lt_zero_iff {x : Float} : x < 0 ↔ isNegative x = true ∧ x.isNaN = false ∧ (x == 0) = false := by
  have sign := sign_unpack x
  have less : x < 0 ↔ UnpackedFloat.lt x.toModel.unpack (.zero .positive) = true := decide_eq_true_iff
  have none : x.isNaN = UnpackedFloat.isNaN x.toModel.unpack := rfl
  have equal : (x == 0) = UnpackedFloat.beq x.toModel.unpack (.zero .positive) := rfl
  rw [less, none, equal]
  cases unpacked : x.toModel.unpack with
  | notANumber => simp [UnpackedFloat.lt, UnpackedFloat.compare, UnpackedFloat.isNaN]
  | infinity s =>
    rw [unpacked] at sign
    simp only at sign
    rw [sign]
    cases isNegative x <;> decide
  | zero s =>
    simp [UnpackedFloat.lt, UnpackedFloat.beq, UnpackedFloat.compare]
  | finite s m e pos =>
    rw [unpacked] at sign
    simp only at sign
    rw [sign]
    cases isNegative x <;> simp [UnpackedFloat.lt, UnpackedFloat.beq, UnpackedFloat.compare, UnpackedFloat.isNaN]

theorem word_pack_abs (unpacked : UnpackedFloat) :
    wordField (pack Format.binary64 unpacked.abs) = wordField (pack Format.binary64 unpacked) ∧
      wordFraction (pack Format.binary64 unpacked.abs) = wordFraction (pack Format.binary64 unpacked) := by
  have same (first second : Sign) (exponent : BitVec 11) (mantissa : BitVec 52) :
      wordField (packComponents Format.binary64 first exponent mantissa) =
          wordField (packComponents Format.binary64 second exponent mantissa) ∧
        wordFraction (packComponents Format.binary64 first exponent mantissa) =
          wordFraction (packComponents Format.binary64 second exponent mantissa) := by
    simp only [wordField_packComponents, wordFraction_packComponents, and_self]
  cases unpacked with
  | notANumber => exact ⟨rfl, rfl⟩
  | infinity sign => exact same _ _ _ _
  | zero sign => exact same _ _ _ _
  | finite sign m e pos =>
    simp only [UnpackedFloat.abs, pack]
    split
    · exact same _ _ _ _
    · split
      · exact same _ _ _ _
      · exact same _ _ _ _

/-- The word of a number is made of what is found in it. -/
theorem toBits_eq (x : Float) : x.toBits.toBitVec = pack Format.binary64 x.toModel.unpack := by
  conv_lhs => rw [← pack_unpack x]
  rfl

theorem isNaN_eq (x : Float) : x.isNaN =
    (wordField x.toBits.toBitVec = 2047 && wordFraction x.toBits.toBitVec ≠ 0 : Bool) := by
  have word : x.isNaN = UnpackedFloat.isNaN (unpack Format.binary64 x.toBits.toBitVec) := rfl
  rw [word, unpack_word]
  split
  · rename_i most
    split <;> simp_all [UnpackedFloat.isNaN]
  · split
    · split <;> simp_all [UnpackedFloat.isNaN]
    · simp_all [UnpackedFloat.isNaN]

theorem isFinite_eq (x : Float) : x.isFinite = decide (wordField x.toBits.toBitVec ≠ 2047) := by
  have word : x.isFinite = UnpackedFloat.isFinite (unpack Format.binary64 x.toBits.toBitVec) := rfl
  rw [word, unpack_word]
  split
  · split <;> simp_all [UnpackedFloat.isFinite]
  · split
    · split <;> simp_all [UnpackedFloat.isFinite]
    · simp_all [UnpackedFloat.isFinite]

/-- The words of a number and of its magnitude differ in the sign only. -/
theorem word_abs (x : Float) : wordField x.abs.toBits.toBitVec = wordField x.toBits.toBitVec ∧
    wordFraction x.abs.toBits.toBitVec = wordFraction x.toBits.toBitVec := by
  have word : x.abs.toBits.toBitVec = pack Format.binary64 x.toModel.unpack.abs := rfl
  rw [word, toBits_eq x]
  exact word_pack_abs x.toModel.unpack

theorem mantissa_abs (x : Float) : mantissa x.abs = mantissa x := by
  rw [mantissa_eq, mantissa_eq, (word_abs x).1, (word_abs x).2]

theorem exponent_abs (x : Float) : exponent x.abs = exponent x := by
  rw [exponent_eq, exponent_eq, (word_abs x).1]

theorem isNaN_abs (x : Float) : x.abs.isNaN = x.isNaN := by
  rw [isNaN_eq, isNaN_eq, (word_abs x).1, (word_abs x).2]

theorem isFinite_abs (x : Float) : x.abs.isFinite = x.isFinite := by
  rw [isFinite_eq, isFinite_eq, (word_abs x).1]

/-- Zero is the only number without a sign and a mantissa. -/
theorem eq_zero {x : Float} (none : mantissa x = 0) (positive : isNegative x = false) : x = 0 := by
  rw [← pack_unpack x, unpack_zero none, wordSign_eq, positive]
  rfl

/-- Zero less the magnitude of a negative number is the number. -/
theorem zero_sub_abs {x : Float} (negative : isNegative x = true) (number : x.isNaN = false)
    (filled : (x == 0) = false) : 0 - x.abs = x := by
  have sign : wordSign x.toBits.toBitVec = .negative := by rw [wordSign_eq, negative]; rfl
  have difference : 0 - x.abs =
      .ofModel (.pack (sub Format.binary64 (.zero .positive) (Float.Model.pack x.toModel.unpack.abs).unpack)) := rfl
  rw [difference]
  conv_rhs => rw [← pack_unpack x]
  congr 2
  cases finite : x.isFinite with
  | true =>
    obtain ⟨canonical, fits, parts⟩ := unpack_parts finite (mantissa_ne_zero filled)
    rw [parts, sign, UnpackedFloat.abs, unpack_pack canonical fits]
    rfl
  | false =>
    rw [unpack_infinite (isInf_of_not_finite finite number), sign]
    rfl

end Reckon.Double
