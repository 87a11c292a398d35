import Mathlib
import Reckon.Proofs.Indices
import Reckon.Proofs.Integers

/-!
Factorials. Finite doubles are in the order of their values (`Double.lt_iff_value`), so a double is compared with a
whole number as its whole part is (`Double.ofNat_lt_iff_wholePart`, `Double.lt_ofNat_iff_wholePart`). The factorial of
a whole number is the product of the whole numbers up to it, which becomes infinite once the exact product is beyond
the largest double. The factorial of any number is that of its whole part, unless the number lies between 170 and 171
(`Builtin.factorial_iff`).
-/

namespace Reckon

namespace Double
open Float.Model (UnpackedFloat)

/-! ### Values -/

/-- A number with a smaller exponent is less: the mantissa of the other one has all its digits. -/
theorem Canonical.lt_of_exponent_lt {m m' : Nat} {e e' : Int} (first : Canonical m e) (second : Canonical m' e')
    (less : e < e') : (m : ℚ) * 2 ^ e < m' * 2 ^ e' := by
  have low := first.least
  have full : 2 ^ 52 ≤ m' := second.full.resolve_right (by omega)
  have next : (2 : ℚ) ^ 53 * 2 ^ e = 2 ^ 52 * 2 ^ (e + 1) := by
    rw [zpow_add₀ (by norm_num)]
    ring
  calc (m : ℚ) * 2 ^ e < 2 ^ 53 * 2 ^ e := by
        have small : (m : ℚ) < 2 ^ 53 := by exact_mod_cast first.small
        have := two_zpow_pos e
        gcongr
    _ = 2 ^ 52 * 2 ^ (e + 1) := next
    _ ≤ m' * 2 ^ e' := by
        have full : (2 : ℚ) ^ 52 ≤ m' := by exact_mod_cast full
        have := two_zpow_le (show e + 1 ≤ e' by omega)
        gcongr

/-- Positive numbers are in the order of their values. -/
theorem lt_iff_value {x y : Float} (positive : isNegative x = false) (finite : x.isFinite = true)
    (filled : mantissa x ≠ 0) (positive' : isNegative y = false) (finite' : y.isFinite = true)
    (filled' : mantissa y ≠ 0) :
    x < y ↔ (mantissa x : ℚ) * 2 ^ exponent x < mantissa y * 2 ^ exponent y := by
  obtain ⟨canonical, -, parts⟩ := unpack_parts finite filled
  obtain ⟨canonical', -, parts'⟩ := unpack_parts finite' filled'
  rw [wordSign_eq, positive] at parts
  rw [wordSign_eq, positive'] at parts'
  have places : x < y ↔ exponent x < exponent y ∨ exponent x = exponent y ∧ mantissa x < mantissa y := by
    rw [lt_iff, parts, parts', isNaN_of_isFinite finite, isNaN_of_isFinite finite']
    change _ ∧ _ ∧ toLex (1, toLex (exponent x, (mantissa x : ℤ))) < toLex (1, toLex (exponent y, (mantissa y : ℤ))) ↔ _
    rw [Prod.Lex.toLex_lt_toLex, Prod.Lex.toLex_lt_toLex]
    simp
  rw [places]
  rcases lt_trichotomy (exponent x) (exponent y) with less | same | more
  · simp [less, canonical.lt_of_exponent_lt canonical' less]
  · simp [same, two_zpow_pos]
  · have := canonical'.lt_of_exponent_lt canonical more
    simp [more.not_gt, more.ne', this.not_gt]

/-- The value of a number is less than the whole number after its whole part. -/
theorem value_lt_wholePart_succ (x : Float) : (mantissa x : ℚ) * 2 ^ exponent x < wholePart x + 1 := by
  rw [wholePart]
  cases exponent x with
  | ofNat e => simp [Nat.shiftLeft_eq]
  | negSucc e =>
    have quotient : (mantissa x : ℚ) < 2 ^ (e + 1) * ((mantissa x / 2 ^ (e + 1) : ℕ) + 1) := by
      exact_mod_cast Nat.lt_mul_div_succ (mantissa x) (by positivity)
    rw [zpow_negSucc, ← div_eq_mul_inv, div_lt_iff₀' (by positivity)]
    simpa [Nat.shiftRight_eq_div_pow] using quotient

/-- A number has a fraction if and only if its value is more than its whole part. -/
theorem hasFraction_iff {x : Float} : hasFraction x = true ↔ (wholePart x : ℚ) < mantissa x * 2 ^ exponent x := by
  rw [hasFraction, wholePart]
  cases exponent x with
  | ofNat e => simp [Nat.shiftLeft_eq]
  | negSucc e =>
    have parts := Nat.div_add_mod' (mantissa x) (2 ^ (e + 1))
    have whole : ((mantissa x >>> (e + 1) : ℕ) : ℚ) * 2 ^ (e + 1) < mantissa x ↔
        mantissa x / 2 ^ (e + 1) * 2 ^ (e + 1) < mantissa x := by
      rw [Nat.shiftRight_eq_div_pow]
      exact_mod_cast Iff.rfl
    rw [zpow_negSucc, ← div_eq_mul_inv, lt_div_iff₀ (by positivity)]
    refine Iff.trans ?_ whole.symm
    simp only [twoTo, Nat.pow_eq, decide_eq_true_eq]
    omega

theorem hasFraction_eq_false {x : Float} {n : Nat} (value : (mantissa x : ℚ) * 2 ^ exponent x = n) :
    hasFraction x = false := by
  rw [Bool.eq_false_iff, Ne, hasFraction_iff, wholePart_eq value, value]
  exact lt_irrefl _

/-- The whole part of a number with a fraction fits into the mantissa. -/
theorem wholePart_lt {x : Float} (fraction : hasFraction x = true) : wholePart x < 2 ^ 53 := by
  have small : mantissa x < 2 ^ 53 := by
    have bound : wordFraction x.toBits.toBitVec < 2 ^ 52 := Nat.mod_lt _ (by decide)
    rw [mantissa_eq]
    split <;> omega
  rw [hasFraction] at fraction
  rw [wholePart]
  cases place : exponent x with
  | ofNat e =>
    rw [place] at fraction
    cases fraction
  | negSucc e =>
    change mantissa x >>> (e + 1) < 2 ^ 53
    rw [Nat.shiftRight_eq_div_pow]
    exact (Nat.div_le_self _ _).trans_lt small

/-! ### Numbers between whole numbers -/

section Between

variable {x : Float} {n : Nat} (positive : isNegative x = false) (finite : x.isFinite = true) (filled : mantissa x ≠ 0)
  (pos : 0 < n) (small : n < 2 ^ 53)
include positive finite filled pos small

/-- A number is less than a whole number if its whole part is. -/
theorem lt_ofNat_iff_wholePart : x < Float.ofNat n ↔ wholePart x < n := by
  obtain ⟨positive', finite', filled', value⟩ := ofNat_value pos small
  rw [lt_iff_value positive finite filled positive' finite' filled', value]
  constructor
  · intro less
    exact_mod_cast (wholePart_le x).trans_lt less
  · intro less
    refine (value_lt_wholePart_succ x).trans_le ?_
    exact_mod_cast less

/-- A number with a fraction is more than a whole number if its whole part is not less. -/
theorem ofNat_lt_iff_wholePart (fraction : hasFraction x = true) : Float.ofNat n < x ↔ n ≤ wholePart x := by
  obtain ⟨positive', finite', filled', value⟩ := ofNat_value pos small
  rw [lt_iff_value positive' finite' filled' positive finite filled, value]
  constructor
  · intro less
    have less : (n : ℚ) < wholePart x + 1 := less.trans (value_lt_wholePart_succ x)
    exact Nat.lt_succ_iff.mp (by exact_mod_cast less)
  · intro le
    refine lt_of_le_of_lt ?_ (hasFraction_iff.mp fraction)
    exact_mod_cast le

/-- A number without a fraction is more than a whole number if its whole part is. -/
theorem ofNat_lt_iff_of_whole (whole : hasFraction x = false) : Float.ofNat n < x ↔ n < wholePart x := by
  obtain ⟨positive', finite', filled', value⟩ := ofNat_value pos small
  have same : (mantissa x : ℚ) * 2 ^ exponent x = wholePart x := by
    refine le_antisymm (not_lt.mp fun less => ?_) (wholePart_le x)
    rw [hasFraction_iff.mpr less] at whole
    cases whole
  rw [lt_iff_value positive' finite' filled' positive finite filled, value, same]
  exact Nat.cast_lt

end Between

/-- A number with a sign is not more than a whole number. -/
theorem not_ofNat_lt_of_isNegative {x : Float} (negative : isNegative x = true) (n : Nat) : ¬ Float.ofNat n < x := by
  intro less
  have low := (le_iff.mp (ofNat_le_ofNat (Nat.zero_le n))).2.2
  have above := low.trans_lt (lt_iff.mp less).2.2
  have sign := sign_unpack x
  rw [negative, if_pos rfl] at sign
  change toLex (0, toLex (0, 0)) < place x.toModel.unpack at above
  cases unpacked : x.toModel.unpack with
  | notANumber | zero =>
    rw [unpacked] at above
    exact lt_irrefl _ above
  | infinity s =>
    rw [unpacked] at sign above
    obtain rfl : s = .negative := sign
    exact absurd above (by decide)
  | finite s m e pos =>
    rw [unpacked] at sign above
    obtain rfl : s = .negative := sign
    change _ < toLex (-1, toLex (-e, -(m : ℤ))) at above
    rw [Prod.Lex.toLex_lt_toLex] at above
    simp at above

/-! ### Rounding toward zero -/

/-- Rounding replaces a finite number with a fraction by its whole part, and leaves all others. -/
theorem trunc_cases (x : Float) :
    trunc x = x ∧ (x.isFinite = true → hasFraction x = false) ∨
      x.isFinite = true ∧ hasFraction x = true ∧ trunc x = withSign (isNegative x) (Float.ofNat (wholePart x)) := by
  have finite : x.isFinite = isFinite x := isFinite_eq x
  rw [trunc, roundWith, finite]
  cases isFinite x <;> cases hasFraction x <;> simp

theorem hasFraction_ofNat {n : Nat} (small : n < 2 ^ 53) (negative : Bool) :
    hasFraction (withSign negative (Float.ofNat n)) = false := by
  have value : (mantissa (Float.ofNat n) : ℚ) * 2 ^ exponent (Float.ofNat n) = n := by
    rcases Nat.eq_zero_or_pos n with rfl | pos
    · have none : mantissa (Float.ofNat 0) = 0 := by decide
      simp [none]
    · exact (ofNat_value pos small).2.2.2
  cases negative with
  | false => exact hasFraction_eq_false value
  | true =>
    refine hasFraction_eq_false (n := n) ?_
    change (mantissa (-Float.ofNat n) : ℚ) * 2 ^ exponent (-Float.ofNat n) = n
    rw [mantissa_neg, exponent_neg, value]

theorem trunc_ofNat {n : Nat} (small : n < 2 ^ 53) (negative : Bool) :
    trunc (withSign negative (Float.ofNat n)) = withSign negative (Float.ofNat n) := by
  rcases trunc_cases (withSign negative (Float.ofNat n)) with ⟨same, -⟩ | ⟨-, fraction, -⟩
  · exact same
  · rw [hasFraction_ofNat small] at fraction
    cases fraction

/-- A rounded number is not changed when it is rounded again. -/
theorem trunc_trunc (x : Float) : trunc (trunc x) = trunc x := by
  rcases trunc_cases x with ⟨same, -⟩ | ⟨-, fraction, rounded⟩
  · rw [same, same]
  · rw [rounded, trunc_ofNat (wholePart_lt fraction)]

theorem isNegative_neg_ofNat {n : Nat} (small : n < 2 ^ 53) : isNegative (-Float.ofNat n) = true := by
  rcases Nat.eq_zero_or_pos n with rfl | pos
  · decide
  · obtain ⟨positive, finite, filled, -⟩ := ofNat_value pos small
    exact isNegative_neg positive finite filled

end Double

namespace Builtin
open Float.Model (Format)
open Float.Model.UnpackedFloat (mul)

/-! ### Products -/

/-- The product of the whole numbers from two to a number, from left to right. -/
def product : Nat → Float
  | 0 => 1
  | 1 => 1
  | n + 2 => product (n + 1) * Float.ofNat (n + 2)

theorem foldl_eq_product (n : Nat) :
    (List.range (n - 1)).foldl (fun product i => product * Float.ofNat (i + 2)) 1 = product n := by
  cases n with
  | zero => rfl
  | succ n =>
    rw [Nat.add_sub_cancel]
    induction n with
    | zero => rfl
    | succ n ih =>
      rw [List.range_succ, List.foldl_append, ih]
      rfl

/-- Infinity times a whole number other than zero is infinity. -/
theorem inf_mul_ofNat {n : Nat} (pos : 0 < n) : Double.inf * Float.ofNat n = Double.inf := by
  obtain ⟨-, -, m, e, canonical, -, rounded⟩ := Double.ofNat_rounds pos
  have infinite : Float.ofModel (.pack (.infinity .positive)) = Double.inf := by decide
  have product : Double.inf * Float.ofNat n = .ofModel (.pack (mul Format.binary64 (.infinity .positive)
      (Float.Model.pack (.finite .positive m e canonical.pos)).unpack)) := by
    rw [rounded]
    rfl
  rw [product]
  by_cases fits : e ≤ 971
  · rw [Double.unpack_pack canonical fits]
    exact infinite
  · rw [Double.unpack_pack_large canonical.pos (by omega)]
    exact infinite

/-- A product that is infinite stays so. -/
theorem product_infinite {n m : Nat} (infinite : product n = Double.inf) (le : n ≤ m) : product m = Double.inf := by
  induction m, le using Nat.le_induction with
  | base => exact infinite
  | succ m le ih =>
    cases m with
    | zero => exact ih
    | succ m =>
      rw [product, ih]
      exact inf_mul_ofNat (Nat.succ_pos _)

/-- The product of the whole numbers up to 170 is the last one that is a finite double. -/
theorem product_eq_inf_iff {n : Nat} : product n = Double.inf ↔ 170 < n := by
  have last : product 170 = Float.ofBits 0x7FA4AB7864418635 := by decide +kernel
  have finite : product 170 ≠ Double.inf := by
    rw [last]
    decide
  have beyond : product 171 = Double.inf := by
    rw [product, last]
    decide
  constructor
  · intro infinite
    by_contra small
    exact finite (product_infinite infinite (by omega))
  · exact fun large => product_infinite beyond large

/-- The exact product of the whole numbers up to 170 is the last one that is not beyond the largest double. -/
theorem largest_lt_factorial_iff {n : Nat} : (2 ^ 53 - 1) * 2 ^ 971 < n.factorial ↔ 170 < n := by
  have last : Nat.factorial 170 ≤ (2 ^ 53 - 1) * 2 ^ 971 := by decide +kernel
  have beyond : (2 ^ 53 - 1) * 2 ^ 971 < Nat.factorial 171 := by decide +kernel
  constructor
  · intro large
    by_contra small
    exact absurd (large.trans_le (Nat.factorial_le (by omega))) (not_lt.mpr last)
  · exact fun large => beyond.trans_le (Nat.factorial_le large)

/-! ### Factorials -/

theorem factorial_of_large {x : Float} (large : 170 < x) : factorial x = Double.inf := by
  rw [factorial, if_pos large]

theorem factorial_of_not_large {x : Float} (small : ¬ 170 < x) :
    factorial x = product (Double.toInt (Double.trunc x)).toNat := by
  rw [factorial, if_neg small]
  exact foldl_eq_product _

/-- A whole number is large as a double if it is large. -/
theorem large_ofNat_iff {n : Nat} : (170 : Float) < Float.ofNat n ↔ 170 < n := by
  constructor
  · intro large
    by_contra small
    exact Double.not_ofNat_lt (not_lt.mp small) large
  · intro large
    have next : (170 : Float) < Float.ofNat 171 := by decide
    have le : Float.ofNat 171 ≤ Float.ofNat n := Double.ofNat_le_ofNat large
    rw [Double.lt_iff] at next ⊢
    exact ⟨next.1, Double.isNaN_ofNat n, next.2.2.trans_le (Double.le_iff.mp le).2.2⟩

/-- The factorial of a whole number is the product of the whole numbers up to it. -/
theorem factorial_ofNat (n : Nat) : factorial (Float.ofNat n) = product n := by
  by_cases large : 170 < n
  · rw [factorial_of_large (large_ofNat_iff.mpr large), product_eq_inf_iff.mpr large]
  · have whole : Double.trunc (Float.ofNat n) = Float.ofNat n :=
      Double.trunc_ofNat (show n < 2 ^ 53 by omega) false
    rw [factorial_of_not_large (mt large_ofNat_iff.mp large), whole, Double.toInt_ofNat (by omega), Int.toNat_natCast]

/-- A number that is not large has the factorial of what it is rounded to, if that is not large either. -/
theorem factorial_trunc_of_not_large {x : Float} (small : ¬ 170 < x) (small' : ¬ 170 < Double.trunc x) :
    factorial x = factorial (Double.trunc x) := by
  rw [factorial_of_not_large small, factorial_of_not_large small', Double.trunc_trunc]

/-- What lies between 170 and 171 is a positive number with a fraction. -/
theorem fraction_of_between {x : Float} (low : 170 < x) (high : x < 171) :
    x.isFinite = true ∧ Double.hasFraction x = true := by
  obtain ⟨-, number, above⟩ := Double.lt_iff.mp low
  have below := (Double.lt_iff.mp high).2.2
  have finite : x.isFinite = true := by
    by_contra infinite
    rw [Bool.not_eq_true] at infinite
    rw [Double.unpack_infinite (Double.isInf_of_not_finite infinite number)] at above below
    generalize Double.wordSign x.toBits.toBitVec = sign at above below
    cases sign with
    | positive => exact absurd below (by decide)
    | negative => exact absurd above (by decide)
  have positive : Double.isNegative x = false := by
    by_contra negative
    rw [Bool.not_eq_false] at negative
    exact Double.not_ofNat_lt_of_isNegative negative 170 low
  have filled : Double.mantissa x ≠ 0 := by
    intro none
    rw [Double.eq_zero none positive] at low
    exact absurd low (by decide)
  refine ⟨finite, ?_⟩
  by_contra whole
  rw [Bool.not_eq_true] at whole
  have more : 170 < Double.wholePart x :=
    (Double.ofNat_lt_iff_of_whole positive finite filled (by decide) (by decide) whole).mp low
  have less : Double.wholePart x < 171 :=
    (Double.lt_ofNat_iff_wholePart positive finite filled (by decide) (by decide)).mp high
  omega

/-- The factorial of a positive number with a fraction is that of its whole part, unless this is 170. -/
theorem factorial_wholePart_iff {x : Float} (positive : Double.isNegative x = false) (finite : x.isFinite = true)
    (fraction : Double.hasFraction x = true) (rounded : Double.trunc x = Float.ofNat (Double.wholePart x)) :
    factorial x = factorial (Double.trunc x) ↔ ¬ (170 < x ∧ x < 171) := by
  have filled : Double.mantissa x ≠ 0 := by
    intro none
    have more := Double.hasFraction_iff.mp fraction
    simp [none, Double.wholePart_of_mantissa] at more
  have above : 170 < x ↔ 170 ≤ Double.wholePart x :=
    Double.ofNat_lt_iff_wholePart positive finite filled (by decide) (by decide) fraction
  have below : x < 171 ↔ Double.wholePart x < 171 :=
    Double.lt_ofNat_iff_wholePart positive finite filled (by decide) (by decide)
  have above' : 170 < Double.trunc x ↔ 170 < Double.wholePart x := by rw [rounded, large_ofNat_iff]
  rw [above, below]
  rcases lt_trichotomy (Double.wholePart x) 170 with less | same | more
  · have small : ¬ 170 < x := by
      rw [above]
      omega
    have small' : ¬ 170 < Double.trunc x := by
      rw [above']
      omega
    exact iff_of_true (factorial_trunc_of_not_large small small') (by omega)
  · -- Only here the number is large and its whole part is not.
    have known : product (Double.wholePart x) ≠ Double.inf := mt product_eq_inf_iff.mp (by omega)
    rw [factorial_of_large (above.mpr same.ge), rounded, factorial_ofNat]
    exact iff_of_false known.symm (by omega)
  · rw [factorial_of_large (above.mpr more.le), factorial_of_large (above'.mpr more)]
    exact iff_of_true rfl (by omega)

/-- The factorial of a number is that of the number it is rounded to, unless it lies between 170 and 171. -/
theorem factorial_trunc_iff (x : Float) :
    factorial x = factorial (Double.trunc x) ↔ ¬ (170 < x ∧ x < 171) := by
  rcases Double.trunc_cases x with ⟨same, whole⟩ | ⟨finite, fraction, rounded⟩
  · rw [same]
    refine iff_of_true rfl ?_
    rintro ⟨low, high⟩
    obtain ⟨finite, fraction⟩ := fraction_of_between low high
    rw [whole finite] at fraction
    cases fraction
  · cases sign : Double.isNegative x with
    | true =>
      have small : ¬ 170 < x := Double.not_ofNat_lt_of_isNegative sign 170
      have small' : ¬ 170 < Double.trunc x := by
        rw [rounded, sign]
        exact Double.not_ofNat_lt_of_isNegative (Double.isNegative_neg_ofNat (Double.wholePart_lt fraction)) 170
      exact iff_of_true (factorial_trunc_of_not_large small small') fun between => small between.1
    | false =>
      rw [sign] at rounded
      exact factorial_wholePart_iff sign finite fraction rounded

/-- The factorial depends on the whole part of a number only, unless it lies between 170 and 171. For whole numbers it
    is the product from left to right, which is infinite exactly if the exact one is beyond the largest double. -/
theorem factorial_iff (ctx : Context) (host : Host) (x : Float) (n : Nat) :
    let fact (x : Float) := ctx.callFor host "fact" [.value (.number x)]
    (fact x = fact (Double.trunc x) ↔ ¬ (170 < x ∧ x < 171)) ∧
      fact (Float.ofNat n) = .ok (.number (product n)) ∧
      (product n = Double.inf ↔ (2 ^ 53 - 1) * 2 ^ 971 < n.factorial) := by
  intro fact
  have value (x : Float) : fact x = .ok (.number (factorial x)) := rfl
  refine ⟨?_, ?_, product_eq_inf_iff.trans largest_lt_factorial_iff.symm⟩
  · rw [value, value, ← factorial_trunc_iff]
    simp
  · rw [value, factorial_ofNat]

/-- The factorial of 170.5 is infinite, and that of its whole part is not. -/
theorem factorial_infinite_between :
    let fact (x : Float) := (Context.new 0).callFor (Context.detachedHost 0) "fact" [.value (.number x)]
    fact 170.5 = .ok (.number Double.inf) ∧ Double.trunc 170.5 = 170 ∧ fact 170.5 ≠ fact (Double.trunc 170.5) := by
  intro fact
  have value (x : Float) : fact x = .ok (.number (factorial x)) := rfl
  have low : (170 : Float) < 170.5 := by decide
  refine ⟨?_, by decide +kernel, fun same => ?_⟩
  · rw [value, factorial_of_large low]
  · have same : factorial 170.5 = factorial (Double.trunc 170.5) := by
      rw [value, value] at same
      simpa using same
    exact (factorial_trunc_iff 170.5).mp same ⟨low, by decide⟩

end Builtin

end Reckon
