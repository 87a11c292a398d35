import Mathlib
import Reckon.Proofs.Parts

/-!
Rounding. A number near to a double, and not nearer to another one, is rounded to it
(`Double.roundWithAccuracy_eq`), whether it comes as a product (`Double.mul_eq`), as a quotient
(`Double.div_eq`) or as a decimal (`Double.ofScientific_eq`).
-/

namespace Reckon.Double
open Float.Model (Format UnpackedFloat totalExponent)
open Float.Model.UnpackedFloat

/-- Four times the least mantissa, with a fraction, that is rounded to `m`. Below a power of two the
    neighbours are twice as near. -/
def lowEnd (m : Nat) (e : Int) : ℚ := if m = 2 ^ 52 ∧ -1074 < e then 4 * m - 1 else 4 * m - 2

/-- What is rounded to `m * 2 ^ e`: all that is nearer to it than to its neighbours, with the ends if
    `m` is even. -/
structure Near (v : ℚ) (m : Nat) (e : Int) : Prop where
  low : lowEnd m e * 2 ^ (e - 2) ≤ v
  high : v ≤ (4 * m + 2) * 2 ^ (e - 2)
  inside : m % 2 = 1 → lowEnd m e * 2 ^ (e - 2) < v ∧ v < (4 * m + 2) * 2 ^ (e - 2)

/-- The mantissa is the whole part of a number, and the two bits tell where its fraction lies. -/
def Represents (em : ExtendedMantissa) (x : ℚ) : Prop :=
  match em.roundBit, em.stickyBit with
  | false, false => x = em.mantissa
  | false, true => em.mantissa < x ∧ x < em.mantissa + 1 / 2
  | true, false => x = em.mantissa + 1 / 2
  | true, true => em.mantissa + 1 / 2 < x ∧ x < em.mantissa + 1

theorem Represents.floor {em : ExtendedMantissa} {x : ℚ} (represents : Represents em x) :
    em.mantissa ≤ x ∧ x < em.mantissa + 1 := by
  obtain ⟨m, round, sticky⟩ := em
  cases round <;> cases sticky <;> simp only [Represents] at represents <;> constructor <;> linarith

theorem Represents.shiftRightOne {em : ExtendedMantissa} {x : ℚ} (represents : Represents em x) :
    Represents em.shiftRightOne (x / 2) := by
  obtain ⟨m, round, sticky⟩ := em
  have parts : ((m % 2 : ℕ) : ℚ) + 2 * ((m / 2 : ℕ) : ℚ) = m := by exact_mod_cast Nat.mod_add_div m 2
  obtain even | odd : m % 2 = 0 ∨ m % 2 = 1 := by omega
  · rw [even] at parts
    cases round <;> cases sticky <;>
      simp only [Represents, ExtendedMantissa.shiftRightOne, even, bne_self_eq_false, Bool.or_false,
        Bool.or_true] at represents ⊢ <;>
      (try constructor) <;> push_cast at parts <;> linarith
  · rw [odd] at parts
    cases round <;> cases sticky <;>
      simp only [Represents, ExtendedMantissa.shiftRightOne, odd, Bool.or_false, Bool.or_true,
        show (1 != 0) = true from rfl] at represents ⊢ <;>
      (try constructor) <;> push_cast at parts <;> linarith

theorem Represents.shiftRight {em : ExtendedMantissa} {x : ℚ} (represents : Represents em x) (n : Nat) :
    Represents (em >>> n) (x / 2 ^ n) := by
  change Represents (n.repeat ExtendedMantissa.shiftRightOne em) _
  induction n with
  | zero => simpa [Nat.repeat] using represents
  | succ n ih =>
    rw [Nat.repeat, pow_succ, ← div_div]
    exact ih.shiftRightOne

/-- Rounding gives the nearest whole number, and the even one of two. -/
theorem Represents.roundedMantissa {em : ExtendedMantissa} {x : ℚ} (represents : Represents em x) {r : Nat}
    (low : r - 1 / 2 ≤ x) (high : x ≤ r + 1 / 2) (inside : r % 2 = 1 → r - 1 / 2 < x ∧ x < r + 1 / 2) :
    em.roundedMantissa = r := by
  obtain ⟨m, round, sticky⟩ := em
  have lower {a b : Nat} (less : (a : ℚ) < b + 1) : a ≤ b := by
    have : a < b + 1 := by exact_mod_cast less
    omega
  cases round <;> cases sticky <;>
    simp only [Represents, ExtendedMantissa.roundedMantissa, ExtendedMantissa.accuracy,
      Accuracy.roundToNearestEven] at represents ⊢
  · exact Nat.le_antisymm (lower (by linarith)) (lower (by linarith))
  · exact Nat.le_antisymm (lower (by linarith)) (lower (by linarith))
  · have first : m ≤ r := lower (by linarith)
    have second : r ≤ m + 1 := by
      have : (r : ℚ) < (m + 1 : ℕ) + 1 := by push_cast; linarith
      exact lower this
    by_cases odd : r % 2 = 1
    · obtain ⟨above, below⟩ := inside odd
      have : (m : ℚ) < r := by linarith
      have : m < r := by exact_mod_cast this
      have : (r : ℚ) < m + 1 := by linarith
      have : r < m + 1 := by exact_mod_cast this
      omega
    · omega
  · have first : m + 1 ≤ r := by
      have : ((m + 1 : ℕ) : ℚ) < r + 1 := by push_cast; linarith
      exact lower this
    have second : r ≤ m + 1 := by
      have : (r : ℚ) < (m + 1 : ℕ) + 1 := by push_cast; linarith
      exact lower this
    omega

theorem target_eq (mantissa : Nat) (exponent : Int) :
    Format.binary64.targetExponent (totalExponent mantissa exponent) =
      max (mantissa.log2 + exponent - 52) (-1074) := by
  simp only [Format.targetExponent, totalExponent, Format.mantissaBits, Format.minExponent]
  norm_num
  omega

private theorem shift_exact (m k : Nat) :
    ExtendedMantissa.mantissa (ExtendedMantissa.ofMantissaAndAccuracy m .exact >>> k) = m / 2 ^ k := by
  change (k.repeat ExtendedMantissa.shiftRightOne _).mantissa = _
  induction k with
  | zero => simp [Nat.repeat, ExtendedMantissa.ofMantissaAndAccuracy]
  | succ k ih =>
    rw [Nat.repeat, ExtendedMantissa.shiftRightOne, ih, Nat.div_div_eq_div_mul, pow_succ]

/-- Once the mantissa is rounded to one that fits, up to the next power of two, nothing is lost. -/
theorem roundWithAccuracy_of_rounded {sign : Sign} {mantissa : Nat} {exponent : Int} {accuracy : Accuracy}
    {m : Nat} {e : Int} (canonical : Canonical m e)
    (rounded : let shifted := shiftToTargetExponent Format.binary64 mantissa exponent accuracy
      (shifted.1.roundedMantissa = m ∧ shifted.2 = e) ∨
        (m = 2 ^ 52 ∧ shifted.1.roundedMantissa = 2 ^ 53 ∧ shifted.2 = e - 1 ∧ -1074 < e)) :
    roundWithAccuracy Format.binary64 sign mantissa exponent accuracy = .finite sign m e canonical.pos := by
  have settled : ∀ r f, (r = m ∧ f = e) ∨ (m = 2 ^ 52 ∧ r = 2 ^ 53 ∧ f = e - 1 ∧ -1074 < e) →
      (shiftToTargetExponent Format.binary64 r f .exact).1.mantissa = m ∧
        (shiftToTargetExponent Format.binary64 r f .exact).2 = e := by
    rintro r f (⟨rfl, rfl⟩ | ⟨rfl, rfl, rfl, more⟩)
    · have digits : r.log2 < 53 := (Nat.log2_lt canonical.pos.ne').mpr canonical.small
      have stays : (Format.binary64.targetExponent (totalExponent r f) - f).toNat = 0 := by
        have := canonical.least
        rw [target_eq]
        omega
      simp only [shiftToTargetExponent, shiftToExponent, stays, shift_exact]
      simp
    · have moves : (Format.binary64.targetExponent (totalExponent (2 ^ 53) (e - 1)) - (e - 1)).toNat = 1 := by
        rw [target_eq, Nat.log2_two_pow]
        omega
      simp only [shiftToTargetExponent, shiftToExponent, moves, shift_exact]
      constructor
      · norm_num
      · omega
  simp only at rounded
  obtain ⟨final, place⟩ := settled _ _ rounded
  simp only [roundWithAccuracy, final, place]
  rw [dif_neg canonical.pos.ne']

theorem two_zpow_pos (e : Int) : (0 : ℚ) < 2 ^ e := zpow_pos (by norm_num) e

theorem two_zpow_lt {a b : Int} (less : (2 : ℚ) ^ a < 2 ^ b) : a < b := (zpow_lt_zpow_iff_right₀ (by norm_num)).mp less

theorem two_zpow_le {a b : Int} (le : a ≤ b) : (2 : ℚ) ^ a ≤ 2 ^ b := zpow_le_zpow_right₀ (by norm_num) le

/-- The value of a mantissa with a fraction, between powers of two. -/
theorem Represents.between {em : ExtendedMantissa} {exponent : Int} {v : ℚ}
    (represents : Represents em (v / 2 ^ exponent)) :
    v < 2 ^ (em.mantissa.log2 + 1 + exponent) ∧ (em.mantissa ≠ 0 → 2 ^ (em.mantissa.log2 + exponent) ≤ v) := by
  obtain ⟨low, high⟩ := represents.floor
  rw [le_div_iff₀ (two_zpow_pos _)] at low
  rw [div_lt_iff₀ (two_zpow_pos _)] at high
  have top : ((em.mantissa : ℚ) + 1) ≤ 2 ^ (em.mantissa.log2 + 1) := by
    exact_mod_cast Nat.succ_le_of_lt Nat.lt_log2_self
  constructor
  · calc v < (em.mantissa + 1) * 2 ^ exponent := high
      _ ≤ 2 ^ (em.mantissa.log2 + 1) * 2 ^ exponent := by gcongr
      _ = 2 ^ (em.mantissa.log2 + 1 + exponent) := by
        rw [zpow_add₀ (by norm_num)]
        norm_cast
  · intro filled
    have bottom : (2 : ℚ) ^ em.mantissa.log2 ≤ em.mantissa := by exact_mod_cast Nat.log2_self_le filled
    calc (2 : ℚ) ^ (em.mantissa.log2 + exponent) = 2 ^ em.mantissa.log2 * 2 ^ exponent := by
          rw [zpow_add₀ (by norm_num)]
          norm_cast
      _ ≤ em.mantissa * 2 ^ exponent := by gcongr
      _ ≤ v := low

/-- A power of two in quarters of another. -/
private theorem two_zpow_add (n : Nat) (e : Int) : (2 : ℚ) ^ (n + e) = 2 ^ (n + 2) * 2 ^ (e - 2) := by
  rw [show (n : Int) + e = ((n + 2 : Nat) : Int) + (e - 2) by push_cast; ring, zpow_add₀ (by norm_num), zpow_natCast]

theorem lowEnd_ge (m : Nat) (e : Int) : (4 * m - 2 : ℚ) ≤ lowEnd m e := by
  rw [lowEnd]
  split <;> linarith

/-- Where the digits of a number near to `m * 2 ^ e` end: where those of `m * 2 ^ e` do, or one further down if
    that is a power of two and the number less. -/
theorem Near.target {v : ℚ} {m : Nat} {e : Int} (near : Near v m e) (canonical : Canonical m e) {digits : Nat}
    {exponent : Int} (above : v < 2 ^ (digits + 1 + exponent))
    (below : 2 ^ (digits + exponent) ≤ v ∨ exponent ≤ -1074 ∧ digits = 0) :
    max (digits + exponent - 52) (-1074) = e ∨
      m = 2 ^ 52 ∧ -1074 < e ∧ v < 2 ^ (52 + e) ∧ max (digits + exponent - 52) (-1074) = e - 1 := by
  have positive := two_zpow_pos (e - 2)
  have least := canonical.least
  have small : (m : ℚ) + 1 ≤ 2 ^ 53 := by exact_mod_cast canonical.small
  have notAbove : max (digits + exponent - 52) (-1074) ≤ e := by
    rcases below with below | ⟨tiny, rfl⟩
    · have : (2 : ℚ) ^ (digits + exponent) < 2 ^ (53 + e) := by
        have top := two_zpow_add 53 e
        norm_num at top
        rw [top]
        nlinarith [near.high]
      have := two_zpow_lt this
      omega
    · omega
  rcases Int.lt_or_eq_of_le notAbove with less | same
  · right
    have more : -1074 < e := by omega
    have full : 2 ^ 52 ≤ m := canonical.full.resolve_right (by omega)
    have bound : v < 2 ^ (52 + e) := above.trans_le (two_zpow_le (by omega))
    have power : m = 2 ^ 52 := by
      by_contra other
      have larger : (2 ^ 52 + 1 : ℚ) ≤ m := by
        have : 2 ^ 52 + 1 ≤ m := by omega
        exact_mod_cast this
      have top := two_zpow_add 52 e
      norm_num at top
      rw [top] at bound
      nlinarith [near.low, lowEnd_ge m e]
    refine ⟨power, more, bound, ?_⟩
    have low := near.low
    rw [lowEnd, if_pos ⟨power, more⟩, power] at low
    have : (2 : ℚ) ^ (51 + e) < 2 ^ (digits + 1 + exponent) := by
      refine lt_of_lt_of_le ?_ (low.trans above.le)
      have half := two_zpow_add 51 e
      norm_num at half ⊢
      rw [half]
      nlinarith
    have := two_zpow_lt this
    omega
  · exact .inl same

/-- A number near to `m * 2 ^ e` is rounded to it. -/
theorem roundWithAccuracy_eq {sign : Sign} {mantissa : Nat} {exponent : Int} {accuracy : Accuracy} {v : ℚ} {m : Nat}
    {e : Int} (canonical : Canonical m e)
    (represents : Represents (.ofMantissaAndAccuracy mantissa accuracy) (v / 2 ^ exponent))
    (fine : exponent ≤ Format.binary64.targetExponent (totalExponent mantissa exponent)) (near : Near v m e) :
    roundWithAccuracy Format.binary64 sign mantissa exponent accuracy = .finite sign m e canonical.pos := by
  have whole : (ExtendedMantissa.ofMantissaAndAccuracy mantissa accuracy).mantissa = mantissa := by
    cases accuracy with
    | exact => rfl
    | inexact order => cases order <;> rfl
  obtain ⟨above, below⟩ := represents.between
  rw [whole] at above below
  have target := near.target canonical above (by
    by_cases none : mantissa = 0
    · subst none
      rw [target_eq, Nat.log2_zero] at fine
      exact .inr ⟨by omega, rfl⟩
    · exact .inl (below none))
  rw [← target_eq] at target
  have positive := two_zpow_pos (e - 2)
  have atTarget : Represents (shiftToTargetExponent Format.binary64 mantissa exponent accuracy).1
      (v / 2 ^ Format.binary64.targetExponent (totalExponent mantissa exponent)) := by
    have shifted := represents.shiftRight
      (Format.binary64.targetExponent (totalExponent mantissa exponent) - exponent).toNat
    rw [div_div, ← zpow_natCast, ← zpow_add₀ (by norm_num), Int.toNat_of_nonneg (by omega)] at shifted
    rwa [add_sub_cancel] at shifted
  have place : (shiftToTargetExponent Format.binary64 mantissa exponent accuracy).2 =
      Format.binary64.targetExponent (totalExponent mantissa exponent) := by
    simp only [shiftToTargetExponent, shiftToExponent]
    omega
  refine roundWithAccuracy_of_rounded canonical ?_
  -- A number just below a power of two may be rounded on the grid of the smaller ones, whose unit is half as large.
  rcases target with same | ⟨power, more, bound, less⟩
  · have unit := two_zpow_add 0 e
    norm_num at unit
    rw [same, unit] at atTarget
    have low := near.low
    have high := near.high
    have ends := lowEnd_ge m e
    refine .inl ⟨atTarget.roundedMantissa ?_ ?_ fun odd => ?_, place.trans same⟩
    · rw [le_div_iff₀ (by linarith)]
      nlinarith
    · rw [div_le_iff₀ (by linarith)]
      linarith
    · obtain ⟨low, high⟩ := near.inside odd
      rw [lt_div_iff₀ (by linarith), div_lt_iff₀ (by linarith)]
      constructor
      · nlinarith
      · linarith
  · have low := near.low
    rw [lowEnd, if_pos ⟨power, more⟩, power] at low
    have half : (2 : ℚ) ^ (e - 1) = 2 * 2 ^ (e - 2) := by
      rw [show e - 1 = e - 2 + 1 by ring, zpow_add₀ (by norm_num)]
      ring
    have top := two_zpow_add 52 e
    norm_num at top low
    rw [less, half] at atTarget
    rw [top] at bound
    refine .inr ⟨power, atTarget.roundedMantissa ?_ ?_ fun odd => ?_, place.trans less, more⟩
    · rw [le_div_iff₀ (by linarith)]
      push_cast
      linarith
    · rw [div_le_iff₀ (by linarith)]
      push_cast
      linarith
    · norm_num at odd

/-! ### Products, quotients and decimals -/

theorem represents_exact (m : Nat) : Represents (.ofMantissaAndAccuracy m .exact) m := rfl

/-- The quotient of two numbers, by its whole part and its remainder. -/
theorem represents_quotient (a : Nat) {b : Nat} (pos : 0 < b) :
    Represents (.ofMantissaAndAccuracy (a / b) (accuracyOfFraction (a % b) b)) (a / b) := by
  have less := Nat.mod_lt a pos
  have parts : (a : ℚ) = b * (a / b : ℕ) + (a % b : ℕ) := by exact_mod_cast (Nat.div_add_mod a b).symm
  have posQ : (0 : ℚ) < b := by exact_mod_cast pos
  have lessQ : ((a % b : ℕ) : ℚ) < b := by exact_mod_cast less
  generalize a / b = q at *
  generalize a % b = r at *
  rw [parts, add_div, mul_div_cancel_left₀ _ posQ.ne', accuracyOfFraction]
  split
  · rename_i none
    rw [none]
    simp [Represents, ExtendedMantissa.ofMantissaAndAccuracy]
  · rename_i some
    have some : (0 : ℚ) < r := by exact_mod_cast Nat.pos_of_ne_zero some
    have fraction : 0 < (r : ℚ) / b := div_pos some posQ
    cases order : compare (2 * r) b with
    | lt =>
      have : ((2 * r : ℕ) : ℚ) < b := by exact_mod_cast Nat.compare_eq_lt.mp order
      push_cast at this
      have half : (r : ℚ) / b < 1 / 2 := by rw [div_lt_div_iff₀ posQ (by norm_num)]; linarith
      simp only [Represents, ExtendedMantissa.ofMantissaAndAccuracy]
      constructor <;> linarith
    | eq =>
      have : ((2 * r : ℕ) : ℚ) = b := by exact_mod_cast Nat.compare_eq_eq.mp order
      push_cast at this
      have : (r : ℚ) / b = 1 / 2 := by rw [div_eq_div_iff posQ.ne' (by norm_num)]; linarith
      simp [Represents, ExtendedMantissa.ofMantissaAndAccuracy, this]
    | gt =>
      have : (b : ℚ) < ((2 * r : ℕ) : ℚ) := by exact_mod_cast Nat.compare_eq_gt.mp order
      push_cast at this
      have half : 1 / 2 < (r : ℚ) / b := by rw [div_lt_div_iff₀ (by norm_num) posQ]; linarith
      have one : (r : ℚ) / b < 1 := by rw [div_lt_one posQ]; exact lessQ
      simp only [Represents, ExtendedMantissa.ofMantissaAndAccuracy]
      constructor <;> linarith

/-- A product near to a number is rounded to it, if it has digits enough. -/
theorem mul_eq {a b : Nat} {p q : Int} {posA : 0 < a} {posB : 0 < b} {m : Nat} {e : Int} (canonical : Canonical m e)
    (near : Near (a * 2 ^ p * (b * 2 ^ q)) m e) (long : 2 ^ 52 ≤ a * b) :
    mul Format.binary64 (.finite .positive a p posA) (.finite .positive b q posB) =
      .finite .positive m e canonical.pos := by
  refine roundWithAccuracy_eq canonical (v := a * 2 ^ p * (b * 2 ^ q)) ?_ ?_ near
  · have value : (a : ℚ) * 2 ^ p * (b * 2 ^ q) / 2 ^ (p + q) = (a * b : ℕ) := by
      rw [zpow_add₀ (by norm_num), div_eq_iff (mul_ne_zero (two_zpow_pos p).ne' (two_zpow_pos q).ne')]
      push_cast
      ring
    rw [value]
    exact represents_exact _
  · have := (Nat.le_log2 (Nat.mul_pos posA posB).ne').mpr long
    rw [target_eq]
    omega

/-- A quotient near to a number is rounded to it. -/
theorem div_eq {a b : Nat} {p q : Int} {posA : 0 < a} {posB : 0 < b} {m : Nat} {e : Int} (canonical : Canonical m e)
    (near : Near (a * 2 ^ p / (b * 2 ^ q)) m e) :
    div Format.binary64 (.finite .positive a p posA) (.finite .positive b q posB) =
      .finite .positive m e canonical.pos := by
  have unfolded : div Format.binary64 (.finite .positive a p posA) (.finite .positive b q posB) =
      roundWithAccuracy Format.binary64 .positive (divCore Format.binary64 a p b q).1
        (divCore Format.binary64 a p b q).2.1 (divCore Format.binary64 a p b q).2.2 := rfl
  rw [unfolded]
  have target : Format.binary64.targetExponent (totalExponent a p - totalExponent b q) =
      max (a.log2 + p - (b.log2 + q) - 53) (-1074) := by
    simp only [Format.targetExponent, totalExponent, Format.mantissaBits, Format.minExponent]
    norm_num
    omega
  simp only [divCore, target]
  generalize place : min (p - q) (max (a.log2 + p - (b.log2 + q) - 53) (-1074)) = t
  obtain ⟨shift, moved⟩ : ∃ shift : Nat, p - q - t = shift := ⟨(p - q - t).toNat, by omega⟩
  rw [moved, Int.toNat_natCast, Nat.shiftLeft_eq]
  refine roundWithAccuracy_eq canonical (v := a * 2 ^ p / (b * 2 ^ q)) ?_ ?_ near
  · have value : (a : ℚ) * 2 ^ p / (b * 2 ^ q) / 2 ^ t = ((a * 2 ^ shift : ℕ) : ℚ) / b := by
      have powers : (2 : ℚ) ^ p = 2 ^ q * 2 ^ t * 2 ^ shift := by
        rw [← zpow_natCast, ← zpow_add₀ (by norm_num), ← zpow_add₀ (by norm_num)]
        congr 1
        omega
      have := two_zpow_pos q
      have := two_zpow_pos t
      have : (b : ℚ) ≠ 0 := by exact_mod_cast posB.ne'
      rw [powers]
      push_cast
      field_simp
    rw [value]
    exact represents_quotient _ posB
  · rw [target_eq]
    by_cases tiny : t ≤ -1074
    · omega
    · have enough : 52 ≤ (a * 2 ^ shift / b).log2 := by
        obtain ⟨n, count⟩ : ∃ n : Nat, (a.log2 : Int) + shift - b.log2 - 1 = n := ⟨((a.log2 : Int) + shift - b.log2 - 1).toNat, by omega⟩
        have product : 2 ^ n * b ≤ a * 2 ^ shift := by
          calc 2 ^ n * b ≤ 2 ^ n * 2 ^ (b.log2 + 1) := Nat.mul_le_mul_left _ Nat.lt_log2_self.le
            _ = 2 ^ a.log2 * 2 ^ shift := by rw [← pow_add, ← pow_add]; congr 1; omega
            _ ≤ a * 2 ^ shift := Nat.mul_le_mul_right _ (Nat.log2_self_le posA.ne')
        have quotient : 2 ^ n ≤ a * 2 ^ shift / b := (Nat.le_div_iff_mul_le posB).mpr product
        have filled : a * 2 ^ shift / b ≠ 0 := (Nat.lt_of_lt_of_le (Nat.two_pow_pos n) quotient).ne'
        have := (Nat.le_log2 filled).mpr quotient
        omega
      omega

theorem near_self (m : Nat) (e : Int) : Near (m * 2 ^ e) m e := by
  have positive := two_zpow_pos (e - 2)
  have unit := two_zpow_add 0 e
  norm_num at unit
  have low : lowEnd m e < 4 * m := by
    rw [lowEnd]
    split <;> linarith
  have less : lowEnd m e * 2 ^ (e - 2) < m * 2 ^ e := by rw [unit]; nlinarith
  have more : (m : ℚ) * 2 ^ e < (4 * m + 2) * 2 ^ (e - 2) := by rw [unit]; nlinarith
  exact ⟨less.le, more.le, fun _ => ⟨less, more⟩⟩

/-- A whole number that fits into the mantissa is itself as a number. -/
theorem unpack_toFloat {n : Nat} (pos : 0 < n) (small : n < 2 ^ 53) :
    ∃ m e, ∃ filled : 0 < m, n.toUInt64.toFloat.toModel.unpack = .finite .positive m e filled ∧
      (m : ℚ) * 2 ^ e = n ∧ 2 ^ 52 ≤ m := by
  have digits : n.log2 < 53 := (Nat.log2_lt pos.ne').mpr small
  obtain ⟨shift, total⟩ : ∃ shift, n.log2 + shift = 52 := ⟨52 - n.log2, by omega⟩
  have low : 2 ^ 52 ≤ n * 2 ^ shift := by
    rw [← total, pow_add]
    exact Nat.mul_le_mul_right _ (Nat.log2_self_le pos.ne')
  have high : n * 2 ^ shift < 2 ^ 53 := by
    rw [show 53 = n.log2 + 1 + shift by omega, pow_add]
    exact Nat.mul_lt_mul_of_pos_right Nat.lt_log2_self (Nat.two_pow_pos shift)
  have canonical : Canonical (n * 2 ^ shift) (-shift) := ⟨by omega, high, by omega, .inl low⟩
  have log : (n * 2 ^ shift).log2 = 52 := (Nat.log2_eq_iff canonical.pos.ne').mpr ⟨low, high⟩
  have word : n.toUInt64.toNat = n := by
    rw [Nat.toUInt64_eq, UInt64.toNat_ofNat']
    exact Nat.mod_eq_of_lt (by omega)
  have rounded : UnpackedFloat.normalize Format.binary64 (n.toUInt64.toNat : Int) 0 .positive =
      .finite .positive (n * 2 ^ shift) (-shift) canonical.pos := by
    have above : compare (n : Int) 0 = .gt := Int.compare_eq_gt.mpr (by omega)
    have amount : (0 - Format.binary64.targetExponent (totalExponent n 0)).toNat = shift := by
      rw [target_eq]
      omega
    rw [word]
    simp only [UnpackedFloat.normalize, above, Int.toNat_natCast, UnpackedFloat.round, decreaseExponent, amount,
      Nat.shiftLeft_eq]
    rw [Int.zero_sub]
    refine roundWithAccuracy_eq canonical (v := (n * 2 ^ shift : ℕ) * 2 ^ (-shift : Int)) ?_ ?_ (near_self _ _)
    · rw [mul_div_cancel_right₀ _ (two_zpow_pos _).ne']
      exact represents_exact _
    · rw [target_eq]
      omega
  refine ⟨n * 2 ^ shift, -shift, canonical.pos, ?_, ?_, low⟩
  · change (Float.Model.pack (UnpackedFloat.normalize Format.binary64 (n.toUInt64.toNat : Int) 0 .positive)).unpack = _
    rw [rounded, unpack_pack canonical (by omega)]
  · push_cast
    rw [zpow_neg, zpow_natCast, mul_assoc, mul_inv_cancel₀ (by positivity), mul_one]

/-- The powers of ten that are numbers. -/
theorem unpack_powerOfTen {n : Nat} (bound : n < Float.exactlyRepresentablePowersOfTen.size) :
    ∃ m e, ∃ filled : 0 < m, Float.exactlyRepresentablePowersOfTen[n].toModel.unpack = .finite .positive m e filled ∧
      (m : ℚ) * 2 ^ e = 10 ^ n := by
  have exact : ∀ (n : Nat) (bound : n < 23), let x := Float.exactlyRepresentablePowersOfTen[n]
      x.isFinite = true ∧ isNegative x = false ∧
        mantissa x * 2 ^ (exponent x).toNat = 10 ^ n * 2 ^ (-exponent x).toNat := by decide
  obtain ⟨finite, positive, value⟩ := exact n bound
  generalize Float.exactlyRepresentablePowersOfTen[n] = x at *
  have filled : mantissa x ≠ 0 := by
    intro none
    rw [none, Nat.zero_mul] at value
    have : 0 < 10 ^ n * 2 ^ (-exponent x).toNat := by positivity
    omega
  obtain ⟨canonical, -, parts⟩ := unpack_parts finite filled
  rw [wordSign_eq, positive] at parts
  refine ⟨mantissa x, exponent x, canonical.pos, parts, ?_⟩
  have value : (mantissa x : ℚ) * 2 ^ (exponent x).toNat = 10 ^ n * 2 ^ (-exponent x).toNat := by exact_mod_cast value
  have powers : (2 : ℚ) ^ exponent x * 2 ^ (-exponent x).toNat = 2 ^ (exponent x).toNat := by
    rw [← zpow_natCast, ← zpow_natCast, ← zpow_add₀ (by norm_num)]
    congr 1
    omega
  have : (0 : ℚ) < 2 ^ (-exponent x).toNat := by positivity
  rw [← powers, ← mul_assoc] at value
  exact mul_right_cancel₀ this.ne' value

/-- A number is the one whose parts a rounding gives. -/
theorem eq_of_parts {x : Float} (positive : isNegative x = false) (finite : x.isFinite = true) (filled : mantissa x ≠ 0)
    {y : UnpackedFloat} (rounded : ∀ canonical : Canonical (mantissa x) (exponent x),
      y = .finite .positive (mantissa x) (exponent x) canonical.pos) : Float.ofModel (.pack y) = x := by
  obtain ⟨canonical, fits, parts⟩ := unpack_parts finite filled
  rw [wordSign_eq, positive] at parts
  conv_rhs => rw [← pack_unpack x, parts]
  rw [rounded canonical]
  rfl

/-- A decimal near to a number is rounded to it, in exact arithmetic. -/
theorem unpacked_ofScientific_eq {n : Nat} {p : Int} {m : Nat} {e : Int} (canonical : Canonical m e) (pos : 0 < n)
    (bound : p.natAbs ≤ 2048) (near : Near (n * 10 ^ p) m e) :
    UnpackedFloat.ofScientific Format.binary64 n p = .finite .positive m e canonical.pos := by
  have digits : Format.binary64.mantissaBits = 53 := rfl
  simp only [UnpackedFloat.ofScientific, digits]
  rw [dif_neg pos.ne', if_neg (by omega), if_neg (by omega)]
  split
  · rename_i whole
    obtain ⟨k, rfl⟩ := Int.eq_ofNat_of_zero_le whole
    refine mul_eq canonical ?_ ?_
    · convert near using 1
      push_cast [Nat.shiftLeft_eq, zpow_neg, zpow_natCast, Int.toNat_natCast]
      field_simp
    · calc 2 ^ 52 ≤ n <<< 53 := by
            rw [Nat.shiftLeft_eq]
            omega
        _ ≤ _ := Nat.le_mul_of_pos_right _ (by positivity)
  · rename_i fraction
    obtain ⟨k, rfl⟩ : ∃ k : Nat, p = -k := ⟨p.natAbs, by omega⟩
    refine div_eq canonical ?_
    convert near using 1
    rw [zpow_neg, zpow_natCast, neg_neg, Int.toNat_natCast]
    push_cast
    rw [mul_one, mul_one, div_eq_mul_inv]

/-- A decimal near to a number is rounded to it. -/
theorem ofScientific_eq {x : Float} (positive : isNegative x = false) (finite : x.isFinite = true)
    (filled : mantissa x ≠ 0) {n : Nat} {p : Int} (pos : 0 < n) (bound : p.natAbs ≤ 2048)
    (near : Near (n * 10 ^ p) (mantissa x) (exponent x)) :
    Float.ofScientific n (p < 0) p.natAbs = x := by
  simp only [Float.ofScientific, decide_eq_true_eq]
  split
  · rename_i fast
    obtain ⟨m, e, some, whole, value, long⟩ := unpack_toFloat pos fast.1
    have listed : p.natAbs < Float.exactlyRepresentablePowersOfTen.size := Nat.lt_succ_of_le fast.2
    obtain ⟨k, f, some', power, value'⟩ := unpack_powerOfTen listed
    split
    · refine eq_of_parts positive finite filled (fun canonical => ?_)
      change div _ n.toUInt64.toFloat.toModel.unpack Float.exactlyRepresentablePowersOfTen[p.natAbs].toModel.unpack = _
      rw [whole, power]
      refine div_eq canonical ?_
      rw [value, value']
      convert near using 1
      rw [show p = -(p.natAbs : Int) by omega, zpow_neg, Int.natAbs_neg, Int.natAbs_natCast, zpow_natCast, div_eq_mul_inv]
    · refine eq_of_parts positive finite filled (fun canonical => ?_)
      change mul _ n.toUInt64.toFloat.toModel.unpack Float.exactlyRepresentablePowersOfTen[p.natAbs].toModel.unpack = _
      rw [whole, power]
      refine mul_eq canonical ?_ ?_
      · rw [value, value']
        convert near using 1
        rw [show p = (p.natAbs : Int) by omega, Int.natAbs_natCast, zpow_natCast]
      · exact long.trans (Nat.le_mul_of_pos_right m some')
  · have power : (if p < 0 then Int.negOfNat p.natAbs else Int.ofNat p.natAbs) = p := by
      split
      · rw [Int.negOfNat_eq, Int.ofNat_eq_natCast]
        omega
      · rw [Int.ofNat_eq_natCast]
        omega
    rw [power]
    exact eq_of_parts positive finite filled (fun canonical => unpacked_ofScientific_eq canonical pos bound near)

end Reckon.Double
