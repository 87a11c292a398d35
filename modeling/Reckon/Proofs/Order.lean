import Mathlib
import Reckon.Proofs.Rounding

/-!
The order of numbers. Numbers are compared by where they stand among all numbers (`Double.lt_iff`, `Double.le_iff`,
`Double.beq_iff`). Whole numbers are rounded in their order (`Double.ofNat_le_ofNat`), and a number that is at least a
whole number is not less than the double next to that whole number (`Double.not_lt_ofNat`).
-/

namespace Reckon.Double
open Float.Model (Format UnpackedFloat totalExponent)
open Float.Model.UnpackedFloat

/-! ### Places -/

/-- Where a number stands among all numbers: by its sign, then by its exponent and its mantissa, the other way round
    below zero. Both zeros stand at one place. What is no number is compared with nothing, so its place is of no use. -/
def place : UnpackedFloat → ℤ ×ₗ ℤ ×ₗ ℤ
  | .infinity .negative => toLex (-2, toLex (0, 0))
  | .finite .negative m e _ => toLex (-1, toLex (-e, -m))
  | .zero _ | .notANumber => toLex (0, toLex (0, 0))
  | .finite .positive m e _ => toLex (1, toLex (e, m))
  | .infinity .positive => toLex (2, toLex (0, 0))

theorem compare_numbers {a b : UnpackedFloat} (first : a.isNaN = false) (second : b.isNaN = false) :
    a.compare b = some (compare (place a) (place b)) := by
  have mantissas (m m' : Nat) : compare (m : ℤ) m' = compare m m' := by
    rcases lt_trichotomy m m' with less | rfl | more
    · rw [Nat.compare_eq_lt.mpr less, Int.compare_eq_lt.mpr (by exact_mod_cast less)]
    · rw [Nat.compare_eq_eq.mpr rfl, Int.compare_eq_eq.mpr rfl]
    · rw [Nat.compare_eq_gt.mpr more, Int.compare_eq_gt.mpr (by exact_mod_cast more)]
  have opposites (e e' : ℤ) : compare (-e) (-e') = compare e' e := by
    rcases lt_trichotomy e e' with less | rfl | more
    · rw [Int.compare_eq_gt.mpr (neg_lt_neg less), Int.compare_eq_gt.mpr less]
    · rw [Int.compare_eq_eq.mpr rfl, Int.compare_eq_eq.mpr rfl]
    · rw [Int.compare_eq_lt.mpr (neg_lt_neg more), Int.compare_eq_lt.mpr more]
  cases a with
  | notANumber => cases first
  | infinity s =>
    cases b with
    | notANumber => cases second
    | zero => cases s <;> rfl
    | infinity s' | finite s' => cases s <;> cases s' <;> rfl
  | zero s =>
    cases b with
    | notANumber => cases second
    | zero => rfl
    | infinity s' | finite s' => cases s' <;> rfl
  | finite s m e pos =>
    cases b with
    | notANumber => cases second
    | zero => cases s <;> rfl
    | infinity s' => cases s <;> cases s' <;> rfl
    | finite s' m' e' pos' =>
      cases s <;> cases s'
      case negative.negative =>
        change some _ = some ((compare (-e) (-e')).then (compare (-m : ℤ) (-m')))
        rw [opposites, opposites, mantissas, Ordering.swap_then, Int.compare_swap, Nat.compare_swap]
      case positive.positive =>
        change some _ = some ((compare e e').then (compare (m : ℤ) m'))
        rw [mantissas]
      case negative.positive => rfl
      case positive.negative => rfl

/-- Two numbers are compared by where they stand, and what is no number with nothing. -/
theorem compare_eq_some_iff {a b : UnpackedFloat} {order : Ordering} :
    a.compare b = some order ↔ a.isNaN = false ∧ b.isNaN = false ∧ compare (place a) (place b) = order := by
  cases first : a.isNaN with
  | true =>
    cases a with
    | notANumber => simp [UnpackedFloat.compare]
    | infinity | zero | finite => cases first
  | false =>
    cases second : b.isNaN with
    | true =>
      cases b with
      | notANumber => cases a <;> simp [UnpackedFloat.compare]
      | infinity | zero | finite => cases second
    | false => simp [compare_numbers first second]

section Compare

variable {x y z : Float}

theorem lt_iff : x < y ↔ x.isNaN = false ∧ y.isNaN = false ∧ place x.toModel.unpack < place y.toModel.unpack := by
  have less : x < y ↔ UnpackedFloat.lt x.toModel.unpack y.toModel.unpack = true := decide_eq_true_iff
  rw [less, UnpackedFloat.lt, beq_iff_eq, compare_eq_some_iff, compare_lt_iff_lt]
  rfl

theorem beq_iff : (x == y) = true ↔
    x.isNaN = false ∧ y.isNaN = false ∧ place x.toModel.unpack = place y.toModel.unpack := by
  have equal : (x == y) = UnpackedFloat.beq x.toModel.unpack y.toModel.unpack := rfl
  rw [equal, UnpackedFloat.beq, beq_iff_eq, compare_eq_some_iff, compare_eq_iff_eq]
  rfl

theorem le_iff : x ≤ y ↔ x.isNaN = false ∧ y.isNaN = false ∧ place x.toModel.unpack ≤ place y.toModel.unpack := by
  have most : x ≤ y ↔ UnpackedFloat.le x.toModel.unpack y.toModel.unpack = true := decide_eq_true_iff
  rw [most, UnpackedFloat.le, Option.any_eq_true]
  simp only [compare_eq_some_iff]
  constructor
  · rintro ⟨order, ⟨first, second, rfl⟩, least⟩
    exact ⟨first, second, compare_le_iff_le.mp (Ordering.isLE_iff_ne_gt.mp least)⟩
  · rintro ⟨first, second, least⟩
    exact ⟨_, ⟨first, second, rfl⟩, Ordering.isLE_iff_ne_gt.mpr (compare_le_iff_le.mpr least)⟩

/-- What is not greater than a number is at most that number, or is no number. -/
theorem not_lt_iff (number : x.isNaN = false) : ¬ x < y ↔ y.isNaN = true ∨ y ≤ x := by
  rw [lt_iff, le_iff, number, ← not_lt]
  cases y.isNaN <;> simp

theorem beq_comm : (x == y) = (y == x) := by
  rw [Bool.eq_iff_iff, beq_iff, beq_iff]
  tauto

theorem beq_trans (first : (x == y) = true) (second : (y == z) = true) : (x == z) = true := by
  rw [beq_iff] at first second ⊢
  exact ⟨first.1, second.2.1, first.2.2.trans second.2.2⟩

theorem beq_self_iff : (x == x) = true ↔ x.isNaN = false := by
  rw [beq_iff]
  tauto

end Compare

/-! ### Rounding -/

/-- Rounding does not go beyond a whole number. -/
theorem Represents.roundedMantissa_le {em : ExtendedMantissa} {x : ℚ} (represents : Represents em x) {k : Nat}
    (le : x ≤ k) : em.roundedMantissa ≤ k := by
  obtain ⟨m, round, sticky⟩ := em
  have next : (m : ℚ) < k → m + 1 ≤ k := fun less => by exact_mod_cast less
  cases round <;> cases sticky <;>
    simp only [Represents, ExtendedMantissa.roundedMantissa, ExtendedMantissa.accuracy,
      Accuracy.roundToNearestEven] at represents ⊢
  · rw [represents] at le
    exact_mod_cast le
  · have := next (by linarith)
    omega
  · have := next (by linarith)
    omega
  · have := next (by linarith)
    omega

/-- Rounding does not go below a whole number. -/
theorem Represents.le_roundedMantissa {em : ExtendedMantissa} {x : ℚ} (represents : Represents em x) {k : Nat}
    (le : k ≤ x) : k ≤ em.roundedMantissa := by
  have whole : k ≤ em.mantissa := by
    have less : (k : ℚ) < em.mantissa + 1 := le.trans_lt represents.floor.2
    have : k < em.mantissa + 1 := by exact_mod_cast less
    omega
  refine whole.trans ?_
  obtain ⟨m, round, sticky⟩ := em
  cases round <;> cases sticky <;>
    simp only [ExtendedMantissa.roundedMantissa, ExtendedMantissa.accuracy, Accuracy.roundToNearestEven] <;> omega

/-- Rounding keeps an order. -/
theorem Represents.roundedMantissa_mono {em em' : ExtendedMantissa} {x x' : ℚ} (represents : Represents em x)
    (represents' : Represents em' x') (le : x ≤ x') : em.roundedMantissa ≤ em'.roundedMantissa := by
  have floors : em.mantissa ≤ em'.mantissa := by
    have less : (em.mantissa : ℚ) < em'.mantissa + 1 := (represents.floor.1.trans le).trans_lt represents'.floor.2
    have : em.mantissa < em'.mantissa + 1 := by exact_mod_cast less
    omega
  rcases Nat.lt_or_eq_of_le floors with less | same
  · -- A whole number lies between the two.
    have next : ((em.mantissa + 1 : ℕ) : ℚ) ≤ em'.mantissa := by exact_mod_cast less
    refine (represents.roundedMantissa_le (k := em.mantissa + 1) ?_).trans
      (represents'.le_roundedMantissa (next.trans represents'.floor.1))
    push_cast
    exact represents.floor.2.le
  · obtain ⟨m, round, sticky⟩ := em
    obtain ⟨m', round', sticky'⟩ := em'
    obtain rfl : m = m' := same
    cases round <;> cases sticky <;> cases round' <;> cases sticky' <;>
      simp only [Represents, ExtendedMantissa.roundedMantissa, ExtendedMantissa.accuracy,
        Accuracy.roundToNearestEven] at represents represents' ⊢ <;>
      first
      | omega
      | exfalso; linarith

/-- What a number is rounded to at the unit `2 ^ t`, which it has 53 digits before: a mantissa of 53 digits, or the
    next power of two, which moves the exponent. -/
structure Rounds (v : ℚ) (em : ExtendedMantissa) (t : Int) (m : Nat) (e : Int) : Prop where
  represents : Represents em (v / 2 ^ t)
  least : (2 : ℚ) ^ (52 + t) ≤ v
  small : v < 2 ^ (53 + t)
  lowest : -1074 ≤ t
  parts : em.roundedMantissa = m ∧ e = t ∨ em.roundedMantissa = 2 ^ 53 ∧ m = 2 ^ 52 ∧ e = t + 1

namespace Rounds

variable {v v' : ℚ} {em em' : ExtendedMantissa} {t t' : Int} {m m' : Nat} {e e' : Int}

theorem full (rounds : Rounds v em t m e) : 2 ^ 52 ≤ m := by
  have low : ((2 ^ 52 : ℕ) : ℚ) ≤ v / 2 ^ t := by
    rw [le_div_iff₀ (two_zpow_pos t)]
    refine le_trans (le_of_eq ?_) rounds.least
    rw [zpow_add₀ (by norm_num)]
    norm_num
  have := rounds.represents.le_roundedMantissa low
  have := rounds.parts
  omega

/-- Rounding does not go beyond a double. -/
theorem le (rounds : Rounds v em t m e) {k : Nat} {f : Int} (bound : Canonical k f) (le : v ≤ k * 2 ^ f) :
    e < f ∨ e = f ∧ m ≤ k := by
  have small := bound.small
  have notAbove : t ≤ f := by
    have : (2 : ℚ) ^ (52 + t) < 2 ^ (53 + f) := by
      refine (rounds.least.trans le).trans_lt ?_
      rw [zpow_add₀ (by norm_num)]
      have : (k : ℚ) < 2 ^ (53 : Int) := by exact_mod_cast small
      have := two_zpow_pos f
      gcongr
    have := two_zpow_lt this
    omega
  have beside : t = f → em.roundedMantissa ≤ k := by
    rintro rfl
    exact rounds.represents.roundedMantissa_le ((div_le_iff₀ (two_zpow_pos t)).mpr le)
  have := bound.full
  have := rounds.lowest
  have := rounds.parts
  omega

/-- Doubles are in the order of the numbers that are rounded to them. -/
theorem mono (rounds : Rounds v em t m e) (canonical : Canonical m e) (rounds' : Rounds v' em' t' m' e')
    (canonical' : Canonical m' e') (le : v ≤ v') : e < e' ∨ e = e' ∧ m ≤ m' := by
  have notAbove : t ≤ t' := by
    have := two_zpow_lt ((rounds.least.trans le).trans_lt rounds'.small)
    omega
  have beside : t = t' → em.roundedMantissa ≤ em'.roundedMantissa := by
    rintro rfl
    have := two_zpow_pos t
    exact rounds.represents.roundedMantissa_mono rounds'.represents (by gcongr)
  have := rounds.parts
  have := rounds'.parts
  have := rounds'.full
  have := canonical.small
  have := canonical'.small
  omega

end Rounds

/-- A number of enough digits is rounded. -/
theorem roundWithAccuracy_rounds {sign : Sign} {mantissa : Nat} {exponent : Int} (long : 2 ^ 52 ≤ mantissa)
    (normal : (1 : ℚ) ≤ mantissa * 2 ^ exponent) :
    ∃ em t m e, ∃ canonical : Canonical m e, Rounds (mantissa * 2 ^ exponent) em t m e ∧
      roundWithAccuracy Format.binary64 sign mantissa exponent .exact = .finite sign m e canonical.pos := by
  have pos : mantissa ≠ 0 := by omega
  have digits : 52 ≤ mantissa.log2 := (Nat.le_log2 pos).mpr long
  have whole : Represents (.ofMantissaAndAccuracy mantissa .exact) (mantissa * 2 ^ exponent / 2 ^ exponent) := by
    rw [mul_div_cancel_right₀ _ (two_zpow_pos _).ne']
    exact represents_exact _
  obtain ⟨above, below⟩ := whole.between
  change _ < (2 : ℚ) ^ ((mantissa.log2 : Int) + 1 + exponent) at above
  replace below : (2 : ℚ) ^ ((mantissa.log2 : Int) + exponent) ≤ _ := below pos
  have least : (0 : Int) < mantissa.log2 + 1 + exponent := two_zpow_lt (by simpa using normal.trans_lt above)
  obtain ⟨t, target⟩ : ∃ t, t = (mantissa.log2 : Int) + exponent - 52 := ⟨_, rfl⟩
  rw [show (mantissa.log2 : Int) + exponent = 52 + t by omega] at below
  rw [show (mantissa.log2 : Int) + 1 + exponent = 53 + t by omega] at above
  have unit : Format.binary64.targetExponent (totalExponent mantissa exponent) = t := by
    rw [target_eq]
    omega
  have shifted : Represents (shiftToTargetExponent Format.binary64 mantissa exponent .exact).1
      (mantissa * 2 ^ exponent / 2 ^ t) := by
    have moved := (represents_exact mantissa).shiftRight (t - exponent).toNat
    rw [← zpow_natCast, Int.toNat_of_nonneg (by omega), zpow_sub₀ (by norm_num), div_div_eq_mul_div] at moved
    simpa only [shiftToTargetExponent, shiftToExponent, unit] using moved
  have stays : (shiftToTargetExponent Format.binary64 mantissa exponent .exact).2 = t := by
    simp only [shiftToTargetExponent, shiftToExponent, unit]
    omega
  have floor : 2 ^ 52 ≤ (shiftToTargetExponent Format.binary64 mantissa exponent .exact).1.roundedMantissa := by
    refine shifted.le_roundedMantissa ?_
    rw [le_div_iff₀ (two_zpow_pos t)]
    refine le_trans (le_of_eq ?_) below
    rw [zpow_add₀ (by norm_num)]
    norm_num
  have ceiling : (shiftToTargetExponent Format.binary64 mantissa exponent .exact).1.roundedMantissa ≤ 2 ^ 53 := by
    refine shifted.roundedMantissa_le ?_
    rw [div_le_iff₀ (two_zpow_pos t)]
    refine above.le.trans (le_of_eq ?_)
    rw [zpow_add₀ (by norm_num)]
    norm_num
  -- Rounding up may carry into a digit more, which moves the exponent.
  by_cases carried : (shiftToTargetExponent Format.binary64 mantissa exponent .exact).1.roundedMantissa = 2 ^ 53
  · have canonical : Canonical (2 ^ 52) (t + 1) := ⟨by norm_num, by norm_num, by omega, .inl le_rfl⟩
    refine ⟨_, t, _, _, canonical, ⟨shifted, below, above, by omega, .inr ⟨carried, rfl, rfl⟩⟩, ?_⟩
    exact roundWithAccuracy_of_rounded canonical (.inr ⟨rfl, carried, by omega, by omega⟩)
  · have canonical : Canonical (shiftToTargetExponent Format.binary64 mantissa exponent .exact).1.roundedMantissa t :=
      ⟨by omega, lt_of_le_of_ne ceiling carried, by omega, .inl floor⟩
    refine ⟨_, t, _, _, canonical, ⟨shifted, below, above, by omega, .inl ⟨rfl, rfl⟩⟩, ?_⟩
    exact roundWithAccuracy_of_rounded canonical (.inl ⟨rfl, stays⟩)

/-- A product of two numbers whose value is whole is rounded. -/
theorem mul_rounds {a b : Nat} {p q : Int} (first : 0 < a) (second : 0 < b) (long : 2 ^ 52 ≤ a * b) {n : Nat}
    (filled : 0 < n) (value : (a : ℚ) * 2 ^ p * (b * 2 ^ q) = n) :
    ∃ em t m e, ∃ canonical : Canonical m e, Rounds n em t m e ∧
      mul Format.binary64 (.finite .positive a p first) (.finite .positive b q second) =
        .finite .positive m e canonical.pos := by
  have product : ((a * b : ℕ) : ℚ) * 2 ^ (p + q) = n := by
    rw [← value, zpow_add₀ (by norm_num)]
    push_cast
    ring
  rw [← product]
  refine roundWithAccuracy_rounds long ?_
  rw [product]
  exact_mod_cast filled

/-- A large whole number is rounded as a product. -/
theorem ofScientific_whole {n : Nat} (pos : 0 < n) : UnpackedFloat.ofScientific Format.binary64 n 0 =
    mul Format.binary64 (.finite .positive (n <<< 53) (-53) (by rw [Nat.shiftLeft_eq]; positivity))
      (.finite .positive (10 ^ (0 : Int).toNat) 0 (by positivity)) := by
  have digits : Format.binary64.mantissaBits = 53 := rfl
  simp only [UnpackedFloat.ofScientific, digits]
  rw [dif_neg pos.ne', if_neg (by omega), if_neg (by omega), if_pos le_rfl]
  rfl

/-- A whole number other than zero becomes the double that it is rounded to. -/
theorem ofNat_rounds {n : Nat} (pos : 0 < n) :
    ∃ em t m e, ∃ canonical : Canonical m e, Rounds n em t m e ∧
      Float.ofNat n = .ofModel (.pack (.finite .positive m e canonical.pos)) := by
  change ∃ em t m e, ∃ canonical : Canonical m e, _ ∧ Float.ofScientific n false 0 = _
  -- Both ways in which a whole number becomes a double end in a product.
  by_cases small : n < 2 ^ 53
  · obtain ⟨a, p, some, whole, value, long⟩ := unpack_toFloat pos small
    have listed : 0 < Float.exactlyRepresentablePowersOfTen.size := by decide
    obtain ⟨b, q, some', power, value'⟩ := unpack_powerOfTen listed
    have product : (a : ℚ) * 2 ^ p * (b * 2 ^ q) = n := by rw [value, value', pow_zero, mul_one]
    obtain ⟨em, t, m, e, canonical, rounds, product⟩ :=
      mul_rounds some some' (long.trans (Nat.le_mul_of_pos_right a some')) pos product
    refine ⟨em, t, m, e, canonical, rounds, ?_⟩
    rw [← product, ← whole, ← power, Float.ofScientific, dif_pos ⟨small, by omega⟩]
    rfl
  · have shifted : 2 ^ 52 ≤ n <<< 53 * 10 ^ (0 : Int).toNat := by
      simp only [Nat.shiftLeft_eq, Int.toNat_zero, pow_zero, mul_one]
      omega
    have large : 0 < n <<< 53 := by
      rw [Nat.shiftLeft_eq]
      omega
    have product : ((n <<< 53 : ℕ) : ℚ) * 2 ^ (-53 : Int) * ((10 ^ (0 : Int).toNat : ℕ) * 2 ^ (0 : Int)) = n := by
      push_cast [Nat.shiftLeft_eq, Int.toNat_zero]
      norm_num [mul_assoc]
    obtain ⟨em, t, m, e, canonical, rounds, product⟩ := mul_rounds large (by positivity) shifted pos product
    refine ⟨em, t, m, e, canonical, rounds, ?_⟩
    rw [← product, Float.ofScientific, dif_neg (fun both => small both.1)]
    change Float.ofModel (.pack (UnpackedFloat.ofScientific Format.binary64 n 0)) = _
    rw [ofScientific_whole pos]

/-! ### Whole numbers -/

/-- A number that does not fit into a word becomes infinite. -/
theorem unpack_pack_large {sign : Sign} {m : Nat} {e : Int} (pos : 0 < m) (large : 971 < e) :
    (Float.Model.pack (.finite sign m e pos)).unpack = .infinity sign := by
  have biased : (e + (Format.binary64.exponentBias : Int) + (Format.binary64.mantissaBitsWithoutImplicit : Int)).toNat =
      (e + 1075).toNat := by
    rw [add_assoc]
    rfl
  change unpack Format.binary64 (pack Format.binary64 (.finite sign m e pos)) = _
  simp only [pack, biased]
  rw [if_pos (show 2 ^ 11 ≤ (e + 1075).toNat + 1 by omega)]
  cases sign <;> rfl

/-- Where a positive number stands once it is in a word. -/
theorem place_pack {m : Nat} {e : Int} (canonical : Canonical m e) :
    place (Float.Model.pack (.finite .positive m e canonical.pos)).unpack =
      if e ≤ 971 then toLex (1, toLex (e, (m : ℤ))) else toLex (2, toLex (0, 0)) := by
  split
  · rename_i fits
    rw [unpack_pack canonical fits]
    rfl
  · rename_i large
    rw [unpack_pack_large canonical.pos (by omega)]
    rfl

theorem isNaN_pack {m : Nat} {e : Int} (canonical : Canonical m e) :
    (Float.ofModel (.pack (.finite .positive m e canonical.pos))).isNaN = false := by
  change (Float.Model.pack (.finite .positive m e canonical.pos)).unpack.isNaN = false
  by_cases fits : e ≤ 971
  · rw [unpack_pack canonical fits]
    rfl
  · rw [unpack_pack_large canonical.pos (by omega)]
    rfl

/-- A whole number becomes a number. -/
theorem isNaN_ofNat (n : Nat) : (Float.ofNat n).isNaN = false := by
  rcases Nat.eq_zero_or_pos n with rfl | pos
  · decide
  · obtain ⟨-, -, m, e, canonical, -, rounded⟩ := ofNat_rounds pos
    rw [rounded]
    exact isNaN_pack canonical

/-- Whole numbers are rounded in their order. -/
theorem ofNat_le_ofNat {a b : Nat} (le : a ≤ b) : Float.ofNat a ≤ Float.ofNat b := by
  refine le_iff.mpr ⟨isNaN_ofNat a, isNaN_ofNat b, ?_⟩
  rcases Nat.eq_zero_or_pos b with rfl | posB
  · rw [Nat.le_zero.mp le]
  · obtain ⟨em', t', m', e', canonical', rounds', rounded'⟩ := ofNat_rounds posB
    rw [rounded']
    change _ ≤ place (Float.Model.pack (.finite .positive m' e' canonical'.pos)).unpack
    rw [place_pack canonical']
    rcases Nat.eq_zero_or_pos a with rfl | posA
    · change toLex (0, toLex (0, 0)) ≤ _
      split <;> exact Prod.Lex.toLex_le_toLex.mpr (.inl (by norm_num))
    · obtain ⟨em, t, m, e, canonical, rounds, rounded⟩ := ofNat_rounds posA
      rw [rounded]
      change place (Float.Model.pack (.finite .positive m e canonical.pos)).unpack ≤ _
      have parts := rounds.mono canonical rounds' canonical' (by exact_mod_cast le)
      rw [place_pack canonical]
      split_ifs
      · refine Prod.Lex.toLex_le_toLex.mpr (.inr ⟨rfl, Prod.Lex.toLex_le_toLex.mpr ?_⟩)
        exact parts.imp_right fun both => ⟨both.1, Nat.cast_le.mpr both.2⟩
      · exact Prod.Lex.toLex_le_toLex.mpr (.inl (by norm_num))
      · omega
      · exact le_rfl

theorem not_ofNat_lt {a b : Nat} (le : b ≤ a) : ¬ Float.ofNat a < Float.ofNat b :=
  (not_lt_iff (isNaN_ofNat a)).mpr (.inr (ofNat_le_ofNat le))

/-- A double that is at least a whole number is not less than the double next to the whole number. -/
theorem not_lt_ofNat {x : Float} (positive : isNegative x = false) (finite : x.isFinite = true)
    (filled : mantissa x ≠ 0) {n : Nat} (pos : 0 < n) (le : (n : ℚ) ≤ mantissa x * 2 ^ exponent x) :
    ¬ x < Float.ofNat n := by
  obtain ⟨bound, fits, parts⟩ := unpack_parts finite filled
  rw [wordSign_eq, positive] at parts
  obtain ⟨em, t, m, e, canonical, rounds, rounded⟩ := ofNat_rounds pos
  have below := rounds.le bound le
  intro less
  have order := (lt_iff.mp less).2.2
  rw [rounded, parts] at order
  change toLex (1, toLex (exponent x, (mantissa x : ℤ))) <
    place (Float.Model.pack (.finite .positive m e canonical.pos)).unpack at order
  rw [place_pack canonical, if_pos (by omega), Prod.Lex.toLex_lt_toLex, Prod.Lex.toLex_lt_toLex] at order
  simp only [lt_self_iff_false, true_and, false_or, Nat.cast_lt] at order
  omega

end Reckon.Double
