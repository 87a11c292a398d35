import Mathlib
import Reckon.Number
import Reckon.Proofs.Rounding

/-!
The shortest decimal of a number. What lies in the interval of a number is near to it
(`Decimal.near_of_isInside`), and the grids that are tried become fine enough for one to be found
(`Decimal.coarse_le_fine`), so that the shortest decimal is near to its number
(`Decimal.near_shortest`).
-/

namespace Reckon.Decimal
open Double (Near Canonical lowEnd lowEnd_ge two_zpow_pos)

/-- A quarter of the unit of a double, where the unit of both grids is a whole number. -/
def fine (e p : Int) : Nat := Double.twoTo (e - 2).toNat * Nat.pow 10 (-p).toNat

/-- A step of the decimal grid, where the unit of both grids is a whole number. -/
def coarse (e p : Int) : Nat := Double.twoTo (2 - e).toNat * Nat.pow 10 p.toNat

/-- The multiple `n` of `10 ^ p` lies in the interval of a double. -/
def isInside (m : Nat) (e p : Int) (n : Nat) : Bool :=
  let low := (if m = Double.twoTo 52 ∧ -1074 < e then 4 * m - 1 else 4 * m - 2) * fine e p
  let high := (4 * m + 2) * fine e p
  if m % 2 = 0 then low ≤ n * coarse e p && n * coarse e p ≤ high
  else low < n * coarse e p && n * coarse e p < high

theorem onGrid?_eq (m : Nat) (e p : Int) : onGrid? m e p =
    (let value := 4 * m * fine e p
    let below := value / coarse e p
    match isInside m e p below, isInside m e p (below + 1) with
    | true, true =>
      let fromBelow := value - below * coarse e p
      let fromAbove := (below + 1) * coarse e p - value
      if fromBelow < fromAbove || (fromBelow == fromAbove && below % 2 == 0) then some below
      else some (below + 1)
    | true, false => some below
    | false, true => some (below + 1)
    | false, false => none) := rfl

/-- What is taken from the grid lies inside. -/
theorem isInside_of_onGrid? {m n : Nat} {e p : Int} (found : onGrid? m e p = some n) : isInside m e p n = true := by
  rw [onGrid?_eq] at found
  simp only at found
  split at found
  · rename_i first second
    split at found
    · cases found
      exact first
    · cases found
      exact second
  · rename_i first second
    cases found
    exact first
  · rename_i first second
    cases found
    exact second
  · cases found

/-- If the neighbour below lies inside, one of the two is taken. -/
theorem onGrid?_isSome {m : Nat} {e p : Int} (inside : isInside m e p (4 * m * fine e p / coarse e p) = true) :
    (onGrid? m e p).isSome = true := by
  simp only [onGrid?_eq, inside]
  split
  · split <;> rfl
  · rfl
  · rename_i none _
    cases none
  · rename_i none _
    cases none

theorem fine_pos (e p : Int) : 0 < fine e p := by
  simp only [fine, Nat.pow_eq]
  positivity

theorem coarse_pos (e p : Int) : 0 < coarse e p := by
  simp only [coarse, Nat.pow_eq]
  positivity

/-- Both units are those of the numbers, scaled alike. -/
theorem exists_scale (e p : Int) :
    ∃ scale : ℚ, 0 < scale ∧ (fine e p : ℚ) = 2 ^ (e - 2) * scale ∧ (coarse e p : ℚ) = 10 ^ p * scale := by
  have twos : (2 : ℚ) ^ (e - 2) * 2 ^ (2 - e).toNat = 2 ^ (e - 2).toNat := by
    rw [← zpow_natCast, ← zpow_natCast, ← zpow_add₀ (by norm_num)]
    congr 1
    omega
  have tens : (10 : ℚ) ^ p * 10 ^ (-p).toNat = 10 ^ p.toNat := by
    rw [← zpow_natCast, ← zpow_natCast, ← zpow_add₀ (by norm_num)]
    congr 1
    omega
  refine ⟨2 ^ (2 - e).toNat * 10 ^ (-p).toNat, by positivity, ?_, ?_⟩
  · rw [← mul_assoc, twos, fine]
    norm_cast
  · rw [mul_left_comm, tens, coarse]
    norm_cast

theorem cast_low {m : Nat} (pos : 0 < m) (e : Int) :
    ((if m = Double.twoTo 52 ∧ -1074 < e then 4 * m - 1 else 4 * m - 2 : ℕ) : ℚ) = lowEnd m e := by
  rw [lowEnd]
  simp only [Double.twoTo, Nat.pow_eq]
  split
  · push_cast [Nat.cast_sub (show 1 ≤ 4 * m by omega)]
    ring
  · push_cast [Nat.cast_sub (show 2 ≤ 4 * m by omega)]
    ring

/-- What lies inside is near to the number. -/
theorem near_of_isInside {m n : Nat} {e p : Int} (pos : 0 < m) (inside : isInside m e p n = true) :
    Near (n * 10 ^ p) m e := by
  obtain ⟨scale, scalePos, fineIs, coarseIs⟩ := exists_scale e p
  have low := cast_low pos e
  simp only [isInside] at inside
  generalize (if m = Double.twoTo 52 ∧ -1074 < e then 4 * m - 1 else 4 * m - 2) = least at *
  have place : ((n * coarse e p : ℕ) : ℚ) = n * 10 ^ p * scale := by
    rw [Nat.cast_mul, coarseIs]
    ring
  have first : ((least * fine e p : ℕ) : ℚ) = lowEnd m e * 2 ^ (e - 2) * scale := by
    rw [Nat.cast_mul, fineIs, low]
    ring
  have last : (((4 * m + 2) * fine e p : ℕ) : ℚ) = (4 * m + 2) * 2 ^ (e - 2) * scale := by
    rw [Nat.cast_mul, fineIs]
    push_cast
    ring
  split at inside
  · rename_i even
    rw [Bool.and_eq_true, decide_eq_true_eq, decide_eq_true_eq, ← Nat.cast_le (α := ℚ), ← Nat.cast_le (α := ℚ), place,
      first, last, mul_le_mul_iff_left₀ scalePos, mul_le_mul_iff_left₀ scalePos] at inside
    exact ⟨inside.1, inside.2, fun odd => by omega⟩
  · rw [Bool.and_eq_true, decide_eq_true_eq, decide_eq_true_eq, ← Nat.cast_lt (α := ℚ), ← Nat.cast_lt (α := ℚ), place,
      first, last, mul_lt_mul_iff_left₀ scalePos, mul_lt_mul_iff_left₀ scalePos] at inside
    exact ⟨inside.1.le, inside.2.le, fun _ => inside⟩

/-- On a grid that is fine enough the neighbour below lies inside. -/
theorem isInside_below {m : Nat} {e p : Int} (pos : 0 < m) (enough : coarse e p ≤ fine e p) :
    isInside m e p (4 * m * fine e p / coarse e p) = true := by
  have below := Nat.div_mul_le_self (4 * m * fine e p) (coarse e p)
  have above := Nat.lt_div_mul_add (coarse_pos e p) (a := 4 * m * fine e p)
  have least : (if m = Double.twoTo 52 ∧ -1074 < e then 4 * m - 1 else 4 * m - 2) * fine e p + fine e p ≤
      4 * m * fine e p := by
    rw [← Nat.succ_mul]
    refine Nat.mul_le_mul_right _ ?_
    split <;> omega
  have most : 4 * m * fine e p < (4 * m + 2) * fine e p := Nat.mul_lt_mul_of_pos_right (by omega) (fine_pos e p)
  simp only [isInside]
  generalize (if m = Double.twoTo 52 ∧ -1074 < e then 4 * m - 1 else 4 * m - 2) * fine e p = low at *
  generalize 4 * m * fine e p / coarse e p * coarse e p = place at *
  split
  · simp only [Bool.and_eq_true, decide_eq_true_eq]
    omega
  · simp only [Bool.and_eq_true, decide_eq_true_eq]
    omega

/-- A power of ten against a power of two: `10 ^ 3` is less than `2 ^ 10`, and `2 ^ 93` less than `10 ^ 28`. -/
theorem ten_zpow_le {p q : Int} (upper : 0 ≤ p → 10 * p ≤ 3 * q) (lower : p < 0 → 93 * p ≤ 28 * q) :
    (10 : ℚ) ^ p ≤ 2 ^ q := by
  rcases le_or_gt 0 p with whole | fraction
  · have : ((10 : ℚ) ^ p) ^ 3 ≤ (2 ^ q) ^ 3 := by
      calc ((10 : ℚ) ^ p) ^ 3 = (10 ^ 3) ^ p := by rw [← zpow_natCast, ← zpow_natCast, ← zpow_mul, ← zpow_mul, mul_comm]
        _ ≤ (2 ^ 10) ^ p := zpow_le_zpow_left₀ whole (by norm_num) (by norm_num)
        _ = 2 ^ (10 * p) := by rw [zpow_mul]; norm_cast
        _ ≤ 2 ^ (3 * q) := Double.two_zpow_le (upper whole)
        _ = (2 ^ q) ^ 3 := by rw [mul_comm, zpow_mul]; norm_cast
    exact le_of_pow_le_pow_left₀ (by norm_num) (two_zpow_pos q).le this
  · rcases le_or_gt 0 q with whole | below
    · exact (zpow_le_one_of_nonpos₀ (by norm_num) fraction.le).trans (one_le_zpow₀ (by norm_num) whole)
    · have : ((10 : ℚ) ^ p) ^ 93 ≤ (2 ^ q) ^ 93 := by
        calc ((10 : ℚ) ^ p) ^ 93 = 10 ^ (93 * p) := by rw [mul_comm, zpow_mul]; norm_cast
          _ ≤ 10 ^ (28 * q) := zpow_le_zpow_right₀ (by norm_num) (lower fraction)
          _ = (10 ^ 28) ^ q := by rw [zpow_mul]; norm_cast
          _ ≤ (2 ^ 93) ^ q := by
            obtain ⟨k, rfl⟩ : ∃ k : Nat, q = -k := ⟨q.natAbs, by omega⟩
            rw [zpow_neg, zpow_neg, zpow_natCast, zpow_natCast]
            exact inv_anti₀ (by positivity) (pow_le_pow_left₀ (by norm_num) (by norm_num) k)
          _ = (2 ^ q) ^ 93 := by rw [← zpow_natCast, ← zpow_natCast, ← zpow_mul, ← zpow_mul, mul_comm]
      exact le_of_pow_le_pow_left₀ (by norm_num) (two_zpow_pos q).le this

/-- The last grid that is tried is fine enough. -/
theorem coarse_le_fine {m : Nat} {e : Int} (canonical : Canonical m e) (fits : e ≤ 971) :
    let p := (e + Int.ofNat (m.log2 + 1)) * 30103 / 100000 + 1 - 19
    coarse e p ≤ fine e p := by
  intro p
  have size : Int.ofNat (m.log2 + 1) = m.log2 + 1 := rfl
  have bits : m.log2 < 53 := (Nat.log2_lt canonical.pos.ne').mpr canonical.small
  have least := canonical.least
  obtain ⟨scale, scalePos, fineIs, coarseIs⟩ := exists_scale e p
  have power : (10 : ℚ) ^ p ≤ 2 ^ (e - 2) := by
    refine ten_zpow_le ?_ ?_
    · intro _
      omega
    · intro _
      omega
  rw [← Nat.cast_le (α := ℚ), coarseIs, fineIs]
  exact mul_le_mul_of_nonneg_right power scalePos.le

/-- The shortest decimal is near to its number, and not far from it in its exponent. -/
theorem near_shortest {m : Nat} {e : Int} (canonical : Canonical m e) (fits : e ≤ 971) :
    Near ((shortest m e).digits * 10 ^ (shortest m e).exponent) m e ∧ (shortest m e).exponent.natAbs ≤ 400 := by
  have bits : m.log2 < 53 := (Nat.log2_lt canonical.pos.ne').mpr canonical.small
  have least := canonical.least
  cases found : (List.range 20).findSome? fun step =>
      (onGrid? m e ((e + Int.ofNat (m.log2 + 1)) * 30103 / 100000 + 1 - Int.ofNat step)).map fun n =>
        Decimal.mk n ((e + Int.ofNat (m.log2 + 1)) * 30103 / 100000 + 1 - Int.ofNat step) with
  | none =>
    -- The search cannot fail: the last grid has a point inside.
    have last := List.findSome?_eq_none_iff.mp found 19 (by decide)
    have some := onGrid?_isSome (isInside_below canonical.pos (coarse_le_fine canonical fits))
    rw [Option.map_eq_none_iff] at last
    rw [show Int.ofNat 19 = 19 from rfl] at last
    rw [last] at some
    cases some
  | some decimal =>
    have same : shortest m e = decimal := by
      simp only [shortest, found, Option.getD_some]
    obtain ⟨step, listed, value⟩ := List.exists_of_findSome?_eq_some found
    obtain ⟨n, taken, rfl⟩ := Option.map_eq_some_iff.mp value
    rw [same]
    refine ⟨near_of_isInside canonical.pos (isInside_of_onGrid? taken), ?_⟩
    rw [List.mem_range] at listed
    simp only [Int.ofNat_eq_natCast]
    omega

/-- What is near to a double is neither too small nor too large. -/
theorem near_bounds {v : ℚ} {m : Nat} {e : Int} (canonical : Canonical m e) (fits : e ≤ 971) (near : Near v m e) :
    (10 : ℚ) ^ (-330 : Int) ≤ v ∧ v < 10 ^ (310 : Int) := by
  have filled : (1 : ℚ) ≤ m := by exact_mod_cast canonical.pos
  have small : (m : ℚ) + 1 ≤ 2 ^ 53 := by exact_mod_cast canonical.small
  have least := canonical.least
  constructor
  · calc (10 : ℚ) ^ (-330 : Int) ≤ 2 ^ (-1080 : Int) := ten_zpow_le (by omega) (by omega)
      _ ≤ 2 ^ (e - 2) := Double.two_zpow_le (by omega)
      _ ≤ lowEnd m e * 2 ^ (e - 2) := le_mul_of_one_le_left (two_zpow_pos _).le (by linarith [lowEnd_ge m e])
      _ ≤ v := near.low
  · calc v ≤ (4 * m + 2) * 2 ^ (e - 2) := near.high
      _ < 2 ^ (55 : Int) * 2 ^ (e - 2) := mul_lt_mul_of_pos_right (by norm_num; linarith) (two_zpow_pos _)
      _ = 2 ^ (53 + e) := by rw [← zpow_add₀ (by norm_num)]; congr 1; ring
      _ ≤ 2 ^ (1024 : Int) := Double.two_zpow_le (by omega)
      _ ≤ 10 ^ (310 : Int) := by
        have inverse : (10 : ℚ) ^ (-310 : Int) ≤ 2 ^ (-1024 : Int) := ten_zpow_le (by omega) (by omega)
        rw [zpow_neg, zpow_neg] at inverse
        exact (inv_le_inv₀ (by positivity) (by positivity)).mp inverse

end Reckon.Decimal
