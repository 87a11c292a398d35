import Mathlib
import Reckon.Number
import Reckon.Proofs.Words

/-!
Numbers and their texts. The text of a number without a sign is a word (`Number.isWord_text`),
also where it holds the sign of a power of ten. What is no number is one value, and so is the
infinity without a sign (`Double.eq_nan`, `Double.eq_inf`), so that both read back. A word that is
read as a number has no sign (`Number.unsigned_of_read?`).
-/

namespace Reckon.Double
open Float.Model (Format UnpackedFloat)
open Float.Model.UnpackedFloat (Sign pack unpack packComponents)

/-- No sign is set. -/
def Unsigned : UnpackedFloat → Prop
  | .notANumber => True
  | .infinity sign | .zero sign | .finite sign _ _ _ => sign = .positive

theorem packComponents_lt (exponent : BitVec 11) (mantissa : BitVec 52) :
    (packComponents Format.binary64 .positive exponent mantissa).toNat < 2 ^ 63 := by
  change (0#1 ++ exponent ++ mantissa).toNat < 2 ^ 63
  rw [BitVec.toNat_append, BitVec.toNat_append]
  have field : (0#1).toNat <<< 11 ||| exponent.toNat < 2 ^ 11 := by
    simpa using exponent.isLt
  refine Nat.or_lt_two_pow ?_ (Nat.lt_trans mantissa.isLt (by decide))
  rw [Nat.shiftLeft_eq]
  omega

/-- Without a sign the first bit is not set. -/
theorem pack_lt {unpacked : UnpackedFloat} (positive : Unsigned unpacked) :
    (pack Format.binary64 unpacked).toNat < 2 ^ 63 := by
  cases unpacked with
  | notANumber => exact packComponents_lt _ _
  | infinity sign =>
    obtain rfl : sign = .positive := positive
    exact packComponents_lt _ _
  | zero sign =>
    obtain rfl : sign = .positive := positive
    exact packComponents_lt _ _
  | finite sign mantissa exponent filled =>
    obtain rfl : sign = .positive := positive
    simp only [pack]
    split
    · exact packComponents_lt _ _
    · split
      · exact packComponents_lt _ _
      · exact packComponents_lt _ _

theorem isNegative_pack {unpacked : UnpackedFloat} (positive : Unsigned unpacked) :
    isNegative (.ofModel (.pack unpacked)) = false := by
  have bound := pack_lt positive
  refine decide_eq_false (Nat.not_le.mpr ?_)
  exact bound

theorem isNegative_abs (x : Float) : isNegative x.abs = false := by
  refine isNegative_pack ?_
  cases x.toModel.unpack with
  | notANumber => exact trivial
  | infinity => exact rfl
  | zero => exact rfl
  | finite => exact rfl

theorem unsigned_unpack {bits : BitVec 64} (bound : bits.toNat < 2 ^ 63) : Unsigned (unpack Format.binary64 bits) := by
  have sign : Sign.ofBitVec (@UnpackedFloat.unpackSign Format.binary64 bits) = .positive := by
    have zero : @UnpackedFloat.unpackSign Format.binary64 bits = 0#1 := by
      apply BitVec.eq_of_toNat_eq
      simp [UnpackedFloat.unpackSign, Nat.shiftRight_eq_div_pow]
      omega
    rw [zero]
    rfl
  simp only [unpack]
  split
  · split
    · exact sign
    · exact trivial
  · split
    · split
      · exact sign
      · exact sign
    · exact sign

theorem unsigned_of_isNegative {x : Float} (positive : isNegative x = false) : Unsigned x.toModel.unpack := by
  have bound : ¬2 ^ 63 ≤ x.toBits.toNat := of_decide_eq_false positive
  exact unsigned_unpack (Nat.not_le.mp bound)

theorem unsigned_roundWithAccuracy (mantissa : Nat) (exponent : Int) (accuracy : UnpackedFloat.Accuracy) :
    Unsigned (UnpackedFloat.roundWithAccuracy Format.binary64 .positive mantissa exponent accuracy) := by
  simp only [UnpackedFloat.roundWithAccuracy]
  split <;> rfl

theorem unsigned_mul {first second : UnpackedFloat} (left : Unsigned first) (right : Unsigned second) :
    Unsigned (UnpackedFloat.mul Format.binary64 first second) := by
  cases first <;> cases second <;>
    first
    | exact trivial
    | (simp only [Unsigned] at left right; subst left right; first | rfl | exact unsigned_roundWithAccuracy _ _ _)

theorem unsigned_div {first second : UnpackedFloat} (left : Unsigned first) (right : Unsigned second) :
    Unsigned (UnpackedFloat.div Format.binary64 first second) := by
  cases first <;> cases second <;>
    first
    | exact trivial
    | (simp only [Unsigned] at left right; subst left right; first | rfl | exact unsigned_roundWithAccuracy _ _ _)

theorem isNegative_toFloat (n : UInt64) : isNegative n.toFloat = false := by
  refine isNegative_pack ?_
  change Unsigned (UnpackedFloat.normalize Format.binary64 n.toNat 0 .positive)
  simp only [UnpackedFloat.normalize]
  split
  · rename_i below
    rw [Int.compare_eq_lt] at below
    omega
  · rfl
  · exact unsigned_roundWithAccuracy _ _ _

theorem isNegative_ofScientific (m : Nat) (negative : Bool) (e : Nat) :
    isNegative (Float.ofScientific m negative e) = false := by
  have powers : ∀ power ∈ Float.exactlyRepresentablePowersOfTen, isNegative power = false := by decide
  have unpacked (m : Nat) (e : Int) : Unsigned (UnpackedFloat.ofScientific Format.binary64 m e) := by
    simp only [UnpackedFloat.ofScientific]
    split
    · rfl
    · split
      · rfl
      · split
        · rfl
        · split
          · exact unsigned_roundWithAccuracy _ _ _
          · exact unsigned_roundWithAccuracy _ _ _
  simp only [Float.ofScientific]
  split
  · have whole := unsigned_of_isNegative (isNegative_toFloat m.toUInt64)
    split
    · exact isNegative_pack (unsigned_div whole (unsigned_of_isNegative (powers _ (Array.getElem_mem _))))
    · exact isNegative_pack (unsigned_mul whole (unsigned_of_isNegative (powers _ (Array.getElem_mem _))))
  · exact isNegative_pack (unpacked _ _)

theorem isNegative_ofBits {bits : UInt64} (bound : bits.toNat < 2 ^ 63) : isNegative (Float.ofBits bits) = false :=
  isNegative_pack (unsigned_unpack bound)

theorem isNegative_ofScaled? {m : Nat} {e : Int} {x : Float} (value : ofScaled? m e = some x) :
    isNegative x = false := by
  have packed {bits : Nat}
      (value : (if bits < 0x7FF0000000000000 then some (Float.ofBits (UInt64.ofNat bits)) else none) = some x) :
      isNegative x = false := by
    split at value
    · rename_i bound
      cases value
      refine isNegative_ofBits ?_
      rw [UInt64.toNat_ofNat']
      exact Nat.lt_of_le_of_lt (Nat.mod_le _ _) (Nat.lt_trans bound (by decide))
    · cases value
  simp only [ofScaled?] at value
  by_cases zero : m = 0
  · rw [if_pos zero] at value
    cases value
    decide
  · rw [if_neg zero] at value
    by_cases large : 971 < max (e + Int.ofNat (m.log2 + 1) - 53) (-1074)
    · rw [if_pos large] at value
      cases value
    · rw [if_neg large] at value
      exact packed value

/-! ### Infinities and what is no number -/

private theorem eq_of_bits {x y : Float} (same : x.toBits = y.toBits) : x = y := by
  obtain ⟨⟨xBits, xValid⟩⟩ := x
  obtain ⟨⟨yBits, yValid⟩⟩ := y
  obtain rfl : xBits = yBits := same
  rfl

theorem eq_nan {x : Float} (none : x.isNaN = true) : x = nan := by
  have fields : @UnpackedFloat.unpackExponent Format.binary64 x.toBits.toBitVec = (-1#_) ∧
      @UnpackedFloat.unpackMantissa Format.binary64 x.toBits.toBitVec ≠ 0#_ := by
    change UnpackedFloat.isNaN (unpack Format.binary64 x.toBits.toBitVec) = true at none
    simp only [unpack] at none
    split at none
    · split at none
      · cases none
      · exact ⟨‹_›, ‹_›⟩
    · split at none
      · split at none <;> cases none
      · cases none
  have bits : x.toBits.toBitVec = UnpackedFloat.packedNaN Format.binary64 :=
    x.toModel.valid.eq_packedNaN fields.1 fields.2
  refine eq_of_bits (UInt64.toBitVec_inj.mp ?_)
  rw [bits]
  decide

theorem eq_inf {x : Float} (infinite : x.isInf = true) (positive : isNegative x = false) : x = inf := by
  have fields : @UnpackedFloat.unpackExponent Format.binary64 x.toBits.toBitVec = (-1#_) ∧
      @UnpackedFloat.unpackMantissa Format.binary64 x.toBits.toBitVec = 0#_ := by
    change UnpackedFloat.isInf (unpack Format.binary64 x.toBits.toBitVec) = true at infinite
    simp only [unpack] at infinite
    split at infinite
    · split at infinite
      · exact ⟨‹_›, ‹_›⟩
      · cases infinite
    · split at infinite
      · split at infinite <;> cases infinite
      · cases infinite
  have bound : ¬2 ^ 63 ≤ x.toBits.toNat := of_decide_eq_false positive
  have exponent := congrArg BitVec.toNat fields.1
  have mantissa := congrArg BitVec.toNat fields.2
  simp [UnpackedFloat.unpackExponent, UnpackedFloat.unpackMantissa, Nat.shiftRight_eq_div_pow] at exponent mantissa
  refine eq_of_bits (UInt64.toNat_inj.mp ?_)
  have bits : inf.toBits.toNat = 0x7FF0000000000000 := by decide
  rw [bits]
  omega

theorem isInf_of_not_finite {x : Float} (infinite : x.isFinite = false) (number : x.isNaN = false) :
    x.isInf = true := by
  change UnpackedFloat.isFinite x.toModel.unpack = false at infinite
  change UnpackedFloat.isNaN x.toModel.unpack = false at number
  change UnpackedFloat.isInf x.toModel.unpack = true
  cases unpacked : x.toModel.unpack with
  | infinity => rfl
  | notANumber => rw [unpacked] at number; cases number
  | zero => rw [unpacked] at infinite; cases infinite
  | finite => rw [unpacked] at infinite; cases infinite

theorem abs_eq_inf {x : Float} (infinite : x.isInf = true) : x.abs = inf := by
  have sign : ∃ sign, x.toModel.unpack = .infinity sign := by
    change UnpackedFloat.isInf x.toModel.unpack = true at infinite
    cases unpacked : x.toModel.unpack with
    | infinity sign => exact ⟨sign, rfl⟩
    | notANumber => rw [unpacked] at infinite; cases infinite
    | zero => rw [unpacked] at infinite; cases infinite
    | finite => rw [unpacked] at infinite; cases infinite
  obtain ⟨sign, unpacked⟩ := sign
  have whole : x.abs = .ofModel (.pack (.infinity .positive)) := by
    change Float.ofModel (.pack x.toModel.unpack.abs) = _
    rw [unpacked]
    rfl
  rw [whole]
  decide

end Reckon.Double

namespace Reckon.Decimal
open Token

theorem isDigit_digitChars (n : Nat) : ∀ c ∈ digitChars n, c.isDigit = true :=
  fun _ member => Nat.isDigit_of_mem_toDigits (by decide) (by decide) member

theorem isDigit_zeros (count : Nat) : ∀ c ∈ zeros count, c.isDigit = true := by
  intro c member
  rw [List.eq_of_mem_replicate member]
  decide

private theorem all_isPlain {cs : List Char} (digits : ∀ c ∈ cs, c.isDigit = true) : cs.all isPlain = true :=
  List.all_eq_true.mpr fun c member => isPlain_digit (digits c member)

theorem isPlain_positional {digits : List Char} (each : ∀ c ∈ digits, c.isDigit = true) (first : Int) :
    (positional digits first).all isPlain = true := by
  have point : isPlain '.' = true := by decide
  have zero : isPlain '0' = true := by decide
  simp only [positional]
  split
  · simp only [List.cons_append, List.all_cons, List.all_append, zero, point, all_isPlain each,
      all_isPlain (isDigit_zeros _), Bool.and_self]
  · split
    · simp only [List.all_append, all_isPlain each, all_isPlain (isDigit_zeros _), Bool.and_self]
    · have before : ∀ c ∈ digits.take (first.toNat + 1), c.isDigit = true :=
        fun c member => each c (List.mem_of_mem_take member)
      have after : ∀ c ∈ digits.drop (first.toNat + 1), c.isDigit = true :=
        fun c member => each c (List.mem_of_mem_drop member)
      simp only [List.all_append, List.all_cons, all_isPlain before, all_isPlain after, point, Bool.and_self]

/-- The sign of a power of ten goes on with the number. -/
theorem continues_scientific {digits : List Char} (each : ∀ c ∈ digits, c.isDigit = true) (filled : digits ≠ [])
    (first : Int) : continues [] (scientific digits first) = true := by
  obtain ⟨head, others, rfl⟩ := List.exists_cons_of_ne_nil filled
  have headDigit : head.isDigit = true := each head (by simp)
  have othersDigits : ∀ c ∈ others, c.isDigit = true := fun c member => each c (by simp [member])
  let mantissa : List Char := [head] ++ (if others.isEmpty then [] else '.' :: others)
  let sign : Char := if first < 0 then '-' else '+'
  let power : List Char := zeros (2 - (digitChars first.natAbs).length) ++ digitChars first.natAbs
  have parts : scientific (head :: others) first = mantissa ++ ('e' :: sign :: power) := by
    simp [scientific, mantissa, sign, power]
  have inMantissa : ∀ c ∈ mantissa, c.isDigit = true ∨ c = '.' := by
    intro c member
    simp only [mantissa, List.singleton_append, List.mem_cons] at member
    rcases member with rfl | member
    · exact .inl headDigit
    · split at member
      · cases member
      · rcases List.mem_cons.mp member with rfl | member
        · exact .inr rfl
        · exact .inl (othersDigits c member)
  have mantissaPlain : mantissa.all isPlain = true := by
    refine List.all_eq_true.mpr fun c member => ?_
    rcases inMantissa c member with digit | rfl
    · exact isPlain_digit digit
    · decide
  have awaits : awaitsExponent ('e' :: mantissa.reverse) = true := by
    have all : mantissa.reverse.all (fun c => c.isDigit || c = '.') = true := by
      refine List.all_eq_true.mpr fun c member => ?_
      simpa using inMantissa c (List.mem_reverse.mp member)
    have any : mantissa.reverse.any Char.isDigit = true :=
      List.any_eq_true.mpr ⟨head, by simp [mantissa], headDigit⟩
    rw [awaitsExponent, all, any]
    decide
  have signed : goesOn ('e' :: mantissa.reverse) sign = true := by
    rw [goesOn, awaits]
    simp only [sign]
    split <;> decide
  have powerPlain : power.all isPlain = true := by
    simp only [power, List.all_append, all_isPlain (isDigit_zeros _), all_isPlain (isDigit_digitChars _), Bool.and_self]
  rw [parts, continues_append, continues_plain mantissaPlain, List.append_nil, continues,
    goesOn_plain (by decide), continues, signed, continues_plain powerPlain]
  rfl

theorem isWord_text (layout : Layout) (decimal : Decimal) : IsWord (decimal.text layout) := by
  have digits := isDigit_digitChars decimal.digits
  have filled : digitChars decimal.digits ≠ [] := Nat.toDigits_ne_nil
  simp only [text]
  split
  · refine isWord_iff.mpr ⟨?_, ?_⟩
    · intro empty
      have chars := congrArg String.toList empty
      simp [scientific] at chars
    · rw [String.toList_ofList]
      exact continues_scientific digits filled _
  · refine isWord_plain ?_ ?_
    · intro empty
      have chars := congrArg String.toList empty
      rw [String.toList_ofList] at chars
      simp only [positional] at chars
      split at chars
      · simp at chars
      · split at chars
        · simp [filled] at chars
        · simp at chars
    · rw [String.toList_ofList]
      exact isPlain_positional digits _

end Reckon.Decimal

namespace Reckon.Number
open Token

/-- The text of a number without a sign is a word. -/
theorem isWord_text {x : Float} (positive : Double.isNegative x = false) : IsWord (text x) := by
  simp only [text, positive]
  split
  · decide
  · simp only [Bool.false_eq_true, if_false]
    split
    · decide
    · simp only [magnitudeText]
      split
      · decide
      · exact Decimal.isWord_text _ _

/-- A word that is read as a number has no sign. -/
theorem unsigned_of_read? {text : String} {x : Float} (word : IsWord text) (value : read? text = some x) :
    Double.isNegative x = false := by
  have decimal {m : Nat} {e : Int} (value : Decimal.ofDecimal? m e = some x) : Double.isNegative x = false := by
    simp only [Decimal.ofDecimal?] at value
    split at value
    · cases value
      decide
    · split at value
      · cases value
      · split at value
        · cases value
        · cases value
          exact Double.isNegative_ofScientific _ _ _
  have unsigned {hexadecimal : Bool} {cs : List Char} (value : Decimal.readUnsigned? hexadecimal cs = some x) :
      Double.isNegative x = false := by
    cases hexadecimal with
    | true =>
      simp only [Decimal.readUnsigned?, if_true] at value
      split at value
      · cases value
      · split at value
        · cases value
        · split at value
          · cases value
          · exact Double.isNegative_ofScaled? value
    | false =>
      simp only [Decimal.readUnsigned?, Bool.false_eq_true, if_false] at value
      split at value
      · cases value
      · split at value
        · cases value
        · split at value
          · cases value
          · exact decimal value
  have magnitude {cs : List Char} (value : Decimal.readMagnitude? cs = some x) : Double.isNegative x = false := by
    simp only [Decimal.readMagnitude?] at value
    split at value
    · cases value
      decide
    · split at value
      · split at value
        · exact unsigned value
        · exact unsigned value
      · exact unsigned value
  obtain ⟨-, on⟩ := isWord_iff.mp word
  simp only [read?, Decimal.read?] at value
  split at value
  · rename_i same
    rw [same] at on
    simp [continues, goesOn, isSign, awaitsExponent] at on
  · rename_i same
    rw [same] at on
    simp [continues, goesOn, isSign, awaitsExponent] at on
  · split at value
    · cases value
      decide
    · exact magnitude value

end Reckon.Number
