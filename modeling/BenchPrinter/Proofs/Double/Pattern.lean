import BenchPrinter.Number.Shortest
import BenchPrinter.Proofs.Double.Worth

/-!
The bit pattern of a double. Its fields are the parts of the unpacked double.
-/

namespace BenchPrinter.Double

open Float.Model Float.Model.UnpackedFloat

def bitsOf (value : Float) : BitVec Format.binary64.numBits := value.toModel.toBits.toBitVec

theorem ofFloat_eq (value : Float) : DoublePattern.ofFloat value =
    ⟨(bitsOf value).toNat / 2 ^ 63 == 1, (bitsOf value).toNat / 2 ^ 52 % 2 ^ 11,
      (bitsOf value).toNat % 2 ^ 52⟩ := rfl

theorem pattern_exponent (value : Float) :
    (DoublePattern.ofFloat value).exponent = (unpackExponent (bitsOf value)).toNat := by
  rw [unpackExponent_def, BitVec.extractLsb'_toNat, Nat.shiftRight_eq_div_pow]
  rfl

theorem pattern_fraction (value : Float) :
    (DoublePattern.ofFloat value).fraction = (unpackMantissa (bitsOf value)).toNat := by
  rw [unpackMantissa_def, BitVec.extractLsb'_toNat, Nat.shiftRight_zero]
  rfl

/-- The sign that a pattern shows. -/
def signOf (negative : Bool) : Sign := if negative then .negative else .positive

theorem pattern_sign (value : Float) :
    Sign.ofBitVec (unpackSign (bitsOf value)) = signOf (DoublePattern.ofFloat value).negative := by
  have uppermost : (unpackSign (bitsOf value)).toNat = (bitsOf value).toNat / 2 ^ 63 := by
    have small : (bitsOf value).toNat < 2 ^ 64 := (bitsOf value).isLt
    rw [unpackSign_def, BitVec.extractLsb'_toNat, Nat.shiftRight_eq_div_pow]
    change (bitsOf value).toNat / 2 ^ 63 % 2 = _
    omega
  have zero_iff : unpackSign (bitsOf value) = 0#1 ↔ (bitsOf value).toNat / 2 ^ 63 = 0 := by
    rw [← uppermost, BitVec.toNat_eq]
    rfl
  have single : (unpackSign (bitsOf value)).toNat < 2 := (unpackSign (bitsOf value)).isLt
  rw [uppermost] at single
  rw [ofFloat_eq, signOf, Sign.ofBitVec]
  by_cases zero : (bitsOf value).toNat / 2 ^ 63 = 0
  · rw [if_pos (zero_iff.2 zero), zero]
    rfl
  · have one : (bitsOf value).toNat / 2 ^ 63 = 1 := by omega
    rw [if_neg (fun none => zero (zero_iff.1 none)), one]
    rfl

theorem exponent_ones (value : Float) :
    unpackExponent (bitsOf value) = -1#11 ↔ (DoublePattern.ofFloat value).exponent = 2047 := by
  rw [pattern_exponent, BitVec.toNat_eq]
  rfl

/-- The pattern of a finite double tells its sign, its mantissa and its exponent. -/
theorem unpacked_of_pattern {value : Float} (finite : (DoublePattern.ofFloat value).isFinite = true) :
    unpacked value = assemble (signOf (DoublePattern.ofFloat value).negative)
      (DoublePattern.ofFloat value).mantissa (DoublePattern.ofFloat value).scale := by
  have notOnes : unpackExponent (bitsOf value) ≠ -1#11 := by
    intro ones
    rw [exponent_ones] at ones
    simp [DoublePattern.isFinite, ones] at finite
  have zeros : unpackExponent (bitsOf value) = 0#11 ↔
      (DoublePattern.ofFloat value).exponent = 0 := by
    rw [pattern_exponent, BitVec.toNat_eq]
    rfl
  change UnpackedFloat.unpack Format.binary64 (bitsOf value) = _
  rw [unpack_eq, if_neg notOnes, pattern_sign, ← pattern_fraction, ← pattern_exponent,
    DoublePattern.mantissa, DoublePattern.scale]
  by_cases least : (DoublePattern.ofFloat value).exponent = 0
  · rw [if_pos (zeros.2 least), if_pos least, least]
    rfl
  · rw [if_neg (fun none => least (zeros.1 none)), if_neg least]
    congr 1
    omega

/-- A pattern is finite when its double is. -/
theorem pattern_finite (value : Float) :
    (DoublePattern.ofFloat value).isFinite = true ↔ IsFinite value := by
  constructor
  · intro finite
    rw [IsFinite, unpacked_of_pattern finite, assemble]
    split <;> rfl
  · intro finite
    by_contra infinite
    have ones : unpackExponent (bitsOf value) = -1#11 := by
      rw [exponent_ones]
      simpa [DoublePattern.isFinite] using infinite
    have form : unpacked value = _ := unpack_eq (bitsOf value)
    rw [if_pos ones] at form
    rw [IsFinite, form] at finite
    split at finite <;> simp [UnpackedFloat.isFinite] at finite

end BenchPrinter.Double
