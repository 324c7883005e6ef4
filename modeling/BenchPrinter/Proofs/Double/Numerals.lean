import BenchPrinter.Proofs.Double.Order

/-!
What numerals are worth. Without a sign a numeral is a finite double that is not negative, or it is
positive infinity. A count of 64 bits is rounded to the nearest double.
-/

namespace BenchPrinter.Double

open Float.Model Float.Model.UnpackedFloat

/-- A number that is not negative, with positive infinity among them. -/
def Unsigned (value : Float) : Prop :=
  IsFinite value ∧ 0 ≤ worth value ∨ Endless value

/-- A point of a grid that is too large for a double is packed as infinity. -/
theorem pack_gridPoint {number : Rat} {count : Nat} {grid : Int} (sign : Sign)
    (rounded : Rounded number count grid) :
    Canonical (gridPoint sign count grid) ∨
      pack (gridPoint sign count grid) = pack (.infinity sign) := by
  obtain ⟨least, fits, -, full, -⟩ := rounded
  have overflow {mantissa : Nat} {exponent : Int} (positive : 0 < mantissa)
      (great : 971 < exponent) :
      pack (.finite sign mantissa exponent positive) = pack (.infinity sign) := by
    have overflows : UnpackedFloat.pack Format.binary64 (.finite sign mantissa exponent positive) =
        UnpackedFloat.pack Format.binary64 (.infinity sign) := by
      rw [pack_finite sign exponent positive, if_pos great]
    exact congrArg Float.ofModel
      ((Float.Model.mk.injEq _ _ _ _).mpr (congrArg UInt64.ofBitVec overflows))
  unfold gridPoint assemble
  split_ifs with whole empty empty
  · exact absurd empty (by decide)
  · by_cases great : 971 < grid + 1
    · exact .inr (overflow _ great)
    · exact .inl ⟨by decide, by omega, by omega, .inl le_rfl⟩
  · exact .inl trivial
  · by_cases great : 971 < grid
    · exact .inr (overflow _ great)
    · refine .inl ⟨by omega, least, by omega, ?_⟩
      exact full.symm.imp_left And.left

theorem unsigned_of_rounded {number : Rat} {count : Nat} {grid : Int}
    (rounded : Rounded number count grid) : Unsigned (pack (gridPoint .positive count grid)) := by
  rcases pack_gridPoint .positive rounded with canonical | infinite
  · left
    constructor
    · rw [IsFinite, unpacked_pack canonical]
      exact isFinite_gridPoint _ count grid
    · rw [worth, unpacked_pack canonical, unpackedWorth_gridPoint, signed]
      positivity
  · have canonical : Canonical (.infinity .positive) := trivial
    rw [infinite]
    exact .inr (unpacked_pack canonical)

theorem unsigned_of_nearest {number : Rat} {value : Float} (nearest : Nearest number value)
    (nonnegative : 0 ≤ number) : Unsigned value := by
  have zero : IsFinite 0.0 ∧ worth 0.0 = 0 := by decide +kernel
  refine .inl ⟨nearest.finite, ?_⟩
  rw [← zero.2] at nonnegative ⊢
  exact nearest.worth_le zero.1 nonnegative

theorem abs_lt_limit {number : Rat} (small : |number| ≤ 2 ^ 100) : |number| < limit := by
  have large : (2 : Rat) ^ 100 ≤ topStep := by
    rw [topStep_eq, ← zpow_natCast]
    exact zpow_le_zpow_right₀ one_le_two (by norm_num)
  unfold limit
  linarith

/-- A count is rounded to the nearest double, and it is exact below 53 bits. -/
theorem toFloat_nearest (count : UInt64) : Nearest count.toNat count.toFloat := by
  have whole : (count.toNat : Rat) < 2 ^ 64 := by exact_mod_cast count.toNat_lt
  have small : |((count.toNat : Int) : Rat) * 2 ^ (0 : Int)| < limit := by
    apply abs_lt_limit
    rw [abs_of_nonneg (by positivity), zpow_zero, mul_one, Int.cast_natCast]
    linarith
  have nearest := normalize_nearest .positive small
  rw [zpow_zero, mul_one, Int.cast_natCast] at nearest
  exact nearest

theorem toFloat_worth {digits : Nat} (fits : digits < 2 ^ 53) :
    IsFinite digits.toUInt64.toFloat ∧ worth digits.toUInt64.toFloat = digits := by
  have count : digits.toUInt64.toNat = digits := by
    rw [Nat.toUInt64, UInt64.toNat_ofNat']
    omega
  have nearest := toFloat_nearest digits.toUInt64
  rw [count] at nearest
  have bounded : |(digits : Int)| ≤ 2 ^ 53 := by
    rw [abs_of_nonneg (by omega)]
    omega
  obtain ⟨other, finite, worthy⟩ := exists_worth bounded (show -1074 ≤ 0 by decide) (by decide)
  rw [zpow_zero, mul_one, Int.cast_natCast] at worthy
  exact ⟨nearest.finite, nearest.exact finite worthy⟩

theorem powersOfTen (places : Fin 23) : IsFinite Float.exactlyRepresentablePowersOfTen[places] ∧
    1 ≤ worth Float.exactlyRepresentablePowersOfTen[places] := by
  revert places
  decide +kernel

theorem round_unsigned {mantissa : Nat} {exponent : Int} {accuracy : Accuracy} {number : Rat}
    (standsFor : StandsFor (.ofMantissaAndAccuracy mantissa accuracy) number)
    (enough : exponent ≤ gridExponent mantissa exponent) :
    Unsigned (pack (roundWithAccuracy Format.binary64 .positive mantissa exponent accuracy)) := by
  obtain ⟨count, grid, rounded, reached⟩ := roundWithAccuracy_rounded .positive standsFor enough
  rw [reached]
  exact unsigned_of_rounded rounded

/-- The mantissa of a converted number is long enough to be rounded at once. -/
theorem scaled_enough {digits power : Nat} (nonempty : digits ≠ 0) (powerPositive : 0 < power) :
    (-53 : Int) ≤ gridExponent (digits <<< 53 * power) (-53) := by
  have size : 2 ^ 53 ≤ digits <<< 53 * power := by
    rw [Nat.shiftLeft_eq, mul_right_comm]
    exact Nat.le_mul_of_pos_left _ (Nat.mul_pos (Nat.pos_of_ne_zero nonempty) powerPositive)
  have long := (Nat.le_log2 (show _ ≠ 0 by omega)).2 size
  unfold gridExponent
  omega

theorem mul_unsigned {digits power : Nat} (scaledPositive : 0 < digits <<< 53)
    (powerPositive : 0 < power) (nonempty : digits ≠ 0) :
    Unsigned (pack (UnpackedFloat.mul Format.binary64
      (.finite .positive (digits <<< 53) (-53) scaledPositive)
      (.finite .positive power 0 powerPositive))) :=
  round_unsigned (standsFor_exact _) (scaled_enough nonempty powerPositive)

theorem div_unsigned {dividend divisor : Nat} {dividendExponent divisorExponent : Int}
    (dividendPositive : 0 < dividend) (divisorPositive : 0 < divisor) :
    Unsigned (pack (UnpackedFloat.div Format.binary64
      (.finite .positive dividend dividendExponent dividendPositive)
      (.finite .positive divisor divisorExponent divisorPositive))) :=
  round_unsigned (standsFor_quotient _ divisorPositive)
    (quotient_enough dividendPositive divisorPositive rfl)

/-- Many digits or many decimals are converted by one exact operation that is then rounded. -/
theorem unsigned_model (digits : Nat) (exponent : Int) :
    Unsigned (.ofModel (Float.Model.ofScientific digits exponent)) := by
  change Unsigned (pack (UnpackedFloat.ofScientific Format.binary64 digits exponent))
  have infinite : Canonical (.infinity .positive) := trivial
  unfold UnpackedFloat.ofScientific
  split_ifs with empty huge tiny whole
  · exact unsigned_of_nearest (nearest_pack_zero .positive) le_rfl
  · exact .inr (unpacked_pack infinite)
  · exact unsigned_of_nearest (nearest_pack_zero .positive) le_rfl
  · exact mul_unsigned _ _ empty
  · exact div_unsigned _ _

theorem ofScientific_fast {digits places : Nat} (fits : digits < 2 ^ 53) (few : places ≤ 22) :
    (OfScientific.ofScientific digits true places : Float) =
      digits.toUInt64.toFloat / Float.exactlyRepresentablePowersOfTen[(⟨places, by omega⟩ : Fin 23)] := by
  change Float.ofScientific digits true places = _
  rw [Float.ofScientific, dif_pos ⟨fits, few⟩]
  rfl

theorem ofScientific_slow {digits places : Nat} (long : ¬ (digits < 2 ^ 53 ∧ places ≤ 22)) :
    (OfScientific.ofScientific digits true places : Float) =
      .ofModel (Float.Model.ofScientific digits (Int.negOfNat places)) := by
  change Float.ofScientific digits true places = _
  rw [Float.ofScientific, dif_neg long]
  rfl

theorem unsigned_numeral (digits places : Nat) :
    Unsigned (OfScientific.ofScientific digits true places) := by
  by_cases short : digits < 2 ^ 53 ∧ places ≤ 22
  · obtain ⟨fits, few⟩ := short
    obtain ⟨finite, worthy⟩ := toFloat_worth fits
    obtain ⟨powerFinite, powerLarge⟩ := powersOfTen ⟨places, by omega⟩
    have digitsFit : (digits : Rat) < 2 ^ 53 := by exact_mod_cast fits
    have nonnegative : (0 : Rat) ≤ digits := by positivity
    have quotient := div_nearest finite powerFinite (by linarith) (abs_lt_limit (by
      rw [worthy, abs_of_nonneg (div_nonneg nonnegative (by linarith))]
      exact (div_le_self nonnegative powerLarge).trans (by linarith)))
    rw [ofScientific_fast fits few]
    apply unsigned_of_nearest quotient
    rw [worthy]
    exact div_nonneg nonnegative (by linarith)
  · rw [ofScientific_slow short]
    exact unsigned_model digits _

/-- A count of 64 bits is rounded to the nearest double. -/
theorem ofNat_nearest {count : Nat} (fits : count < 2 ^ 64) :
    Nearest count (Quantity.ofNat count : Float) := by
  change Nearest count (Float.ofScientific count false 0)
  have whole : (count : Rat) < 2 ^ 64 := by exact_mod_cast fits
  have small : |(count : Rat)| < limit := by
    apply abs_lt_limit
    rw [abs_of_nonneg (by positivity)]
    linarith
  by_cases short : count < 2 ^ 53
  · have one : IsFinite 1.0 ∧ worth 1.0 = 1 := by decide +kernel
    obtain ⟨finite, worthy⟩ := toFloat_worth short
    have product := mul_nearest finite one.1
    rw [worthy, one.2, mul_one] at product
    rw [Float.ofScientific, dif_pos ⟨short, by decide⟩]
    exact product small
  · have nonempty : count ≠ 0 := by omega
    have rounded := roundWithAccuracy_rounded .positive (standsFor_exact (count <<< 53 * 1))
      (scaled_enough nonempty one_pos)
    have unscaled : ((count <<< 53 * 1 : Nat) : Rat) * 2 ^ (-53 : Int) = count := by
      rw [mul_one, Nat.shiftLeft_eq]
      push_cast
      rw [zpow_neg]
      exact mul_inv_cancel_right₀ (by positivity) _
    rw [unscaled] at rounded
    obtain ⟨points, grid, rounded, reached⟩ := rounded
    have computed : UnpackedFloat.ofScientific Format.binary64 count 0 =
        gridPoint .positive points grid := by
      have bits : (2 : Int) ^ Format.binary64.exponentBits = 2048 := by decide
      rw [← reached, UnpackedFloat.ofScientific, dif_neg nonempty, if_neg (by decide), bits,
        if_neg (by omega), if_pos (by decide)]
      rfl
    rw [Float.ofScientific, dif_neg (fun both => short both.1)]
    change Nearest count (pack (UnpackedFloat.ofScientific Format.binary64 count 0))
    rw [computed]
    exact nearest_of_rounded .positive rounded ((le_abs_self _).trans_lt small)

end BenchPrinter.Double
