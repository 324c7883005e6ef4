import Mathlib

/-!
How doubles are rounded. An exact number is brought to a grid of powers of two; the grid is as fine
as a mantissa of 53 bits allows, and the nearest point of the grid is taken.
-/

namespace BenchPrinter.Double

open Float.Model Float.Model.UnpackedFloat

/-- What the two residual bits say about the part of a number beyond its mantissa. -/
def Residue (rest : Rat) : Bool → Bool → Prop
  | false, false => rest = 0
  | false, true => 0 < rest ∧ rest < 1 / 2
  | true, false => rest = 1 / 2
  | true, true => 1 / 2 < rest ∧ rest < 1

/-- The extended mantissa stands for the number. -/
def StandsFor (extended : ExtendedMantissa) (number : Rat) : Prop :=
  Residue (number - extended.mantissa) extended.roundBit extended.stickyBit

theorem residue_bounds {rest : Rat} {roundBit stickyBit : Bool}
    (residue : Residue rest roundBit stickyBit) : 0 ≤ rest ∧ rest < 1 := by
  cases roundBit <;> cases stickyBit <;> simp only [Residue] at residue <;>
    constructor <;> linarith

theorem standsFor_bounds {extended : ExtendedMantissa} {number : Rat}
    (standsFor : StandsFor extended number) :
    extended.mantissa ≤ number ∧ number < extended.mantissa + 1 := by
  obtain ⟨low, high⟩ := residue_bounds standsFor
  constructor <;> linarith

theorem standsFor_exact (mantissa : Nat) :
    StandsFor (.ofMantissaAndAccuracy mantissa .exact) mantissa := by
  simp [StandsFor, ExtendedMantissa.ofMantissaAndAccuracy, Residue]

/-- A dropped bit becomes the round bit, and the old residual bits become sticky. -/
theorem residue_halved {rest : Rat} {roundBit stickyBit : Bool}
    (residue : Residue rest roundBit stickyBit) (dropped : Bool) :
    Residue (((if dropped then 1 else 0) + rest) / 2) dropped (roundBit || stickyBit) := by
  obtain ⟨low, high⟩ := residue_bounds residue
  cases dropped <;> cases roundBit <;> cases stickyBit <;>
    simp only [Residue, Bool.or_false, Bool.or_true, Bool.false_eq_true, if_true, if_false]
      at residue ⊢ <;>
    first | linarith | (constructor <;> linarith)

theorem standsFor_halved {extended : ExtendedMantissa} {number : Rat}
    (standsFor : StandsFor extended number) :
    StandsFor extended.shiftRightOne (number / 2) := by
  have halved := residue_halved standsFor (extended.mantissa % 2 != 0)
  have parts : (extended.mantissa : Rat) = 2 * (extended.mantissa / 2 : Nat) +
      (if extended.mantissa % 2 != 0 then 1 else 0) := by
    rcases Nat.mod_two_eq_zero_or_one extended.mantissa with even | odd
    · have whole : extended.mantissa = 2 * (extended.mantissa / 2) := by omega
      simp only [even]
      norm_num
      exact_mod_cast whole
    · have whole : extended.mantissa = 2 * (extended.mantissa / 2) + 1 := by omega
      simp only [odd]
      norm_num
      exact_mod_cast whole
  have rest : number / 2 - (extended.mantissa / 2 : Nat) =
      ((if extended.mantissa % 2 != 0 then 1 else 0) + (number - extended.mantissa)) / 2 := by
    rw [parts]
    ring
  simp only [StandsFor, ExtendedMantissa.shiftRightOne]
  rw [rest]
  exact halved

theorem standsFor_shifted {extended : ExtendedMantissa} {number : Rat}
    (standsFor : StandsFor extended number) (count : Nat) :
    StandsFor (extended >>> count) (number / 2 ^ count) := by
  change StandsFor (count.repeat ExtendedMantissa.shiftRightOne extended) _
  induction count with
  | zero => simpa [Nat.repeat] using standsFor
  | succ count inductionHypothesis =>
      rw [Nat.repeat, pow_succ, ← div_div]
      exact standsFor_halved inductionHypothesis

/-- Ties go to the even mantissa, but either neighbour is near enough. -/
theorem standsFor_rounded {extended : ExtendedMantissa} {number : Rat}
    (standsFor : StandsFor extended number) :
    |(extended.roundedMantissa : Rat) - number| ≤ 1 / 2 := by
  obtain ⟨mantissa, roundBit, stickyBit⟩ := extended
  rw [abs_le]
  cases roundBit <;> cases stickyBit <;>
    simp only [StandsFor, Residue, ExtendedMantissa.roundedMantissa, ExtendedMantissa.accuracy,
      Accuracy.roundToNearestEven] at standsFor ⊢
  · constructor <;> linarith
  · constructor <;> linarith
  · have parity : ((mantissa % 2 : Nat) : Rat) = 0 ∨ ((mantissa % 2 : Nat) : Rat) = 1 := by
      rcases Nat.mod_two_eq_zero_or_one mantissa with even | odd
      · exact .inl (by rw [even]; rfl)
      · exact .inr (by rw [odd]; rfl)
    push_cast at parity ⊢
    rcases parity with even | odd
    · rw [even]
      constructor <;> linarith
    · rw [odd]
      constructor <;> linarith
  · push_cast
    constructor <;> linarith

/-- A tie is rounded to an even mantissa. -/
theorem standsFor_tie {extended : ExtendedMantissa} {number : Rat}
    (standsFor : StandsFor extended number)
    (tie : |(extended.roundedMantissa : Rat) - number| = 1 / 2) :
    extended.roundedMantissa % 2 = 0 := by
  obtain ⟨mantissa, roundBit, stickyBit⟩ := extended
  cases roundBit <;> cases stickyBit <;>
    simp only [StandsFor, Residue, ExtendedMantissa.roundedMantissa, ExtendedMantissa.accuracy,
      Accuracy.roundToNearestEven] at standsFor tie ⊢
  · rw [abs_sub_comm, standsFor] at tie
    norm_num at tie
  · rw [abs_sub_comm, abs_of_pos standsFor.1] at tie
    linarith [standsFor.2]
  · omega
  · push_cast at tie
    rw [abs_of_pos (by linarith [standsFor.2])] at tie
    linarith [standsFor.1]

/-- The grid of a number is as fine as 53 bits allow, and no finer than the least double. -/
def gridExponent (mantissa : Nat) (exponent : Int) : Int :=
  max (mantissa.log2 + 1 + exponent - 53) (-1074)

theorem targetExponent_eq (mantissa : Nat) (exponent : Int) :
    Format.binary64.targetExponent (totalExponent mantissa exponent) =
      gridExponent mantissa exponent := rfl

/-- A mantissa of zero is the number zero. -/
def assemble (sign : Sign) (mantissa : Nat) (exponent : Int) : UnpackedFloat :=
  if empty : mantissa = 0 then .zero sign
  else .finite sign mantissa exponent (Nat.pos_of_ne_zero empty)

/-- A point of a grid, with its mantissa brought back to 53 bits. -/
def gridPoint (sign : Sign) (count : Nat) (grid : Int) : UnpackedFloat :=
  if count = 2 ^ 53 then assemble sign (2 ^ 52) (grid + 1) else assemble sign count grid

/-- The number is rounded to the point of the grid. Only the finest grid may hold a mantissa of fewer
than 53 bits, and a tie goes to the even one of two points. -/
structure Rounded (number : Rat) (count : Nat) (grid : Int) : Prop where
  least : -1074 ≤ grid
  fits : count ≤ 2 ^ 53
  near : |count * 2 ^ grid - number| ≤ 2 ^ grid / 2
  full : grid = -1074 ∨ 2 ^ 52 ≤ count ∧ 2 ^ (52 + grid) ≤ number
  even : |count * 2 ^ grid - number| = 2 ^ grid / 2 → count % 2 = 0

theorem gridExponent_of_count {count : Nat} {grid : Int} (least : -1074 ≤ grid)
    (fits : count < 2 ^ 53) : gridExponent count grid ≤ grid := by
  have small : count.log2 < 53 := by
    rcases Nat.eq_zero_or_pos count with rfl | positive
    · decide
    · exact (Nat.log2_lt positive.ne').2 fits
  unfold gridExponent
  omega

/-- The second shift drops no bit, and it happens only when rounding has filled the mantissa. -/
theorem second_shift {count : Nat} {grid : Int} (least : -1074 ≤ grid) (fits : count ≤ 2 ^ 53) :
    let shifted := shiftToTargetExponent Format.binary64 count grid .exact
    (shifted.1.mantissa, shifted.2) =
      if count = 2 ^ 53 then (2 ^ 52, grid + 1) else (count, grid) := by
  intro shifted
  simp only [shifted, shiftToTargetExponent, targetExponent_eq, shiftToExponent]
  rcases fits.lt_or_eq with below | rfl
  · have still : (gridExponent count grid - grid).toNat = 0 := by
      have coarse := gridExponent_of_count least below
      omega
    rw [still, if_neg below.ne]
    simp [ExtendedMantissa.ofMantissaAndAccuracy, HShiftRight.hShiftRight, Nat.repeat]
  · have once : (gridExponent (2 ^ 53) grid - grid).toNat = 1 := by
      have length : (2 ^ 53 : Nat).log2 = 53 := by decide
      unfold gridExponent
      omega
    rw [once, if_pos rfl]
    rfl

theorem roundWithAccuracy_of_shift {sign : Sign} {mantissa count : Nat} {exponent grid : Int}
    {accuracy : Accuracy} {first : ExtendedMantissa} (least : -1074 ≤ grid) (fits : count ≤ 2 ^ 53)
    (shifted : shiftToTargetExponent Format.binary64 mantissa exponent accuracy = (first, grid))
    (rounded : first.roundedMantissa = count) :
    roundWithAccuracy Format.binary64 sign mantissa exponent accuracy =
      gridPoint sign count grid := by
  have second := second_shift least fits
  have assembled : roundWithAccuracy Format.binary64 sign mantissa exponent accuracy =
      assemble sign (shiftToTargetExponent Format.binary64 count grid .exact).1.mantissa
        (shiftToTargetExponent Format.binary64 count grid .exact).2 := by
    rw [← rounded, roundWithAccuracy, shifted]
    rfl
  rw [assembled, gridPoint]
  split at second <;> rename_i filled
  · rw [if_pos filled]
    simp only [Prod.mk.injEq] at second
    rw [second.1, second.2]
  · rw [if_neg filled]
    simp only [Prod.mk.injEq] at second
    rw [second.1, second.2]

/-- Between two powers of two lie the numbers with a given mantissa. -/
theorem standsFor_log_bounds {mantissa : Nat} {accuracy : Accuracy} {number : Rat}
    (standsFor : StandsFor (.ofMantissaAndAccuracy mantissa accuracy) number) :
    (mantissa ≠ 0 → (2 : Rat) ^ mantissa.log2 ≤ number) ∧
      number < (2 : Rat) ^ (mantissa.log2 + 1) := by
  have whole : (ExtendedMantissa.ofMantissaAndAccuracy mantissa accuracy).mantissa = mantissa := by
    rcases accuracy with _ | (_ | _ | _) <;> rfl
  obtain ⟨low, high⟩ := standsFor_bounds standsFor
  rw [whole] at low high
  constructor
  · intro nonzero
    have power : ((2 ^ mantissa.log2 : Nat) : Rat) ≤ mantissa := by
      exact_mod_cast Nat.log2_self_le nonzero
    push_cast at power
    exact power.trans low
  · have power : ((mantissa + 1 : Nat) : Rat) ≤ (2 ^ (mantissa.log2 + 1) : Nat) := by
      exact_mod_cast Nat.lt_log2_self
    push_cast at power
    exact high.trans_le power

/-- Rounding takes the nearest point of the grid, provided that the mantissa has bits enough. -/
theorem roundWithAccuracy_rounded {mantissa : Nat} {exponent : Int} {accuracy : Accuracy}
    {number : Rat} (sign : Sign)
    (standsFor : StandsFor (.ofMantissaAndAccuracy mantissa accuracy) number)
    (enough : exponent ≤ gridExponent mantissa exponent) :
    ∃ count grid, Rounded (number * 2 ^ exponent) count grid ∧
      roundWithAccuracy Format.binary64 sign mantissa exponent accuracy =
        gridPoint sign count grid := by
  generalize chosen : gridExponent mantissa exponent = grid at enough
  obtain ⟨count, reached⟩ : ∃ count : Nat, grid = exponent + count :=
    ⟨(grid - exponent).toNat, by omega⟩
  have amount : (grid - exponent).toNat = count := by omega
  have shifted : shiftToTargetExponent Format.binary64 mantissa exponent accuracy =
      (ExtendedMantissa.ofMantissaAndAccuracy mantissa accuracy >>> count, grid) := by
    rw [shiftToTargetExponent, targetExponent_eq, chosen, shiftToExponent, amount, reached]
  have least : -1074 ≤ grid := by
    rw [← chosen]
    exact le_max_right _ _
  have first := standsFor_shifted standsFor count
  obtain ⟨low, high⟩ := standsFor_log_bounds standsFor
  obtain ⟨scaled, rfl⟩ : ∃ scaled : Rat, number = scaled * 2 ^ count :=
    ⟨number / 2 ^ count, by field_simp⟩
  rw [mul_div_assoc, div_self (by positivity), mul_one] at first
  have inGrid : scaled * 2 ^ count * 2 ^ exponent = scaled * (2 : Rat) ^ grid := by
    rw [reached, zpow_add₀ two_ne_zero, zpow_natCast]
    ring
  have short : scaled < 2 ^ 53 := by
    have length : mantissa.log2 + 1 ≤ 53 + count := by
      unfold gridExponent at chosen
      omega
    have below : scaled * 2 ^ count < 2 ^ 53 * 2 ^ count := by
      rw [← pow_add]
      exact high.trans_le (pow_le_pow_right₀ one_le_two length)
    exact lt_of_mul_lt_mul_right below (by positivity)
  have full : grid = -1074 ∨ 2 ^ 52 ≤ scaled := by
    rcases eq_or_ne grid (-1074) with finest | coarser
    · exact .inl finest
    · have length : mantissa.log2 = 52 + count := by
        unfold gridExponent at chosen
        omega
      have nonzero : mantissa ≠ 0 := by
        rintro rfl
        rw [Nat.log2_zero] at length
        omega
      have above := low nonzero
      rw [length, pow_add] at above
      exact .inr (le_of_mul_le_mul_right above (by positivity))
  have nearest := standsFor_rounded first
  have tied := standsFor_tie first
  generalize rounded : (ExtendedMantissa.ofMantissaAndAccuracy mantissa accuracy >>>
    count).roundedMantissa = points at nearest tied
  obtain ⟨lower, upper⟩ := abs_le.1 nearest
  have fits : points ≤ 2 ^ 53 := by
    have bound : (points : Rat) < (2 ^ 53 + 1 : Nat) := by
      push_cast
      linarith
    exact Nat.lt_succ_iff.1 (by exact_mod_cast bound)
  have step : (0 : Rat) < 2 ^ grid := by positivity
  refine ⟨points, grid, ⟨least, fits, ?_, ?_, ?_⟩,
    roundWithAccuracy_of_shift least fits shifted rounded⟩
  · rw [inGrid, ← sub_mul, abs_mul, abs_of_pos step]
    calc |(points : Rat) - scaled| * 2 ^ grid ≤ 1 / 2 * 2 ^ grid := by gcongr
      _ = 2 ^ grid / 2 := by ring
  · refine full.imp_right fun filled => ⟨?_, ?_⟩
    · have bound : ((2 ^ 52 : Nat) : Rat) < (points + 1 : Nat) := by
        push_cast
        linarith
      exact Nat.lt_succ_iff.1 (by exact_mod_cast bound)
    · rw [inGrid, zpow_add₀ two_ne_zero]
      exact mul_le_mul_of_nonneg_right (by exact_mod_cast filled) (by positivity)
  · rw [inGrid, ← sub_mul, abs_mul, abs_of_pos step, div_eq_mul_one_div, mul_comm]
    intro tie
    exact tied (mul_left_cancel₀ step.ne' tie)

end BenchPrinter.Double
