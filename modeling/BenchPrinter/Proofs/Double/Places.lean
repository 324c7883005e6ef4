import BenchPrinter.Proofs.Double.Decimals
import BenchPrinter.Proofs.Double.Pattern

/-!
Numbers with two decimals. Such a number is read as the double nearest to it, which is so near that
it is printed with the same two decimals again.
-/

namespace BenchPrinter

/-- A quotient that is nearer than a half to a whole number is rounded to it. -/
theorem roundHalfEven_of_near {numerator denominator count : Nat} (positive : 0 < denominator)
    (near : |(numerator / denominator : Rat) - count| < 1 / 2) :
    roundHalfEven numerator denominator = count := by
  have unit : (0 : Rat) < denominator := by exact_mod_cast positive
  obtain ⟨above, below⟩ := abs_lt.1 near
  have lower : 2 * (denominator * count) < 2 * numerator + denominator := by
    have scaled : (count - 1 / 2 : Rat) < numerator / denominator := by linarith
    rw [lt_div_iff₀ unit] at scaled
    have doubled : (2 * (denominator * count) : Rat) < 2 * numerator + denominator := by linarith
    exact_mod_cast doubled
  have upper : 2 * numerator < 2 * (denominator * count) + denominator := by
    have scaled : (numerator / denominator : Rat) < count + 1 / 2 := by linarith
    rw [div_lt_iff₀ unit] at scaled
    have doubled : (2 * numerator : Rat) < 2 * (denominator * count) + denominator := by linarith
    exact_mod_cast doubled
  have parts := Nat.div_add_mod numerator denominator
  have rest := Nat.mod_lt numerator positive
  unfold roundHalfEven
  dsimp only
  -- the quotient is the whole number or the one below it, and the rest tells which of them
  rcases Nat.lt_trichotomy (numerator / denominator) count with less | same | more
  · have reached : numerator / denominator + 1 = count := by
      by_contra different
      have far := Nat.mul_le_mul_left denominator
        (show numerator / denominator + 2 ≤ count by omega)
      rw [Nat.mul_add] at far
      omega
    rw [← reached, Nat.mul_succ] at lower
    rw [if_neg (by omega), if_pos (by omega), reached]
  · rw [← same] at upper
    rw [if_pos (by omega), same]
  · have far := Nat.mul_le_mul_left denominator (Nat.succ_le_of_lt more)
    rw [Nat.mul_succ] at far
    omega

namespace Double

open Float.Model Float.Model.UnpackedFloat

variable {value : Float}

/-- The exact value of a finite double has the sign that the double shows and is worth its
magnitude. -/
theorem exact_eq (finite : IsFinite value) :
    ∃ numerator denominator, 0 < denominator ∧
      Exact.ofFloat value =
        .finite (DoublePattern.ofFloat value).negative numerator denominator ∧
      worth value = signed (signOf (DoublePattern.ofFloat value).negative)
        (numerator / denominator) := by
  have isFinite := (pattern_finite value).2 finite
  have form : worth value = signed (signOf (DoublePattern.ofFloat value).negative)
      ((DoublePattern.ofFloat value).mantissa * 2 ^ (DoublePattern.ofFloat value).scale) := by
    rw [worth, unpacked_of_pattern isFinite, unpackedWorth_assemble]
  rw [Exact.ofFloat, DoublePattern.exact, if_pos isFinite, form, Exact.ofBinary]
  generalize (DoublePattern.ofFloat value).scale = scale
  split
  · rename_i whole
    obtain ⟨power, rfl⟩ := Int.eq_ofNat_of_zero_le whole
    refine ⟨_, _, one_pos, rfl, ?_⟩
    simp [twoTo]
  · rename_i below
    obtain ⟨power, rfl⟩ : ∃ power : Nat, scale = -power := ⟨(-scale).toNat, by omega⟩
    refine ⟨_, _, twoTo_pos _, rfl, ?_⟩
    simp [twoTo, div_eq_mul_inv]

/-- A double that is near enough to a multiple of the last place is printed as this multiple. -/
theorem fixed_of_near (finite : IsFinite value) {places count : Nat}
    (near : |(|worth value| * 10 ^ places) - count| < 1 / 2) :
    Quantity.fixed places value = String.ofList
      ((if (DoublePattern.ofFloat value).negative then ['-'] else []) ++ pointed places count) := by
  obtain ⟨numerator, denominator, positive, exact, worthy⟩ := exact_eq finite
  have size : (0 : Rat) ≤ numerator / denominator := by positivity
  have rounds : roundHalfEven (numerator * tenTo places) denominator = count := by
    apply roundHalfEven_of_near positive
    have power : ((tenTo places : Nat) : Rat) = 10 ^ places := by
      rw [tenTo, Nat.pow_eq]
      push_cast
      rfl
    rw [worthy, abs_signed, abs_of_nonneg size] at near
    rwa [Nat.cast_mul, power, mul_div_right_comm]
  rw [Quantity.fixed]
  change (Exact.ofFloat value).fixed places = _
  rw [exact, Exact.fixed, Exact.unsignedFixed, rounds, Exact.isNegative]
  cases (DoublePattern.ofFloat value).negative <;> rfl

/-- A double that is not worth zero has the sign of its worth. -/
theorem negative_iff (finite : IsFinite value) (nonzero : worth value ≠ 0) :
    (DoublePattern.ofFloat value).negative = true ↔ worth value < 0 := by
  obtain ⟨numerator, denominator, -, -, worthy⟩ := exact_eq finite
  have size : (0 : Rat) ≤ numerator / denominator := by positivity
  rw [worthy] at nonzero ⊢
  revert nonzero
  cases (DoublePattern.ofFloat value).negative with
  | true =>
      intro nonzero
      have some : (numerator / denominator : Rat) ≠ 0 := fun zero =>
        nonzero ((congrArg Neg.neg zero).trans neg_zero)
      exact iff_of_true rfl (neg_neg_of_pos (size.lt_of_ne' some))
  | false => exact fun _ => iff_of_false Bool.false_ne_true (not_lt.2 size)

/-- A decimal with few places is converted to a double nearest to it. -/
theorem decimal_nearest {digits places : Nat} (few : places ≤ 22)
    (small : (digits / 10 ^ places : Rat) < limit) :
    Nearest (digits / 10 ^ places) (OfScientific.ofScientific digits true places) := by
  by_cases fits : digits < 2 ^ 53
  · obtain ⟨finite, worthy⟩ := toFloat_worth fits
    obtain ⟨powerFinite, powerWorthy⟩ := worth_powersOfTen ⟨places, by omega⟩
    have quotient := div_nearest finite powerFinite (by
      rw [powerWorthy]
      positivity)
    rw [worthy, powerWorthy, abs_of_nonneg (by positivity)] at quotient
    rw [ofScientific_fast fits few]
    exact quotient small
  · obtain ⟨count, grid, rounded, reached⟩ := ofScientific_rounds (show digits ≠ 0 by omega) true
      (show places ≤ 2048 + digits.log2 by omega)
    simp only [if_true, zpow_neg, zpow_natCast, ← div_eq_mul_inv] at rounded
    have nearest := nearest_of_rounded .positive rounded small
    rw [← reached] at nearest
    exact nearest

/-- Negation only flips the sign. -/
theorem worth_neg (finite : IsFinite value) :
    IsFinite (-value) ∧ worth (-value) = -worth value := by
  have canonical := canonical_unpacked value
  have negated : unpacked (-value) = UnpackedFloat.neg (unpacked value) := by
    change unpacked (pack (UnpackedFloat.neg (unpacked value))) = _
    apply unpacked_pack
    rcases finite.form with ⟨sign, form⟩ | ⟨sign, mantissa, exponent, positive, form⟩ <;>
      rw [form] at canonical ⊢ <;> exact canonical
  unfold worth IsFinite
  rw [negated]
  rcases finite.form with ⟨sign, form⟩ | ⟨sign, mantissa, exponent, positive, form⟩
  · rw [form]
    exact ⟨rfl, neg_zero.symm⟩
  · rw [form, UnpackedFloat.neg, unpackedWorth_finite, unpackedWorth_finite, signed_neg]
    exact ⟨rfl, rfl⟩

/-- A decimal with two places at most is nearer to its double than a half of the last place, unless
it is very large. -/
theorem decimal_near {digits places : Nat} (few : places ≤ 2)
    (moderate : digits < 2 ^ 46 * 10 ^ places) :
    IsFinite (OfScientific.ofScientific digits true places) ∧
      |worth (OfScientific.ofScientific digits true places) - digits / 10 ^ places| ≤ 1 / 256 := by
  have below : (digits / 10 ^ places : Rat) < 2 ^ 46 := by
    rw [div_lt_iff₀ (by positivity)]
    exact_mod_cast moderate
  have size : |(digits / 10 ^ places : Rat)| < 2 ^ 46 := by rwa [abs_of_nonneg (by positivity)]
  have small := (le_abs_self _).trans_lt (abs_lt_limit (size.le.trans (by norm_num)))
  have nearest := decimal_nearest (few.trans (by decide)) small
  -- on the grid of `2 ^ -7` the mantissas reach up to `2 ^ 46`
  have error := nearest.error_le (show -1074 ≤ -7 by decide) (by decide)
    (size.le.trans_eq (by norm_num))
  exact ⟨nearest.finite, error.trans_eq (by norm_num)⟩

/-- The double of a decimal shows no sign. -/
theorem decimal_unsigned {digits places : Nat} (few : places ≤ 2)
    (moderate : digits < 2 ^ 46 * 10 ^ places) :
    (DoublePattern.ofFloat (OfScientific.ofScientific digits true places)).negative = false ∧
      (digits ≠ 0 → 0 < worth (OfScientific.ofScientific digits true places)) := by
  rcases Nat.eq_zero_or_pos digits with rfl | some
  · refine ⟨?_, fun nonzero => absurd rfl nonzero⟩
    interval_cases places <;> decide +kernel
  · obtain ⟨finite, near⟩ := decimal_near few moderate
    have large : (1 / 100 : Rat) ≤ digits / 10 ^ places := by
      have one : (1 : Rat) ≤ digits := by exact_mod_cast some
      calc (1 / 100 : Rat) = 1 / 10 ^ 2 := by norm_num
        _ ≤ 1 / 10 ^ places :=
          one_div_le_one_div_of_le (by positivity) (pow_le_pow_right₀ (by norm_num) few)
        _ ≤ digits / 10 ^ places := by gcongr
    have positive : 0 < worth (OfScientific.ofScientific digits true places) := by
      linarith [(abs_le.1 near).1]
    refine ⟨?_, fun _ => positive⟩
    rw [← Bool.not_eq_true, negative_iff finite positive.ne']
    exact positive.le.not_gt

/-- A numeral with two places at most is read as a double that is printed with the same digits. -/
theorem fixed_ofNumeral {numeral : Numeral} (few : numeral.places ≤ 2)
    (moderate : numeral.digits < 2 ^ 46 * 10 ^ numeral.places)
    (nonzero : numeral.negative = true → numeral.digits ≠ 0) :
    Quantity.fixed 2 (Quantity.ofNumeral numeral : Float) = String.ofList
      ((if numeral.negative then ['-'] else []) ++
        pointed 2 (numeral.digits * 10 ^ (2 - numeral.places))) := by
  obtain ⟨negative, digits, places⟩ := numeral
  dsimp only at few moderate nonzero
  obtain ⟨finite, near⟩ := decimal_near few moderate
  obtain ⟨shown, positive⟩ := decimal_unsigned few moderate
  have scaled : ((digits * 10 ^ (2 - places) : Nat) : Rat) = digits / 10 ^ places * 10 ^ 2 := by
    rw [← Nat.sub_add_cancel few, pow_add]
    push_cast
    rw [Nat.add_sub_cancel]
    field_simp
  have close : |(|worth (OfScientific.ofScientific digits true places)| * 10 ^ 2) -
      (digits * 10 ^ (2 - places) : Nat)| < 1 / 2 := by
    have distance := (abs_abs_sub_abs_le _ _).trans near
    rw [abs_of_nonneg (by positivity : (0 : Rat) ≤ digits / 10 ^ places)] at distance
    rw [scaled, ← sub_mul, abs_mul, abs_of_pos (by norm_num : (0 : Rat) < 10 ^ 2)]
    linarith
  rw [Quantity.ofNumeral]
  cases negative with
  | false =>
      have printed := fixed_of_near finite close
      rwa [shown] at printed
  | true =>
      obtain ⟨negatedFinite, negated⟩ := worth_neg finite
      have below : worth (-OfScientific.ofScientific digits true places) < 0 := by
        rw [negated]
        exact neg_neg_of_pos (positive (nonzero rfl))
      rw [← abs_neg (worth _), ← negated] at close
      have printed := fixed_of_near negatedFinite close
      rwa [(negative_iff negatedFinite below.ne).2 below] at printed

end Double

end BenchPrinter
