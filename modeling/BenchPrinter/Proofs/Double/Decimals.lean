import BenchPrinter.Proofs.Double.Interval

/-!
Decimals as doubles. A decimal is converted by operations that are rounded once, so a decimal in the
interval of a double is converted to this double.
-/

namespace BenchPrinter.Double

open Float.Model Float.Model.UnpackedFloat

/-- The double is the point that the number is rounded to. -/
def RoundsTo (number : Rat) (value : Float) : Prop :=
  ∃ count grid, Rounded number count grid ∧ value = pack (gridPoint .positive count grid)

theorem pack_unpacked (value : Float) : pack (unpacked value) = value := by
  have bits : UnpackedFloat.pack Format.binary64
      (UnpackedFloat.unpack Format.binary64 value.toModel.toBits.toBitVec) =
        value.toModel.toBits.toBitVec := pack_unpack_of_valid value.toModel.valid
  exact congrArg Float.ofModel
    ((Float.Model.mk.injEq _ _ _ _).mpr (congrArg UInt64.ofBitVec bits))

section

variable {first second value : Float}

theorem IsFinite.form_of_pos (finite : IsFinite value) (positive : 0 < worth value) :
    ∃ mantissa exponent mantissaPositive,
      unpacked value = .finite .positive mantissa exponent mantissaPositive ∧
        worth value = mantissa * 2 ^ exponent := by
  rcases finite.form with ⟨sign, form⟩ | ⟨sign, mantissa, exponent, mantissaPositive, form⟩
  · rw [worth, form] at positive
    exact absurd positive (lt_irrefl 0)
  · have worthy : worth value = signed sign (mantissa * 2 ^ exponent) := by
      rw [worth, form, unpackedWorth_finite]
    cases sign with
    | positive => exact ⟨mantissa, exponent, mantissaPositive, form, worthy⟩
    | negative =>
        have size : (0 : Rat) < mantissa * 2 ^ exponent := by positivity
        rw [worthy] at positive
        exact absurd (neg_pos.1 positive) (lt_asymm size)

theorem mul_rounds (firstFinite : IsFinite first) (secondFinite : IsFinite second)
    (firstPositive : 0 < worth first) (secondPositive : 0 < worth second) :
    RoundsTo (worth first * worth second) (first * second) := by
  have firstCanonical := canonical_unpacked first
  have secondCanonical := canonical_unpacked second
  change RoundsTo _ (pack (UnpackedFloat.mul Format.binary64 (unpacked first) (unpacked second)))
  obtain ⟨mantissa, exponent, positive, form, worthy⟩ := firstFinite.form_of_pos firstPositive
  obtain ⟨other, otherExponent, otherPositive, otherForm, otherWorthy⟩ :=
    secondFinite.form_of_pos secondPositive
  rw [form] at firstCanonical
  rw [otherForm] at secondCanonical
  obtain ⟨count, grid, rounded, reached⟩ := mul_rounded .positive .positive positive otherPositive
    (product_enough firstCanonical secondCanonical)
  rw [form, otherForm, worthy, otherWorthy, reached]
  exact ⟨count, grid, rounded, rfl⟩

theorem div_rounds (firstFinite : IsFinite first) (secondFinite : IsFinite second)
    (firstPositive : 0 < worth first) (secondPositive : 0 < worth second) :
    RoundsTo (worth first / worth second) (first / second) := by
  change RoundsTo _ (pack (UnpackedFloat.div Format.binary64 (unpacked first) (unpacked second)))
  obtain ⟨mantissa, exponent, positive, form, worthy⟩ := firstFinite.form_of_pos firstPositive
  obtain ⟨other, otherExponent, otherPositive, otherForm, otherWorthy⟩ :=
    secondFinite.form_of_pos secondPositive
  obtain ⟨count, grid, rounded, reached⟩ := div_rounded .positive .positive exponent otherExponent
    positive otherPositive
  rw [form, otherForm, worthy, otherWorthy, reached]
  exact ⟨count, grid, rounded, rfl⟩

end

/-- The small powers of ten are exact. -/
theorem worth_powersOfTen (places : Fin 23) :
    IsFinite Float.exactlyRepresentablePowersOfTen[places] ∧
      worth Float.exactlyRepresentablePowersOfTen[places] = 10 ^ places.val := by
  revert places
  decide +kernel

/-- Neither bound of the conversion is passed. -/
theorem model_rounds {digits : Nat} (nonempty : digits ≠ 0) {exponent : Int}
    (high : exponent ≤ 2048) (low : -(2048 + digits.log2 : Int) ≤ exponent) :
    RoundsTo (digits * 10 ^ exponent) (.ofModel (Float.Model.ofScientific digits exponent)) := by
  change RoundsTo _ (pack (UnpackedFloat.ofScientific Format.binary64 digits exponent))
  have bits : (2 : Int) ^ Format.binary64.exponentBits = 2048 := by decide
  rw [UnpackedFloat.ofScientific, dif_neg nonempty, bits, if_neg (by omega), if_neg (by omega)]
  have positive : 0 < digits := Nat.pos_of_ne_zero nonempty
  by_cases whole : 0 ≤ exponent
  · obtain ⟨power, rfl⟩ := Int.eq_ofNat_of_zero_le whole
    have scaledPositive : 0 < digits <<< 53 := by
      rw [Nat.shiftLeft_eq]
      positivity
    have powerPositive : 0 < 10 ^ power := by positivity
    have enough : (-53 : Int) + (0 : Int) ≤
        gridExponent (digits <<< 53 * 10 ^ power) (-53 + (0 : Int)) := by
      rw [add_zero]
      exact scaled_enough nonempty powerPositive
    obtain ⟨count, grid, rounded, reached⟩ := mul_rounded .positive .positive scaledPositive
      powerPositive enough
    have number : ((digits <<< 53 : Nat) : Rat) * 2 ^ (-53 : Int) *
        ((10 ^ power : Nat) * 2 ^ (0 : Int)) = digits * 10 ^ (power : Int) := by
      rw [Nat.shiftLeft_eq, zpow_zero, mul_one, zpow_neg, zpow_natCast]
      push_cast
      field_simp
    rw [number] at rounded
    rw [if_pos whole]
    exact ⟨count, grid, rounded, congrArg pack reached⟩
  · obtain ⟨power, rfl⟩ : ∃ power : Nat, exponent = -power := ⟨(-exponent).toNat, by omega⟩
    obtain ⟨count, grid, rounded, reached⟩ := div_rounded .positive .positive 0 0 positive
      (show 0 < 10 ^ power by positivity)
    have number : (digits : Rat) * 2 ^ (0 : Int) / ((10 ^ power : Nat) * 2 ^ (0 : Int)) =
        digits * 10 ^ (-(power : Int)) := by
      rw [zpow_zero, mul_one, mul_one, zpow_neg, zpow_natCast]
      push_cast
      rfl
    rw [number] at rounded
    have back : (-(-(power : Int))).toNat = power := by omega
    rw [if_neg whole]
    refine ⟨count, grid, rounded, congrArg pack (Eq.trans ?_ reached)⟩
    congr 2
    rw [back]

/-- Few digits and a small power are converted by one operation on doubles, all others by one on
whole numbers. -/
theorem ofScientific_rounds {digits : Nat} (nonempty : digits ≠ 0) (below : Bool) {places : Nat}
    (within : places ≤ 2048 + if below then digits.log2 else 0) :
    RoundsTo (digits * 10 ^ (if below then -(places : Int) else places))
      (Float.ofScientific digits below places) := by
  have positive : (0 : Rat) < digits := by exact_mod_cast Nat.pos_of_ne_zero nonempty
  unfold Float.ofScientific
  by_cases short : digits < 2 ^ 53 ∧ places ≤ 22
  · obtain ⟨fits, few⟩ := short
    obtain ⟨finite, worthy⟩ := toFloat_worth fits
    obtain ⟨powerFinite, powerWorthy⟩ := worth_powersOfTen ⟨places, by omega⟩
    have powerPositive : (0 : Rat) < 10 ^ places := by positivity
    rw [dif_pos ⟨fits, few⟩]
    cases below with
    | false =>
        have product := mul_rounds finite powerFinite (by rwa [worthy]) (by rwa [powerWorthy])
        rw [worthy, powerWorthy] at product
        exact product
    | true =>
        have quotient := div_rounds finite powerFinite (by rwa [worthy]) (by rwa [powerWorthy])
        rw [worthy, powerWorthy, div_eq_mul_inv, ← zpow_natCast, ← zpow_neg] at quotient
        exact quotient
  · rw [dif_neg short]
    cases below with
    | false => exact model_rounds nonempty (by simp at within ⊢; omega) (by simp; omega)
    | true =>
        have negated : Int.negOfNat places = -(places : Int) := Int.negOfNat_eq
        simp only [if_true, negated] at within ⊢
        exact model_rounds nonempty (by omega) (by omega)

section

variable {mantissa : Nat} {exponent : Int} {number : Rat}

/-- The intervals of all doubles lie between these powers of two. -/
theorem Captures.bounds (captures : Captures mantissa exponent number) (positive : 0 < mantissa)
    (fits : mantissa < 2 ^ 53) (least : -1074 ≤ exponent) (greatest : exponent ≤ 971) :
    2 ^ (-1075 : Int) ≤ number ∧ number ≤ 2 ^ (1024 : Int) := by
  have unit : (0 : Rat) < 2 ^ exponent := by positivity
  have one : (1 : Rat) ≤ mantissa := by exact_mod_cast positive
  have whole : (mantissa : Rat) + 1 ≤ 2 ^ 53 := by exact_mod_cast fits
  constructor
  · have finest : (2 : Rat) ^ (-1075 : Int) * 2 ≤ 2 ^ exponent := by
      rw [← zpow_add_one₀ two_ne_zero]
      exact zpow_le_zpow_right₀ one_le_two (by omega)
    have half := captures.above_half
    have bound : (2 : Rat) * 2 ^ exponent ≤ (4 * mantissa - 2) * 2 ^ exponent := by
      gcongr
      linarith
    linarith
  · have coarsest : (2 : Rat) ^ exponent ≤ 2 ^ (971 : Int) := zpow_le_zpow_right₀ one_le_two greatest
    have bound : (4 * mantissa + 2 : Rat) * 2 ^ exponent ≤ 2 ^ 55 * 2 ^ (971 : Int) := by
      gcongr
      linarith
    have power : (2 : Rat) ^ 55 * 2 ^ (971 : Int) = 4 * 2 ^ (1024 : Int) := by
      rw [← zpow_natCast, ← zpow_add₀ two_ne_zero, show (4 : Rat) = 2 ^ (2 : Int) by norm_num,
        ← zpow_add₀ two_ne_zero]
      rfl
    rw [power] at bound
    have upper := captures.upper
    linarith

/-- What rounds into the interval of a double is this double. -/
theorem Captures.reached {value other : Float} (captures : Captures mantissa exponent number)
    {positive : 0 < mantissa} (form : unpacked value = .finite .positive mantissa exponent positive)
    (rounds : RoundsTo number other) : other = value := by
  have canonical := canonical_unpacked value
  rw [form] at canonical
  obtain ⟨fits, least, -, full⟩ := canonical
  obtain ⟨count, grid, rounded, rfl⟩ := rounds
  rw [captures.gridPoint_eq positive fits least full rounded, ← form, pack_unpacked]

end

/-- The count of its digits tells the size of a number. -/
theorem size_bounds {digits : Nat} (nonempty : digits ≠ 0) (exponent : Int) :
    (10 : Rat) ^ ((Nat.toDigits 10 digits).length + exponent - 1) ≤ digits * 10 ^ exponent ∧
      (digits : Rat) * 10 ^ exponent < 10 ^ ((Nat.toDigits 10 digits).length + exponent) := by
  have unit : (0 : Rat) < 10 ^ exponent := by positivity
  have some : 0 < (Nat.toDigits 10 digits).length := Nat.length_toDigits_pos
  constructor
  · have few : 10 ^ ((Nat.toDigits 10 digits).length - 1) ≤ digits := by
      rcases Nat.eq_zero_or_pos ((Nat.toDigits 10 digits).length - 1) with single | more
      · rw [single]
        omega
      · by_contra less
        have short := (Nat.length_toDigits_le_iff (by decide) more).2 (not_le.1 less)
        omega
    have cast : (10 : Rat) ^ ((Nat.toDigits 10 digits).length - 1) ≤ digits := by exact_mod_cast few
    calc (10 : Rat) ^ ((Nat.toDigits 10 digits).length + exponent - 1)
        = 10 ^ ((Nat.toDigits 10 digits).length - 1) * 10 ^ exponent := by
          rw [← zpow_natCast, ← zpow_add₀ (by norm_num)]
          congr 1
          omega
      _ ≤ digits * 10 ^ exponent := by gcongr
  · have many : digits < 10 ^ (Nat.toDigits 10 digits).length :=
      (Nat.length_toDigits_le_iff (by decide) some).1 le_rfl
    have cast : (digits : Rat) < 10 ^ (Nat.toDigits 10 digits).length := by exact_mod_cast many
    rw [zpow_add₀ (by norm_num), zpow_natCast]
    gcongr

theorem length_le_log2 (digits : Nat) : (Nat.toDigits 10 digits).length ≤ digits.log2 + 1 := by
  rw [Nat.length_toDigits_le_iff (by decide) (Nat.succ_pos _)]
  exact Nat.lt_log2_self.trans_le (Nat.pow_le_pow_left (by decide) _)

theorem ten_pow_large : (2 : Rat) ^ (1200 : Int) ≤ 10 ^ (400 : Int) := by
  have cubes : ((2 : Rat) ^ 3) ^ 400 ≤ 10 ^ 400 := pow_le_pow_left₀ (by norm_num) (by norm_num) 400
  rw [← pow_mul, ← zpow_natCast, ← zpow_natCast] at cubes
  exact cubes

/-- A decimal in the interval of a positive double is read as this double. -/
theorem nearestDouble_of_captures {value : Float} {mantissa digits : Nat} {exponent power : Int}
    {positive : 0 < mantissa} (form : unpacked value = .finite .positive mantissa exponent positive)
    (captures : Captures mantissa exponent (digits * 10 ^ power)) :
    nearestDouble digits power = value := by
  have canonical := canonical_unpacked value
  rw [form] at canonical
  obtain ⟨fits, least, greatest, -⟩ := canonical
  obtain ⟨low, high⟩ := captures.bounds positive fits least greatest
  have nonempty : digits ≠ 0 := by
    rintro rfl
    have some := captures.pos positive
    rw [Nat.cast_zero, zero_mul] at some
    exact absurd some (lt_irrefl 0)
  obtain ⟨sizeLow, sizeHigh⟩ := size_bounds nonempty power
  have length := length_le_log2 digits
  have some : 0 < (Nat.toDigits 10 digits).length := Nat.length_toDigits_pos
  have notHuge : ¬ 400 < ((Nat.toDigits 10 digits).length : Int) + power := by
    intro huge
    have large : (10 : Rat) ^ (400 : Int) ≤
        10 ^ ((Nat.toDigits 10 digits).length + power - 1) :=
      zpow_le_zpow_right₀ (by norm_num) (by omega)
    have beyond : (2 : Rat) ^ (1024 : Int) < 10 ^ (400 : Int) :=
      (zpow_lt_zpow_right₀ one_lt_two (by decide)).trans_le ten_pow_large
    exact absurd (large.trans (sizeLow.trans high)) (not_le.2 beyond)
  have notTiny : ¬ ((Nat.toDigits 10 digits).length : Int) + power < -400 := by
    intro tiny
    have small : (10 : Rat) ^ ((Nat.toDigits 10 digits).length + power) ≤ 10 ^ (-400 : Int) :=
      zpow_le_zpow_right₀ (by norm_num) (by omega)
    have beyond : (10 : Rat) ^ (-400 : Int) < 2 ^ (-1075 : Int) := by
      have inverse := inv_anti₀ (by positivity) ten_pow_large
      rw [← zpow_neg, ← zpow_neg] at inverse
      exact inverse.trans_lt (zpow_lt_zpow_right₀ one_lt_two (by decide))
    exact absurd (low.trans (sizeHigh.le.trans small)) (not_le.2 beyond)
  simp only [nearestDouble, if_neg nonempty, if_neg notHuge, if_neg notTiny]
  by_cases whole : 0 ≤ power
  · have rounds := ofScientific_rounds nonempty false (show power.toNat ≤ 2048 + 0 by omega)
    simp only [Bool.false_eq_true, if_false, Int.toNat_of_nonneg whole] at rounds
    rw [if_pos whole]
    exact captures.reached form rounds
  · have rounds := ofScientific_rounds nonempty true
      (show (-power).toNat ≤ 2048 + digits.log2 by omega)
    have back : -((-power).toNat : Int) = power := by omega
    simp only [if_true, back] at rounds
    rw [if_neg whole]
    exact captures.reached form rounds

end BenchPrinter.Double
