import BenchPrinter.Proofs.Double.Worth

/-!
The double nearest to a number. Arithmetic on doubles gives such a double, and most of what can be
said about the arithmetic follows from that alone.
-/

namespace BenchPrinter.Double

open Float.Model Float.Model.UnpackedFloat

/-- No finite double is nearer to the number. -/
structure Nearest (number : Rat) (value : Float) : Prop where
  finite : IsFinite value
  nearest : ∀ other, IsFinite other → |worth value - number| ≤ |worth other - number|

/-- The greatest doubles are this far apart. -/
@[irreducible] def topStep : Rat := 2 ^ (971 : Int)

theorem topStep_eq : topStep = 2 ^ (971 : Int) := by
  rw [topStep]

theorem topStep_pos : 0 < topStep := by
  rw [topStep_eq]
  positivity

/-- Numbers from here on are rounded to the power of two above all doubles. -/
def limit : Rat := 2 ^ 53 * topStep - topStep / 2

def signed : Sign → Rat → Rat
  | .negative, number => -number
  | .positive, number => number

theorem signed_sub (sign : Sign) (first second : Rat) :
    signed sign first - signed sign second = signed sign (first - second) := by
  cases sign
  · simp only [signed]
    ring
  · rfl

theorem signed_neg (sign : Sign) (number : Rat) : signed (-sign) number = -signed sign number := by
  cases sign with
  | negative => exact (neg_neg number).symm
  | positive => rfl

@[simp] theorem abs_signed (sign : Sign) (number : Rat) : |signed sign number| = |number| := by
  cases sign <;> simp [signed]

@[simp] theorem signed_signed (sign : Sign) (number : Rat) :
    signed sign (signed sign number) = number := by
  cases sign <;> simp [signed]

theorem unpackedWorth_finite (sign : Sign) (mantissa : Nat) (exponent : Int)
    (positive : 0 < mantissa) :
    unpackedWorth (.finite sign mantissa exponent positive) =
      signed sign (mantissa * 2 ^ exponent) := by
  cases sign <;> simp [unpackedWorth, Sign.apply, signed]

theorem unpackedWorth_assemble (sign : Sign) (mantissa : Nat) (exponent : Int) :
    unpackedWorth (assemble sign mantissa exponent) = signed sign (mantissa * 2 ^ exponent) := by
  rcases Nat.eq_zero_or_pos mantissa with rfl | positive
  · cases sign <;> simp [assemble, unpackedWorth, signed]
  · rw [assemble_of_pos sign exponent positive, unpackedWorth_finite]

theorem unpackedWorth_gridPoint (sign : Sign) (count : Nat) (grid : Int) :
    unpackedWorth (gridPoint sign count grid) = signed sign (count * 2 ^ grid) := by
  rw [gridPoint]
  split_ifs with filled
  · rw [unpackedWorth_assemble, filled, zpow_add₀ two_ne_zero]
    congr 1
    push_cast
    ring
  · exact unpackedWorth_assemble sign count grid

/-- A double is a multiple of every grid that is not too coarse for its magnitude. -/
theorem multiple_of_grid (value : Float) {grid : Int}
    (coarse : grid = -1074 ∨ 2 ^ (52 + grid) ≤ |worth value|) :
    ∃ count : Int, worth value = count * 2 ^ grid := by
  have canonical := canonical_unpacked value
  unfold worth at coarse ⊢
  cases form : unpacked value with
  | finite sign mantissa exponent positive =>
      rw [form] at canonical coarse
      obtain ⟨fits, least, -, -⟩ := canonical
      rw [unpackedWorth_finite, abs_signed, abs_of_nonneg (by positivity)] at coarse
      have finer : grid ≤ exponent := by
        rcases coarse with rfl | large
        · exact least
        · have short : (mantissa : Rat) * 2 ^ exponent < 2 ^ (53 + exponent) := by
            rw [zpow_add₀ two_ne_zero]
            have whole : (mantissa : Rat) < 2 ^ (53 : Int) := by exact_mod_cast fits
            gcongr
          have ordered := (zpow_lt_zpow_iff_right₀ one_lt_two).1 (large.trans_lt short)
          omega
      obtain ⟨shift, reached⟩ : ∃ shift : Nat, exponent = shift + grid :=
        ⟨(exponent - grid).toNat, by omega⟩
      refine ⟨sign.apply mantissa * 2 ^ shift, ?_⟩
      rw [unpackedWorth, reached, zpow_add₀ two_ne_zero, zpow_natCast]
      push_cast
      ring
  | _ => exact ⟨0, by simp [unpackedWorth]⟩

/-- Two different points of a grid are a whole step apart. -/
theorem step_le_of_ne {first second grid : Int} (different : first ≠ second) :
    (2 : Rat) ^ grid ≤ |(first : Rat) * 2 ^ grid - second * 2 ^ grid| := by
  have apart : 1 ≤ |first - second| := Int.one_le_abs (sub_ne_zero.2 different)
  have cast : (1 : Rat) ≤ |(first : Rat) - second| := by exact_mod_cast apart
  rw [← sub_mul, abs_mul, abs_of_pos (by positivity : (0 : Rat) < 2 ^ grid)]
  exact le_mul_of_one_le_left (by positivity) cast

/-- The point that a number is rounded to is the nearest one of its grid. -/
theorem Rounded.nearest_in_grid {number : Rat} {count : Nat} {grid : Int}
    (rounded : Rounded number count grid) (other : Int) :
    |count * 2 ^ grid - number| ≤ |other * 2 ^ grid - number| := by
  rcases eq_or_ne other count with rfl | different
  · rfl
  · have apart : (2 : Rat) ^ grid ≤ |(other : Rat) * 2 ^ grid - (count : Int) * 2 ^ grid| :=
      step_le_of_ne different
    rw [Int.cast_natCast] at apart
    have triangle := abs_sub_le ((other : Rat) * 2 ^ grid) number (count * 2 ^ grid)
    rw [abs_sub_comm number] at triangle
    linarith [rounded.near]

/-- No number that is worth a double is nearer, on the grid or between two points of it. -/
theorem Rounded.nearest {number : Rat} {count : Nat} {grid : Int}
    (rounded : Rounded number count grid) {other : Rat}
    (onGrid : grid = -1074 ∨ 2 ^ (52 + grid) ≤ |other| → ∃ point : Int, other = point * 2 ^ grid) :
    |count * 2 ^ grid - number| ≤ |other - number| := by
  by_cases coarse : grid = -1074 ∨ 2 ^ (52 + grid) ≤ |other|
  · obtain ⟨point, rfl⟩ := onGrid coarse
    exact rounded.nearest_in_grid point
  · rw [not_or, not_le] at coarse
    obtain ⟨-, large⟩ := rounded.full.resolve_left coarse.1
    have corner := rounded.nearest_in_grid (2 ^ 52)
    have power : ((2 ^ 52 : Int) : Rat) * 2 ^ grid = 2 ^ (52 + grid) := by
      rw [zpow_add₀ two_ne_zero]
      push_cast
      rfl
    rw [power, abs_of_nonpos (by linarith : (2 : Rat) ^ (52 + grid) - number ≤ 0)] at corner
    have below := (abs_lt.1 coarse.2).2
    rw [abs_of_neg (by linarith : other - number < 0)]
    linarith

/-- Below the limit rounding does not overflow. -/
theorem Rounded.canonical {number : Rat} {count : Nat} {grid : Int} (sign : Sign)
    (rounded : Rounded number count grid) (small : number < limit) :
    Canonical (gridPoint sign count grid) := by
  obtain ⟨least, fits, near, full, -⟩ := rounded
  have bounded : grid ≤ 971 := by
    rcases full with rfl | ⟨-, large⟩
    · decide
    · have power : (2 : Rat) ^ (52 + grid) < 2 ^ (53 + 971 : Int) := by
        rw [zpow_add₀ two_ne_zero 53 971, ← topStep_eq]
        exact large.trans_lt (small.trans (sub_lt_self _ (half_pos topStep_pos)))
      have ordered := (zpow_lt_zpow_iff_right₀ one_lt_two).1 power
      omega
  have filled : count = 2 ^ 53 → grid ≠ 971 := by
    rintro rfl rfl
    have close := (abs_le.1 near).2
    rw [← topStep_eq] at close
    rw [Nat.cast_pow, Nat.cast_ofNat] at close
    unfold limit at small
    linarith only [close, small]
  unfold gridPoint assemble
  split_ifs with whole empty empty
  · trivial
  · refine ⟨by norm_num, by omega, ?_, .inl le_rfl⟩
    have different := filled whole
    omega
  · trivial
  · refine ⟨by omega, least, bounded, ?_⟩
    rcases full with finest | ⟨large, -⟩
    · exact .inr finest
    · exact .inl large

theorem isFinite_gridPoint (sign : Sign) (count : Nat) (grid : Int) :
    (gridPoint sign count grid).isFinite = true := by
  unfold gridPoint assemble
  split_ifs <;> rfl

theorem nearest_of_rounded {number : Rat} {count : Nat} {grid : Int} (sign : Sign)
    (rounded : Rounded number count grid) (small : number < limit) :
    Nearest (signed sign number) (pack (gridPoint sign count grid)) := by
  have unpacks := unpacked_pack (rounded.canonical sign small)
  constructor
  · rw [IsFinite, unpacks]
    exact isFinite_gridPoint sign count grid
  · intro other finite
    have mirrored (first second : Rat) :
        |first - signed sign second| = |signed sign first - second| := by
      rw [← abs_signed sign, ← signed_sub, signed_signed]
    rw [worth, unpacks, unpackedWorth_gridPoint, mirrored, signed_signed, mirrored]
    apply rounded.nearest
    rw [abs_signed]
    intro coarse
    obtain ⟨point, onGrid⟩ := multiple_of_grid other coarse
    cases sign with
    | positive => exact ⟨point, onGrid⟩
    | negative => exact ⟨-point, by simp [signed, onGrid]⟩

namespace Nearest

variable {number : Rat} {value other : Float}

/-- The number and a nearest double lie on the same side of every other double. -/
theorem worth_le (nearest : Nearest number value) (finite : IsFinite other)
    (below : worth other ≤ number) : worth other ≤ worth value := by
  by_contra lower
  rw [not_le] at lower
  have nearer := nearest.nearest other finite
  rw [abs_of_nonpos (by linarith), abs_of_nonpos (by linarith)] at nearer
  linarith

theorem le_worth (nearest : Nearest number value) (finite : IsFinite other)
    (above : number ≤ worth other) : worth value ≤ worth other := by
  by_contra higher
  rw [not_le] at higher
  have nearer := nearest.nearest other finite
  rw [abs_of_nonneg (by linarith), abs_of_nonneg (by linarith)] at nearer
  linarith

/-- A number that is worth a double is not rounded. -/
theorem exact (nearest : Nearest number value) (finite : IsFinite other)
    (same : worth other = number) : worth value = number := by
  rw [← same]
  exact le_antisymm (nearest.le_worth finite same.ge) (nearest.worth_le finite same.le)

/-- A number that is rounded away from a double below is past the middle between the two. -/
theorem middle_le (nearest : Nearest number value) (finite : IsFinite other)
    (below : worth other < worth value) : worth other + worth value ≤ 2 * number := by
  by_contra early
  rw [not_le] at early
  have nearer := nearest.nearest other finite
  rw [abs_of_pos (by linarith : 0 < worth value - number)] at nearer
  rcases abs_cases (worth other - number) with ⟨distance, _⟩ | ⟨distance, _⟩ <;>
    rw [distance] at nearer <;> linarith

theorem le_middle (nearest : Nearest number value) (finite : IsFinite other)
    (above : worth value < worth other) : 2 * number ≤ worth value + worth other := by
  by_contra late
  rw [not_le] at late
  have nearer := nearest.nearest other finite
  rw [abs_of_neg (by linarith : worth value - number < 0)] at nearer
  rcases abs_cases (worth other - number) with ⟨distance, _⟩ | ⟨distance, _⟩ <;>
    rw [distance] at nearer <;> linarith

end Nearest

/-- Every whole number of 53 bits is worth a double on every grid in the range of the exponents. -/
theorem exists_worth_of_pos (sign : Sign) {count : Nat} {grid : Int} (positive : 0 < count)
    (fits : count < 2 ^ 53) (least : -1074 ≤ grid) (greatest : grid ≤ 971) :
    ∃ value, IsFinite value ∧ worth value = signed sign (count * 2 ^ grid) := by
  have length : count.log2 < 53 := (Nat.log2_lt positive.ne').2 fits
  obtain ⟨shift, enough⟩ : ∃ shift : Nat,
      shift = min (52 - count.log2) (grid + 1074).toNat := ⟨_, rfl⟩
  have positiveShifted : 0 < count * 2 ^ shift := by positivity
  have canonical : Canonical (.finite sign (count * 2 ^ shift) (grid - shift) positiveShifted) := by
    refine ⟨?_, by omega, by omega, ?_⟩
    · calc count * 2 ^ shift < 2 ^ (count.log2 + 1) * 2 ^ shift :=
            Nat.mul_lt_mul_of_pos_right Nat.lt_log2_self (by positivity)
        _ = 2 ^ (count.log2 + 1 + shift) := (pow_add 2 _ _).symm
        _ ≤ 2 ^ 53 := Nat.pow_le_pow_right (by decide) (by omega)
    · rcases min_choice (52 - count.log2) (grid + 1074).toNat with full | finest
      · left
        calc 2 ^ 52 = 2 ^ (count.log2 + shift) := by congr 1; omega
          _ = 2 ^ count.log2 * 2 ^ shift := pow_add 2 _ _
          _ ≤ count * 2 ^ shift := Nat.mul_le_mul_right _ (Nat.log2_self_le positive.ne')
      · exact .inr (by omega)
  refine ⟨pack (.finite sign (count * 2 ^ shift) (grid - shift) positiveShifted), ?_, ?_⟩
  · rw [IsFinite, unpacked_pack canonical]
    rfl
  · rw [worth, unpacked_pack canonical, unpackedWorth_finite, Nat.cast_mul, Nat.cast_pow,
      mul_assoc, Nat.cast_ofNat, ← zpow_natCast, ← zpow_add₀ two_ne_zero, add_sub_cancel]

theorem exists_worth_of_le (sign : Sign) {count : Nat} {grid : Int} (fits : count ≤ 2 ^ 53)
    (least : -1074 ≤ grid) (greatest : grid ≤ 970) :
    ∃ value, IsFinite value ∧ worth value = signed sign (count * 2 ^ grid) := by
  rcases Nat.eq_zero_or_pos count with rfl | positive
  · have unpacks : unpacked (pack (.zero .positive)) = .zero .positive := unpacked_pack trivial
    refine ⟨pack (.zero .positive), by rw [IsFinite, unpacks]; rfl, ?_⟩
    rw [worth, unpacks]
    cases sign <;> simp [unpackedWorth, signed]
  rcases fits.lt_or_eq with below | rfl
  · exact exists_worth_of_pos sign positive below least (by omega)
  · obtain ⟨value, finite, worthy⟩ := exists_worth_of_pos sign (show 0 < 2 ^ 52 by decide)
      (by decide) (show -1074 ≤ grid + 1 by omega) (by omega)
    refine ⟨value, finite, worthy.trans ?_⟩
    rw [zpow_add₀ two_ne_zero]
    congr 1
    push_cast
    ring

/-- Every whole number of 53 bits is worth a double on every grid in the range of the exponents. -/
theorem exists_worth {count grid : Int} (fits : |count| ≤ 2 ^ 53) (least : -1074 ≤ grid)
    (greatest : grid ≤ 970) : ∃ value, IsFinite value ∧ worth value = count * 2 ^ grid := by
  have natural : count.natAbs ≤ 2 ^ 53 := by
    rw [Int.abs_eq_natAbs] at fits
    exact_mod_cast fits
  rcases le_total 0 count with nonnegative | nonpositive
  · obtain ⟨value, finite, worthy⟩ := exists_worth_of_le .positive natural least greatest
    refine ⟨value, finite, worthy.trans ?_⟩
    rw [signed, ← Int.cast_natCast, Int.natAbs_of_nonneg nonnegative]
  · obtain ⟨value, finite, worthy⟩ := exists_worth_of_le .negative natural least greatest
    refine ⟨value, finite, worthy.trans ?_⟩
    rw [signed, ← Int.cast_natCast, Int.ofNat_natAbs_of_nonpos nonpositive]
    push_cast
    ring

/-- Rounding is off by at most half a step of every grid that can hold the number. -/
theorem Nearest.error_le {number : Rat} {value : Float} (nearest : Nearest number value)
    {grid : Int} (least : -1074 ≤ grid) (greatest : grid ≤ 970)
    (fits : |number| ≤ 2 ^ 53 * 2 ^ grid) : |worth value - number| ≤ 2 ^ grid / 2 := by
  have step : (0 : Rat) < 2 ^ grid := by positivity
  obtain ⟨scaled, rfl⟩ : ∃ scaled : Rat, number = scaled * 2 ^ grid :=
    ⟨number / 2 ^ grid, (div_mul_cancel₀ _ step.ne').symm⟩
  rw [abs_mul, abs_of_pos step] at fits
  have close := abs_sub_round scaled
  have bounded : |round scaled| ≤ 2 ^ 53 := by
    have scaledFits := le_of_mul_le_mul_right fits step
    have triangle := abs_sub_abs_le_abs_sub (round scaled : Rat) scaled
    rw [abs_sub_comm] at close
    have below : |(round scaled : Rat)| < 2 ^ 53 + 1 := by linarith
    exact Int.lt_add_one_iff.1 (by exact_mod_cast below)
  obtain ⟨other, finite, worthy⟩ := exists_worth bounded least greatest
  apply (nearest.nearest other finite).trans
  rw [worthy, ← sub_mul, abs_mul, abs_of_pos step, abs_sub_comm]
  linarith [mul_le_mul_of_nonneg_right close step.le]

/-- Every double lies well below the limit. -/
theorem abs_worth_le (value : Float) : |worth value| ≤ 2 ^ 53 * topStep - topStep := by
  have canonical := canonical_unpacked value
  unfold worth
  cases form : unpacked value with
  | finite sign mantissa exponent positive =>
      rw [form] at canonical
      obtain ⟨fits, -, greatest, -⟩ := canonical
      have whole : (mantissa : Rat) ≤ 2 ^ 53 - 1 := by
        have cast : (mantissa : Rat) + 1 ≤ 2 ^ 53 := by exact_mod_cast fits
        linarith
      have power : (2 : Rat) ^ exponent ≤ topStep := by
        rw [topStep_eq]
        exact zpow_le_zpow_right₀ one_le_two greatest
      rw [unpackedWorth_finite, abs_signed, abs_of_nonneg (by positivity)]
      calc (mantissa : Rat) * 2 ^ exponent ≤ (2 ^ 53 - 1) * topStep := by gcongr
        _ = 2 ^ 53 * topStep - topStep := sub_one_mul _ _
  | _ =>
      have nonnegative : (0 : Rat) ≤ 2 ^ 53 * topStep - topStep := by
        linarith [topStep_pos]
      simpa [unpackedWorth] using nonnegative

end BenchPrinter.Double
