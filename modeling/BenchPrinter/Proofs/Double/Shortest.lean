import BenchPrinter.Proofs.Double.Decimals
import BenchPrinter.Proofs.Double.Pattern

/-!
The shortest decimal of a double. It lies in the interval of the double, so that reading it gives
the double back, and it has seventeen digits at most.
-/

namespace BenchPrinter

/-- The number that a decimal denotes. -/
def Decimal.worth (decimal : Decimal) : Rat := decimal.digits * 10 ^ decimal.exponent

/-- A power of ten is a whole number or the inverse of one. -/
theorem ten_pow_parts (exponent : Int) :
    ((if 0 ≤ exponent then tenTo exponent.toNat else 1 : Nat) : Rat) =
      10 ^ exponent * ((if 0 ≤ exponent then 1 else tenTo (-exponent).toNat : Nat) : Rat) := by
  split
  · rename_i whole
    obtain ⟨power, rfl⟩ := Int.eq_ofNat_of_zero_le whole
    rw [tenTo]
    simp
  · rename_i below
    obtain ⟨power, rfl⟩ : ∃ power : Nat, exponent = -power := ⟨(-exponent).toNat, by omega⟩
    rw [tenTo]
    simp

theorem two_pow_parts (exponent : Int) :
    ((if 0 ≤ exponent then twoTo exponent.toNat else 1 : Nat) : Rat) =
      2 ^ exponent * ((if 0 ≤ exponent then 1 else twoTo (-exponent).toNat : Nat) : Rat) := by
  split
  · rename_i whole
    obtain ⟨power, rfl⟩ := Int.eq_ofNat_of_zero_le whole
    rw [twoTo]
    simp
  · rename_i below
    obtain ⟨power, rfl⟩ : ∃ power : Nat, exponent = -power := ⟨(-exponent).toNat, by omega⟩
    rw [twoTo]
    simp

theorem ten_pow_below_pos (exponent : Int) :
    0 < if 0 ≤ exponent then 1 else tenTo (-exponent).toNat := by
  split
  · exact one_pos
  · exact tenTo_pos _

theorem two_pow_below_pos (exponent : Int) :
    0 < if 0 ≤ exponent then 1 else twoTo (-exponent).toNat := by
  split
  · exact one_pos
  · exact twoTo_pos _

namespace RoundingInterval

variable {interval : RoundingInterval}

theorem holds_iff (interval : RoundingInterval) (decimal : Decimal) :
    interval.holds decimal = true ↔
      if interval.closed then
        (interval.below : Rat) ≤ decimal.worth * interval.denominator ∧
          decimal.worth * interval.denominator ≤ interval.above
      else
        (interval.below : Rat) < decimal.worth * interval.denominator ∧
          decimal.worth * interval.denominator < interval.above := by
  have parts := ten_pow_parts decimal.exponent
  have positive := ten_pow_below_pos decimal.exponent
  unfold holds
  dsimp only
  generalize (if 0 ≤ decimal.exponent then tenTo decimal.exponent.toNat else 1) = up at parts
  generalize (if 0 ≤ decimal.exponent then 1 else tenTo (-decimal.exponent).toNat) = down
    at parts positive
  have scale : (0 : Rat) < down := by exact_mod_cast positive
  have number : ((decimal.digits * up * interval.denominator : Nat) : Rat) =
      decimal.worth * interval.denominator * down := by
    push_cast
    rw [parts, Decimal.worth]
    ring
  have atLeast (bound : Nat) : bound * down ≤ decimal.digits * up * interval.denominator ↔
      (bound : Rat) ≤ decimal.worth * interval.denominator := by
    rw [← Nat.cast_le (α := Rat), number, Nat.cast_mul, mul_le_mul_iff_left₀ scale]
  have atMost (bound : Nat) : decimal.digits * up * interval.denominator ≤ bound * down ↔
      decimal.worth * interval.denominator ≤ (bound : Rat) := by
    rw [← Nat.cast_le (α := Rat), number, Nat.cast_mul, mul_le_mul_iff_left₀ scale]
  split
  · rw [Bool.and_eq_true, decide_eq_true_eq, decide_eq_true_eq, atLeast, atMost]
  · rw [Bool.and_eq_true, decide_eq_true_eq, decide_eq_true_eq, ← not_le, ← not_le, atLeast, atMost,
      not_le, not_le]

/-- The width of a step of the decimal grid, in units of the interval. -/
def stepOf (interval : RoundingInterval) (exponent : Int) : Rat :=
  interval.denominator * 10 ^ exponent

theorem stepOf_pos (positive : 0 < interval.denominator) (exponent : Int) :
    0 < interval.stepOf exponent := by
  have denominator : (0 : Rat) < interval.denominator := by exact_mod_cast positive
  unfold stepOf
  positivity

theorem worth_mul_denominator (interval : RoundingInterval) (digits : Nat) (exponent : Int) :
    (⟨digits, exponent⟩ : Decimal).worth * interval.denominator =
      digits * interval.stepOf exponent := by
  rw [Decimal.worth, stepOf]
  ring

/-- The grid point below the value, and on which side of the middle the value lies. -/
theorem floorOnGrid_spec (positive : 0 < interval.denominator) (exponent : Int) :
    ((interval.floorOnGrid exponent).1 * interval.stepOf exponent ≤ interval.value ∧
      interval.value < ((interval.floorOnGrid exponent).1 + 1) * interval.stepOf exponent) ∧
    ((interval.floorOnGrid exponent).2 = .lt → 2 * (interval.value : Rat) <
      (2 * (interval.floorOnGrid exponent).1 + 1) * interval.stepOf exponent) ∧
    ((interval.floorOnGrid exponent).2 = .eq → 2 * (interval.value : Rat) =
      (2 * (interval.floorOnGrid exponent).1 + 1) * interval.stepOf exponent) ∧
    ((interval.floorOnGrid exponent).2 = .gt →
      (2 * (interval.floorOnGrid exponent).1 + 1) * interval.stepOf exponent <
        2 * (interval.value : Rat)) := by
  have parts := ten_pow_parts exponent
  have belowPositive := ten_pow_below_pos exponent
  have upPositive : 0 < if 0 ≤ exponent then tenTo exponent.toNat else 1 := by
    split
    · exact tenTo_pos _
    · exact one_pos
  unfold floorOnGrid stepOf
  dsimp only
  generalize (if 0 ≤ exponent then tenTo exponent.toNat else 1) = up at parts upPositive ⊢
  generalize (if 0 ≤ exponent then 1 else tenTo (-exponent).toNat) = down at parts belowPositive ⊢
  have scale : (0 : Rat) < down := by exact_mod_cast belowPositive
  have stepPositive : 0 < interval.denominator * up := Nat.mul_pos positive upPositive
  have step : ((interval.denominator * up : Nat) : Rat) =
      interval.denominator * 10 ^ exponent * down := by
    push_cast
    rw [parts]
    ring
  have divided : ((interval.denominator * up : Nat) : Rat) *
      (interval.value * down / (interval.denominator * up) : Nat) +
        (interval.value * down % (interval.denominator * up) : Nat) = interval.value * down := by
    exact_mod_cast Nat.div_add_mod (interval.value * down) (interval.denominator * up)
  have less : ((interval.value * down % (interval.denominator * up) : Nat) : Rat) <
      (interval.denominator * up : Nat) := by exact_mod_cast Nat.mod_lt _ stepPositive
  generalize interval.value * down / (interval.denominator * up) = floor at divided ⊢
  generalize interval.value * down % (interval.denominator * up) = rest at divided less ⊢
  have nonnegative : (0 : Rat) ≤ rest := by positivity
  have early (order : compare (2 * rest) (interval.denominator * up) = .lt) :
      2 * (rest : Rat) < (interval.denominator * up : Nat) := by
    exact_mod_cast compare_lt_iff_lt.1 order
  have middle (order : compare (2 * rest) (interval.denominator * up) = .eq) :
      2 * (rest : Rat) = (interval.denominator * up : Nat) := by
    exact_mod_cast compare_eq_iff_eq.1 order
  have late (order : compare (2 * rest) (interval.denominator * up) = .gt) :
      ((interval.denominator * up : Nat) : Rat) < 2 * (rest : Rat) := by
    exact_mod_cast compare_gt_iff_gt.1 order
  rw [step] at divided less early middle late
  refine ⟨⟨?_, ?_⟩, fun order => ?_, fun order => ?_, fun order => ?_⟩
  · refine le_of_mul_le_mul_right ?_ scale
    linarith
  · refine lt_of_mul_lt_mul_right ?_ scale.le
    linarith
  · refine lt_of_mul_lt_mul_right ?_ scale.le
    linarith [early order]
  · refine mul_right_cancel₀ scale.ne' ?_
    linarith [middle order]
  · refine lt_of_mul_lt_mul_right ?_ scale.le
    linarith [late order]

theorem floorOnGrid_pos (positive : 0 < interval.denominator) {exponent : Int}
    (finer : interval.stepOf exponent ≤ interval.value) : 0 < (interval.floorOnGrid exponent).1 := by
  obtain ⟨⟨-, high⟩, -⟩ := floorOnGrid_spec positive exponent
  have step := stepOf_pos positive exponent
  have above : (1 : Rat) < (interval.floorOnGrid exponent).1 + 1 := by
    refine lt_of_mul_lt_mul_right ?_ step.le
    linarith
  have above : 1 < (interval.floorOnGrid exponent).1 + 1 := by exact_mod_cast above
  omega

theorem floorOnGrid_lt (positive : 0 < interval.denominator) {exponent : Int} {count : Nat}
    (less : interval.value < interval.stepOf (exponent + count)) :
    (interval.floorOnGrid exponent).1 < 10 ^ count := by
  obtain ⟨⟨low, -⟩, -⟩ := floorOnGrid_spec positive exponent
  have step := stepOf_pos positive exponent
  have shifted : interval.stepOf (exponent + count) = 10 ^ count * interval.stepOf exponent := by
    rw [stepOf, stepOf, zpow_add₀ (by norm_num), zpow_natCast]
    ring
  have few : ((interval.floorOnGrid exponent).1 : Rat) < 10 ^ count := by
    refine lt_of_mul_lt_mul_right ?_ step.le
    linarith
  exact_mod_cast few

/-- Of the two grid points next to the value the nearer one is tried first. -/
theorem onGrid?_eq (positive : 0 < interval.denominator) (evenTies : Bool) (exponent : Int) :
    ∃ nearer farther : Nat,
      nearer ≤ (interval.floorOnGrid exponent).1 + 1 ∧
      farther ≤ (interval.floorOnGrid exponent).1 + 1 ∧
      (interval.floorOnGrid exponent).1 ≤ nearer ∧
      2 * |nearer * interval.stepOf exponent - interval.value| ≤ interval.stepOf exponent ∧
      interval.onGrid? evenTies exponent =
        if 0 < nearer && interval.holds ⟨nearer, exponent⟩ then some ⟨nearer, exponent⟩
        else if 0 < farther && interval.holds ⟨farther, exponent⟩ then some ⟨farther, exponent⟩
        else none := by
  have spec := floorOnGrid_spec positive exponent
  have step := stepOf_pos positive exponent
  unfold onGrid?
  generalize interval.floorOnGrid exponent = pair at spec ⊢
  obtain ⟨floor, remainder⟩ := pair
  obtain ⟨⟨low, high⟩, early, middle, late⟩ := spec
  dsimp only at low high early middle late ⊢
  by_cases down : (decide (remainder = .lt) ||
      (decide (remainder = .eq) && evenTies && decide (floor % 2 = 0))) = true
  · refine ⟨floor, floor + 1, by omega, le_rfl, le_rfl, ?_, by rw [if_pos down]⟩
    have before : 2 * (interval.value : Rat) ≤ (2 * floor + 1) * interval.stepOf exponent := by
      cases remainder with
      | lt => exact (early rfl).le
      | eq => exact (middle rfl).le
      | gt => simp at down
    rw [abs_of_nonpos (by linarith)]
    linarith
  · refine ⟨floor + 1, floor, le_rfl, by omega, by omega, ?_, by rw [if_neg down]⟩
    have beyond : (2 * floor + 1) * interval.stepOf exponent ≤ 2 * (interval.value : Rat) := by
      cases remainder with
      | lt => simp at down
      | eq => exact (middle rfl).ge
      | gt => exact (late rfl).le
    push_cast
    rw [abs_of_nonneg (by linarith)]
    linarith

/-- A grid gives a point next to the value, and only one that lies in the interval. -/
theorem onGrid?_sound (positive : 0 < interval.denominator) {evenTies : Bool} {exponent : Int}
    {decimal : Decimal} (found : interval.onGrid? evenTies exponent = some decimal) :
    0 < decimal.digits ∧ interval.holds decimal = true ∧
      decimal.digits ≤ (interval.floorOnGrid exponent).1 + 1 := by
  obtain ⟨nearer, farther, nearerMost, fartherMost, -, -, tried⟩ :=
    onGrid?_eq positive evenTies exponent
  rw [tried] at found
  split_ifs at found with first second
  · obtain rfl := Option.some.inj found
    rw [Bool.and_eq_true, decide_eq_true_eq] at first
    exact ⟨first.1, first.2, nearerMost⟩
  · obtain rfl := Option.some.inj found
    rw [Bool.and_eq_true, decide_eq_true_eq] at second
    exact ⟨second.1, second.2, fartherMost⟩

/-- A grid that is fine enough has a point in the interval. -/
theorem onGrid?_of_fine (positive : 0 < interval.denominator) (evenTies : Bool) {exponent : Int}
    (some : 0 < (interval.floorOnGrid exponent).1)
    (fine : ∀ digits : Nat,
      2 * |digits * interval.stepOf exponent - interval.value| ≤ interval.stepOf exponent →
        interval.holds ⟨digits, exponent⟩ = true) :
    (interval.onGrid? evenTies exponent).isSome = true := by
  obtain ⟨nearer, farther, -, -, least, near, tried⟩ := onGrid?_eq positive evenTies exponent
  have hit : (decide (0 < nearer) && interval.holds ⟨nearer, exponent⟩) = true := by
    rw [fine nearer near, Bool.and_true, decide_eq_true_eq]
    omega
  rw [tried, if_pos hit]
  rfl

/-- The search gives the first point that it meets, and it meets one on every grid that has one. -/
theorem search_sound (positive : 0 < interval.denominator) (evenTies : Bool) {tries : Nat}
    {exponent : Int} {tried : Nat} (within : tried < tries)
    (hit : (interval.onGrid? evenTies (exponent - tried)).isSome = true) :
    ∃ earlier ≤ tried, 0 < (interval.search evenTies tries exponent).digits ∧
      interval.holds (interval.search evenTies tries exponent) = true ∧
      (interval.search evenTies tries exponent).digits ≤
        (interval.floorOnGrid (exponent - earlier)).1 + 1 := by
  induction tries generalizing exponent tried with
  | zero => omega
  | succ tries inductionHypothesis =>
      rw [search]
      rcases found : interval.onGrid? evenTies exponent with _ | decimal
      · obtain ⟨tried, rfl⟩ : ∃ later, tried = later + 1 := by
          cases tried with
          | zero => simp [found] at hit
          | succ later => exact ⟨later, rfl⟩
        have shift (count : Nat) : exponent - 1 - count = exponent - (count + 1 : Nat) := by
          push_cast
          ring
        rw [← shift] at hit
        obtain ⟨earlier, before, sound⟩ := inductionHypothesis (by omega) hit
        rw [shift] at sound
        exact ⟨earlier + 1, by omega, sound⟩
      · refine ⟨0, Nat.zero_le _, ?_⟩
        rw [Nat.cast_zero, sub_zero]
        exact onGrid?_sound positive found

theorem reached_iff (interval : RoundingInterval) (exponent : Int) :
    (if 0 ≤ exponent then interval.denominator * tenTo exponent.toNat ≤ interval.value
      else interval.denominator ≤ interval.value * tenTo (-exponent).toNat) ↔
      interval.stepOf exponent ≤ interval.value := by
  rw [stepOf]
  split
  · rename_i whole
    obtain ⟨power, rfl⟩ := Int.eq_ofNat_of_zero_le whole
    rw [tenTo, ← Nat.cast_le (α := Rat)]
    simp
  · rename_i below
    obtain ⟨power, rfl⟩ : ∃ power : Nat, exponent = -power := ⟨(-exponent).toNat, by omega⟩
    have scale : (0 : Rat) < 10 ^ power := by positivity
    rw [tenTo, ← Nat.cast_le (α := Rat), zpow_neg, zpow_natCast, ← div_eq_mul_inv, div_le_iff₀ scale]
    simp

/-- The value has its leading digit where the search begins. -/
theorem leadingExponent_spec (positive : 0 < interval.denominator) (some : 0 < interval.value) :
    interval.stepOf interval.leadingExponent ≤ interval.value ∧
      interval.value < interval.stepOf (interval.leadingExponent + 1) := by
  have denominator : (0 : Rat) < interval.denominator := by exact_mod_cast positive
  obtain ⟨valueLeast, valueMost⟩ := Double.size_bounds some.ne' 0
  obtain ⟨least, most⟩ := Double.size_bounds positive.ne' 0
  rw [add_zero, zpow_zero, mul_one] at valueLeast valueMost least most
  unfold leadingExponent
  dsimp only
  simp only [reached_iff]
  generalize ((Nat.toDigits 10 interval.value).length : Int) = places at *
  generalize ((Nat.toDigits 10 interval.denominator).length : Int) = others at *
  split
  · rename_i reached
    refine ⟨reached, valueMost.trans_le ?_⟩
    calc (10 : Rat) ^ places = 10 ^ (others - 1) * 10 ^ (places - others + 1) := by
          rw [← zpow_add₀ (by norm_num)]
          congr 1
          ring
      _ ≤ interval.stepOf (places - others + 1) := by
          rw [stepOf]
          gcongr
  · rename_i missed
    rw [sub_add_cancel]
    refine ⟨le_trans ?_ valueLeast, not_le.1 missed⟩
    calc interval.stepOf (places - others - 1)
        ≤ 10 ^ others * 10 ^ (places - others - 1) := by
          rw [stepOf]
          gcongr
      _ = (10 : Rat) ^ (places - 1) := by
          rw [← zpow_add₀ (by norm_num)]
          congr 1
          ring

/-- The interval of a pattern in its own units. -/
structure Fits (interval : RoundingInterval) (mantissa : Nat) (scale : Int) : Prop where
  positive : 0 < interval.denominator
  value : (interval.value : Rat) = mantissa * 2 ^ scale * interval.denominator
  below : 4 * (interval.below : Rat) =
    (4 * mantissa - Double.gapBelow mantissa scale) * 2 ^ scale * interval.denominator
  above : 4 * (interval.above : Rat) = (4 * mantissa + 2) * 2 ^ scale * interval.denominator
  closed : interval.closed = true ↔ mantissa % 2 = 0

theorem fits_ofPattern {pattern : DoublePattern} (some : 0 < pattern.mantissa) :
    (ofPattern pattern).Fits pattern.mantissa pattern.scale := by
  have parts := two_pow_parts pattern.scale
  have downPositive := two_pow_below_pos pattern.scale
  have narrow : (if pattern.fraction = 0 ∧ 1 < pattern.exponent then 1 else 2) =
      Double.gapBelow pattern.mantissa pattern.scale := by
    refine if_congr ?_ rfl rfl
    rw [DoublePattern.mantissa, DoublePattern.scale, twoTo]
    change _ ↔ (if pattern.exponent = 0 then _ else 2 ^ 52 + _) = 2 ^ 52 ∧ _
    split <;> omega
  have gap : Double.gapBelow pattern.mantissa pattern.scale ≤ 4 * pattern.mantissa := by
    rw [← narrow]
    split <;> omega
  unfold ofPattern
  dsimp only
  rw [narrow]
  generalize (if 0 ≤ pattern.scale then twoTo pattern.scale.toNat else 1) = up at *
  generalize (if 0 ≤ pattern.scale then 1 else twoTo (-pattern.scale).toNat) = down at *
  refine ⟨Nat.mul_pos (by decide) downPositive, ?_, ?_, ?_, decide_eq_true_iff⟩
  · push_cast
    rw [parts]
    ring
  · push_cast [Nat.cast_sub gap]
    rw [parts]
    ring
  · push_cast
    rw [parts]
    ring

section

variable {mantissa : Nat} {scale : Int} {decimal : Decimal}

/-- A decimal in the interval rounds to the double. -/
theorem Fits.captures (fits : interval.Fits mantissa scale)
    (within : interval.holds decimal = true) : Double.Captures mantissa scale decimal.worth := by
  have denominator : (0 : Rat) < interval.denominator := by exact_mod_cast fits.positive
  have below := fits.below
  have above := fits.above
  rw [holds_iff] at within
  by_cases even : mantissa % 2 = 0
  · rw [if_pos (fits.closed.2 even)] at within
    refine ⟨?_, ?_, fun odd => by omega, fun odd => by omega⟩
    · refine le_of_mul_le_mul_right ?_ denominator
      linarith [within.1]
    · refine le_of_mul_le_mul_right ?_ denominator
      linarith [within.2]
  · rw [if_neg (fun closed => even (fits.closed.1 closed))] at within
    have wide : Double.gapBelow mantissa scale = 2 := if_neg fun narrow => by omega
    rw [wide] at below
    have lower : (4 * mantissa - 2 : Rat) * 2 ^ scale < 4 * decimal.worth := by
      refine lt_of_mul_lt_mul_right ?_ denominator.le
      push_cast at below
      linarith [within.1]
    have upper : 4 * decimal.worth < (4 * mantissa + 2 : Rat) * 2 ^ scale := by
      refine lt_of_mul_lt_mul_right ?_ denominator.le
      linarith [within.2]
    refine ⟨?_, upper.le, fun _ => lower, fun _ => upper⟩
    rw [wide]
    exact lower.le

/-- Seventeen digits reach every interval. -/
theorem Fits.fine (fits : interval.Fits mantissa scale) (small : mantissa < 2 ^ 53)
    (exponent : Int) (digits : Nat)
    (leading : interval.stepOf (exponent + 16) ≤ interval.value)
    (near : 2 * |digits * interval.stepOf exponent - interval.value| ≤
      interval.stepOf exponent) : interval.holds ⟨digits, exponent⟩ = true := by
  have denominator : (0 : Rat) < interval.denominator := by exact_mod_cast fits.positive
  have unit : (0 : Rat) < 2 ^ scale * interval.denominator := by positivity
  have below := fits.below
  have above := fits.above
  have shifted : interval.stepOf (exponent + 16) = interval.stepOf exponent * 10 ^ 16 := by
    rw [stepOf, stepOf, zpow_add₀ (by norm_num)]
    norm_num
    ring
  rw [shifted, fits.value, mul_assoc] at leading
  rw [mul_assoc] at below above
  -- Half a step is less than the gap on either side.
  have narrow : 2 * interval.stepOf exponent <
      Double.gapBelow mantissa scale * (2 ^ scale * interval.denominator) := by
    unfold Double.gapBelow
    split
    · rename_i least
      rw [least.1] at leading
      push_cast at leading ⊢
      linarith
    · have cast : (mantissa : Rat) ≤ 2 ^ 53 := by exact_mod_cast small.le
      have most : (mantissa : Rat) * (2 ^ scale * interval.denominator) ≤
          2 ^ 53 * (2 ^ scale * interval.denominator) := by gcongr
      push_cast
      linarith
  have gap : (Double.gapBelow mantissa scale : Rat) * (2 ^ scale * interval.denominator) ≤
      2 * (2 ^ scale * interval.denominator) := by
    have most := Double.gapBelow_le mantissa scale
    gcongr
  obtain ⟨low, high⟩ := abs_le.1 ((le_div_iff₀' (by norm_num : (0 : Rat) < 2)).2 near)
  rw [fits.value, mul_assoc] at low high
  have lower : (interval.below : Rat) < digits * interval.stepOf exponent := by linarith
  have upper : digits * interval.stepOf exponent < (interval.above : Rat) := by linarith
  rw [holds_iff, worth_mul_denominator]
  split
  · exact ⟨lower.le, upper.le⟩
  · exact ⟨lower, upper⟩

/-- The search ends in the interval, with seventeen digits at most. -/
theorem Fits.search_spec (fits : interval.Fits mantissa scale) (small : mantissa < 2 ^ 53)
    (some : 0 < mantissa) (evenTies : Bool) :
    0 < (interval.search evenTies 17 interval.leadingExponent).digits ∧
      (interval.search evenTies 17 interval.leadingExponent).digits ≤ 10 ^ 17 ∧
      interval.holds (interval.search evenTies 17 interval.leadingExponent) = true := by
  have denominator : (0 : Rat) < interval.denominator := by exact_mod_cast fits.positive
  have valuePositive : 0 < interval.value := by
    have cast : (0 : Rat) < mantissa := by exact_mod_cast some
    have product : (0 : Rat) < interval.value := by
      rw [fits.value]
      positivity
    exact_mod_cast product
  obtain ⟨least, most⟩ := leadingExponent_spec fits.positive valuePositive
  have hit : (interval.onGrid? evenTies (interval.leadingExponent - (16 : Nat))).isSome = true := by
    have finer : interval.stepOf (interval.leadingExponent - (16 : Nat)) ≤ interval.value := by
      refine le_trans ?_ least
      unfold stepOf
      gcongr
      · norm_num
      · omega
    exact onGrid?_of_fine fits.positive evenTies (floorOnGrid_pos fits.positive finer) fun digits =>
      fits.fine small _ digits (by simpa using least)
  obtain ⟨earlier, before, digitsPositive, within, bound⟩ :=
    search_sound fits.positive evenTies (by decide : 16 < 17) hit
  refine ⟨digitsPositive, bound.trans ?_, within⟩
  have few : (interval.floorOnGrid (interval.leadingExponent - earlier)).1 < 10 ^ (earlier + 1) := by
    refine floorOnGrid_lt fits.positive ?_
    rwa [Nat.cast_add_one, ← add_assoc, sub_add_cancel]
  exact few.trans_le (Nat.pow_le_pow_right (by decide) (by omega))

end

end RoundingInterval

namespace Decimal

/-- Without its zeros at the end a decimal is the same number. -/
theorem trim_spec (tries : Nat) (decimal : Decimal) :
    (trim tries decimal).worth = decimal.worth ∧
      (trim tries decimal).digits ≤ decimal.digits ∧
      (0 < decimal.digits → 0 < (trim tries decimal).digits) := by
  induction tries generalizing decimal with
  | zero => exact ⟨rfl, le_rfl, id⟩
  | succ tries inductionHypothesis =>
      rw [trim]
      split
      · rename_i round
        obtain ⟨same, fewer, positive⟩ :=
          inductionHypothesis ⟨decimal.digits / 10, decimal.exponent + 1⟩
        refine ⟨same.trans ?_, fewer.trans (Nat.div_le_self _ _), fun some => positive ?_⟩
        · obtain ⟨tenth, split⟩ : ∃ tenth, decimal.digits = 10 * tenth :=
            ⟨decimal.digits / 10, by omega⟩
          rw [worth, worth, split, Nat.mul_div_cancel_left _ (by decide), zpow_add_one₀ (by norm_num)]
          push_cast
          ring
        · change 0 < decimal.digits / 10
          omega
      · exact ⟨rfl, le_rfl, id⟩

/-- The shortest decimal of a pattern is rounded to the double that has the pattern. -/
theorem shortest_spec (evenTies : Bool) {pattern : DoublePattern} (some : 0 < pattern.mantissa)
    (small : pattern.mantissa < 2 ^ 53) :
    0 < (shortest evenTies pattern).digits ∧ (shortest evenTies pattern).digits ≤ 10 ^ 17 ∧
      Double.Captures pattern.mantissa pattern.scale (shortest evenTies pattern).worth := by
  have fits := RoundingInterval.fits_ofPattern some
  obtain ⟨positive, few, within⟩ := fits.search_spec small some evenTies
  rw [shortest, if_neg some.ne']
  dsimp only
  obtain ⟨same, fewer, kept⟩ := trim_spec 18
    ((RoundingInterval.ofPattern pattern).search evenTies 17
      (RoundingInterval.ofPattern pattern).leadingExponent)
  rw [same]
  exact ⟨kept positive, fewer.trans few, fits.captures within⟩

end Decimal

namespace Double

open Float.Model Float.Model.UnpackedFloat

variable {value : Float}

theorem mantissa_small (value : Float) : (DoublePattern.ofFloat value).mantissa < 2 ^ 53 := by
  have fraction : (DoublePattern.ofFloat value).fraction < 2 ^ 52 := Nat.mod_lt _ (by decide)
  have leadingBit : twoTo 52 = 2 ^ 52 := rfl
  rw [DoublePattern.mantissa, leadingBit]
  split <;> omega

/-- The double without its sign. -/
def magnitude (value : Float) : Float :=
  pack (assemble .positive (DoublePattern.ofFloat value).mantissa (DoublePattern.ofFloat value).scale)

theorem unpacked_magnitude (finite : IsFinite value) : unpacked (magnitude value) =
    assemble .positive (DoublePattern.ofFloat value).mantissa (DoublePattern.ofFloat value).scale := by
  refine unpacked_pack ?_
  have canonical := canonical_unpacked value
  rw [unpacked_of_pattern ((pattern_finite value).2 finite)] at canonical
  rcases Nat.eq_zero_or_pos (DoublePattern.ofFloat value).mantissa with zero | positive
  · rw [zero]
    trivial
  · rw [assemble_of_pos _ _ positive] at canonical ⊢
    exact canonical

theorem magnitude_isInf (finite : IsFinite value) : (magnitude value).isInf = false := by
  change (unpacked (magnitude value)).isInf = false
  rw [unpacked_magnitude finite, assemble]
  split <;> rfl

/-- With its sign the magnitude is the double. -/
theorem signed_magnitude (finite : IsFinite value) :
    (if (DoublePattern.ofFloat value).negative then -magnitude value else magnitude value) =
      value := by
  have form := unpacked_of_pattern ((pattern_finite value).2 finite)
  have packed := pack_unpacked value
  rw [form] at packed
  refine Eq.trans ?_ packed
  cases (DoublePattern.ofFloat value).negative with
  | false => rfl
  | true =>
      rw [if_pos rfl]
      change pack (UnpackedFloat.neg (unpacked (magnitude value))) = _
      rw [unpacked_magnitude finite, signOf, if_pos rfl, assemble, assemble]
      split <;> rfl

/-- Every way to write the shortest decimal is read as the magnitude. -/
theorem nearestDouble_of_worth (finite : IsFinite value) {evenTies : Bool} {digits : Nat}
    {power : Int}
    (same : digits * 10 ^ power =
      (Decimal.shortest evenTies (DoublePattern.ofFloat value)).worth) :
    nearestDouble digits power = magnitude value := by
  rcases Nat.eq_zero_or_pos (DoublePattern.ofFloat value).mantissa with zero | positive
  · have unit : (10 : Rat) ^ power ≠ 0 := by positivity
    rw [Decimal.shortest, if_pos zero, Decimal.worth, Nat.cast_zero, zero_mul, mul_eq_zero,
      Nat.cast_eq_zero, or_iff_left unit] at same
    rw [nearestDouble, if_pos same, magnitude, zero]
    rfl
  · obtain ⟨-, -, captures⟩ := Decimal.shortest_spec evenTies positive (mantissa_small value)
    have form := unpacked_magnitude finite
    rw [assemble_of_pos _ _ positive] at form
    rw [← same] at captures
    exact nearestDouble_of_captures form captures

end Double

end BenchPrinter
