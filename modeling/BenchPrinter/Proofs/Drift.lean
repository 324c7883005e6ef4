import BenchPrinter.Proofs.Double.Numerals
import BenchPrinter.Proofs.Waiting

/-!
The heater model on doubles. One update is a drift of the temperature: the exact motion of its
regime, rounded to a double.
-/

namespace BenchPrinter

open Double

/-- The numbers of the model that are no rates. -/
theorem literal_worths : (IsFinite 0.0 ∧ worth 0.0 = 0) ∧ (IsFinite 0.5 ∧ worth 0.5 = 1 / 2) ∧
    (IsFinite 2.0 ∧ worth 2.0 = 2) ∧ (IsFinite 3.0 ∧ worth 3.0 = 3) ∧ (IsFinite 5.0 ∧ worth 5.0 = 5) ∧
    (IsFinite 20.0 ∧ worth 20.0 = 20) ∧ IsFinite 1000.0 ∧ worth 1000.0 = 1000 := by
  decide +kernel

/-- A sample between zero and one, one excluded. -/
def IsSample (sample : Float) : Prop := 0.0 ≤ sample ∧ sample < 1.0

theorem finite_of_isSample {sample : Float} (isSample : IsSample sample) : IsFinite sample := by
  obtain ⟨low, high⟩ := isSample
  rw [le_iff_compare] at low
  rw [lt_iff_compare] at high
  have zero : unpacked 0.0 = .zero .positive := by rfl
  have one : ∃ mantissa exponent positive, unpacked 1.0 = .finite .positive mantissa exponent positive :=
    ⟨2 ^ 52, -52, by decide, by rfl⟩
  obtain ⟨mantissa, exponent, positive, one⟩ := one
  rw [zero] at low
  rw [one] at high
  unfold IsFinite
  cases form : unpacked sample with
  | finite => rfl
  | zero => rfl
  | notANumber => rw [form] at high; cases high
  | infinity sign =>
      rw [form] at high low
      obtain ⟨order, compared, ordered⟩ := low
      cases sign
      · cases compared
        cases ordered
      · cases high

theorem worth_of_isSample {sample : Float} (isSample : IsSample sample) :
    0 ≤ worth sample ∧ worth sample < 1 := by
  have finite := finite_of_isSample isSample
  have one : IsFinite 1.0 ∧ worth 1.0 = 1 := by decide +kernel
  obtain ⟨low, high⟩ := isSample
  rw [le_iff literal_worths.1.1 finite, literal_worths.1.2] at low
  rw [lt_iff finite one.1, one.2] at high
  exact ⟨low, high⟩

/-- A number of seconds that the clock can have counted. -/
structure Elapsed (elapsed : Float) : Prop where
  finite : IsFinite elapsed
  low : 0 ≤ worth elapsed
  high : worth elapsed ≤ 2 ^ 64

/-- A rate of less than one degree per second. -/
structure Rate (rate : Float) : Prop where
  finite : IsFinite rate
  low : 0 < worth rate
  high : worth rate < 1

theorem Rate.standard (id : HeaterId) :
    (Rate (HeaterProfile.standard id).heatRate ∧ Rate ((HeaterProfile.standard id).heatRate / 3.0)) ∧
      Rate (HeaterProfile.standard id).coolRate ∧
      Rate ((HeaterProfile.standard id).coolRate / 3.0) := by
  have split (rate : Float) (all : IsFinite rate ∧ 0 < worth rate ∧ worth rate < 1) : Rate rate :=
    ⟨all.1, all.2.1, all.2.2⟩
  cases id <;> exact ⟨⟨split _ (by decide +kernel), split _ (by decide +kernel)⟩,
    split _ (by decide +kernel), split _ (by decide +kernel)⟩

theorem topStep_large : (2 : Rat) ^ 102 ≤ topStep := by
  rw [topStep_eq, ← zpow_natCast]
  exact zpow_le_zpow_right₀ one_le_two (by norm_num)

section

variable {value change : Float}

/-- A change that is small among the doubles never leads out of them. -/
theorem add_nearby (finite : IsFinite value) (changeFinite : IsFinite change)
    (small : |worth change| ≤ 2 ^ 100) : Nearest (worth value + worth change) (value + change) := by
  apply add_nearest finite changeFinite
  apply (abs_add_le _ _).trans_lt
  have bound := abs_worth_le value
  have large := topStep_large
  unfold limit
  linarith

theorem sub_nearby (finite : IsFinite value) (changeFinite : IsFinite change)
    (small : |worth change| ≤ 2 ^ 100) : Nearest (worth value - worth change) (value - change) := by
  apply sub_nearest finite changeFinite
  apply (abs_sub _ _).trans_lt
  have bound := abs_worth_le value
  have large := topStep_large
  unfold limit
  linarith

end

/-- The way made at a rate is no longer than the time. -/
structure Way (elapsed way : Float) : Prop where
  finite : IsFinite way
  low : 0 ≤ worth way
  high : worth way ≤ worth elapsed
  small : |worth way| ≤ 2 ^ 100

theorem Rate.product {rate elapsed : Float} (isRate : Rate rate) (isElapsed : Elapsed elapsed) :
    Nearest (worth rate * worth elapsed) (rate * elapsed) ∧ Way elapsed (rate * elapsed) := by
  have nonnegative : 0 ≤ worth rate * worth elapsed := mul_nonneg isRate.low.le isElapsed.low
  have shorter : worth rate * worth elapsed ≤ worth elapsed :=
    mul_le_of_le_one_left isElapsed.low isRate.high.le
  have elapsedHigh := isElapsed.high
  have nearest := mul_nearest isRate.finite isElapsed.finite (abs_lt_limit (by
    rw [abs_of_nonneg nonnegative]
    linarith))
  have zero := literal_worths.1
  have low : 0 ≤ worth (rate * elapsed) := by
    rw [← zero.2]
    exact nearest.worth_le zero.1 (by rw [zero.2]; exact nonnegative)
  have high := nearest.le_worth isElapsed.finite shorter
  refine ⟨nearest, nearest.finite, low, high, ?_⟩
  rw [abs_of_nonneg low]
  linarith

theorem elapsed_of_count {count : Nat} (fits : count < 2 ^ 64) :
    Elapsed (Quantity.ofNat count / 1000.0) ∧
      ∃ whole, Nearest count whole ∧
        Nearest (worth whole / 1000) (Quantity.ofNat count / 1000.0 : Float) := by
  have whole := ofNat_nearest fits
  obtain ⟨-, -, -, -, -, -, thousand, thousandWorth⟩ := literal_worths
  have zero := literal_worths.1
  have below : (count : Rat) < 2 ^ 64 := by exact_mod_cast fits
  have top : IsFinite 18446744073709551616.0 ∧ worth 18446744073709551616.0 = 2 ^ 64 := by
    decide +kernel
  have low : 0 ≤ worth (Quantity.ofNat count) := by
    rw [← zero.2]
    exact whole.worth_le zero.1 (by rw [zero.2]; positivity)
  have high : worth (Quantity.ofNat count) ≤ 2 ^ 64 := by
    rw [← top.2]
    exact whole.le_worth top.1 (by rw [top.2]; exact below.le)
  have quotientLow : 0 ≤ worth (Quantity.ofNat count) / worth 1000.0 := by
    rw [thousandWorth]
    positivity
  have quotientHigh : worth (Quantity.ofNat count) / worth 1000.0 ≤ 2 ^ 64 := by
    rw [thousandWorth]
    linarith
  have nearest := div_nearest whole.finite thousand (by rw [thousandWorth]; norm_num)
    (abs_lt_limit (by rw [abs_of_nonneg quotientLow]; linarith))
  refine ⟨⟨nearest.finite, ?_, ?_⟩, _, whole, by rw [← thousandWorth]; exact nearest⟩
  · rw [← zero.2]
    exact nearest.worth_le zero.1 (by rw [zero.2]; exact quotientLow)
  · rw [← top.2]
    exact nearest.le_worth top.1 (by rw [top.2]; exact quotientHigh)

theorem elapsed_of_heater (heater : Heater Float) (now : UInt64) :
    Elapsed (heater.elapsedSeconds now) := by
  rw [Heater.elapsedSeconds]
  cases heater.lastUpdate with
  | some last =>
      refine (elapsed_of_count ?_).1
      have bound := now.toNat_lt
      rw [elapsedBetween]
      omega
  | none =>
      obtain ⟨finite, worthless⟩ := literal_worths.1
      exact ⟨finite, worthless.ge, by rw [worthless]; positivity⟩

/-- The temperature after one update of a heater whose target is finite. -/
inductive Drift (profile : HeaterProfile Float) (elapsed : Float) (target value : Rat)
    (after : Float) : Prop where
  | initialized (cold : value = 0) (finite : IsFinite after) (low : 20 ≤ worth after)
      (high : worth after ≤ 45 / 2) : Drift profile elapsed target value after
  | heating (warm : value ≠ 0) (far : value + 5 < target)
      (rounded : Nearest (value + worth (profile.heatRate * elapsed)) after) :
      Drift profile elapsed target value after
  | cooling (warm : value ≠ 0) (far : target < value - 5)
      (rounded : Nearest (value - worth (profile.coolRate * elapsed)) after) :
      Drift profile elapsed target value after
  | settled (offset : Rat) (warm : value ≠ 0) (near : |value - target| < 2)
      (small : |offset| ≤ 1 / 4) (rounded : Nearest (target + offset) after) :
      Drift profile elapsed target value after
  | approachingFromBelow (warm : value ≠ 0)
      (near : ∀ bound, IsFinite bound → value + 5 ≤ worth bound → target ≤ worth bound)
      (below : value < target)
      (rounded : Nearest (value + worth (profile.heatRate / 3.0 * elapsed)) after) :
      Drift profile elapsed target value after
  | approachingFromAbove (warm : value ≠ 0)
      (near : ∀ bound, IsFinite bound → worth bound ≤ value - 5 → worth bound ≤ target)
      (above : target ≤ value)
      (rounded : Nearest (value - worth (profile.coolRate / 3.0 * elapsed)) after) :
      Drift profile elapsed target value after

section

variable {value target : Float} (finite : IsFinite value) (targetFinite : IsFinite target)

include finite

theorem shifted_nearest :
    Nearest (worth value + 5) (value + 5.0) ∧ Nearest (worth value - 5) (value - 5.0) := by
  obtain ⟨-, -, -, -, ⟨five, fiveWorth⟩, -⟩ := literal_worths
  have small : |worth 5.0| ≤ 2 ^ 100 := by
    rw [fiveWorth]
    norm_num
  have higher := add_nearby finite five small
  have lower := sub_nearby finite five small
  rw [fiveWorth] at higher lower
  exact ⟨higher, lower⟩

include targetFinite

theorem far_below (far : value + 5.0 < target) : worth value + 5 < worth target := by
  obtain ⟨higher, -⟩ := shifted_nearest finite
  rw [lt_iff higher.finite targetFinite] at far
  by_contra near
  exact absurd (higher.worth_le targetFinite (not_lt.1 near)) (not_le.2 far)

theorem far_above (far : target < value - 5.0) : worth target < worth value - 5 := by
  obtain ⟨-, lower⟩ := shifted_nearest finite
  rw [lt_iff targetFinite lower.finite] at far
  by_contra near
  exact absurd (lower.le_worth targetFinite (not_lt.1 near)) (not_le.2 far)

theorem near_below (near : ¬ value + 5.0 < target) {bound : Float} (boundFinite : IsFinite bound)
    (reached : worth value + 5 ≤ worth bound) : worth target ≤ worth bound := by
  obtain ⟨higher, -⟩ := shifted_nearest finite
  rw [lt_iff higher.finite targetFinite, not_lt] at near
  exact near.trans (higher.le_worth boundFinite reached)

theorem near_above (near : ¬ target < value - 5.0) {bound : Float} (boundFinite : IsFinite bound)
    (reached : worth bound ≤ worth value - 5) : worth bound ≤ worth target := by
  obtain ⟨-, lower⟩ := shifted_nearest finite
  rw [lt_iff targetFinite lower.finite, not_lt] at near
  exact (lower.worth_le boundFinite reached).trans near

/-- Even after rounding a near target is no more than ten degrees away. -/
theorem difference_small (notBelow : ¬ value + 5.0 < target) (notAbove : ¬ target < value - 5.0) :
    |worth value - worth target| ≤ 10 := by
  obtain ⟨higher, lower⟩ := shifted_nearest finite
  rw [lt_iff higher.finite targetFinite, not_lt] at notBelow
  rw [lt_iff targetFinite lower.finite, not_lt] at notAbove
  obtain ⟨-, high⟩ := abs_le.1 (higher.nearest value finite)
  obtain ⟨low, -⟩ := abs_le.1 (lower.nearest value finite)
  have up : |worth value - (worth value + 5)| = 5 := by
    rw [sub_add_cancel_left]
    norm_num
  have down : |worth value - (worth value - 5)| = 5 := by
    rw [sub_sub_cancel]
    norm_num
  rw [up] at high
  rw [down] at low
  rw [abs_le]
  constructor <;> linarith

/-- The rounded difference tells whether the temperature is in the inner part of the band. -/
theorem magnitude_lt_two_iff (close : |worth value - worth target| ≤ 10) :
    (value - target).abs < 2.0 ↔ worth (value - target) ∈ Set.Ioo (-2) 2 := by
  obtain ⟨-, -, ⟨two, twoWorth⟩, -⟩ := literal_worths
  have difference := sub_nearest finite targetFinite (abs_lt_limit (close.trans (by norm_num)))
  obtain ⟨magnitudeFinite, magnitudeWorth⟩ := abs_worth difference.finite
  rw [lt_iff magnitudeFinite two, magnitudeWorth, twoWorth, abs_lt, Set.mem_Ioo]

theorem inner_of_magnitude (close : |worth value - worth target| ≤ 10)
    (inner : (value - target).abs < 2.0) : |worth value - worth target| < 2 := by
  have bounds : (IsFinite 2.0 ∧ worth 2.0 = 2) ∧ IsFinite (-2.0) ∧ worth (-2.0) = -2 := by
    decide +kernel
  obtain ⟨⟨two, twoWorth⟩, minusTwo, minusTwoWorth⟩ := bounds
  have difference := sub_nearest finite targetFinite (abs_lt_limit (close.trans (by norm_num)))
  obtain ⟨low, high⟩ := (magnitude_lt_two_iff finite targetFinite close).1 inner
  rw [abs_lt]
  constructor
  · by_contra below
    have lower := difference.le_worth minusTwo (by rw [minusTwoWorth]; linarith)
    rw [minusTwoWorth] at lower
    linarith
  · by_contra above
    have higher := difference.worth_le two (by rw [twoWorth]; linarith)
    rw [twoWorth] at higher
    linarith

theorem outer_of_magnitude (close : |worth value - worth target| ≤ 10)
    (outer : ¬ (value - target).abs < 2.0) : 3 / 2 ≤ |worth value - worth target| := by
  have difference := sub_nearest finite targetFinite (abs_lt_limit (close.trans (by norm_num)))
  have error := difference.error_le (show -1074 ≤ -1 by decide) (by decide)
    (close.trans (by norm_num))
  rw [magnitude_lt_two_iff finite targetFinite close, Set.mem_Ioo] at outer
  obtain ⟨low, high⟩ := abs_le.1 error
  norm_num at low high
  by_contra inner
  obtain ⟨left, right⟩ := abs_lt.1 (not_le.1 inner)
  exact outer ⟨by linarith, by linarith⟩

end

/-- A heater at zero is given the temperature of the room with noise of up to two and a half degrees
on top. -/
theorem initialized_worth {sample : Float} (isSample : IsSample sample) :
    IsFinite (20.0 + sample * 5.0 / 2.0) ∧ 20 ≤ worth (20.0 + sample * 5.0 / 2.0) ∧
      worth (20.0 + sample * 5.0 / 2.0) ≤ 45 / 2 := by
  have finite := finite_of_isSample isSample
  obtain ⟨low, high⟩ := worth_of_isSample isSample
  obtain ⟨⟨zero, zeroWorth⟩, -, ⟨two, twoWorth⟩, -, ⟨five, fiveWorth⟩, ⟨twenty, twentyWorth⟩, -⟩ :=
    literal_worths
  have top : (IsFinite 2.5 ∧ worth 2.5 = 5 / 2) ∧ IsFinite 22.5 ∧ worth 22.5 = 45 / 2 := by
    decide +kernel
  obtain ⟨⟨half, halfWorth⟩, summit, summitWorth⟩ := top
  have product := mul_nearest finite five (abs_lt_limit (by
    rw [fiveWorth, abs_of_nonneg (by positivity)]
    linarith))
  rw [fiveWorth] at product
  have productLow := product.worth_le zero (by rw [zeroWorth]; positivity)
  have productHigh := product.le_worth five (by rw [fiveWorth]; linarith)
  rw [zeroWorth] at productLow
  rw [fiveWorth] at productHigh
  have quotient := div_nearest product.finite two (by rw [twoWorth]; norm_num) (abs_lt_limit (by
    rw [twoWorth, abs_of_nonneg (by positivity)]
    linarith))
  rw [twoWorth] at quotient
  have quotientLow := quotient.worth_le zero (by rw [zeroWorth]; positivity)
  have quotientHigh := quotient.le_worth half (by rw [halfWorth]; linarith)
  rw [zeroWorth] at quotientLow
  rw [halfWorth] at quotientHigh
  have sum := add_nearby twenty quotient.finite (by
    rw [abs_of_nonneg quotientLow]
    linarith)
  rw [twentyWorth] at sum
  refine ⟨sum.finite, ?_, ?_⟩
  · rw [← twentyWorth]
    exact sum.worth_le twenty (by rw [twentyWorth]; linarith)
  · rw [← summitWorth]
    exact sum.le_worth summit (by rw [summitWorth]; linarith)

/-- The noise of a standard heater is a quarter of a degree on each side. -/
theorem jitter_worth {sample : Float} (isSample : IsSample sample) :
    IsFinite (0.5 * (sample - 0.5)) ∧ |worth (0.5 * (sample - 0.5))| ≤ 1 / 4 := by
  have finite := finite_of_isSample isSample
  obtain ⟨low, high⟩ := worth_of_isSample isSample
  obtain ⟨-, ⟨half, halfWorth⟩, -⟩ := literal_worths
  have bounds : (IsFinite (-0.5) ∧ worth (-0.5) = -1 / 2) ∧ (IsFinite 0.25 ∧ worth 0.25 = 1 / 4) ∧
      IsFinite (-0.25) ∧ worth (-0.25) = -1 / 4 := by
    decide +kernel
  obtain ⟨⟨minusHalf, minusHalfWorth⟩, ⟨quarter, quarterWorth⟩, minusQuarter, minusQuarterWorth⟩ :=
    bounds
  have difference := sub_nearby finite half (by rw [halfWorth]; norm_num)
  rw [halfWorth] at difference
  have differenceLow := difference.worth_le minusHalf (by rw [minusHalfWorth]; linarith)
  have differenceHigh := difference.le_worth half (by rw [halfWorth]; linarith)
  rw [minusHalfWorth] at differenceLow
  rw [halfWorth] at differenceHigh
  have product := mul_nearest half difference.finite (abs_lt_limit (by
    rw [halfWorth, abs_le]
    constructor <;> linarith))
  rw [halfWorth] at product
  have productLow := product.worth_le minusQuarter (by rw [minusQuarterWorth]; linarith)
  have productHigh := product.le_worth quarter (by rw [quarterWorth]; linarith)
  rw [minusQuarterWorth] at productLow
  rw [quarterWorth] at productHigh
  refine ⟨product.finite, abs_le.2 ⟨by linarith, productHigh⟩⟩

/-- The settled regime draws a temperature around the target. -/
theorem settled_nearest (id : HeaterId) {target sample : Float} (finite : IsFinite target)
    (isSample : IsSample sample) :
    |worth ((HeaterProfile.standard id).noise * (sample - 0.5))| ≤ 1 / 4 ∧
      Nearest (worth target + worth ((HeaterProfile.standard id).noise * (sample - 0.5)))
        (target + (HeaterProfile.standard id).noise * (sample - 0.5)) := by
  have noise : (HeaterProfile.standard id).noise = 0.5 := by
    cases id <;> rfl
  obtain ⟨jitterFinite, jitterSmall⟩ := jitter_worth isSample
  rw [noise]
  constructor
  · exact jitterSmall
  · exact add_nearby finite jitterFinite (jitterSmall.trans (by norm_num))

section

variable {id : HeaterId} {target value after elapsed : Float} {samples : Nat → Float}

theorem warm_iff (finite : IsFinite value) : (value == (0.0 : Float)) = false ↔ worth value ≠ 0 := by
  obtain ⟨zero, zeroWorth⟩ := literal_worths.1
  rw [Bool.eq_false_iff, ne_eq, beq_iff finite zero, zeroWorth]

theorem drift_of_update
    (update : Board.Update 20.0 target elapsed samples (.standard id) value after)
    (unit : ∀ index, IsSample (samples index)) (isElapsed : Elapsed elapsed)
    (finite : IsFinite value) (targetFinite : IsFinite target) :
    Drift (.standard id) elapsed (worth target) (worth value) after := by
  obtain ⟨⟨heats, heatsSlowly⟩, cools, coolsSlowly⟩ := Rate.standard id
  cases update with
  | initialized drawn cold =>
      obtain ⟨finite, low, high⟩ := initialized_worth (unit drawn)
      obtain ⟨zero, zeroWorth⟩ := literal_worths.1
      have isZero := (beq_iff ‹IsFinite value› zero).1 cold
      exact .initialized (isZero.trans zeroWorth) finite low high
  | heating warm farBelow =>
      obtain ⟨-, way⟩ := heats.product isElapsed
      exact .heating ((warm_iff finite).1 warm) (far_below finite targetFinite farBelow)
        (add_nearby finite way.finite way.small)
  | cooling warm notBelow farAbove =>
      obtain ⟨-, way⟩ := cools.product isElapsed
      exact .cooling ((warm_iff finite).1 warm) (far_above finite targetFinite farAbove)
        (sub_nearby finite way.finite way.small)
  | settled drawn warm notBelow notAbove near =>
      have close := difference_small finite targetFinite notBelow notAbove
      obtain ⟨small, rounded⟩ := settled_nearest id targetFinite (unit drawn)
      exact .settled _ ((warm_iff finite).1 warm) (inner_of_magnitude finite targetFinite close near)
        small rounded
  | approachingFromBelow warm notBelow notAbove apart below =>
      obtain ⟨-, way⟩ := heatsSlowly.product isElapsed
      exact .approachingFromBelow ((warm_iff finite).1 warm)
        (fun _ boundFinite => near_below finite targetFinite notBelow boundFinite)
        ((lt_iff finite targetFinite).1 below) (add_nearby finite way.finite way.small)
  | approachingFromAbove warm notBelow notAbove apart above =>
      obtain ⟨-, way⟩ := coolsSlowly.product isElapsed
      exact .approachingFromAbove ((warm_iff finite).1 warm)
        (fun _ boundFinite => near_above finite targetFinite notAbove boundFinite)
        (not_lt.1 fun below => above ((lt_iff finite targetFinite).2 below))
        (sub_nearby finite way.finite way.small)

/-- A heater with an endless target can only be heated. -/
theorem finite_of_endless
    (update : Board.Update 20.0 target elapsed samples (.standard id) value after)
    (unit : ∀ index, IsSample (samples index)) (isElapsed : Elapsed elapsed)
    (finite : IsFinite value) (endless : Endless target) : IsFinite after := by
  obtain ⟨higher, lower⟩ := shifted_nearest finite
  cases update with
  | initialized drawn cold => exact (initialized_worth (unit drawn)).1
  | heating warm farBelow =>
      obtain ⟨-, way⟩ := (Rate.standard id).1.1.product isElapsed
      exact (add_nearby finite way.finite way.small).finite
  | cooling _ notBelow | settled _ _ notBelow | approachingFromBelow _ notBelow
  | approachingFromAbove _ notBelow => exact absurd (endless.gt higher.finite) notBelow

theorem Drift.finite {profile : HeaterProfile Float} {goal start : Rat}
    (drift : Drift profile elapsed goal start after) : IsFinite after := by
  cases drift with
  | initialized _ finite => exact finite
  | heating _ _ rounded | cooling _ _ rounded | settled _ _ _ _ rounded
  | approachingFromBelow _ _ _ rounded | approachingFromAbove _ _ _ rounded =>
      exact rounded.finite

end

end BenchPrinter
