import BenchPrinter.Proofs.Band

/-!
The edge of the band. The band of a wait has two ends that belong to it, but the regime that holds
the temperature has not. From an end a long silence leads across the band and out of it.
-/

namespace BenchPrinter

open Double

/-- The temperature is where the settled regime holds it, as the board computes it. -/
def Inner (target value : Float) : Prop := Quantity.magnitude (value - target) < 2.0

instance (target value : Float) : Decidable (Inner target value) :=
  inferInstanceAs (Decidable (_ < _))

section

variable {id : HeaterId} {target value after elapsed : Float} {samples : Nat → Float}
  (update : Board.Update 20.0 target elapsed samples (.standard id) value after)
  (finite : IsFinite value) (targetFinite : IsFinite target) (warm : worth value ≠ 0)
  (close : |worth value - worth target| ≤ 4)

include update finite targetFinite warm close

/-- The settled regime draws a temperature within half a degree of the target. -/
theorem half_degree_of_inner (unit : ∀ index, IsSample (samples index))
    (inner : Inner target value) : IsFinite after ∧ |worth after - worth target| ≤ 1 / 2 := by
  obtain ⟨low, high⟩ := abs_le.1 close
  cases update with
  | initialized drawn cold =>
      have isZero := (warm_iff finite).2 warm
      exact absurd cold (by simp [isZero])
  | heating _ far => linarith [far_below finite targetFinite far]
  | cooling _ _ far => linarith [far_above finite targetFinite far]
  | approachingFromBelow _ _ _ apart => exact absurd inner apart
  | approachingFromAbove _ _ _ apart => exact absurd inner apart
  | settled drawn =>
      obtain ⟨small, rounded⟩ := settled_nearest id targetFinite (unit drawn)
      have error := rounded.nearest target targetFinite
      rw [sub_add_cancel_left, abs_neg] at error
      have triangle := abs_sub_le (worth (target + (HeaterProfile.standard id).noise *
        (samples drawn - 0.5))) (worth target + worth ((HeaterProfile.standard id).noise *
        (samples drawn - 0.5))) (worth target)
      rw [add_sub_cancel_left] at triangle
      constructor
      · exact rounded.finite
      · exact triangle.trans (by linarith)

end

/-- The distances and the time that decide here. -/
theorem edge_worths : (IsFinite 1.0 ∧ worth 1.0 = 1) ∧ (IsFinite (-1.0) ∧ worth (-1.0) = -1) ∧
    (IsFinite 64.0 ∧ worth 64.0 = 64) ∧ (IsFinite 65.0 ∧ worth 65.0 = 65) ∧
      IsFinite 1000000.0 ∧ worth 1000000.0 = 1000000 := by
  decide +kernel

/-- Two different doubles lie this close together only up to a magnitude. -/
theorem small_of_edge {target value : Float} (finite : IsFinite value) (targetFinite : IsFinite target)
    (close : |worth value - worth target| ≤ 4) (edge : ¬ Inner target value) :
    worth value ≤ 2 ^ 55 + 4 := by
  have apart := outer_of_magnitude finite targetFinite (close.trans (by norm_num)) edge
  obtain ⟨low, high⟩ := abs_le.1 close
  have power : (2 : Rat) ^ (52 + 3 : Int) = 2 ^ 55 ∧ (2 : Rat) ^ (3 : Int) = 8 := by norm_num
  by_contra large
  have targetLarge : (2 : Rat) ^ (52 + 3 : Int) ≤ |worth target| := by
    rw [power.1]
    exact le_trans (by linarith) (le_abs_self _)
  have valueLarge : (2 : Rat) ^ (52 + 3 : Int) ≤ |worth value| := by
    rw [power.1]
    exact le_trans (by linarith) (le_abs_self _)
  rcases lt_trichotomy (worth value) (worth target) with below | same | above
  · have step := add_step_le below valueLarge targetLarge
    rw [power.2] at step
    linarith
  · rw [same, sub_self, abs_zero] at apart
    linarith
  · have step := add_step_le above targetLarge valueLarge
    rw [power.2] at step
    linarith

/-- The slow rates make a long way in a thousand seconds. -/
theorem long_way {rate elapsed : Float} (isRate : Rate rate) (isElapsed : Elapsed elapsed)
    (fast : 17 / 256 ≤ worth rate) (long : 1000 ≤ worth elapsed) :
    65 ≤ worth (rate * elapsed) := by
  obtain ⟨rounded, -⟩ := isRate.product isElapsed
  obtain ⟨-, -, -, bound, -⟩ := edge_worths
  have product : 17 / 256 * 1000 ≤ worth rate * worth elapsed := by
    apply mul_le_mul fast long (by norm_num) isRate.low.le
  rw [← bound.2]
  apply rounded.worth_le bound.1
  rw [bound.2]
  linarith

theorem HeaterId.slow_rates (id : HeaterId) :
    17 / 256 ≤ worth ((HeaterProfile.standard id).heatRate / 3.0) ∧
      17 / 256 ≤ worth ((HeaterProfile.standard id).coolRate / 3.0) := by
  cases id <;> decide +kernel

/-- Sixty-four degrees are not rounded away from a temperature of this magnitude. -/
theorem sixty_four {value : Float} (finite : IsFinite value) (positive : 0 < worth value)
    (small : worth value ≤ 2 ^ 55 + 4) :
    (Nearest (worth value + 64) (value + 64.0) ∧ worth value + 60 ≤ worth (value + 64.0)) ∧
      Nearest (worth value - 64) (value - 64.0) ∧ worth (value - 64.0) ≤ worth value - 60 := by
  obtain ⟨-, -, way, -⟩ := edge_worths
  have short : |worth 64.0| ≤ 2 ^ 100 := by
    rw [way.2]
    norm_num
  have higher := add_nearby finite way.1 short
  have lower := sub_nearby finite way.1 short
  rw [way.2] at higher lower
  have highRoom : |worth value + 64| ≤ 2 ^ 53 * 2 ^ (3 : Int) := by
    rw [abs_le]
    norm_num
    constructor <;> linarith
  have lowRoom : |worth value - 64| ≤ 2 ^ 53 * 2 ^ (3 : Int) := by
    rw [abs_le]
    norm_num
    constructor <;> linarith
  have half : (2 : Rat) ^ (3 : Int) / 2 = 4 := by norm_num
  obtain ⟨highError, -⟩ := abs_le.1 (higher.error_le (by decide) (by decide) highRoom)
  obtain ⟨-, lowError⟩ := abs_le.1 (lower.error_le (by decide) (by decide) lowRoom)
  rw [half] at highError lowError
  exact ⟨⟨higher, by linarith⟩, lower, by linarith⟩

section

variable {id : HeaterId} {target value after elapsed : Float} {samples : Nat → Float}
  (update : Board.Update 20.0 target elapsed samples (.standard id) value after)
  (finite : IsFinite value) (targetFinite : IsFinite target) (positive : 0 < worth value)
  (close : |worth value - worth target| ≤ 4)

include update finite targetFinite positive close

/-- A long silence leads from the edge of the band across it and out on the other side. -/
theorem far_of_edge (edge : ¬ Inner target value) (isElapsed : Elapsed elapsed)
    (long : 1000 ≤ worth elapsed) : 2 < |worth after - worth target| := by
  obtain ⟨low, high⟩ := abs_le.1 close
  obtain ⟨⟨-, heats⟩, -, cools⟩ := Rate.standard id
  obtain ⟨⟨higher, risen⟩, lower, fallen⟩ :=
    sixty_four finite positive (small_of_edge finite targetFinite close edge)
  cases update with
  | initialized drawn cold =>
      have isZero := (warm_iff finite).2 positive.ne'
      exact absurd cold (by simp [isZero])
  | heating _ far => linarith [far_below finite targetFinite far]
  | cooling _ _ far => linarith [far_above finite targetFinite far]
  | settled _ _ _ _ inner => exact absurd inner edge
  | approachingFromBelow =>
      obtain ⟨-, way⟩ := heats.product isElapsed
      have distance := long_way heats isElapsed id.slow_rates.1 long
      have above := higher.mono (add_nearby finite way.finite way.small) (by linarith)
      rw [lt_abs]
      left
      linarith
  | approachingFromAbove =>
      obtain ⟨-, way⟩ := cools.product isElapsed
      have distance := long_way cools isElapsed id.slow_rates.2 long
      have below := (sub_nearby finite way.finite way.small).mono lower (by linarith)
      rw [lt_abs]
      right
      linarith

end

theorem inner_of_half_degree {target value : Float} (finite : IsFinite value)
    (targetFinite : IsFinite target) (close : |worth value - worth target| ≤ 1 / 2) :
    Inner target value := by
  obtain ⟨⟨one, oneWorth⟩, ⟨minusOne, minusOneWorth⟩, -⟩ := edge_worths
  obtain ⟨low, high⟩ := abs_le.1 close
  have wide : |worth value - worth target| ≤ 10 := close.trans (by norm_num)
  have difference := sub_nearest finite targetFinite (abs_lt_limit (wide.trans (by norm_num)))
  have below := difference.worth_le minusOne (by rw [minusOneWorth]; linarith)
  have above := difference.le_worth one (by rw [oneWorth]; linarith)
  rw [minusOneWorth] at below
  rw [oneWorth] at above
  apply (magnitude_lt_two_iff finite targetFinite wide).2
  constructor <;> linarith

/-- A heater within the band of a target above two degrees is warm. -/
theorem positive_of_within {target value : Float} (finite : IsFinite value)
    (targetFinite : IsFinite target) (aimed : 2 < worth target) (within : Within target value) :
    0 < worth value := by
  obtain ⟨-, -, ⟨two, twoWorth⟩, -⟩ := literal_worths
  obtain ⟨lower, -⟩ := band_nearest targetFinite
  obtain ⟨tiny, tinyFinite, tinyWorth⟩ :=
    exists_worth (show |(1 : Int)| ≤ 2 ^ 53 by decide) (show -1074 ≤ (-51 : Int) by decide)
      (by decide)
  rw [Int.cast_one, one_mul] at tinyWorth
  have power : (2 : Rat) ^ (52 + -51 : Int) = 2 := by norm_num
  -- The next double above two is the tiny number away from it.
  have next : worth 2.0 + 2 ^ (-51 : Int) ≤ worth target := by
    apply add_step_le
    · rw [twoWorth]
      exact aimed
    · rw [power, twoWorth, abs_two]
    · rw [power]
      exact aimed.le.trans (le_abs_self _)
  rw [twoWorth] at next
  have low : worth tiny ≤ worth (target - 2.0) := by
    apply lower.worth_le tinyFinite
    rw [tinyWorth]
    linarith
  have tinyPositive : (0 : Rat) < 2 ^ (-51 : Int) := by positivity
  rw [← tinyWorth] at tinyPositive
  exact tinyPositive.trans_le (low.trans ((within_iff finite targetFinite).1 within).1)

/-- A thousand seconds are not rounded away. -/
theorem thousand_seconds {count : Nat} (fits : count < 2 ^ 64) (long : 1000000 ≤ count) :
    1000 ≤ worth (Quantity.ofNat count / 1000.0 : Float) := by
  obtain ⟨-, whole, counted, quotient⟩ := elapsed_of_count fits
  obtain ⟨-, -, -, -, -, -, thousand, thousandWorth⟩ := literal_worths
  obtain ⟨-, -, -, -, million⟩ := edge_worths
  have enough : 1000000 ≤ worth whole := by
    rw [← million.2]
    apply counted.worth_le million.1
    rw [million.2]
    exact_mod_cast long
  rw [← thousandWorth]
  apply quotient.worth_le thousand
  rw [thousandWorth]
  linarith

end BenchPrinter
