import BenchPrinter.Proofs.Double.Nearest

/-!
Small steps on large doubles. A step of a fixed size moves a number as long as it is more than half
of the spacing of the doubles there, and beyond that it is rounded away.
-/

namespace BenchPrinter.Double

/-- A larger number is not rounded to a smaller double. -/
theorem Nearest.mono {lower higher : Rat} {low high : Float} (nearestLow : Nearest lower low)
    (nearestHigh : Nearest higher high) (ordered : lower < higher) : worth low ≤ worth high := by
  by_contra crossed
  rw [not_le] at crossed
  have first := nearestLow.middle_le nearestHigh.finite crossed
  have second := nearestHigh.le_middle nearestLow.finite crossed
  linarith

/-- Two doubles that lie on a common grid are equal or a whole step apart. -/
theorem add_step_le {lower higher : Float} {grid : Int} (ordered : worth lower < worth higher)
    (coarse : 2 ^ (52 + grid) ≤ |worth lower|) (coarseToo : 2 ^ (52 + grid) ≤ |worth higher|) :
    worth lower + 2 ^ grid ≤ worth higher := by
  obtain ⟨first, firstWorth⟩ := multiple_of_grid lower (.inr coarse)
  obtain ⟨second, secondWorth⟩ := multiple_of_grid higher (.inr coarseToo)
  have step : (0 : Rat) < 2 ^ grid := by positivity
  rw [firstWorth, secondWorth] at ordered ⊢
  have counts : first + 1 ≤ second := by
    have less := lt_of_mul_lt_mul_right ordered step.le
    exact_mod_cast less
  have cast : (first : Rat) + 1 ≤ second := by exact_mod_cast counts
  calc (first : Rat) * 2 ^ grid + 2 ^ grid = (first + 1) * 2 ^ grid := by ring
    _ ≤ second * 2 ^ grid := by gcongr

/-- The doubles of this magnitude lie on the grid. -/
def reach (grid : Int) : Rat := 2 ^ (53 + grid)

theorem reach_eq (grid : Int) : reach grid = 2 ^ 53 * 2 ^ grid := by
  rw [reach, zpow_add₀ two_ne_zero]
  rfl

theorem reach_pos (grid : Int) : 0 < reach grid := by
  unfold reach
  positivity

/-- From there on the spacing is that of the next grid. -/
theorem spacing_at_reach (grid : Int) : (2 : Rat) ^ (52 + (grid + 1)) = reach grid := by
  rw [reach]
  congr 1
  ring

theorem spacing_doubles (grid : Int) : (2 : Rat) ^ (grid + 1) = 2 * 2 ^ grid := by
  rw [zpow_add₀ two_ne_zero]
  ring

theorem exists_reach {grid : Int} (least : -1074 ≤ grid) (greatest : grid ≤ 970) :
    (∃ bound, IsFinite bound ∧ worth bound = reach grid) ∧
      ∃ bound, IsFinite bound ∧ worth bound = -reach grid := by
  obtain ⟨top, topFinite, topWorth⟩ :=
    exists_worth (show |(2 ^ 53 : Int)| ≤ 2 ^ 53 by decide) least greatest
  obtain ⟨bottom, bottomFinite, bottomWorth⟩ :=
    exists_worth (show |(-2 ^ 53 : Int)| ≤ 2 ^ 53 by decide) least greatest
  rw [reach_eq]
  refine ⟨⟨top, topFinite, topWorth.trans ?_⟩, bottom, bottomFinite, bottomWorth.trans ?_⟩
  · push_cast
    rfl
  · push_cast
    ring

section

variable {value after : Float} {way : Rat} {grid : Int}

/-- A step of less than half of the spacing leads nowhere. -/
theorem stalls (step : Rat) (weak : |step| < 2 ^ grid) (finite : IsFinite value)
    (large : reach grid ≤ |worth value|) (largeAfter : reach grid ≤ |worth after|)
    (rounded : Nearest (worth value + step) after) : worth after = worth value := by
  have near := rounded.nearest value finite
  rw [sub_add_cancel_left, abs_neg] at near
  have spacing := spacing_doubles grid
  have coarse := spacing_at_reach grid
  obtain ⟨low, high⟩ := abs_le.1 near
  obtain ⟨stepLow, stepHigh⟩ := abs_le.1 (le_refl |step|)
  rcases lt_trichotomy (worth after) (worth value) with less | same | more
  · have apart := add_step_le less (coarse.le.trans largeAfter) (coarse.le.trans large)
    linarith
  · exact same
  · have apart := add_step_le more (coarse.le.trans large) (coarse.le.trans largeAfter)
    linarith

/-- Above its reach a gear does not move up. -/
theorem stalls_high (low : 0 ≤ way) (weak : way < 2 ^ grid) (finite : IsFinite value)
    (high : reach grid ≤ worth value) (rounded : Nearest (worth value + way) after) :
    worth after = worth value := by
  have upwards := rounded.worth_le finite (by linarith)
  exact stalls way (by rwa [abs_of_nonneg low]) finite (high.trans (le_abs_self _))
    ((high.trans upwards).trans (le_abs_self _)) rounded

/-- Below its reach it does not move up either. -/
theorem stalls_deep (least : -1074 ≤ grid) (greatest : grid ≤ 970) (low : 0 ≤ way)
    (weak : way < 2 ^ grid) (finite : IsFinite value) (deep : worth value < -reach grid)
    (rounded : Nearest (worth value + way) after) : worth after = worth value := by
  obtain ⟨-, bound, boundFinite, boundWorth⟩ := exists_reach least greatest
  have positive := reach_pos grid
  have coarse := spacing_at_reach grid
  have apart : worth value + 2 ^ (grid + 1) ≤ worth bound := by
    apply add_step_le
    · rwa [boundWorth]
    · rw [coarse, abs_of_neg (by linarith)]
      linarith
    · rw [coarse, boundWorth, abs_neg, abs_of_pos positive]
  have spacing := spacing_doubles grid
  have below := rounded.le_worth boundFinite (by linarith)
  rw [boundWorth] at below
  refine stalls way (by rwa [abs_of_nonneg low]) finite ?_ ?_ rounded
  · rw [abs_of_neg (by linarith)]
    linarith
  · rw [abs_of_neg (by linarith)]
    linarith

/-- Above its reach a gear does not move down. -/
theorem stalls_falling (least : -1074 ≤ grid) (greatest : grid ≤ 970) (low : 0 ≤ way)
    (weak : way < 2 ^ grid) (finite : IsFinite value) (high : reach grid < worth value)
    (rounded : Nearest (worth value - way) after) : worth after = worth value := by
  obtain ⟨⟨bound, boundFinite, boundWorth⟩, -⟩ := exists_reach least greatest
  have positive := reach_pos grid
  have coarse := spacing_at_reach grid
  have apart : worth bound + 2 ^ (grid + 1) ≤ worth value := by
    apply add_step_le
    · rwa [boundWorth]
    · rw [coarse, boundWorth, abs_of_pos positive]
    · rw [coarse]
      exact high.le.trans (le_abs_self _)
  have spacing := spacing_doubles grid
  have above := rounded.worth_le boundFinite (by linarith)
  rw [boundWorth] at above
  refine stalls (-way) (by rwa [abs_neg, abs_of_nonneg low]) finite
    (high.le.trans (le_abs_self _)) (above.trans (le_abs_self _)) ?_
  rwa [← sub_eq_add_neg]

/-- A gear is strong enough to move every double in its reach, and by more than nothing. -/
structure Gear (way : Rat) (grid : Int) : Prop where
  strong : 2 ^ grid / 2 + 1 / 256 ≤ way
  weak : way < 2 ^ grid
  least : -1000 ≤ grid
  greatest : grid ≤ 0

namespace Gear

theorem step_le_one (gear : Gear way grid) : (2 : Rat) ^ grid ≤ 1 :=
  zpow_le_one_of_nonpos₀ one_le_two gear.greatest

/-- The grid is one of those of the doubles. -/
theorem in_format (gear : Gear way grid) : -1074 ≤ grid ∧ grid ≤ 970 := by
  have least := gear.least
  have greatest := gear.greatest
  omega

theorem positive (gear : Gear way grid) : 0 < way := by
  have spacing : (0 : Rat) < 2 ^ grid := by positivity
  linarith [gear.strong]

/-- Below its reach a gear has room for one more step. -/
theorem room (gear : Gear way grid) (low : -reach grid ≤ worth value)
    (below : worth value < reach grid) : |worth value + way| ≤ reach grid := by
  have positive := gear.positive
  have weak := gear.weak
  obtain ⟨⟨bound, boundFinite, boundWorth⟩, -⟩ := exists_reach gear.in_format.1 gear.in_format.2
  have half : (2 : Rat) ^ (52 + grid) = reach grid / 2 := by
    rw [reach_eq, zpow_add₀ two_ne_zero]
    norm_num
    ring
  apply abs_le.2 ⟨by linarith, _⟩
  rcases le_or_gt (reach grid / 2) (worth value) with upper | lower
  · have apart : worth value + 2 ^ grid ≤ worth bound := by
      apply add_step_le
      · rwa [boundWorth]
      · rw [half]
        exact upper.trans (le_abs_self _)
      · rw [half, boundWorth]
        exact (half_le_self (reach_pos grid).le).trans (le_abs_self _)
    linarith
  · have wide : (2 : Rat) ^ grid ≤ reach grid / 2 := by
      rw [reach_eq]
      have spacing : (0 : Rat) < 2 ^ grid := by positivity
      linarith
    linarith

theorem error (gear : Gear way grid) {number : Rat} (fits : |number| ≤ reach grid)
    (rounded : Nearest number after) : |worth after - number| ≤ 2 ^ grid / 2 := by
  rw [reach_eq] at fits
  exact rounded.error_le gear.in_format.1 gear.in_format.2 fits

theorem rises (gear : Gear way grid) (low : -reach grid ≤ worth value)
    (below : worth value < reach grid) (rounded : Nearest (worth value + way) after) :
    worth value + 1 / 256 ≤ worth after ∧ worth after ≤ worth value + 3 / 2 := by
  obtain ⟨lower, upper⟩ := abs_le.1 (gear.error (gear.room low below) rounded)
  have small := gear.step_le_one
  have strong := gear.strong
  have weak := gear.weak
  constructor <;> linarith

theorem falls (gear : Gear way grid) (positive : 0 < worth value) (below : worth value ≤ reach grid)
    (rounded : Nearest (worth value - way) after) :
    worth after + 1 / 256 ≤ worth value ∧ worth value - 3 / 2 ≤ worth after := by
  have small := gear.step_le_one
  have strong := gear.strong
  have weak := gear.weak
  have wide : (2 : Rat) ^ grid ≤ reach grid := by
    rw [reach_eq]
    have spacing : (0 : Rat) < 2 ^ grid := by positivity
    linarith
  have fits : |worth value - way| ≤ reach grid := by
    rw [abs_le]
    constructor <;> linarith [gear.positive]
  obtain ⟨lower, upper⟩ := abs_le.1 (gear.error fits rounded)
  constructor <;> linarith

end Gear

end

end BenchPrinter.Double
