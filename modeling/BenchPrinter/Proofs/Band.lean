import BenchPrinter.Proofs.Gear
import BenchPrinter.Proofs.Sound

/-!
One tick of a standard heater against the band around its target. Inside the band the heater stays;
outside of it the heater comes nearer, or it is stranded and stays outside for good.
-/

namespace BenchPrinter

open Double

/-- The temperature is within two degrees of the target, as the board computes it. -/
def Within (target value : Float) : Prop :=
  target - 2.0 ≤ value ∧ value ≤ target + 2.0

theorem Board.isSettled_iff_within (board : Board Float) (id : HeaterId) :
    board.isSettled id = true ↔
      Within ((board.heater id).effectiveTarget board.room) (board.heater id).value := by
  simp only [Board.isSettled, Heater.isSettled, Bool.and_eq_true, decide_eq_true_eq]
  rfl

/-- The greatest target that the standard heater can be heated to. -/
def HeaterId.hottest : HeaterId → Float
  | hotend => 2251799813685250.0
  | bed => 1125899906842626.0

/-- The least temperature that the standard heater can be heated from. -/
def HeaterId.coldest : HeaterId → Float
  | hotend => -9007199254740992.0
  | bed => -2251799813685248.0

/-- Outside the band such a temperature is too far out, or its target is. -/
def Strands (id : HeaterId) (target value : Float) : Prop :=
  value < target ∧ (id.hottest < target ∨ value < id.coldest) ∨
    target < value ∧ 4503599627370496.0 < value ∧
      (4503599627370492.0 ≤ target ∨ 9007199254740992.0 < value)

instance (id : HeaterId) (target value : Float) : Decidable (Strands id target value) :=
  inferInstanceAs (Decidable (_ ∨ _))

/-- The full rate moves the heater on this grid, and a third of it on the next one. -/
def HeaterId.farGrid : HeaterId → Int
  | hotend => 0
  | bed => -2

def HeaterId.nearGrid : HeaterId → Int
  | hotend => -2
  | bed => -3

theorem HeaterId.gears (id : HeaterId) :
    (Gear (worth (HeaterProfile.standard id).heatRate) id.farGrid ∧
        Gear (worth ((HeaterProfile.standard id).heatRate / 3.0)) id.nearGrid) ∧
      Gear (worth (HeaterProfile.standard id).coolRate) 0 ∧
      Gear (worth ((HeaterProfile.standard id).coolRate / 3.0)) (-1) := by
  have gear (way step : Rat) (grid : Int) (spacing : (2 : Rat) ^ grid = step)
      (bounds : step / 2 + 1 / 256 ≤ way ∧ way < step) (within : -1000 ≤ grid ∧ grid ≤ 0) :
      Gear way grid :=
    ⟨spacing ▸ bounds.1, spacing ▸ bounds.2, within.1, within.2⟩
  cases id
  · exact ⟨⟨gear _ 1 0 (by norm_num) (by decide +kernel) (by decide),
      gear _ (1 / 4) (-2) (by norm_num) (by decide +kernel) (by decide)⟩,
      gear _ 1 0 (by norm_num) (by decide +kernel) (by decide),
      gear _ (1 / 2) (-1) (by norm_num) (by decide +kernel) (by decide)⟩
  · exact ⟨⟨gear _ (1 / 4) (-2) (by norm_num) (by decide +kernel) (by decide),
      gear _ (1 / 8) (-3) (by norm_num) (by decide +kernel) (by decide)⟩,
      gear _ 1 0 (by norm_num) (by decide +kernel) (by decide),
      gear _ (1 / 2) (-1) (by norm_num) (by decide +kernel) (by decide)⟩

/-- Both rates move the heater far above any room. -/
theorem HeaterId.reach_bounds (id : HeaterId) :
    45 / 2 ≤ reach id.nearGrid ∧ reach id.nearGrid ≤ reach id.farGrid := by
  cases id <;> norm_num [reach, nearGrid, farGrid]

theorem HeaterId.hottest_worth (id : HeaterId) :
    IsFinite id.hottest ∧ worth id.hottest = reach id.nearGrid + 2 := by
  have hotend : IsFinite hotend.hottest ∧ worth hotend.hottest = 2 ^ 51 + 2 := by decide +kernel
  have bed : IsFinite bed.hottest ∧ worth bed.hottest = 2 ^ 50 + 2 := by decide +kernel
  cases id
  · exact ⟨hotend.1, hotend.2.trans (by norm_num [reach, nearGrid])⟩
  · exact ⟨bed.1, bed.2.trans (by norm_num [reach, nearGrid])⟩

theorem HeaterId.coldest_worth (id : HeaterId) :
    IsFinite id.coldest ∧ worth id.coldest = -reach id.farGrid := by
  have hotend : IsFinite hotend.coldest ∧ worth hotend.coldest = -2 ^ 53 := by decide +kernel
  have bed : IsFinite bed.coldest ∧ worth bed.coldest = -2 ^ 51 := by decide +kernel
  cases id
  · exact ⟨hotend.1, hotend.2.trans (by norm_num [reach, farGrid])⟩
  · exact ⟨bed.1, bed.2.trans (by norm_num [reach, farGrid])⟩

theorem cooling_worths : (IsFinite 4503599627370496.0 ∧ worth 4503599627370496.0 = 2 ^ 52) ∧
    (IsFinite 4503599627370492.0 ∧ worth 4503599627370492.0 = 2 ^ 52 - 4) ∧
    IsFinite 9007199254740992.0 ∧ worth 9007199254740992.0 = 2 ^ 53 := by
  decide +kernel

/-- Above this magnitude the doubles are whole numbers. -/
theorem next_whole {lower higher : Float} (large : 2 ^ 52 ≤ worth lower)
    (above : worth lower < worth higher) : worth lower + 1 ≤ worth higher := by
  have power : (2 : Rat) ^ (52 + 0 : Int) = 2 ^ 52 := by norm_num
  have apart : worth lower + 2 ^ (0 : Int) ≤ worth higher := by
    apply add_step_le above
    · rw [power]
      exact large.trans (le_abs_self _)
    · rw [power]
      exact (large.trans above.le).trans (le_abs_self _)
  rwa [zpow_zero] at apart

section

variable {id : HeaterId} {target value : Float} (finite : IsFinite value)
  (targetFinite : IsFinite target)

include finite targetFinite

theorem strands_iff : Strands id target value ↔
    worth value < worth target ∧
        (reach id.nearGrid + 2 < worth target ∨ worth value < -reach id.farGrid) ∨
      worth target < worth value ∧ 2 ^ 52 < worth value ∧
        (2 ^ 52 - 4 ≤ worth target ∨ 2 ^ 53 < worth value) := by
  obtain ⟨hot, hotWorth⟩ := id.hottest_worth
  obtain ⟨cold, coldWorth⟩ := id.coldest_worth
  obtain ⟨⟨slow, slowWorth⟩, ⟨edge, edgeWorth⟩, full, fullWorth⟩ := cooling_worths
  rw [Strands, lt_iff finite targetFinite, lt_iff hot targetFinite, lt_iff finite cold,
    lt_iff targetFinite finite, lt_iff slow finite, le_iff edge targetFinite, lt_iff full finite,
    hotWorth, coldWorth, slowWorth, edgeWorth, fullWorth]

omit finite in
theorem band_nearest :
    Nearest (worth target - 2) (target - 2.0) ∧ Nearest (worth target + 2) (target + 2.0) := by
  obtain ⟨-, -, ⟨two, twoWorth⟩, -⟩ := literal_worths
  have small : |worth 2.0| ≤ 2 ^ 100 := by
    rw [twoWorth]
    norm_num
  have lower := sub_nearby targetFinite two small
  have upper := add_nearby targetFinite two small
  rw [twoWorth] at lower upper
  exact ⟨lower, upper⟩

theorem within_iff : Within target value ↔
    worth (target - 2.0) ≤ worth value ∧ worth value ≤ worth (target + 2.0) := by
  obtain ⟨lower, upper⟩ := band_nearest targetFinite
  rw [Within, le_iff lower.finite finite, le_iff finite upper.finite]

theorem within_of_near (low : worth target - 2 ≤ worth value)
    (high : worth value ≤ worth target + 2) : Within target value := by
  obtain ⟨lower, upper⟩ := band_nearest targetFinite
  rw [within_iff finite targetFinite]
  exact ⟨lower.le_worth finite low, upper.worth_le finite high⟩

/-- A temperature outside the band is below or above it, exactly and as the board computes it. -/
theorem outside (apart : ¬ Within target value) :
    (worth value < worth target - 2 ∧ worth value < worth (target - 2.0)) ∨
      worth target + 2 < worth value ∧ worth (target + 2.0) < worth value := by
  obtain ⟨lower, upper⟩ := band_nearest targetFinite
  rw [within_iff finite targetFinite, not_and_or, not_le, not_le] at apart
  rcases apart with below | above
  · refine .inl ⟨?_, below⟩
    by_contra near
    exact absurd (lower.le_worth finite (not_lt.1 near)) (not_le.2 below)
  · refine .inr ⟨?_, above⟩
    by_contra near
    exact absurd (upper.worth_le finite (not_lt.1 near)) (not_le.2 above)

/-- Rising towards the target does not strand a heater. -/
theorem free_of_rise {after : Float} (afterFinite : IsFinite after) (free : ¬ Strands id target value)
    (risen : worth value ≤ worth after) (short : worth after < worth target) :
    ¬ Strands id target after := by
  rw [strands_iff finite targetFinite, not_or, not_and, not_or, not_lt, not_lt] at free
  obtain ⟨reachable, shallow⟩ := free.1 (by linarith)
  rw [strands_iff afterFinite targetFinite]
  rintro (⟨-, hot | deep⟩ | ⟨above, -⟩) <;> linarith

theorem free_of_fall {after : Float} (afterFinite : IsFinite after) (free : ¬ Strands id target value)
    (fallen : worth after ≤ worth value) (short : worth target < worth after) :
    ¬ Strands id target after := by
  rw [strands_iff finite targetFinite] at free
  rw [strands_iff afterFinite targetFinite]
  rintro (⟨below, -⟩ | ⟨-, high, edge | higher⟩)
  · linarith
  · exact free (.inr ⟨by linarith, by linarith, .inl edge⟩)
  · exact free (.inr ⟨by linarith, by linarith, .inr (by linarith)⟩)

/-- The band is never wider than four degrees on each side. -/
theorem close_of_within (within : Within target value) : |worth value - worth target| ≤ 4 := by
  obtain ⟨lower, upper⟩ := band_nearest targetFinite
  obtain ⟨low, high⟩ := (within_iff finite targetFinite).1 within
  have below := lower.nearest target targetFinite
  have above := upper.nearest target targetFinite
  rw [sub_sub_cancel, abs_two] at below
  rw [sub_add_cancel_left, abs_neg, abs_two] at above
  obtain ⟨belowLow, -⟩ := abs_le.1 below
  obtain ⟨-, aboveHigh⟩ := abs_le.1 above
  rw [abs_le]
  constructor <;> linarith

end

/-- A heater whose target is near is not deep below zero. -/
theorem not_deep {target value : Float} (positive : 0 < worth target)
    (near : ∀ bound, IsFinite bound → worth value + 5 ≤ worth bound → worth target ≤ worth bound) :
    -5 < worth value := by
  obtain ⟨zero, zeroWorth⟩ := literal_worths.1
  by_contra deeper
  have none := near 0.0 zero (by rw [zeroWorth]; linarith)
  rw [zeroWorth] at none
  linarith

section

variable {rate elapsed : Float} (isRate : Rate rate) (isElapsed : Elapsed elapsed)

include isRate isElapsed

/-- In one second the rate itself is the way. -/
theorem Rate.way_of_second (second : worth elapsed = 1) : worth (rate * elapsed) = worth rate := by
  obtain ⟨rounded, -⟩ := isRate.product isElapsed
  rw [second, mul_one] at rounded
  exact rounded.exact isRate.finite rfl

theorem Rate.way_of_nothing (nothing : worth elapsed = 0) : worth (rate * elapsed) = 0 := by
  obtain ⟨rounded, -⟩ := isRate.product isElapsed
  rw [nothing, mul_zero] at rounded
  exact rounded.exact literal_worths.1.1 literal_worths.1.2

end

namespace Drift

variable {id : HeaterId} {elapsed target value after : Float} (isElapsed : Elapsed elapsed)
  (finite : IsFinite value) (targetFinite : IsFinite target)
  (drift : Drift (.standard id) elapsed (worth target) (worth value) after)

include isElapsed finite targetFinite drift

/-- In at most one second a heater does not leave the band. -/
theorem remains (short : worth elapsed ≤ 1) (warm : worth value ≠ 0)
    (within : Within target value) : Within target after := by
  obtain ⟨lower, upper⟩ := band_nearest targetFinite
  obtain ⟨low, high⟩ := (within_iff finite targetFinite).1 within
  obtain ⟨closeLow, closeHigh⟩ := abs_le.1 (close_of_within finite targetFinite within)
  obtain ⟨⟨-, heats⟩, -, cools⟩ := Rate.standard id
  rw [within_iff drift.finite targetFinite]
  cases drift with
  | initialized cold => exact absurd cold warm
  | heating _ far => linarith
  | cooling _ far => linarith
  | settled offset _ _ small rounded =>
      obtain ⟨smallLow, smallHigh⟩ := abs_le.1 small
      exact ⟨lower.mono rounded (by linarith), rounded.mono upper (by linarith)⟩
  | approachingFromBelow _ _ below rounded =>
      obtain ⟨-, way⟩ := heats.product isElapsed
      have upwards := rounded.worth_le finite (by linarith [way.low])
      exact ⟨low.trans upwards, rounded.mono upper (by linarith [way.high])⟩
  | approachingFromAbove _ _ above rounded =>
      obtain ⟨-, way⟩ := cools.product isElapsed
      have downwards := rounded.le_worth finite (by linarith [way.low])
      exact ⟨lower.mono rounded (by linarith [way.high]), downwards.trans high⟩

/-- In no time a heater outside the band keeps its temperature. -/
theorem rests (nothing : worth elapsed = 0) (warm : worth value ≠ 0)
    (apart : ¬ Within target value) : worth after = worth value := by
  obtain ⟨⟨heats, heatsSlowly⟩, cools, coolsSlowly⟩ := Rate.standard id
  cases drift with
  | initialized cold => exact absurd cold warm
  | settled offset _ near =>
      obtain ⟨low, high⟩ := abs_lt.1 near
      exact absurd (within_of_near finite targetFinite (by linarith) (by linarith)) apart
  | heating _ _ rounded =>
      rw [heats.way_of_nothing isElapsed nothing, add_zero] at rounded
      exact rounded.exact finite rfl
  | cooling _ _ rounded =>
      rw [cools.way_of_nothing isElapsed nothing, sub_zero] at rounded
      exact rounded.exact finite rfl
  | approachingFromBelow _ _ _ rounded =>
      rw [heatsSlowly.way_of_nothing isElapsed nothing, add_zero] at rounded
      exact rounded.exact finite rfl
  | approachingFromAbove _ _ _ rounded =>
      rw [coolsSlowly.way_of_nothing isElapsed nothing, sub_zero] at rounded
      exact rounded.exact finite rfl

/-- From below, a heater that is not stranded rises, and it does not pass the target. -/
theorem rises (second : worth elapsed = 1) (positive : 0 < worth target)
    (warm : worth value ≠ 0) (below : worth value < worth target - 2)
    (free : ¬ Strands id target value) :
    worth value + 1 / 256 ≤ worth after ∧ worth after ≤ worth value + 3 / 2 := by
  obtain ⟨⟨heats, heatsSlowly⟩, -⟩ := Rate.standard id
  obtain ⟨⟨far, near⟩, -⟩ := id.gears
  obtain ⟨wide, order⟩ := id.reach_bounds
  rw [strands_iff finite targetFinite, not_or, not_and, not_or, not_lt, not_lt] at free
  obtain ⟨reachable, deep⟩ := free.1 (by linarith)
  cases drift with
  | initialized cold => exact absurd cold warm
  | cooling _ above => linarith
  | settled offset _ inner => linarith [(abs_lt.1 inner).1]
  | approachingFromAbove _ _ above => linarith
  | heating _ farBelow rounded =>
      rw [heats.way_of_second isElapsed second] at rounded
      exact far.rises deep (by linarith) rounded
  | approachingFromBelow _ close _ rounded =>
      rw [heatsSlowly.way_of_second isElapsed second] at rounded
      have shallow := not_deep positive close
      exact near.rises (by linarith) (by linarith) rounded

/-- From above it falls, and it does not pass the target either. -/
theorem falls (second : worth elapsed = 1) (positive : 0 < worth target)
    (above : worth target + 2 < worth value) (free : ¬ Strands id target value) :
    worth after + 1 / 256 ≤ worth value ∧ worth value - 3 / 2 ≤ worth after := by
  obtain ⟨-, cools, coolsSlowly⟩ := Rate.standard id
  obtain ⟨-, far, near⟩ := id.gears
  obtain ⟨⟨-, slowWorth⟩, ⟨edge, edgeWorth⟩, -⟩ := cooling_worths
  have reaches : reach 0 = 2 ^ 53 ∧ reach (-1) = 2 ^ 52 := by norm_num [reach]
  rw [strands_iff finite targetFinite, not_or] at free
  have high : worth value ≤ 2 ^ 52 ∨ worth target < 2 ^ 52 - 4 ∧ worth value ≤ 2 ^ 53 := by
    by_contra deep
    rw [not_or, not_le, not_and_or, not_lt, not_le] at deep
    exact free.2 ⟨by linarith, deep⟩
  cases drift with
  | initialized cold => linarith
  | heating _ farBelow => linarith
  | settled offset _ inner => linarith [(abs_lt.1 inner).2]
  | approachingFromBelow _ _ below => linarith
  | cooling _ farAbove rounded =>
      rw [cools.way_of_second isElapsed second] at rounded
      apply far.falls (by linarith) _ rounded
      rw [reaches.1]
      rcases high with low | ⟨-, low⟩ <;> linarith
  | approachingFromAbove _ close _ rounded =>
      rw [coolsSlowly.way_of_second isElapsed second] at rounded
      apply near.falls (by linarith) _ rounded
      rw [reaches.2]
      rcases high with low | ⟨reachable, -⟩
      · exact low
      by_contra higher
      have whole : worth 4503599627370496.0 + 1 ≤ worth value :=
        next_whole slowWorth.ge (by rw [slowWorth]; exact not_le.1 higher)
      have reached := close _ edge (by rw [edgeWorth]; linarith)
      rw [edgeWorth] at reached
      linarith

end Drift

section

variable {id : HeaterId} {target value after : Float} (finite : IsFinite value)
  (targetFinite : IsFinite target)

include targetFinite

/-- A target out of reach leaves a whole step between the reach and the band. -/
theorem reach_lt_band (hot : reach id.nearGrid + 2 < worth target) :
    reach id.nearGrid < worth (target - 2.0) := by
  obtain ⟨lower, -⟩ := band_nearest targetFinite
  obtain ⟨-, hottestWorth⟩ := id.hottest_worth
  have positive := reach_pos id.nearGrid
  have grids : -1074 ≤ id.nearGrid + 1 ∧ id.nearGrid + 1 ≤ 970 := by cases id <;> decide
  have spacing : (0 : Rat) < 2 ^ (id.nearGrid + 1) := by positivity
  have coarse := spacing_at_reach id.nearGrid
  have apart : worth id.hottest + 2 ^ (id.nearGrid + 1) ≤ worth target := by
    apply add_step_le
    · rwa [hottestWorth]
    · rw [coarse, hottestWorth, abs_of_pos (by linarith)]
      linarith
    · rw [coarse, abs_of_pos (by linarith)]
      linarith
  rw [hottestWorth] at apart
  obtain ⟨next, nextFinite, nextWorth⟩ :=
    exists_worth (show |(2 ^ 52 + 1 : Int)| ≤ 2 ^ 53 by decide) grids.1 grids.2
  have nextSum : worth next = reach id.nearGrid + 2 ^ (id.nearGrid + 1) := by
    rw [nextWorth, ← coarse, zpow_add₀ two_ne_zero 52]
    push_cast
    ring
  have above := lower.worth_le nextFinite (by linarith)
  linarith

include finite

/-- A heater far below its target that is heated by less than a degree stays below the band. -/
theorem stays_below_band {step : Rat} (low : 0 ≤ step) (slow : step < 1)
    (below : worth value < worth (target - 2.0)) (far : worth value + 5 < worth target)
    (rounded : Nearest (worth value + step) after) : worth after < worth (target - 2.0) := by
  obtain ⟨lower, -⟩ := band_nearest targetFinite
  have reaches : reach 0 = 2 ^ 53 ∧ reach 1 = 2 ^ 54 := by norm_num [reach]
  have weak : step < 2 ^ (0 : Int) := by rwa [zpow_zero]
  rcases le_or_gt (reach 0) (worth value) with high | notHigh
  · rwa [stalls_high low weak finite high rounded]
  rcases lt_or_ge (worth value) (-reach 0) with deep | notDeep
  · rwa [stalls_deep (by decide) (by decide) low weak finite deep rounded]
  rw [reaches.1] at notHigh notDeep
  have room : |worth value + step| ≤ 2 ^ 53 * 2 ^ (1 : Int) := by
    rw [abs_le]
    norm_num
    constructor <;> linarith
  obtain ⟨-, risen⟩ := abs_le.1 (rounded.error_le (by decide) (by decide) room)
  rw [zpow_one] at risen
  rcases le_or_gt (worth target - 2) (2 ^ 54) with small | large
  · have fits : |worth target - 2| ≤ 2 ^ 53 * 2 ^ (1 : Int) := by
      rw [abs_le]
      norm_num
      constructor <;> linarith
    obtain ⟨dropped, -⟩ := abs_le.1 (lower.error_le (by decide) (by decide) fits)
    rw [zpow_one] at dropped
    linarith
  · obtain ⟨⟨top, topFinite, topWorth⟩, -⟩ := exists_reach (show -1074 ≤ 1 by decide) (by decide)
    rw [reaches.2] at topWorth
    have above := lower.worth_le topFinite (by rw [topWorth]; exact large.le)
    rw [topWorth] at above
    linarith

theorem stays_stranded_of_same (afterFinite : IsFinite after) (same : worth after = worth value)
    (apart : ¬ Within target value) (strands : Strands id target value) :
    ¬ Within target after ∧ Strands id target after := by
  rw [within_iff finite targetFinite] at apart
  rw [strands_iff finite targetFinite] at strands
  rw [within_iff afterFinite targetFinite, strands_iff afterFinite targetFinite, same]
  exact ⟨apart, strands⟩

end

namespace Drift

variable {id : HeaterId} {elapsed target value after : Float} (isElapsed : Elapsed elapsed)
  (finite : IsFinite value) (targetFinite : IsFinite target)
  (drift : Drift (.standard id) elapsed (worth target) (worth value) after)
  (second : worth elapsed = 1) (positive : 0 < worth target)

include isElapsed finite targetFinite drift second positive

/-- A heater below a target that is out of reach stays below the band. -/
theorem stays_below (below : worth value < worth target - 2)
    (belowBand : worth value < worth (target - 2.0)) (hot : reach id.nearGrid + 2 < worth target) :
    worth after < worth (target - 2.0) := by
  obtain ⟨⟨heats, heatsSlowly⟩, -⟩ := Rate.standard id
  obtain ⟨⟨-, near⟩, -⟩ := id.gears
  have band := reach_lt_band targetFinite hot
  obtain ⟨wide, -⟩ := id.reach_bounds
  cases drift with
  | initialized _ _ _ high => linarith
  | cooling _ above => linarith
  | settled offset _ inner => linarith [(abs_lt.1 inner).1]
  | approachingFromAbove _ _ above => linarith
  | heating _ far rounded =>
      rw [heats.way_of_second isElapsed second] at rounded
      exact stays_below_band finite targetFinite heats.low.le heats.high belowBand far rounded
  | approachingFromBelow _ close _ rounded =>
      rw [heatsSlowly.way_of_second isElapsed second] at rounded
      rcases le_or_gt (reach id.nearGrid) (worth value) with high | low
      · rwa [stalls_high near.positive.le near.weak finite high rounded]
      · have shallow := not_deep positive close
        obtain ⟨⟨bound, boundFinite, boundWorth⟩, -⟩ :=
          exists_reach near.in_format.1 near.in_format.2
        have room := (abs_le.1 (near.room (by linarith) low)).2
        have reached := rounded.le_worth boundFinite (by rw [boundWorth]; exact room)
        rw [boundWorth] at reached
        linarith

omit targetFinite in
/-- A heater deep below zero stays where it is. -/
theorem stays_deep (deep : worth value < -reach id.farGrid) : worth after = worth value := by
  obtain ⟨⟨heats, -⟩, -⟩ := Rate.standard id
  obtain ⟨⟨far, -⟩, -⟩ := id.gears
  obtain ⟨wide, order⟩ := id.reach_bounds
  cases drift with
  | initialized cold => linarith
  | cooling _ above => linarith
  | settled offset _ inner => linarith [(abs_lt.1 inner).1]
  | approachingFromAbove _ _ above => linarith
  | heating _ _ rounded =>
      rw [heats.way_of_second isElapsed second] at rounded
      exact stalls_deep far.in_format.1 far.in_format.2 far.positive.le far.weak finite deep
        rounded
  | approachingFromBelow _ close => linarith [not_deep positive close]

omit positive in
/-- A heater that is high above the reach of its slow rate does not come down to the band. -/
theorem stays_above (above : worth target + 2 < worth value) (high : 2 ^ 52 < worth value)
    (free : 2 ^ 52 - 4 ≤ worth target ∨ 2 ^ 53 < worth value) :
    worth after = worth value ∨
      worth (target + 2.0) < worth after ∧ worth target < worth after ∧ 2 ^ 52 < worth after ∧
        2 ^ 52 - 4 ≤ worth target := by
  obtain ⟨-, cools, coolsSlowly⟩ := Rate.standard id
  obtain ⟨-, far, near⟩ := id.gears
  have reaches : reach 0 = 2 ^ 53 ∧ reach (-1) = 2 ^ 52 := by norm_num [reach]
  cases drift with
  | initialized cold => linarith
  | heating _ below => linarith
  | settled offset _ inner => linarith [(abs_lt.1 inner).2]
  | approachingFromBelow _ _ below => linarith
  | approachingFromAbove _ _ _ rounded =>
      rw [coolsSlowly.way_of_second isElapsed second] at rounded
      exact .inl (stalls_falling (by decide) (by decide) near.positive.le near.weak finite
        (by rw [reaches.2]; exact high) rounded)
  | cooling _ farAbove rounded =>
      rw [cools.way_of_second isElapsed second] at rounded
      rcases lt_or_ge (2 ^ 53) (worth value) with higher | within
      · exact .inl (stalls_falling (by decide) (by decide) far.positive.le far.weak finite
          (by rw [reaches.1]; exact higher) rounded)
      · have edge := free.resolve_right (not_lt.2 within)
        obtain ⟨-, upper⟩ := band_nearest targetFinite
        obtain ⟨-, fallen⟩ := far.falls (by linarith) (by rw [reaches.1]; exact within) rounded
        have fits : |worth target + 2| ≤ reach 0 := by
          rw [reaches.1, abs_of_pos (by linarith)]
          linarith
        obtain ⟨-, bandHigh⟩ := abs_le.1 (far.error fits upper)
        rw [zpow_zero] at bandHigh
        have whole : IsFinite 4503599627370497.0 ∧ worth 4503599627370497.0 = 2 ^ 52 + 1 := by
          decide +kernel
        have room : worth 4503599627370497.0 + 1 ≤ worth value :=
          next_whole (by rw [whole.2]; norm_num) (by rw [whole.2]; linarith)
        have weak := far.weak
        rw [zpow_zero] at weak
        have left := rounded.worth_le whole.1 (by linarith)
        rw [whole.2] at left
        exact .inr ⟨by linarith, by linarith, by linarith, edge⟩

/-- One second does not free a stranded heater. -/
theorem stays_stranded (apart : ¬ Within target value) (strands : Strands id target value) :
    ¬ Within target after ∧ Strands id target after := by
  have outsideBand := outside finite targetFinite apart
  have afterFinite := drift.finite
  rcases (strands_iff finite targetFinite).1 strands with ⟨below, hot | deep⟩ | ⟨above, high, free⟩
  · obtain ⟨exactBelow, belowBand⟩ := outsideBand.resolve_right (by rintro ⟨above, -⟩; linarith)
    have kept := stays_below isElapsed finite targetFinite drift second positive exactBelow belowBand hot
    obtain ⟨lower, -⟩ := band_nearest targetFinite
    have bandBelow := lower.le_worth targetFinite (by linarith)
    rw [within_iff afterFinite targetFinite, strands_iff afterFinite targetFinite]
    exact ⟨fun within => absurd within.1 (not_le.2 kept), .inl ⟨by linarith, .inl hot⟩⟩
  · have same := stays_deep isElapsed finite drift second positive deep
    exact stays_stranded_of_same finite targetFinite afterFinite same apart strands
  · obtain ⟨exactAbove, -⟩ := outsideBand.resolve_left (by rintro ⟨under, -⟩; linarith)
    have stays := stays_above isElapsed finite targetFinite drift second exactAbove high free
    rcases stays with same | ⟨overBand, overTarget, overEdge, edge⟩
    · exact stays_stranded_of_same finite targetFinite afterFinite same apart strands
    · rw [within_iff afterFinite targetFinite, strands_iff afterFinite targetFinite]
      exact ⟨fun within => absurd within.2 (not_le.2 overBand), .inr ⟨overTarget, overEdge, .inl edge⟩⟩

end Drift

end BenchPrinter
